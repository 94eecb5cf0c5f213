import Mathlib.Logic.Function.Iterate
import SqlTree.Proofs.Lexer

/-!
# Reading an indented text

Indenting a text puts a tab before each of its lines, and it does not look where a line begins:
inside of a quoted name, a literal or a comment the tab becomes part of the token. This file says
what an indented text is read as.

* `Text.shifted` -- the lines of a text behind its first one moved by a tab, with a single line
  feed for each ending;
* `Token.shifted`, `Mode.shifted` -- the same inside of one token;
* `Reading.read_shifted` -- a shifted text is read as the shifted tokens, character by character;
* `Reads.indent` -- so an indented text is read as the tokens of the text, each shifted;
* `Token.iterate_shifted_eq_iff` -- only tokens with a line feed inside are changed, and by no
  number of tabs are they changed back.
-/

namespace SqlTree

/-! ## 1. Shifted lines -/

namespace Text

/-- A tab behind every line feed, and no carriage return before it. -/
def shifted : List Char → List Char
  | [] => []
  | c :: rest =>
    if c = '\n' then '\n' :: '\t' :: shifted rest
    else if c = '\r' ∧ rest.head? = some '\n' then shifted rest
    else c :: shifted rest

theorem shifted_feed (rest : List Char) :
    shifted ('\n' :: rest) = '\n' :: '\t' :: shifted rest := if_pos rfl

theorem shifted_return_feed (rest : List Char) :
    shifted ('\r' :: '\n' :: rest) = '\n' :: '\t' :: shifted rest := by
  have hreturn : shifted ('\r' :: '\n' :: rest) = shifted ('\n' :: rest) :=
    (if_neg (by decide)).trans (if_pos ⟨rfl, rfl⟩)
  rw [hreturn, shifted_feed]

theorem shifted_cons {c : Char} {rest : List Char} (hc : c ≠ '\n')
    (hreturn : c = '\r' → rest.head? ≠ some '\n') : shifted (c :: rest) = c :: shifted rest :=
  (if_neg hc).trans (if_neg fun h => hreturn h.1 h.2)

/-- **Parts of a text are shifted one by one**, unless one of them ends within a line ending. -/
theorem shifted_append {s t : List Char}
    (h : s.getLast? = some '\r' → t.head? ≠ some '\n') :
    shifted (s ++ t) = shifted s ++ shifted t := by
  induction s with
  | nil => rfl
  | cons c rest ih =>
    have hrest : rest.getLast? = some '\r' → t.head? ≠ some '\n' := by
      intro hlast
      refine h ?_
      rw [List.getLast?_cons, hlast]
      rfl
    have ih := ih hrest
    rw [List.cons_append]
    by_cases hc : c = '\n'
    · rw [hc, shifted_feed, shifted_feed, ih]
      rfl
    · by_cases hreturn : c = '\r' ∧ rest.head? = some '\n'
      · obtain ⟨rfl, hhead⟩ := hreturn
        obtain ⟨more, rfl⟩ := List.head?_eq_some_iff.mp hhead
        rw [List.cons_append, shifted_feed, shifted_feed] at ih
        rw [List.cons_append, shifted_return_feed, shifted_return_feed, ih]
      · have hwhole : c = '\r' → (rest ++ t).head? ≠ some '\n' := by
          intro hr hhead
          cases rest with
          | nil => exact h (by rw [hr]; rfl) hhead
          | cons d more => exact hreturn ⟨hr, hhead⟩
        rw [shifted_cons hc hwhole, shifted_cons hc fun hr hhead => hreturn ⟨hr, hhead⟩, ih]
        rfl

theorem shifted_concat (s : List Char) {c : Char} (hc : c ≠ '\n') :
    shifted (s ++ [c]) = shifted s ++ [c] := by
  have happend : shifted (s ++ [c]) = shifted s ++ shifted [c] :=
    shifted_append fun _ h => hc (Option.some.inj h)
  rw [happend, shifted_cons hc fun _ h => by cases h]
  rfl

/-- **Every shift adds a tab for each line feed**, and keeps the line feeds. -/
theorem count_shifted (s : List Char) :
    (shifted s).count '\t' = s.count '\t' + s.count '\n'
      ∧ (shifted s).count '\n' = s.count '\n' := by
  induction s with
  | nil => exact ⟨rfl, rfl⟩
  | cons c rest ih =>
    unfold shifted
    by_cases hc : c = '\n'
    · subst hc
      rw [if_pos rfl]
      simp only [List.count_cons, ih.1, ih.2]
      exact ⟨by simp; omega, by simp⟩
    · rw [if_neg hc]
      by_cases hreturn : c = '\r' ∧ rest.head? = some '\n'
      · rw [if_pos hreturn, hreturn.1]
        simp only [List.count_cons, ih.1, ih.2]
        exact ⟨by simp, by simp⟩
      · rw [if_neg hreturn]
        simp only [List.count_cons, ih.1, ih.2]
        have hfeed : (c == '\n') = false := beq_eq_false_iff_ne.mpr hc
        rw [hfeed]
        exact ⟨by simp; omega, trivial⟩

/-- A text without line feeds is left as it is. -/
theorem shifted_of_not_mem {s : List Char} (h : '\n' ∉ s) : shifted s = s := by
  induction s with
  | nil => rfl
  | cons c rest ih =>
    obtain ⟨hc, hrest⟩ := not_or.mp fun hmem => h (List.mem_cons.mpr hmem)
    rw [shifted_cons (Ne.symm hc) fun _ hhead => hrest (List.mem_of_mem_head? hhead), ih hrest]

/-- **No number of shifts gives the text back**, if it has a line feed. -/
theorem iterate_shifted_eq_iff (s : List Char) (k : Nat) :
    shifted^[k] s = s ↔ k = 0 ∨ '\n' ∉ s := by
  have hcount : ∀ k, (shifted^[k] s).count '\t' = s.count '\t' + k * s.count '\n'
      ∧ (shifted^[k] s).count '\n' = s.count '\n' := by
    intro k
    induction k with
    | zero => exact ⟨by rw [Nat.zero_mul]; rfl, rfl⟩
    | succ k ih =>
      rw [Function.iterate_succ_apply', (count_shifted _).1, (count_shifted _).2, ih.1, ih.2]
      exact ⟨by rw [Nat.succ_mul, Nat.add_assoc], rfl⟩
  constructor
  · intro h
    have htabs := (hcount k).1
    rw [h] at htabs
    have hzero : k * s.count '\n' = 0 := by omega
    rcases Nat.mul_eq_zero.mp hzero with hk | hfeeds
    · exact .inl hk
    · exact .inr (List.count_eq_zero.mp hfeeds)
  · rintro (rfl | h)
    · rfl
    · exact Function.iterate_fixed (shifted_of_not_mem h) k

theorem unlines_cons_cons (c : Char) (line : List Char) (more : List (List Char)) :
    unlines ((c :: line) :: more) = c :: unlines (line :: more) := by
  cases more <;> rfl

/-- Induction over a text by its line endings. -/
theorem line_induction {p : List Char → Prop} (nil : p [])
    (feed : ∀ rest, p rest → p ('\n' :: rest))
    (return_feed : ∀ rest, p rest → p ('\r' :: '\n' :: rest))
    (other : ∀ c rest, c ≠ '\n' → (c = '\r' → rest.head? ≠ some '\n') → p rest → p (c :: rest))
    (s : List Char) : p s := by
  have hother : ∀ c rest, (c = '\n' → False) → (∀ more, c = '\r' → rest = '\n' :: more → False) →
      p rest → p (c :: rest) := by
    refine fun c rest hfeed hreturn => other c rest hfeed fun hc hhead => ?_
    obtain ⟨more, rfl⟩ := List.head?_eq_some_iff.mp hhead
    exact hreturn more hc rfl
  induction s using lines.induct with
  | case1 => exact nil
  | case2 rest ih => exact feed rest ih
  | case3 rest ih => exact return_feed rest ih
  | case4 c rest hfeed hreturn _ ih => exact hother c rest hfeed hreturn ih
  | case5 c rest hfeed hreturn line more _ ih => exact hother c rest hfeed hreturn ih

theorem lines_cons {c : Char} {rest : List Char} (hc : c ≠ '\n')
    (hreturn : c = '\r' → rest.head? ≠ some '\n') :
    lines (c :: rest) = match lines rest with
      | [] => [[c]]
      | line :: more => (c :: line) :: more :=
  lines.eq_4 c rest hc fun _ hr hrest => hreturn hr (by rw [hrest]; rfl)

/-- **Indented lines are shifted lines behind one more tab.** What the last line ending leaves
    behind is not written. -/
theorem tab_shifted (s : List Char) : ∃ rest, (∀ c ∈ rest, c = '\n' ∨ c = '\t')
    ∧ '\t' :: shifted s = unlines ((lines s).map ('\t' :: ·)) ++ rest := by
  -- A line ending behind an empty line, before lines that are indented already.
  have hline : ∀ (text : List Char) (more : List (List Char)),
      (∃ rest, (∀ c ∈ rest, c = '\n' ∨ c = '\t') ∧ text = unlines more ++ rest) →
      ∃ rest, (∀ c ∈ rest, c = '\n' ∨ c = '\t')
        ∧ '\t' :: '\n' :: text = unlines (['\t'] :: more) ++ rest := by
    rintro text more ⟨rest, hrest, rfl⟩
    cases more with
    | nil => exact ⟨'\n' :: rest, List.forall_mem_cons.mpr ⟨.inl rfl, hrest⟩, rfl⟩
    | cons line more => exact ⟨rest, hrest, rfl⟩
  induction s using line_induction with
  | nil => exact ⟨['\t'], List.forall_mem_singleton.mpr (.inr rfl), rfl⟩
  | feed text ih =>
    rw [shifted_feed]
    exact hline _ _ ih
  | return_feed text ih =>
    rw [shifted_return_feed]
    exact hline _ _ ih
  | other c text hc hreturn ih =>
    obtain ⟨rest, hrest, heq⟩ := ih
    rw [shifted_cons hc hreturn, lines_cons hc hreturn]
    cases hlines : lines text with
    | nil =>
      rw [hlines, List.map_nil, unlines, List.nil_append] at heq
      exact ⟨shifted text, fun a ha => hrest a (heq ▸ List.mem_cons_of_mem _ ha), rfl⟩
    | cons line more =>
      rw [hlines, List.map_cons, unlines_cons_cons, List.cons_append, List.cons_inj_right] at heq
      rw [List.map_cons, unlines_cons_cons, unlines_cons_cons, heq]
      exact ⟨rest, hrest, rfl⟩

end Text
open Text Reading

/-! ## 2. Shifted tokens -/

/-- A token whose inner lines are moved by a tab. Only names, literals and comments have any. -/
def Token.shifted : Token → Token
  | .name s => .name (Text.shifted s)
  | .literal s => .literal (Text.shifted s)
  | .comment s => .comment (Text.shifted s)
  | t => t

/-- A name, a literal or a comment with a line feed inside. -/
def Token.spansLines : Token → Bool
  | .name s => s.contains '\n'
  | .literal s => s.contains '\n'
  | .comment s => s.contains '\n'
  | _ => false

/-- **Only tokens with a line feed inside are changed**, and no number of tabs changes them back. -/
theorem Token.iterate_shifted_eq_iff (t : Token) (k : Nat) :
    Token.shifted^[k] t = t ↔ k = 0 ∨ t.spansLines = false := by
  have hinner : ∀ {wrap : List Char → Token} (s : List Char),
      (∀ s, (wrap s).shifted = wrap (Text.shifted s)) →
      (wrap s).spansLines = s.contains '\n' → (∀ s s', wrap s = wrap s' → s = s') →
      (Token.shifted^[k] (wrap s) = wrap s ↔ k = 0 ∨ (wrap s).spansLines = false) := by
    intro wrap s hshifted hspans hinj
    have hiterate : Token.shifted^[k] (wrap s) = wrap (Text.shifted^[k] s) := by
      have hcommute : Function.Semiconj wrap Text.shifted Token.shifted :=
        fun s => (hshifted s).symm
      exact (hcommute.iterate_right k s).symm
    have hcontains : s.contains '\n' = false ↔ '\n' ∉ s := by
      rw [← Bool.not_eq_true, List.contains_iff_mem]
    rw [hiterate, hspans, hcontains, ← Text.iterate_shifted_eq_iff]
    exact ⟨fun h => hinj _ _ h, fun h => congrArg wrap h⟩
  cases t with
  | name s => exact hinner s (fun _ => rfl) rfl fun _ _ h => Token.name.inj h
  | literal s => exact hinner s (fun _ => rfl) rfl fun _ _ h => Token.literal.inj h
  | comment s => exact hinner s (fun _ => rfl) rfl fun _ _ h => Token.comment.inj h
  | _ => exact ⟨fun _ => .inr rfl, fun _ => Function.iterate_fixed rfl k⟩

namespace Reading

/-- A mode in which what the reader has seen of its token is shifted. -/
def Mode.shifted : Mode → Mode
  | .name s => .name (Text.shifted s)
  | .nameEnd s => .nameEnd (Text.shifted s)
  | .literal s => .literal (Text.shifted s)
  | .escape s => .escape (Text.shifted s)
  | .literalEnd s => .literalEnd (Text.shifted s)
  | .comment s => .comment (Text.shifted s)
  | .star s => .star (Text.shifted s)
  | m => m

theorem Mode.settled_shifted (m : Mode) : m.shifted.settled = m.settled := by cases m <;> rfl

theorem Mode.finish_shifted (m : Mode) : m.shifted.finish = m.finish.map Token.shifted := by
  cases m <;> rfl

/-- What the reader has seen ends with a carriage return, and goes on. -/
def Mode.returns : Mode → Prop
  | .name s => s.getLast? = some '\r'
  | .literal s => s.getLast? = some '\r'
  | .escape s => s.getLast? = some '\r'
  | .comment s => s.getLast? = some '\r'
  | _ => False

/-! ## 3. Steps -/

theorem start_shifted (r : Reading) (c : Char) :
    (r.start c).1.shifted = (r.start c).1 ∧ (r.start c).2.map Token.shifted = (r.start c).2 := by
  unfold start
  split_ifs <;> exact ⟨rfl, rfl⟩

theorem next_shifted (r : Reading) (m : Mode) (c : Char) :
    r.next m.shifted c = ((r.next m c).1.shifted, (r.next m c).2.map Token.shifted) := by
  unfold next
  rw [(start_shifted r c).1, List.map_append, (start_shifted r c).2, m.finish_shifted]

/-- **Any character but a line feed is read alike.** -/
theorem step_shifted (r : Reading) (m : Mode) {c : Char} (hc : c ≠ '\n') :
    r.step m.shifted c = ((r.step m c).1.shifted, (r.step m c).2.map Token.shifted) := by
  have hnext := r.next_shifted m c
  have hconcat : ∀ s, Text.shifted s ++ [c] = Text.shifted (s ++ [c]) :=
    fun s => (shifted_concat s hc).symm
  have htwo : ∀ s a, a ≠ '\n' → Text.shifted s ++ [a, c] = Text.shifted (s ++ [a, c]) := by
    intro s a ha
    rw [List.append_cons, ← shifted_concat s ha, hconcat, ← List.append_cons]
  cases m with
  | gap => exact Prod.ext (start_shifted r c).1.symm (start_shifted r c).2.symm
  | word s =>
    unfold step
    dsimp only [Mode.shifted]
    split_ifs
    · rfl
    · exact hnext
  | slot s =>
    unfold step
    dsimp only [Mode.shifted]
    split_ifs
    · rfl
    · exact hnext
  | slash =>
    unfold step
    dsimp only [Mode.shifted]
    split_ifs
    · rfl
    · exact hnext
  | minus =>
    unfold step
    dsimp only [Mode.shifted]
    split_ifs
    · rfl
    · exact hnext
  | name s =>
    unfold step
    dsimp only [Mode.shifted]
    split_ifs
    · rfl
    · rw [hconcat]
      rfl
  | nameEnd s =>
    unfold step
    dsimp only [Mode.shifted]
    split_ifs
    · rw [hconcat]
      rfl
    · exact hnext
  | literal s =>
    unfold step
    dsimp only [Mode.shifted]
    rw [hconcat]
    split_ifs <;> rfl
  | escape s =>
    unfold step
    dsimp only [Mode.shifted]
    rw [hconcat]
    rfl
  | literalEnd s =>
    unfold step
    dsimp only [Mode.shifted]
    split_ifs
    · rw [htwo s c hc]
      rfl
    · exact hnext
  | comment s =>
    unfold step
    dsimp only [Mode.shifted]
    rw [hconcat]
    split_ifs <;> rfl
  | star s =>
    unfold step
    dsimp only [Mode.shifted]
    rw [hconcat, htwo s '*' (by decide)]
    split_ifs <;> rfl

/-! ## 4. Line endings -/

/-- The characters of line endings, and the tab. -/
def edges : List Char := ['\n', '\t', '\r']

theorem mem_edges {c : Char} (hc : c ∈ edges) : c = '\n' ∨ c = '\t' ∨ c = '\r' := by
  simpa [edges] using hc

/-- A token that can end does so at a line ending or a tab. -/
theorem step_of_edge (r : Reading) {m : Mode} (hm : m.settled = true) {c : Char}
    (hc : c ∈ edges) : r.step m c = (.gap, m.finish) := by
  have hplain : ∀ d : Dialect, c ≠ d.quoteMark ∧ c ≠ Text.singleQuote ∧ c ≠ '*' ∧ c ≠ '-'
      ∧ ¬ NameRule.isWordChar c = true ∧ ¬ c.isDigit = true := by
    intro d
    rcases mem_edges hc with rfl | rfl | rfl <;> cases d <;> decide
  obtain ⟨hquote, hsingle, hstar, hminus, hword, hdigit⟩ := hplain r.dialect
  have hstart : r.start c = (.gap, []) := by
    have hblank : isBlank c = true ∧ c ≠ '$' ∧ c ≠ '/' := by
      rcases mem_edges hc with rfl | rfl | rfl <;> decide
    obtain ⟨hblank, hdollar, hslash⟩ := hblank
    unfold start
    rw [if_neg hquote, if_neg fun h => hsingle h.1, if_neg hdollar, if_neg hslash, if_neg hminus,
      if_neg hword, if_pos hblank]
  have hnext : r.next m c = (.gap, m.finish) := by
    unfold next
    rw [hstart, List.append_nil]
  cases m with
  | gap => exact hstart
  | word s => exact (if_neg hword).trans hnext
  | slot s => exact (if_neg hdigit).trans hnext
  | slash => exact (if_neg hstar).trans hnext
  | minus => exact (if_neg hminus).trans hnext
  | nameEnd s => exact (if_neg hquote).trans hnext
  | literalEnd s => exact (if_neg hsingle).trans hnext
  | _ => cases hm

/-- The mode behind line endings and tabs: they belong to a token that cannot end there. -/
def Mode.behind (cs : List Char) : Mode → Mode
  | .name s => .name (s ++ cs)
  | .literal s => .literal (s ++ cs)
  | .escape s => .literal (s ++ cs)
  | .comment s => .comment (s ++ cs)
  | .star s => .comment (s ++ '*' :: cs)
  | _ => .gap

/-- The token that ends at a line ending or a tab, if it can end. -/
def Mode.ended (m : Mode) : List Token := if m.settled then m.finish else []

theorem step_of_edge_open (r : Reading) {m : Mode} (hm : m.settled = false) {c : Char}
    (hc : c ∈ edges) : r.step m c = (m.behind [c], []) := by
  have hplain : ∀ d : Dialect, c ≠ d.quoteMark ∧ c ≠ Text.singleQuote ∧ c ≠ '\\' ∧ c ≠ '*'
      ∧ c ≠ '/' := by
    intro d
    rcases mem_edges hc with rfl | rfl | rfl <;> cases d <;> decide
  obtain ⟨hquote, hsingle, hescape, hstar, hslash⟩ := hplain r.dialect
  cases m with
  | name s => exact if_neg hquote
  | literal s => exact (if_neg hsingle).trans (if_neg fun h => hescape h.1)
  | escape s => rfl
  | comment s => exact if_neg hstar
  | star s => exact (if_neg hslash).trans (if_neg hstar)
  | _ => cases hm

theorem Mode.settled_behind (m : Mode) (cs : List Char) : (m.behind cs).settled = m.settled := by
  cases m <;> rfl

theorem Mode.behind_behind (m : Mode) (cs ds : List Char) :
    (m.behind cs).behind ds = m.behind (cs ++ ds) := by
  cases m <;> simp only [behind, List.append_assoc, List.cons_append]

theorem Mode.ended_behind (m : Mode) (cs : List Char) : (m.behind cs).ended = [] := by
  cases m <;> rfl

theorem Mode.behind_of_settled {m : Mode} (hm : m.settled = true) (cs : List Char) :
    m.behind cs = .gap := by
  cases m <;> first | rfl | cases hm

/-- **Line endings and tabs end a token or belong to it.** -/
theorem read_edges (r : Reading) (m : Mode) {cs : List Char} (hne : cs ≠ [])
    (hcs : ∀ c ∈ cs, c ∈ edges) : r.read m cs = (m.behind cs, m.ended) := by
  have hstep : ∀ m : Mode, ∀ c ∈ edges, r.step m c = (m.behind [c], m.ended) := by
    intro m c hc
    unfold Mode.ended
    cases hm : m.settled with
    | true => rw [r.step_of_edge hm hc, m.behind_of_settled hm, if_pos rfl]
    | false => rw [r.step_of_edge_open hm hc, if_neg Bool.false_ne_true]
  induction cs generalizing m with
  | nil => exact absurd rfl hne
  | cons c rest ih =>
    rw [read_cons, hstep m c (hcs c List.mem_cons_self)]
    cases rest with
    | nil => rw [read_nil, List.append_nil]
    | cons d more =>
      have hmore := ih (m.behind [c]) (List.cons_ne_nil _ _) fun a ha =>
        hcs a (List.mem_cons_of_mem _ ha)
      rw [hmore, m.behind_behind, m.ended_behind, List.append_nil, List.singleton_append]

/-! ## 5. Shifted texts -/

theorem Mode.ended_shifted (m : Mode) : m.shifted.ended = m.ended.map Token.shifted := by
  unfold ended
  rw [m.settled_shifted, m.finish_shifted]
  cases m.settled <;> rfl

/-- A line feed and a tab stand where a line feed stood, unless a carriage return before it goes
    as well. -/
theorem Mode.behind_feed {m : Mode} (hm : ¬ m.returns) :
    m.shifted.behind ['\n', '\t'] = (m.behind ['\n']).shifted := by
  have hfeed : ∀ s : List Char, s.getLast? ≠ some '\r' →
      Text.shifted s ++ ['\n', '\t'] = Text.shifted (s ++ ['\n']) := by
    intro s hs
    rw [Text.shifted_append fun h => absurd h hs]
    rfl
  have hstar : ∀ s : List Char,
      Text.shifted s ++ ['*', '\n', '\t'] = Text.shifted (s ++ ['*', '\n']) := by
    intro s
    rw [Text.shifted_append fun _ => by decide]
    rfl
  cases m with
  | name s => exact congrArg Mode.name (hfeed s hm)
  | literal s => exact congrArg Mode.literal (hfeed s hm)
  | escape s => exact congrArg Mode.literal (hfeed s hm)
  | comment s => exact congrArg Mode.comment (hfeed s hm)
  | star s => exact congrArg Mode.comment (hstar s)
  | _ => rfl

/-- A line feed and a tab stand where a carriage return and a line feed stood. -/
theorem Mode.behind_return_feed (m : Mode) :
    m.shifted.behind ['\n', '\t'] = (m.behind ['\r', '\n']).shifted := by
  have hfeed : ∀ s : List Char,
      Text.shifted s ++ ['\n', '\t'] = Text.shifted (s ++ ['\r', '\n']) := by
    intro s
    rw [Text.shifted_append fun _ => by decide]
    rfl
  have hstar : ∀ s : List Char,
      Text.shifted s ++ ['*', '\n', '\t'] = Text.shifted (s ++ ['*', '\r', '\n']) := by
    intro s
    rw [Text.shifted_append fun _ => by decide]
    rfl
  cases m with
  | name s => exact congrArg Mode.name (hfeed s)
  | literal s => exact congrArg Mode.literal (hfeed s)
  | escape s => exact congrArg Mode.literal (hfeed s)
  | comment s => exact congrArg Mode.comment (hfeed s)
  | star s => exact congrArg Mode.comment (hstar s)
  | _ => rfl

theorem returns_start (r : Reading) (c : Char) : ¬ (r.start c).1.returns := by
  unfold start
  split_ifs <;> exact fun h => by cases h

/-- What was seen ends with a carriage return only behind one. -/
theorem returns_step (r : Reading) {m : Mode} {c : Char} (h : (r.step m c).1.returns) :
    c = '\r' := by
  have hlast : ∀ s : List Char, (s ++ [c]).getLast? = some '\r' → c = '\r' := by
    intro s hs
    rw [List.getLast?_concat] at hs
    exact Option.some.inj hs
  have htwo : ∀ (s : List Char) (a : Char), (s ++ [a, c]).getLast? = some '\r' → c = '\r' := by
    intro s a hs
    rw [List.append_cons] at hs
    exact hlast _ hs
  have hnext : ∀ m, ¬ (r.next m c).1.returns := fun _ => r.returns_start c
  cases m <;> unfold step at h <;> dsimp only at h <;> try split_ifs at h
  all_goals first
    | exact hlast _ h
    | exact htwo _ _ h
    | exact absurd h (hnext _)
    | exact absurd h (r.returns_start c)
    | cases h

/-- **A shifted text is read as the shifted tokens**, and leaves the reader in a shifted token. -/
theorem read_shifted (r : Reading) (s : List Char) :
    ∀ m : Mode, (m.returns → s.head? ≠ some '\n') →
      r.read m.shifted (Text.shifted s)
        = ((r.read m s).1.shifted, (r.read m s).2.map Token.shifted) := by
  have hedges : ∀ (m : Mode) (ending : List Char), ending ≠ [] → (∀ c ∈ ending, c ∈ edges) →
      m.shifted.behind ['\n', '\t'] = (m.behind ending).shifted → ∀ rest : List Char,
      (r.read (m.behind ending).shifted (Text.shifted rest)
        = ((r.read (m.behind ending) rest).1.shifted,
          (r.read (m.behind ending) rest).2.map Token.shifted)) →
      r.read m.shifted (['\n', '\t'] ++ Text.shifted rest)
        = ((r.read m (ending ++ rest)).1.shifted,
          (r.read m (ending ++ rest)).2.map Token.shifted) := by
    intro m ending hne hending hbehind rest hrest
    have hfeed : ∀ c ∈ ['\n', '\t'], c ∈ edges := by simp [edges]
    rw [read_append, read_append, r.read_edges m.shifted (List.cons_ne_nil _ _) hfeed,
      r.read_edges m hne hending, hbehind, hrest, m.ended_shifted, List.map_append]
  induction s using Text.line_induction with
  | nil => exact fun m _ => rfl
  | feed rest ih =>
    intro m hm
    have hreturns : ¬ m.returns := fun h => hm h rfl
    have hrest := ih (m.behind ['\n']) fun h => by
      cases m <;> simp [Mode.behind, Mode.returns] at h
    rw [Text.shifted_feed]
    exact hedges m ['\n'] (List.cons_ne_nil _ _) (by simp [edges]) (Mode.behind_feed hreturns) rest
      hrest
  | return_feed rest ih =>
    intro m _
    have hrest := ih (m.behind ['\r', '\n']) fun h => by
      cases m <;> simp [Mode.behind, Mode.returns] at h
    rw [Text.shifted_return_feed]
    exact hedges m ['\r', '\n'] (List.cons_ne_nil _ _) (by simp [edges]) m.behind_return_feed rest
      hrest
  | other c rest hc hreturn ih =>
    intro m _
    have hrest := ih (r.step m c).1 fun h => hreturn (r.returns_step h)
    rw [Text.shifted_cons hc hreturn, read_cons, read_cons, r.step_shifted m hc]
    dsimp only
    rw [hrest, List.map_append]

end Reading

/-- **An indented text is read as the tokens of the text, each shifted.** The line endings that are
    not written again stand behind its last token. -/
theorem Reads.indent {r : Reading} {s : String} {ts : List Token}
    (h : Reads r s.toList .free ts .held) :
    Reads r (Text.indent s).toList .free (ts.map Token.shifted) .held := by
  rintro m rfl
  obtain ⟨m₁, ts₁, hread, hsettled, htokens⟩ := h .gap rfl
  obtain ⟨rest, hrest, hsplit⟩ := Text.tab_shifted s.toList
  have hall : r.read .gap ('\t' :: Text.shifted s.toList)
      = (m₁.shifted, ts₁.map Token.shifted) := by
    have htab : r.step .gap '\t' = (.gap, []) := r.step_of_edge rfl (by decide)
    have hshifted := r.read_shifted s.toList .gap fun h => by cases h
    rw [hread] at hshifted
    rw [read_cons, htab]
    exact hshifted
  have hwritten : (Text.indent s).toList
      = Text.unlines ((Text.lines s.toList).map ('\t' :: ·)) := String.toList_ofList
  rw [hsplit, ← hwritten, read_append] at hall
  generalize r.read .gap (Text.indent s).toList = front at hall ⊢
  obtain ⟨m₂, ts₂⟩ := front
  obtain ⟨hmode, hended⟩ := Prod.mk.inj hall
  have hm₁ : m₁.shifted.settled = true := m₁.settled_shifted.trans hsettled
  have hts : ts.map Token.shifted = ts₁.map Token.shifted ++ m₁.shifted.finish := by
    rw [m₁.finish_shifted, ← List.map_append, htokens]
    rfl
  rw [← hmode] at hm₁
  rw [← hended, ← hmode] at hts
  rw [hts]
  cases rest with
  | nil => exact ⟨m₂, ts₂, rfl, hm₁, by rw [read_nil, List.append_nil]; rfl⟩
  | cons c more =>
    have hedge : ∀ a ∈ c :: more, a ∈ edges := by
      intro a ha
      rcases hrest a ha with rfl | rfl <;> decide
    rw [r.read_edges m₂ (List.cons_ne_nil _ _) hedge] at hm₁ ⊢
    have hm₂ : m₂.settled = true := (m₂.settled_behind _).symm.trans hm₁
    have hgap : Mode.gap.finish = [] := rfl
    refine ⟨m₂, ts₂, rfl, hm₂, ?_⟩
    dsimp only
    rw [Mode.behind_of_settled hm₂, Mode.ended, if_pos hm₂, hgap, List.append_nil, List.nil_append]

end SqlTree
