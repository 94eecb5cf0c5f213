import Mathlib.Data.List.Basic
import SqlTree.Dialect

/-!
# Reading SQL text

What a database sees of a statement is its tokens. This file reads them off a text, one character
at a time, as a dialect does: names between the quote of the dialect, where a doubled quote stays
inside, string literals between single quotes, block comments that end at the first star and
slash, and otherwise words and single characters.

* `Reading`, `Reading.step`, `Reading.lex` -- the reader: what it is in the middle of (`Mode`),
  what one more character does, and the tokens of a text;
* `Reads` -- how one part of a text is read, whatever stood before it: it begins and ends at an
  `Seam`, either at a gap or at a token that only a separator ends;
* `Reads.append` -- parts whose seams fit are read one after the other;
* `reads_quote`, `reads_comment`, `lex_of_tame` -- quoted names, comments, and texts without a
  character that opens anything.
-/

namespace SqlTree

/-! ## 1. The reader -/

/-- A token of SQL text. -/
inductive Token where
  /-- Letters, digits and underscores. -/
  | word (s : List Char)
  /-- A dollar sign with the digits that follow it. -/
  | slot (digits : List Char)
  /-- Any other character that is no blank. -/
  | mark (c : Char)
  /-- Two minus signs side by side. -/
  | dashes
  /-- A quoted name, without its quotes. -/
  | name (s : List Char)
  /-- A string literal, as it stands between its quotes. -/
  | literal (s : List Char)
  /-- A block comment, as it stands between its ends. -/
  | comment (s : List Char)
  /-- A name, literal or comment that the text does not close. -/
  | unclosed
  deriving DecidableEq

/-- The token is a word, in letters of either case. -/
def Token.isWord (keyword : String) : Token → Bool
  | .word w => w.map Char.toUpper == keyword.toList
  | _ => false

/-- How a text is read: for a dialect, and with single quotes around literals or without a meaning
    of their own. -/
structure Reading where
  dialect : Dialect
  literals : Bool := true

namespace Reading

/-- What the reader is in the middle of, with the characters it has seen of it. -/
inductive Mode where
  | gap
  | word (s : List Char)
  | slot (s : List Char)
  | slash
  | minus
  | name (s : List Char)
  /-- A quote in a name: its end, unless another quote follows. -/
  | nameEnd (s : List Char)
  | literal (s : List Char)
  /-- A backslash in a literal, in a dialect where it protects the next character. -/
  | escape (s : List Char)
  | literalEnd (s : List Char)
  | comment (s : List Char)
  /-- A star in a comment: its end, if a slash follows. -/
  | star (s : List Char)

/-- The token that ends if the text does. -/
def Mode.finish : Mode → List Token
  | .gap => []
  | .word s => [.word s]
  | .slot s => [.slot s]
  | .slash => [.mark '/']
  | .minus => [.mark '-']
  | .nameEnd s => [.name s]
  | .literalEnd s => [.literal s]
  | _ => [.unclosed]

def isBlank (c : Char) : Bool := c == ' ' || c == '\n' || c == '\t' || c == '\r'

/-- A character where no token has begun. -/
def start (r : Reading) (c : Char) : Mode × List Token :=
  if c = r.dialect.quoteMark then (.name [], [])
  else if c = Text.singleQuote ∧ r.literals then (.literal [], [])
  else if c = '$' then (.slot [], [])
  else if c = '/' then (.slash, [])
  else if c = '-' then (.minus, [])
  else if NameRule.isWordChar c then (.word [c], [])
  else if isBlank c then (.gap, [])
  else (.gap, [.mark c])

/-- A character that ends the token before it. -/
def next (r : Reading) (m : Mode) (c : Char) : Mode × List Token :=
  ((r.start c).1, m.finish ++ (r.start c).2)

/-- One more character: what the reader is in the middle of afterwards, and the tokens that have
    ended. -/
def step (r : Reading) (m : Mode) (c : Char) : Mode × List Token :=
  match m with
  | .gap => r.start c
  | .word s => if NameRule.isWordChar c then (.word (s ++ [c]), []) else r.next m c
  | .slot s => if c.isDigit then (.slot (s ++ [c]), []) else r.next m c
  | .slash => if c = '*' then (.comment [], []) else r.next m c
  | .minus => if c = '-' then (.gap, [.dashes]) else r.next m c
  | .name s => if c = r.dialect.quoteMark then (.nameEnd s, []) else (.name (s ++ [c]), [])
  | .nameEnd s => if c = r.dialect.quoteMark then (.name (s ++ [c]), []) else r.next m c
  | .literal s =>
    if c = Text.singleQuote then (.literalEnd s, [])
    else if c = '\\' ∧ r.dialect = .mysql then (.escape (s ++ [c]), [])
    else (.literal (s ++ [c]), [])
  | .escape s => (.literal (s ++ [c]), [])
  | .literalEnd s => if c = Text.singleQuote then (.literal (s ++ [c, c]), []) else r.next m c
  | .comment s => if c = '*' then (.star s, []) else (.comment (s ++ [c]), [])
  | .star s =>
    if c = '/' then (.gap, [.comment s])
    else if c = '*' then (.star (s ++ [c]), [])
    else (.comment (s ++ ['*', c]), [])

/-- A text from a mode on: the mode at its end, and the tokens that have ended. -/
def read (r : Reading) : Mode → List Char → Mode × List Token
  | m, [] => (m, [])
  | m, c :: rest =>
    let now := r.step m c
    let later := read r now.1 rest
    (later.1, now.2 ++ later.2)

/-- The tokens of a text. -/
def lex (r : Reading) (s : String) : List Token :=
  (r.read .gap s.toList).2 ++ (r.read .gap s.toList).1.finish

@[simp] theorem read_nil (r : Reading) (m : Mode) : r.read m [] = (m, []) := rfl

theorem read_cons (r : Reading) (m : Mode) (c : Char) (rest : List Char) :
    r.read m (c :: rest)
      = ((r.read (r.step m c).1 rest).1, (r.step m c).2 ++ (r.read (r.step m c).1 rest).2) := rfl

/-- **Two parts of a text are read one after the other.** -/
theorem read_append (r : Reading) (m : Mode) (s t : List Char) :
    r.read m (s ++ t)
      = ((r.read (r.read m s).1 t).1, (r.read m s).2 ++ (r.read (r.read m s).1 t).2) := by
  induction s generalizing m with
  | nil => rfl
  | cons c rest ih =>
    rw [List.cons_append, read_cons, read_cons, ih]
    simp only [List.append_assoc]

end Reading

open Reading

/-! ## 2. Edges -/

/-- Where one part of a text ends and the next one begins: at a gap, where any token may begin, or
    at a token that only a separator ends. -/
inductive Seam where
  | free
  | held

/-- The reader is in the middle of nothing, or of a token that can end here. -/
def Reading.Mode.settled : Mode → Bool
  | .gap => true
  | .word _ => true
  | .slot _ => true
  | .slash => true
  | .minus => true
  | .nameEnd _ => true
  | .literalEnd _ => true
  | _ => false

/-- The mode of a reader at a seam. -/
def Reading.Mode.At (m : Mode) : Seam → Prop
  | .free => m = .gap
  | .held => m.settled = true

theorem Reading.Mode.At.held {m : Mode} {e : Seam} (h : m.At e) : m.At .held := by
  cases e with
  | free =>
    have hm : m = .gap := h
    rw [hm]
    rfl
  | held => exact h

/-- A part of a text, from one seam to another one, is read as these tokens, whatever token ends
    where it begins. -/
def Reads (r : Reading) (s : List Char) (e : Seam) (ts : List Token) (e' : Seam) : Prop :=
  ∀ m : Mode, m.At e → ∃ m' ts', r.read m s = (m', ts') ∧ m'.At e'
    ∧ ts' ++ m'.finish = m.finish ++ ts

namespace Reads

variable {r : Reading} {s t : List Char} {e e' e'' : Seam} {ts us : List Token}

theorem nil : Reads r [] e [] e := fun m hm => ⟨m, [], rfl, hm, by simp⟩

/-- **Parts whose seams fit are read one after the other.** -/
theorem append (hs : Reads r s e ts e') (ht : Reads r t e' us e'') :
    Reads r (s ++ t) e (ts ++ us) e'' := by
  intro m hm
  obtain ⟨m₁, ts₁, hread₁, hm₁, htok₁⟩ := hs m hm
  obtain ⟨m₂, ts₂, hread₂, hm₂, htok₂⟩ := ht m₁ hm₁
  refine ⟨m₂, ts₁ ++ ts₂, ?_, hm₂, ?_⟩
  · rw [read_append, hread₁]
    simp only [hread₂]
  · rw [List.append_assoc, htok₂, ← List.append_assoc, htok₁, List.append_assoc]

/-- A gap is a seam like any other for what follows. -/
theorem held (hs : Reads r s e ts e') : Reads r s e ts .held := by
  intro m hm
  obtain ⟨m', ts', hread, hm', htok⟩ := hs m hm
  exact ⟨m', ts', hread, hm'.held, htok⟩

/-- **A whole text that begins at a gap has the tokens that it is read as.** -/
theorem lex_eq {s : String} (hs : Reads r s.toList .free ts e') : r.lex s = ts := by
  obtain ⟨m', ts', hread, _, htok⟩ := hs .gap rfl
  unfold lex
  rw [hread]
  exact htok

end Reads

/-- A text after which the reader can end its token reads as its own tokens. -/
theorem reads_lex {r : Reading} {s : String} (h : (r.read .gap s.toList).1.settled = true) :
    Reads r s.toList .free (r.lex s) .held := by
  intro m hm
  have hgap : m = .gap := hm
  subst hgap
  exact ⟨_, _, rfl, h, rfl⟩

/-! ## 3. Separators -/

/-- Characters that end every token and are blanks or tokens of their own. -/
def separators : List Char := [' ', '\n', '\t', ',', '.', '(', ')', '=']

/-- What a separator is read as. -/
def separatorTokens (c : Char) : List Token := if isBlank c then [] else [.mark c]

theorem ne_quoteMark_of_separator {c : Char} (hc : c ∈ separators) (d : Dialect) :
    c ≠ d.quoteMark := by
  have h : ∀ d : Dialect, d.quoteMark ∉ separators := by
    intro d
    cases d <;> decide
  rintro rfl
  exact h d hc

/-- A separator opens nothing and continues nothing. -/
theorem separator_apart {c : Char} (hc : c ∈ separators) :
    (c ≠ Text.singleQuote ∧ c ≠ '$' ∧ c ≠ '/' ∧ c ≠ '-' ∧ c ≠ '*')
      ∧ ¬ NameRule.isWordChar c = true ∧ ¬ c.isDigit = true := by
  simp only [separators, List.mem_cons, List.not_mem_nil, or_false] at hc
  rcases hc with rfl | rfl | rfl | rfl | rfl | rfl | rfl | rfl <;> decide

theorem start_of_separator {c : Char} (hc : c ∈ separators) (r : Reading) :
    r.start c = (.gap, separatorTokens c) := by
  obtain ⟨⟨hs, hd, hl, hm, -⟩, hw, -⟩ := separator_apart hc
  unfold start separatorTokens
  rw [if_neg (ne_quoteMark_of_separator hc r.dialect), if_neg (fun h => hs h.1), if_neg hd,
    if_neg hl, if_neg hm, if_neg hw]
  cases isBlank c <;> rfl

/-- **A separator ends whatever token can end.** -/
theorem step_of_separator {c : Char} (hc : c ∈ separators) (r : Reading) {m : Mode}
    (hm : m.settled = true) : r.step m c = (.gap, m.finish ++ separatorTokens c) := by
  have hnext : r.next m c = (.gap, m.finish ++ separatorTokens c) := by
    unfold next
    rw [start_of_separator hc]
  obtain ⟨⟨hquote, -, -, hminus, hstar⟩, hword, hdigit⟩ := separator_apart hc
  cases m with
  | gap => exact start_of_separator hc r
  | word s => exact (if_neg hword).trans hnext
  | slot s => exact (if_neg hdigit).trans hnext
  | slash => exact (if_neg hstar).trans hnext
  | minus => exact (if_neg hminus).trans hnext
  | nameEnd s => exact (if_neg (ne_quoteMark_of_separator hc r.dialect)).trans hnext
  | literalEnd s => exact (if_neg hquote).trans hnext
  | _ => cases hm

/-- A separator may follow anything, and anything may follow it. -/
theorem reads_separator {c : Char} (hc : c ∈ separators) (r : Reading) (e e' : Seam) :
    Reads r [c] e (separatorTokens c) e' := by
  intro m hm
  refine ⟨.gap, m.finish ++ separatorTokens c, ?_, ?_, List.append_nil _⟩
  · rw [read_cons, step_of_separator hc r hm.held, read_nil, List.append_nil]
  · cases e' <;> rfl

/-! ## 4. Texts of tame characters -/

/-- The characters that open a token of more than letters: quotes, the dollar sign, and slash and
    minus, which may be the first of two. -/
def openers : List Char := ['\x22', '\x60', Text.singleQuote, '$', '/', '-']

/-- A character that opens nothing. -/
def isTame (c : Char) : Bool := c ∉ openers

theorem isTame_of_forall {p : Char → Bool} (hp : openers.any p = false) {c : Char}
    (hc : p c = true) : isTame c = true :=
  decide_eq_true fun hopener => List.any_eq_false.mp hp c hopener hc

/-- The tokens that a tame text can have: its words, and its other characters. -/
def Token.tameIn (s : List Char) : Token → Prop
  | .word w => w ⊆ s
  | .mark c => c ∈ s ∧ NameRule.isWordChar c = false
  | _ => False

/-- The modes that a tame text can lead to. -/
def Reading.Mode.tameIn (s : List Char) : Mode → Prop
  | .gap => True
  | .word w => w ⊆ s
  | _ => False

theorem Reading.Mode.tameIn.settled {s : List Char} {m : Mode} (h : m.tameIn s) :
    m.settled = true := by
  cases m with
  | gap => rfl
  | word w => rfl
  | _ => cases h

theorem Reading.Mode.tameIn.finish {s : List Char} {m : Mode} (h : m.tameIn s) :
    ∀ t ∈ m.finish, t.tameIn s := by
  intro t ht
  cases m with
  | gap => cases ht
  | word w =>
    have hw : t = .word w := List.mem_singleton.mp ht
    rw [hw]
    exact h
  | _ => cases h

/-- A tame character begins a word, or is a token or a blank of its own. -/
theorem start_of_tame {c : Char} (hc : isTame c = true) (r : Reading) :
    r.start c = if NameRule.isWordChar c then (.word [c], [])
      else (.gap, separatorTokens c) := by
  have hne : ∀ o ∈ openers, c ≠ o := by
    rintro o ho rfl
    exact of_decide_eq_true hc ho
  have hdouble : c ≠ '\x22' := hne _ (by decide)
  have hback : c ≠ '\x60' := hne _ (by decide)
  have hs : c ≠ Text.singleQuote := hne _ (by decide)
  have hd : c ≠ '$' := hne _ (by decide)
  have hl : c ≠ '/' := hne _ (by decide)
  have hm : c ≠ '-' := hne _ (by decide)
  have hq : c ≠ r.dialect.quoteMark := by
    cases r.dialect with
    | mysql => exact hback
    | _ => exact hdouble
  unfold start separatorTokens
  rw [if_neg hq, if_neg (fun h => hs h.1), if_neg hd, if_neg hl, if_neg hm]
  cases isBlank c <;> rfl

/-- **A tame character keeps the reader in tame modes.** -/
theorem step_of_tame {c : Char} (hc : isTame c = true) (r : Reading) {s : List Char} {m : Mode}
    (hm : m.tameIn s) :
    (r.step m c).1.tameIn (s ++ [c]) ∧ ∀ t ∈ (r.step m c).2, t.tameIn (s ++ [c]) := by
  have hlast : [c] ⊆ s ++ [c] := List.subset_append_right s [c]
  have hstart : (r.start c).1.tameIn (s ++ [c])
      ∧ ∀ t ∈ (r.start c).2, t.tameIn (s ++ [c]) := by
    rw [start_of_tame hc]
    by_cases hw : NameRule.isWordChar c
    · rw [if_pos hw]
      exact ⟨hlast, fun t ht => by cases ht⟩
    · rw [if_neg hw]
      refine ⟨trivial, fun t ht => ?_⟩
      unfold separatorTokens at ht
      split at ht
      · cases ht
      · rw [List.mem_singleton.mp ht]
        exact ⟨hlast List.mem_cons_self, Bool.eq_false_iff.mpr hw⟩
  cases m with
  | gap => exact hstart
  | word w =>
    have hw : w ⊆ s ++ [c] := fun a ha => List.mem_append_left _ (hm ha)
    by_cases hc' : NameRule.isWordChar c
    · have hstep : r.step (.word w) c = (.word (w ++ [c]), []) := if_pos hc'
      rw [hstep]
      refine ⟨?_, fun t ht => by cases ht⟩
      exact List.append_subset.mpr ⟨hw, hlast⟩
    · have hstep : r.step (.word w) c = ((r.start c).1, [.word w] ++ (r.start c).2) := if_neg hc'
      rw [hstep]
      refine ⟨hstart.1, fun t ht => ?_⟩
      rcases List.mem_append.mp ht with ht | ht
      · rw [List.mem_singleton.mp ht]
        exact hw
      · exact hstart.2 t ht
  | _ => cases hm

theorem Token.tameIn.mono {s s' : List Char} (hs : s ⊆ s') {t : Token} (h : t.tameIn s) :
    t.tameIn s' := by
  cases t with
  | word w => exact fun c hc => hs (h hc)
  | mark c => exact ⟨hs h.1, h.2⟩
  | _ => cases h

theorem read_of_tame (r : Reading) {t : List Char} (ht : ∀ c ∈ t, isTame c = true) :
    ∀ {s : List Char} {m : Mode}, m.tameIn s →
      (r.read m t).1.tameIn (s ++ t) ∧ ∀ k ∈ (r.read m t).2, k.tameIn (s ++ t) := by
  induction t with
  | nil =>
    intro s m hm
    rw [List.append_nil]
    exact ⟨hm, fun k hk => by cases hk⟩
  | cons c rest ih =>
    intro s m hm
    obtain ⟨hmode, htoks⟩ := step_of_tame (ht c List.mem_cons_self) r hm
    obtain ⟨hmode', htoks'⟩ := ih (fun c hc => ht c (List.mem_cons_of_mem _ hc)) hmode
    rw [List.append_assoc, List.singleton_append] at hmode' htoks'
    rw [read_cons]
    refine ⟨hmode', fun k hk => ?_⟩
    rcases List.mem_append.mp hk with hk | hk
    · refine (htoks k hk).mono fun a ha => ?_
      rcases List.mem_append.mp ha with ha | ha
      · exact List.mem_append_left _ ha
      · rw [List.mem_singleton.mp ha]
        exact List.mem_append_right _ List.mem_cons_self
    · exact htoks' k hk

/-- **A tame text can end anywhere**, and its tokens are words and characters of its own. -/
theorem lex_of_tame (r : Reading) {s : String} (hs : ∀ c ∈ s.toList, isTame c = true) :
    (r.read .gap s.toList).1.settled = true ∧ ∀ t ∈ r.lex s, t.tameIn s.toList := by
  have hgap : Mode.tameIn [] .gap := trivial
  obtain ⟨hmode, htoks⟩ := read_of_tame r hs hgap
  refine ⟨hmode.settled, fun t ht => ?_⟩
  rcases List.mem_append.mp ht with ht | ht
  · exact htoks t ht
  · exact hmode.finish t ht

/-- Every reader reads a tame text alike. -/
theorem read_eq_of_tame (r r' : Reading) {t : List Char} (ht : ∀ c ∈ t, isTame c = true) :
    ∀ {s : List Char} {m : Mode}, m.tameIn s → r.read m t = r'.read m t := by
  induction t with
  | nil => exact fun _ => rfl
  | cons c rest ih =>
    intro s m hm
    have hc : isTame c = true := ht c List.mem_cons_self
    have hstart : r.start c = r'.start c := by rw [start_of_tame hc, start_of_tame hc]
    have hstep : r.step m c = r'.step m c := by
      cases m with
      | gap => exact hstart
      | word w =>
        show (if NameRule.isWordChar c then _ else r.next (.word w) c)
          = if NameRule.isWordChar c then _ else r'.next (.word w) c
        unfold next
        rw [hstart]
      | _ => cases hm
    have hrest := ih (fun a ha => ht a (List.mem_cons_of_mem _ ha)) (step_of_tame hc r hm).1
    rw [read_cons, read_cons, ← hstep, hrest]

theorem lex_eq_of_tame (r r' : Reading) {s : String} (hs : ∀ c ∈ s.toList, isTame c = true) :
    r.lex s = r'.lex s := by
  have hgap : Mode.tameIn [] .gap := trivial
  unfold lex
  rw [read_eq_of_tame r r' hs hgap]

/-! ## 5. Names and comments -/

/-- The inside of a quoted name is read as the name. -/
theorem read_doubled (r : Reading) (name : List Char) :
    ∀ s : List Char, r.read (.name s) (Text.doubled r.dialect.quoteMark name)
      = (.name (s ++ name), []) := by
  induction name with
  | nil =>
    intro s
    rw [List.append_nil]
    rfl
  | cons c rest ih =>
    intro s
    unfold Text.doubled
    by_cases hc : c = r.dialect.quoteMark
    · -- the first quote looks like the end of the name, the second one takes that back
      have hfirst : r.step (.name s) c = (.nameEnd s, []) := if_pos hc
      have hsecond : r.step (.nameEnd s) c = (.name (s ++ [c]), []) := if_pos hc
      rw [if_pos hc, ← hc, read_cons, hfirst, read_cons, hsecond, hc, ih, List.append_assoc]
      rfl
    · have hstep : r.step (.name s) c = (.name (s ++ [c]), []) := if_neg hc
      rw [if_neg hc, read_cons, hstep, ih, List.append_assoc]
      rfl

/-- **A quoted name is read as the name**, whatever characters it is made of. -/
theorem reads_quote (r : Reading) (name : String) :
    Reads r (r.dialect.quote name).toList .free [.name name.toList] .held := by
  intro m hm
  have hgap : m = .gap := hm
  subst hgap
  refine ⟨.nameEnd name.toList, [], ?_, rfl, rfl⟩
  have hopen : r.step .gap r.dialect.quoteMark = (.name [], []) := if_pos rfl
  have hclose : r.step (.name name.toList) r.dialect.quoteMark = (.nameEnd name.toList, []) :=
    if_pos rfl
  unfold Dialect.quote Text.quote
  rw [String.toList_ofList]
  unfold Text.quoted
  rw [read_cons, hopen, read_append, read_doubled, List.nil_append, read_cons, hclose]
  rfl

/-- A comment text with a blank behind it leaves the reader in the comment, also after a star that
    no slash follows. -/
theorem read_commentBody (r : Reading) (body : List Char) :
    (∀ s, r.read (.comment s) (Text.commentBody body ++ [' '])
        = (.comment (s ++ (Text.commentBody body ++ [' '])), []))
      ∧ (body.head? ≠ some '/' → ∀ s, r.read (.star s) (Text.commentBody body ++ [' '])
        = (.comment (s ++ '*' :: (Text.commentBody body ++ [' '])), [])) := by
  have hplain : ∀ (c : Char) (s : List Char), c ≠ '*' →
      r.step (.comment s) c = (.comment (s ++ [c]), []) := fun c s hc => if_neg hc
  have hstar : ∀ s : List Char, r.step (.comment s) '*' = (.star s, []) := fun s => rfl
  have hagain : ∀ s : List Char, r.step (.star s) '*' = (.star (s ++ ['*']), []) := fun s => rfl
  have hback : ∀ (c : Char) (s : List Char), c ≠ '/' → c ≠ '*' →
      r.step (.star s) c = (.comment (s ++ ['*', c]), []) :=
    fun c s hslash hstar => (if_neg hslash).trans (if_neg hstar)
  induction body using Text.commentBody.induct with
  | case1 rest ih =>
    have hbody : Text.commentBody ('*' :: '/' :: rest)
        = '*' :: ' ' :: '/' :: Text.commentBody rest := rfl
    rw [hbody]
    refine ⟨fun s => ?_, fun _ s => ?_⟩
    · rw [List.cons_append, List.cons_append, List.cons_append, read_cons, hstar, read_cons,
        hback ' ' _ (by decide) (by decide), read_cons, hplain '/' _ (by decide), ih.1]
      simp
    · rw [List.cons_append, List.cons_append, List.cons_append, read_cons, hagain, read_cons,
        hback ' ' _ (by decide) (by decide), read_cons, hplain '/' _ (by decide), ih.1]
      simp
  | case2 c rest hno ih =>
    have hbody : Text.commentBody (c :: rest) = c :: Text.commentBody rest :=
      Text.commentBody.eq_2 c rest hno
    have hrest : c = '*' → rest.head? ≠ some '/' := by
      intro hc hhead
      cases rest with
      | nil => cases hhead
      | cons d tail => exact hno tail hc (by rw [Option.some.inj hhead])
    rw [hbody]
    refine ⟨fun s => ?_, fun hhead s => ?_⟩
    · rw [List.cons_append, read_cons]
      by_cases hc : c = '*'
      · subst hc
        rw [hstar, (ih.2 (hrest rfl))]
        rfl
      · rw [hplain c s hc, ih.1]
        simp
    · have hslash : c ≠ '/' := fun hc => hhead (by rw [hc]; rfl)
      rw [List.cons_append, read_cons]
      by_cases hc : c = '*'
      · subst hc
        rw [hagain, (ih.2 (hrest rfl))]
        simp
      · rw [hback c s hslash hc, ih.1]
        simp
  | case3 =>
    refine ⟨fun s => ?_, fun _ s => ?_⟩
    · rw [Text.commentBody, List.nil_append, read_cons, hplain ' ' s (by decide)]
      rfl
    · rw [Text.commentBody, List.nil_append, read_cons, hback ' ' s (by decide) (by decide)]
      rfl

/-- The opening marks of comments. -/
def commentMarks : List String := ["/*", "/*+"]

/-- The inside of a comment with an opening mark, as it is written. -/
def commentInside (mark s : String) : List Char :=
  mark.toList.drop 2 ++ [' '] ++ (Text.commentBody s.toList ++ [' '])

theorem toList_comment {mark : String} (hmark : mark ∈ commentMarks) (s : String) :
    (mark ++ " " ++ Text.sanitizeComment s ++ " */").toList
      = '/' :: '*' :: (commentInside mark s ++ ['*', '/']) := by
  unfold Text.sanitizeComment commentInside
  rcases List.mem_pair.mp hmark with rfl | rfl <;> simp

theorem read_commentInside (r : Reading) {mark : String} (hmark : mark ∈ commentMarks)
    (s : String) :
    r.read (.comment []) (commentInside mark s) = (.comment (commentInside mark s), []) := by
  have hopen : r.read (.comment []) (mark.toList.drop 2 ++ [' '])
      = (.comment (mark.toList.drop 2 ++ [' ']), []) := by
    rcases List.mem_pair.mp hmark with rfl | rfl <;> rfl
  unfold commentInside
  rw [read_append, hopen, (read_commentBody r s.toList).1]
  rfl

theorem start_slash (r : Reading) : r.start '/' = (.slash, []) := by
  have hq : ('/' : Char) ≠ r.dialect.quoteMark := by cases r.dialect <;> decide
  have hl : ¬(('/' : Char) = Text.singleQuote ∧ r.literals = true) :=
    fun h => absurd h.1 (by decide)
  unfold start
  rw [if_neg hq, if_neg hl]
  rfl

theorem start_minus (r : Reading) : r.start '-' = (.minus, []) := by
  have hq : ('-' : Char) ≠ r.dialect.quoteMark := by cases r.dialect <;> decide
  have hl : ¬(('-' : Char) = Text.singleQuote ∧ r.literals = true) :=
    fun h => absurd h.1 (by decide)
  unfold start
  rw [if_neg hq, if_neg hl]
  rfl

/-- **A comment is read as one token**, whatever its text: it ends where it was written to end. -/
theorem reads_comment (r : Reading) {mark : String} (hmark : mark ∈ commentMarks) (s : String)
    (e' : Seam) :
    Reads r (mark ++ " " ++ Text.sanitizeComment s ++ " */").toList .free
      [.comment (commentInside mark s)] e' := by
  intro m hm
  have hgap : m = .gap := hm
  subst hgap
  refine ⟨.gap, [.comment (commentInside mark s)], ?_, ?_, rfl⟩
  · have hslash : r.step .gap '/' = (.slash, []) := start_slash r
    have hstar : r.step .slash '*' = (.comment [], []) := rfl
    have hend : ∀ t : List Char, r.read (.comment t) ['*', '/'] = (.gap, [.comment t]) :=
      fun t => rfl
    rw [toList_comment hmark, read_cons, hslash, read_cons, hstar, read_append,
      read_commentInside r hmark, hend]
    rfl
  · cases e' <;> rfl

end SqlTree
