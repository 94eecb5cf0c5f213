import SqlTree.Proofs.Remarks

/-!
# Comments inside comments

PostgreSQL counts comments: an opening mark inside a comment opens another one, and a comment ends
only where all of those inside it have ended. This file reads texts in that way, beside the reading
where the first end of a comment counts.

* `Text.commentStart` -- the two characters that open a comment; what is written for a comment or a
  hint has them inside if and only if the text had;
* `Nest`, `Reading.stepNested`, `Reading.lexNested` -- the reader that counts;
* `Token.Shallow`, `Overruns` -- comments without an opening mark inside, and what becomes of the
  others: they take in their own end;
* `Reading.lexNested_cases` -- both readers see the same tokens up to the first comment that is not
  shallow;
* `Session.render_nested` -- where the comments and hints of a rendering end for a reader that
  counts.
-/

namespace SqlTree

/-! ## 1. Where a comment begins -/

namespace Text

/-- The beginning of a comment. -/
def commentStart : List Char := ['/', '*']

variable {c : Char} {s t : List Char}

/-- A beginning of a comment stands at the beginning of a text, or behind its first character. -/
theorem commentStart_infix_cons :
    commentStart <:+: c :: s ↔ (c = '/' ∧ s.head? = some '*') ∨ commentStart <:+: s := by
  have hstar : ['*'] <+: s ↔ s.head? = some '*' := by
    cases s with
    | nil => simp
    | cons d rest => simp [eq_comm]
  unfold commentStart
  rw [List.infix_cons_iff, List.cons_prefix_cons, hstar, eq_comm (a := c)]

/-- It stands at the end of a text, or before its last character. -/
theorem commentStart_infix_concat :
    commentStart <:+: s ++ [c] ↔ (c = '*' ∧ s.getLast? = some '/') ∨ commentStart <:+: s := by
  have hsuffix : commentStart <:+ s ++ [c] ↔ c = '*' ∧ s.getLast? = some '/' := by
    rw [List.getLast?_eq_some_iff]
    constructor
    · rintro ⟨front, h⟩
      have hsplit : (front ++ ['/']) ++ ['*'] = s ++ [c] := by simpa [commentStart] using h
      obtain ⟨hfront, hlast⟩ := List.append_inj' hsplit rfl
      exact ⟨(List.cons.inj hlast).1.symm, front, hfront.symm⟩
    · rintro ⟨rfl, front, rfl⟩
      exact ⟨front, by simp [commentStart]⟩
  rw [List.infix_concat_iff, hsuffix]

theorem not_commentStart_nil : ¬ commentStart <:+: [] := by decide

/-- None stands across a blank. -/
theorem commentStart_infix_blank :
    commentStart <:+: s ++ ' ' :: t ↔ commentStart <:+: s ∨ commentStart <:+: t := by
  induction s with
  | nil =>
    rw [List.nil_append, commentStart_infix_cons, or_iff_right not_commentStart_nil]
    exact or_iff_right fun h => absurd h.1 (by decide)
  | cons c s ih =>
    have hhead : (s ++ ' ' :: t).head? = some '*' ↔ s.head? = some '*' := by
      cases s <;> simp
    rw [List.cons_append, commentStart_infix_cons, commentStart_infix_cons, ih, hhead, or_assoc]

/-- **What is written for a text has one inside if and only if the text had.** -/
theorem commentStart_commentBody (s : List Char) :
    commentStart <:+: commentBody s ↔ commentStart <:+: s := by
  induction s using commentBody.induct with
  | case1 rest ih =>
    have hbody : commentBody ('*' :: '/' :: rest) = '*' :: ' ' :: '/' :: commentBody rest := rfl
    rw [hbody]
    simp [commentStart_infix_cons, head?_commentBody, ih]
  | case2 c rest hno ih =>
    rw [commentBody.eq_2 c rest hno, commentStart_infix_cons, commentStart_infix_cons,
      head?_commentBody, ih]
  | case3 => exact Iff.rfl

/-- Neither the opening mark of a comment nor its end adds one. -/
theorem commentStart_commentInside {mark : String} (hmark : mark ∈ commentMarks) (s : String) :
    commentStart <:+: commentInside mark s ++ ['*'] ↔ commentStart <:+: s.toList := by
  have hbody : commentStart <:+: commentBody s.toList ++ ' ' :: ['*']
      ↔ commentStart <:+: s.toList := by
    rw [commentStart_infix_blank, commentStart_commentBody]
    exact or_iff_left (by decide)
  unfold commentInside
  rcases List.mem_pair.mp hmark with rfl | rfl
  · simpa [commentStart_infix_cons] using hbody
  · simpa [commentStart_infix_cons] using hbody

/-- Moving lines adds none, and takes none away. -/
theorem commentStart_shifted (s : List Char) :
    commentStart <:+: shifted s ↔ commentStart <:+: s := by
  have hstar : ∀ s : List Char, (shifted s).head? = some '*' ↔ s.head? = some '*' := by
    intro s
    cases s using line_induction with
    | nil => exact Iff.rfl
    | feed rest _ => simp [shifted_feed]
    | return_feed rest _ => simp [shifted_return_feed]
    | other c rest hc hreturn _ => rw [shifted_cons hc hreturn]; rfl
  induction s using line_induction with
  | nil => exact Iff.rfl
  | feed rest ih => simp [shifted_feed, commentStart_infix_cons, ih]
  | return_feed rest ih => simp [shifted_return_feed, commentStart_infix_cons, ih]
  | other c rest hc hreturn ih =>
    rw [shifted_cons hc hreturn, commentStart_infix_cons, commentStart_infix_cons]
    exact or_congr (and_congr_right fun _ => hstar rest) ih

/-- Among texts with blanks between them it stands in one of the texts. -/
theorem commentStart_intercalate (texts : List String) :
    commentStart <:+: (" ".intercalate texts).toList
      ↔ ∃ text ∈ texts, commentStart <:+: text.toList := by
  rw [String.toList_intercalate]
  induction texts with
  | nil => simp [commentStart]
  | cons text rest ih =>
    cases rest with
    | nil => simp
    | cons next rest =>
      have hsplit : " ".toList.intercalate ((text :: next :: rest).map String.toList)
          = text.toList ++ ' ' :: " ".toList.intercalate ((next :: rest).map String.toList) := by
        simp [List.intercalate]
      rw [hsplit, commentStart_infix_blank, ih]
      simp

end Text

/-! ## 2. A reader that counts -/

namespace Reading

/-- What a reader that counts comments is in the middle of. -/
structure Nest where
  mode : Mode
  /-- How many comments are open around the innermost one. -/
  depth : Nat
  /-- The last character may begin an opening mark inside a comment. -/
  slash : Bool

/-- The text of an open comment ends with a slash. -/
def Mode.slashed : Mode → Bool
  | .comment s => s.getLast? == some '/'
  | _ => false

/-- No comment is open around another one. -/
def Nest.flat (m : Mode) : Nest := ⟨m, 0, m.slashed⟩

/-- One more character. Inside a comment an opening mark opens another one, whose end leaves the
    reader in the one around it. -/
def stepNested (r : Reading) (n : Nest) (c : Char) : Nest × List Token :=
  match n.mode, n.depth with
  | .comment s, depth =>
    if n.slash ∧ c = '*' then (⟨.comment (s ++ [c]), depth + 1, false⟩, [])
    else (⟨(r.step (.comment s) c).1, depth, c == '/'⟩, [])
  | .star s, depth + 1 =>
    if c = '/' then (⟨.comment (s ++ ['*', c]), depth, false⟩, [])
    else (⟨(r.step (.star s) c).1, depth + 1, false⟩, [])
  | m, _ => (.flat (r.step m c).1, (r.step m c).2)

/-- The tokens of a text from some state on. -/
def lexFrom (r : Reading) : Nest → List Char → List Token
  | n, [] => n.mode.finish
  | n, c :: rest => (r.stepNested n c).2 ++ lexFrom r (r.stepNested n c).1 rest

/-- The tokens of a text for a reader that counts comments. -/
def lexNested (r : Reading) (text : List Char) : List Token := r.lexFrom (.flat .gap) text

/-- The tokens of a text from some mode on, where the first end of a comment counts. -/
def lexAt (r : Reading) (m : Mode) (text : List Char) : List Token :=
  (r.read m text).2 ++ (r.read m text).1.finish

theorem lexAt_cons (r : Reading) (m : Mode) (c : Char) (rest : List Char) :
    r.lexAt m (c :: rest) = (r.step m c).2 ++ r.lexAt (r.step m c).1 rest := List.append_assoc ..

end Reading

open Reading

/-- The token is no comment, or one without an opening mark inside. The star of its end could
    complete one. -/
def Token.Shallow (t : Token) : Prop := t.Remarked fun s => ¬ Text.commentStart <:+: s ++ ['*']

/-- A comment goes on behind its end: it has that end inside, or it is never closed. -/
def Overruns (inside : List Char) (tokens : List Token) : Prop :=
  tokens = [.unclosed] ∨ ∃ more rest, tokens = .comment (inside ++ '*' :: '/' :: more) :: rest

theorem Overruns.ne {inside : List Char} {tokens rest : List Token} (h : Overruns inside tokens) :
    tokens ≠ .comment inside :: rest := by
  rintro rfl
  rcases h with h | ⟨more, rest', h⟩
  · cases h
  · have hinside := Token.comment.inj (List.cons.inj h).1
    have hlength := congrArg List.length hinside
    simp at hlength

/-! ## 3. Open comments -/

namespace Reading

/-- The text of an open comment, up to a star that may be of its end. -/
def Mode.body? : Mode → Option (List Char)
  | .comment s => some s
  | .star s => some s
  | _ => none

variable (r : Reading) {m : Mode} {n : Nest} {c : Char} {s p : List Char} {depth : Nat}
  {slash : Bool}

theorem step_comment (hc : c ≠ '*') : r.step (.comment s) c = (.comment (s ++ [c]), []) :=
  if_neg hc

theorem step_star (hslash : c ≠ '/') (hstar : c ≠ '*') :
    r.step (.star s) c = (.comment (s ++ ['*', c]), []) := (if_neg hslash).trans (if_neg hstar)

theorem stepNested_comment (h : ¬(slash = true ∧ c = '*')) :
    r.stepNested ⟨.comment s, depth, slash⟩ c
      = (⟨(r.step (.comment s) c).1, depth, c == '/'⟩, []) := if_neg h

theorem stepNested_star (hslash : c ≠ '/') :
    r.stepNested ⟨.star s, depth + 1, slash⟩ c
      = (⟨(r.step (.star s) c).1, depth + 1, false⟩, []) := if_neg hslash

/-- An open comment goes on, or ends with what it has. -/
theorem stepNested_open (h : n.mode.body? = some s) (c : Char) :
    (r.stepNested n c).2 = [.comment s]
      ∨ ∃ s', (r.stepNested n c).1.mode.body? = some s' ∧ s <+: s'
        ∧ (r.stepNested n c).2 = [] := by
  obtain ⟨mode, depth, slash⟩ := n
  cases mode with
  | comment s' =>
    obtain rfl : s' = s := Option.some.inj h
    refine .inr ?_
    by_cases hopens : slash = true ∧ c = '*'
    · obtain ⟨rfl, rfl⟩ := hopens
      exact ⟨s' ++ ['*'], rfl, List.prefix_append _ _, rfl⟩
    · rw [r.stepNested_comment hopens]
      by_cases hc : c = '*'
      · subst hc
        exact ⟨s', rfl, List.prefix_rfl, rfl⟩
      · rw [r.step_comment hc]
        exact ⟨s' ++ [c], rfl, List.prefix_append _ _, rfl⟩
  | star s' =>
    obtain rfl : s' = s := Option.some.inj h
    by_cases hslash : c = '/'
    · subst hslash
      cases depth with
      | zero => exact .inl rfl
      | succ depth => exact .inr ⟨s' ++ ['*', '/'], rfl, List.prefix_append _ _, rfl⟩
    · -- any other character leaves both readers in the comment
      have hgoes : ∃ s'', (r.step (.star s') c).1.body? = some s'' ∧ s' <+: s''
          ∧ (r.step (.star s') c).2 = [] := by
        by_cases hc : c = '*'
        · subst hc
          exact ⟨s' ++ ['*'], rfl, List.prefix_append _ _, rfl⟩
        · rw [r.step_star hslash hc]
          exact ⟨s' ++ ['*', c], rfl, List.prefix_append _ _, rfl⟩
      refine .inr ?_
      cases depth with
      | zero => exact hgoes
      | succ depth =>
        obtain ⟨s'', hbody, hprefix, -⟩ := hgoes
        rw [r.stepNested_star hslash]
        exact ⟨s'', hbody, hprefix, rfl⟩
  | _ => cases h

/-- **What an open comment has, it keeps**: either it is never closed, or its token begins with
    that. -/
theorem lexFrom_open (hs : n.mode.body? = some s) (hp : p <+: s) (text : List Char) :
    r.lexFrom n text = [.unclosed]
      ∨ ∃ more rest, r.lexFrom n text = .comment (p ++ more) :: rest := by
  induction text generalizing n s with
  | nil =>
    refine .inl ?_
    unfold lexFrom
    cases hmode : n.mode with
    | comment s' => rfl
    | star s' => rfl
    | _ => rw [hmode] at hs; cases hs
  | cons c rest ih =>
    rcases r.stepNested_open hs c with hend | ⟨s', hs', hprefix, hnone⟩
    · obtain ⟨more, rfl⟩ := hp
      refine .inr ⟨more, r.lexFrom (r.stepNested n c).1 rest, ?_⟩
      rw [lexFrom, hend]
      rfl
    · rw [lexFrom, hnone]
      exact ih hs' (hp.trans hprefix)

/-! ## 4. Both readers -/

/-- Both readers are in a comment with an opening mark inside, and the one that counts has not seen
    the end of all of those inside. It has counted the star of that mark, which the other reader
    still takes for the beginning of an end. -/
inductive Apart : Mode → Nest → Prop where
  | comment {s : List Char} {depth : Nat} {slash : Bool} (hs : Text.commentStart <:+: s) :
    Apart (.comment s) ⟨.comment s, depth + 1, slash⟩
  | star {s : List Char} {depth : Nat} (hs : Text.commentStart <:+: s ++ ['*']) :
    Apart (.star s) ⟨.star s, depth + 1, false⟩
  | opened {s : List Char} {depth : Nat} (hs : Text.commentStart <:+: s ++ ['*']) :
    Apart (.star s) ⟨.comment (s ++ ['*']), depth + 1, false⟩

/-- One more character leaves them there, or is the end for the reader that does not count. -/
theorem Apart.step (h : Apart m n) (c : Char) :
    (Apart (r.step m c).1 (r.stepNested n c).1 ∧ (r.step m c).2 = [] ∧ (r.stepNested n c).2 = [])
      ∨ ∃ s, r.step m c = (.gap, [.comment s]) ∧ Text.commentStart <:+: s ++ ['*']
        ∧ (r.stepNested n c).1.mode = .comment (s ++ ['*', '/'])
        ∧ (r.stepNested n c).2 = [] := by
  have hmore : ∀ {s t : List Char}, Text.commentStart <:+: s → Text.commentStart <:+: s ++ t :=
    fun hs => hs.trans (List.prefix_append _ _).isInfix
  have hafter : ∀ {s : List Char} {c : Char}, Text.commentStart <:+: s ++ ['*'] →
      Text.commentStart <:+: s ++ ['*', c] := fun hs => by
    rw [List.append_cons]
    exact hmore hs
  cases h with
  | @comment s depth slash hs =>
    refine .inl ?_
    by_cases hopens : slash = true ∧ c = '*'
    · obtain ⟨rfl, rfl⟩ := hopens
      exact ⟨.opened (hmore hs), rfl, rfl⟩
    · rw [r.stepNested_comment hopens]
      by_cases hc : c = '*'
      · subst hc
        exact ⟨.star (hmore hs), rfl, rfl⟩
      · rw [r.step_comment hc]
        exact ⟨.comment (hmore hs), rfl, rfl⟩
  | @star s depth hs =>
    by_cases hslash : c = '/'
    · subst hslash
      exact .inr ⟨s, rfl, hs, rfl, rfl⟩
    · refine .inl ?_
      rw [r.stepNested_star hslash]
      by_cases hc : c = '*'
      · subst hc
        exact ⟨.star (hmore hs), rfl, rfl⟩
      · rw [r.step_star hslash hc]
        exact ⟨.comment (hafter hs), rfl, rfl⟩
  | @opened s depth hs =>
    rw [r.stepNested_comment fun h => Bool.false_ne_true h.1]
    by_cases hslash : c = '/'
    · subst hslash
      exact .inr ⟨s, rfl, hs, congrArg Mode.comment (List.append_assoc ..), rfl⟩
    · refine .inl ?_
      by_cases hc : c = '*'
      · subst hc
        exact ⟨.star (hmore hs), rfl, rfl⟩
      · rw [r.step_star hslash hc, r.step_comment hc, List.append_assoc]
        exact ⟨.comment (hafter hs), rfl, rfl⟩

/-- **From there on the reader that counts takes in the end** that the other one sees, if it sees
    one. -/
theorem Apart.lexFrom (h : Apart m n) (text : List Char) :
    (r.lexAt m text = [.unclosed] ∧ r.lexFrom n text = [.unclosed])
      ∨ ∃ s rest, r.lexAt m text = .comment s :: rest ∧ Text.commentStart <:+: s ++ ['*']
        ∧ Overruns s (r.lexFrom n text) := by
  induction text generalizing m n with
  | nil => cases h <;> exact .inl ⟨rfl, rfl⟩
  | cons c text ih =>
    rcases h.step r c with ⟨hnext, hnone, hnone'⟩ | ⟨s, hend, hs, hmode, hnone⟩
    · rw [lexAt_cons, Reading.lexFrom, hnone, hnone']
      exact ih hnext
    · refine .inr ⟨s, r.lexAt .gap text, ?_, hs, ?_⟩
      · rw [lexAt_cons, hend]
        rfl
      · rw [Reading.lexFrom, hnone]
        have hbody : (r.stepNested n c).1.mode.body? = some (s ++ ['*', '/']) := by
          rw [hmode]
          rfl
        refine (r.lexFrom_open hbody List.prefix_rfl text).imp_right ?_
        rintro ⟨more, rest, heq⟩
        exact ⟨more, rest, heq.trans (by rw [List.append_assoc]; rfl)⟩

/-- No opening mark stands in what was read of a comment. -/
def Mode.Clean : Mode → Prop
  | .comment s => ¬ Text.commentStart <:+: s
  | .star s => ¬ Text.commentStart <:+: s ++ ['*']
  | _ => True

theorem clean_start (c : Char) : (r.start c).1.Clean ∧ ∀ t ∈ (r.start c).2, t.Shallow := by
  unfold start
  split_ifs <;> exact ⟨trivial, by simp [Token.Shallow, Token.Remarked]⟩

theorem shallow_finish (m : Mode) : ∀ t ∈ m.finish, t.Shallow := by
  cases m <;> simp [Mode.finish, Token.Shallow, Token.Remarked]

theorem clean_next (m : Mode) (c : Char) :
    (r.next m c).1.Clean ∧ ∀ t ∈ (r.next m c).2, t.Shallow :=
  ⟨(r.clean_start c).1, List.forall_mem_append.mpr ⟨shallow_finish m, (r.clean_start c).2⟩⟩

/-- **As long as no opening mark is read in a comment, both readers take the same step**, and see
    only comments that are shallow. -/
theorem stepNested_flat (hm : m.Clean) (h : ¬(m.slashed = true ∧ c = '*')) :
    r.stepNested (.flat m) c = (.flat (r.step m c).1, (r.step m c).2)
      ∧ (r.step m c).1.Clean ∧ ∀ t ∈ (r.step m c).2, t.Shallow := by
  cases m with
  | comment s =>
    have hflat : r.stepNested (.flat (.comment s)) c
        = (⟨(r.step (.comment s) c).1, 0, c == '/'⟩, []) := r.stepNested_comment h
    rw [hflat]
    by_cases hc : c = '*'
    · subst hc
      refine ⟨rfl, fun hs => ?_, List.forall_mem_nil _⟩
      rcases Text.commentStart_infix_concat.mp hs with ⟨-, hlast⟩ | hs
      · exact h ⟨beq_iff_eq.mpr hlast, rfl⟩
      · exact hm hs
    · rw [r.step_comment hc]
      refine ⟨?_, fun hs => ?_, List.forall_mem_nil _⟩
      · simp [Nest.flat, Mode.slashed]
      · rcases Text.commentStart_infix_concat.mp hs with ⟨hstar, -⟩ | hs
        · exact hc hstar
        · exact hm hs
  | star s =>
    refine ⟨rfl, ?_⟩
    by_cases hslash : c = '/'
    · subst hslash
      exact ⟨trivial, List.forall_mem_singleton.mpr hm⟩
    · by_cases hc : c = '*'
      · subst hc
        refine ⟨fun hs => ?_, List.forall_mem_nil _⟩
        rcases Text.commentStart_infix_concat.mp hs with ⟨-, hlast⟩ | hs
        · rw [List.getLast?_concat] at hlast
          cases hlast
        · exact hm hs
      · rw [r.step_star hslash hc]
        refine ⟨fun hs => ?_, List.forall_mem_nil _⟩
        rw [List.append_cons] at hs
        rcases Text.commentStart_infix_concat.mp hs with ⟨hstar, -⟩ | hs
        · exact hc hstar
        · exact hm hs
  | gap => exact ⟨rfl, r.clean_start c⟩
  | escape s => exact ⟨rfl, trivial, List.forall_mem_nil _⟩
  | _ =>
    refine ⟨rfl, ?_⟩
    unfold step
    dsimp only
    split_ifs <;> first
      | exact r.clean_next _ c
      | exact ⟨Text.not_commentStart_nil, List.forall_mem_nil _⟩
      | exact ⟨trivial, by simp [Token.Shallow, Token.Remarked]⟩

/-- The first comment that is not shallow goes on behind its end, and up to there the tokens are the
    same. -/
def FirstOverruns (tokens nested : List Token) : Prop :=
  ∃ front s rest back, tokens = front ++ .comment s :: rest ∧ (∀ t ∈ front, t.Shallow)
    ∧ ¬(Token.comment s).Shallow ∧ nested = front ++ back ∧ Overruns s back

/-- **Both readers see the same tokens up to the first comment that is not shallow.** -/
theorem lexFrom_flat (hm : m.Clean) (text : List Char) :
    (r.lexFrom (.flat m) text = r.lexAt m text ∧ ∀ t ∈ r.lexAt m text, t.Shallow)
      ∨ FirstOverruns (r.lexAt m text) (r.lexFrom (.flat m) text) := by
  induction text generalizing m with
  | nil =>
    have hend : r.lexAt m [] = m.finish := List.nil_append _
    rw [hend]
    exact .inl ⟨rfl, shallow_finish m⟩
  | cons c text ih =>
    by_cases h : m.slashed = true ∧ c = '*'
    · -- an opening mark: the readers part, but meet again if the comment is never closed
      obtain ⟨hslash, rfl⟩ := h
      obtain ⟨s, rfl, hlast⟩ : ∃ s, m = .comment s ∧ s.getLast? = some '/' := by
        cases m with
        | comment s => exact ⟨s, rfl, beq_iff_eq.mp hslash⟩
        | _ => cases hslash
      have hflat : r.stepNested (.flat (.comment s)) '*'
          = (⟨.comment (s ++ ['*']), 1, false⟩, []) := if_pos ⟨hslash, rfl⟩
      have hapart : Apart (.star s) ⟨.comment (s ++ ['*']), 1, false⟩ :=
        .opened (Text.commentStart_infix_concat.mpr (.inl ⟨rfl, hlast⟩))
      have hstep : r.lexAt (.comment s) ('*' :: text) = r.lexAt (.star s) text := r.lexAt_cons ..
      rw [lexFrom, hflat, hstep, List.nil_append]
      rcases hapart.lexFrom r text with ⟨hopen, hopen'⟩ | ⟨s', rest, hlex, hs', hover⟩
      · rw [hopen, hopen']
        exact .inl ⟨rfl, List.forall_mem_singleton.mpr trivial⟩
      · exact .inr ⟨[], s', rest, _, hlex, List.forall_mem_nil _,
          fun hshallow => hshallow hs', rfl, hover⟩
    · obtain ⟨hstep, hclean, hshallow⟩ := r.stepNested_flat hm h
      rw [lexFrom, hstep, lexAt_cons]
      rcases ih hclean with ⟨hsame, hall⟩ | ⟨front, s, rest, back, hlex, hfront, hs, hnested, hover⟩
      · rw [hsame]
        exact .inl ⟨rfl, List.forall_mem_append.mpr ⟨hshallow, hall⟩⟩
      · refine .inr ⟨(r.step m c).2 ++ front, s, rest, back, ?_, ?_, hs, ?_, hover⟩
        · rw [hlex, List.append_assoc]
        · exact List.forall_mem_append.mpr ⟨hshallow, hfront⟩
        · rw [hnested, List.append_assoc]

/-! ## 5. Texts and comments in them -/

theorem lexNested_cases (text : String) :
    (r.lexNested text.toList = r.lex text ∧ ∀ t ∈ r.lex text, t.Shallow)
      ∨ FirstOverruns (r.lex text) (r.lexNested text.toList) :=
  r.lexFrom_flat (m := .gap) trivial text.toList

/-- **A text is read alike if and only if all its comments are shallow.** -/
theorem lexNested_eq_iff (text : String) :
    r.lexNested text.toList = r.lex text ↔ ∀ t ∈ r.lex text, t.Shallow := by
  rcases r.lexNested_cases text with
    ⟨hsame, hall⟩ | ⟨front, s, rest, back, hlex, -, hs, hnested, hover⟩
  · exact iff_of_true hsame hall
  · refine iff_of_false (fun hsame => ?_) fun hall => hs (hall _ (by simp [hlex]))
    rw [hlex, hnested] at hsame
    exact hover.ne (List.append_cancel_left hsame)

/-- A comment at the beginning of a text ends at its first end if it is shallow, and behind that if
    it is not. -/
theorem lexNested_comment {text : List Char} {rest : List Token}
    (h : r.lexAt .gap text = .comment s :: rest) :
    ((Token.comment s).Shallow → (r.lexNested text).head? = some (.comment s))
      ∧ (¬(Token.comment s).Shallow → Overruns s (r.lexNested text)) := by
  rcases r.lexFrom_flat (m := .gap) trivial text with
    ⟨hsame, hall⟩ | ⟨front, s', rest', back, hlex, hfront, hs', hnested, hover⟩
  · have hfirst : (Token.comment s).Shallow := hall _ (by simp [h])
    refine ⟨fun _ => ?_, fun hs => absurd hfirst hs⟩
    rw [lexNested, hsame, h]
    rfl
  · rw [h] at hlex
    cases front with
    | nil =>
      obtain rfl := Token.comment.inj (List.cons.inj hlex).1
      refine ⟨fun hs => absurd hs hs', fun _ => ?_⟩
      rw [lexNested, hnested]
      exact hover
    | cons first front =>
      obtain rfl := (List.cons.inj hlex).1
      refine ⟨fun _ => ?_, fun hs => absurd (hfront _ List.mem_cons_self) hs⟩
      rw [lexNested, hnested]
      rfl

/-- A comment is read as one token where its lines are moved. -/
theorem read_comment_shifted {mark : String} (hmark : mark ∈ commentMarks) (body : String)
    (k : Nat) :
    r.read .gap (Text.shifted^[k] (mark ++ " " ++ Text.sanitizeComment body ++ " */").toList)
      = (.gap, [.comment (Text.shifted^[k] (commentInside mark body))]) := by
  induction k with
  | zero =>
    obtain ⟨m', tokens, hread, rfl, htokens⟩ := reads_comment r hmark body .free .gap rfl
    have hcomment : tokens = [.comment (commentInside mark body)] := by
      simpa [Mode.finish] using htokens
    exact hread.trans (by rw [hcomment]; rfl)
  | succ k ih =>
    have hshifted := r.read_shifted
      (Text.shifted^[k] (mark ++ " " ++ Text.sanitizeComment body ++ " */").toList) .gap False.elim
    rw [ih] at hshifted
    rw [Function.iterate_succ_apply', Function.iterate_succ_apply']
    exact hshifted

end Reading

/-- Moving lines makes no difference to what is shallow. -/
theorem Text.shallow_shifted (s : List Char) :
    ¬ commentStart <:+: shifted s ++ ['*'] ↔ ¬ commentStart <:+: s ++ ['*'] := by
  rw [← shifted_concat s (by decide), commentStart_shifted]

/-- **The comment that is written for a text is shallow if and only if the text has no opening
    mark inside**, wherever its lines are moved. -/
theorem Text.shallow_comment {mark : String} (hmark : mark ∈ commentMarks) (body : String)
    (k : Nat) :
    (Token.comment (shifted^[k] (commentInside mark body))).Shallow
      ↔ ¬ commentStart <:+: body.toList := by
  induction k with
  | zero => exact not_congr (commentStart_commentInside hmark body)
  | succ k ih =>
    rw [Function.iterate_succ_apply']
    exact (shallow_shifted _).trans ih

/-- The texts that the comments of a SELECT are written for: its comment and its hints. -/
def Select.remarks {ν : Type} (q : Select ν) : List String := q.comment.toList ++ q.hints

theorem Select.forall_blocks {ν : Type} (q : Select ν) :
    (∀ b ∈ q.blocks, ¬ Text.commentStart <:+: b.2.toList)
      ↔ ∀ remark ∈ q.remarks, ¬ Text.commentStart <:+: remark.toList := by
  unfold blocks remarks
  rw [List.forall_mem_append, List.forall_mem_append]
  refine and_congr ?_ ?_
  · cases q.comment <;> simp
  · have hhints := Text.commentStart_intercalate q.hints
    cases hempty : q.hints.isEmpty with
    | true => simp [List.isEmpty_iff.mp hempty]
    | false => simpa using not_congr hhints

namespace Session

/-- **Where comments end for a reader that counts them.** In a rendering, on one line or over
    several, the comment and the hints of each SELECT in the tree stand as they are written. Such a
    block ends at its last character if the text that it is written for has no opening mark inside.
    Otherwise it goes on: it is never closed, or takes in what follows up to another end. The text
    of a tree without verbatim SQL is read alike with and without counting if, and only if, no
    comment and no hint in the tree has an opening mark inside. Otherwise both readers see the same
    tokens up to the first comment that has one, and that comment goes on. -/
theorem render_nested {s s' : Session} {t : Node} {text : String}
    (h : s.render t = .ok (text, s')) :
    let r : Reading := ⟨s.renderer.dialect, true⟩
    (∀ q : Select Node, ⟨.select q⟩ ∈ t.visited → (∃ k, Node.Nested ⟨.select q⟩ k t)
        ∧ ∀ k, Node.Nested ⟨.select q⟩ k t → ∀ mark body, (mark, body) ∈ q.blocks →
          let moved := Text.shifted^[s.renderer.layout.tabs k]
          let block := moved (mark ++ " " ++ Text.sanitizeComment body ++ " */").toList
          let inside := moved (commentInside mark body)
          ∃ front back, text.toList = front ++ (block ++ back)
            ∧ (¬ Text.commentStart <:+: body.toList →
              (r.lexNested (block ++ back)).head? = some (.comment inside))
            ∧ (Text.commentStart <:+: body.toList → Overruns inside (r.lexNested (block ++ back))))
      ∧ (t.NoVerbatim →
        (r.lexNested text.toList = r.lex text
            ↔ ∀ q : Select Node, ⟨.select q⟩ ∈ t.visited →
              ∀ remark ∈ q.remarks, ¬ Text.commentStart <:+: remark.toList)
          ∧ (r.lexNested text.toList = r.lex text
            ∨ FirstOverruns (r.lex text) (r.lexNested text.toList))) := by
  intro r
  obtain ⟨hfault, htext, -⟩ := render_eq_ok_iff.mp h
  refine ⟨fun q hq => ⟨Node.exists_nested hq, ?_⟩, fun ht => ⟨?_, ?_⟩⟩
  · intro k hnested mark body hblock moved block inside
    have hmark := Select.mark_of_mem_blocks hblock
    have hbehind := Node.behind_blocks s.renderer.layout hnested hblock
    obtain ⟨front, back, hspell⟩ := hbehind.exists_spell hmark s.renderer.spelling s.index
    have hcore : block = '/' :: (moved (Text.commentCore mark body) ++ ['/']) := by
      have hplain : (mark ++ " " ++ Text.sanitizeComment body ++ " */").toList
          = '/' :: (Text.commentCore mark body ++ ['/']) := by
        rw [toList_comment hmark]
        simp [Text.commentCore]
      show Text.shifted^[_] _ = _
      rw [hplain, Text.iterate_shifted_enclosed (.inr rfl)]
    have hlex : r.lexAt .gap (block ++ back) = .comment inside :: r.lexAt .gap back := by
      unfold lexAt
      rw [read_append, r.read_comment_shifted hmark body]
      rfl
    obtain ⟨hends, hover⟩ := r.lexNested_comment hlex
    have hshallow := Text.shallow_comment hmark body (s.renderer.layout.tabs k)
    refine ⟨front, back, ?_, fun hnone => hends (hshallow.mpr hnone), fun hstart =>
      hover fun hs => hshallow.mp hs hstart⟩
    rw [htext, hspell, hcore, List.append_assoc]
  · have hremarked := @Node.remarked_lex_iff (fun s => ¬ Text.commentStart <:+: s ++ ['*'])
      s.renderer.spelling Text.shallow_shifted t ht _ hfault s.index
    rw [r.lexNested_eq_iff, htext]
    refine hremarked.trans (forall₂_congr fun q hq => ?_)
    rw [← q.forall_blocks]
    exact forall₂_congr fun b hb =>
      not_congr (Text.commentStart_commentInside (Select.mark_of_mem_blocks hb) b.2)
  · exact (r.lexNested_cases text).imp_left And.left

/-- A query with an end of a comment in its comment, and an opening mark in two pieces as its
    hints. -/
def splitHints : Select Node :=
  { source := some ⟨.table "t"⟩, comment := some "**/", hints := ["/", "*"] }

/-- It is read alike with and without counting. -/
theorem render_nested_splitHints :
    ∃ text s', (Session.mk ⟨.postgres, .lines, true⟩ []).render ⟨.select splitHints⟩
        = .ok (text, s')
      ∧ (Reading.mk .postgres true).lexNested text.toList
        = (Reading.mk .postgres true).lex text := by
  obtain ⟨text, s', h⟩ : ∃ text s', (Session.mk ⟨.postgres, .lines, true⟩ []).render
      ⟨.select splitHints⟩ = .ok (text, s') := ⟨_, _, rfl⟩
  have hverbatim : (Node.mk (.select splitHints)).NoVerbatim := Node.noVerbatim_of_parts (by decide)
  refine ⟨text, s', h, ((render_nested h).2 hverbatim).1.mpr fun q hq => ?_⟩
  have hvisited : (Node.mk (.select splitHints)).visited = [⟨.select splitHints⟩, ⟨.table "t"⟩] :=
    rfl
  rw [hvisited] at hq
  rcases List.mem_pair.mp hq with heq | heq
  · obtain rfl := Form.select.inj (Node.mk.inj heq)
    decide
  · cases heq

/-- The files of a directory, as a comment. -/
def globbedSelect : Node := ⟨.select { source := some ⟨.table "t"⟩, comment := some "src/*.rs" }⟩

/-- **A comment can take in the statement behind it**: a reader that counts comments sees in
    `globbedSelect` nothing but a comment that is not closed. -/
theorem globbedSelect_swallowed :
    ∃ text s', (Session.mk ⟨.postgres, .oneLine, true⟩ []).render globbedSelect = .ok (text, s')
      ∧ text = "/* src/*.rs */ SELECT * FROM \x22t\x22"
      ∧ Token.comment " src/*.rs ".toList ∈ (Reading.mk .postgres true).lex text
      ∧ (Reading.mk .postgres true).lexNested text.toList = [.unclosed] :=
  ⟨_, _, rfl, rfl, by decide, by decide⟩

end Session
end SqlTree
