import SqlTree.Proofs.Literals

/-!
# Expressions that are whole

What a caller writes verbatim may end in the middle of a comment or close a parenthesis that it
did not open; then nothing can be said of the text around it. This file shows that nothing else
does so: if the verbatim texts and the bare names of a tree are whole, its text is.

* `Reading.Whole` -- a text that closes what it opens, and neither ends an expression nor hides
  what follows it;
* `Reading.Firm` -- the same for tokens, in a form that parts hand on to the text they make;
* `Node.whole_spell` -- the text of a tree on one line is whole if what it mentions is, with
  placeholders for its values and with literals.
-/

namespace SqlTree

open Reading

/-! ## 1. Whole texts -/

namespace Reading

variable (r : Reading)

/-- Tokens that end an expression, hide what follows them, or connect conditions in another way
    than AND and OR do. -/
def isStray : Token → Bool
  | .dashes => true
  | .mark ';' => true
  | .mark '#' => r.dialect == .mysql
  | .word w => r.dialect == .mysql && (Token.word w).isWord "XOR"
  | _ => false

variable {r} in
theorem isStray_word {w : List Char} (h : (Token.word w).isWord "XOR" = false) :
    r.isStray (.word w) = false := by
  show (_ && _) = false
  rw [h, Bool.and_false]

/-- A text is whole: names, literals and comments are closed, so are groups, and nothing in it ends
    it or hides what follows. -/
structure Whole (s : String) : Prop where
  settled : (r.read .gap s.toList).1.settled = true
  complete : Complete (r.lex s)
  plain : ∀ t ∈ r.lex s, r.isStray t = false

variable {r}

instance (s : String) : Decidable (r.Whole s) :=
  decidable_of_iff ((r.read .gap s.toList).1.settled = true ∧ Complete (r.lex s)
      ∧ ∀ t ∈ r.lex s, r.isStray t = false)
    ⟨fun h => ⟨h.1, h.2.1, h.2.2⟩, fun h => ⟨h.settled, h.complete, h.plain⟩⟩

variable (r) in
/-- Tokens that may stand anywhere in an expression. -/
structure Firm (ts : List Token) : Prop where
  steady : Steady ts
  plain : ∀ t ∈ ts, r.isStray t = false

variable {ts us : List Token}

theorem Whole.firm {s : String} (h : r.Whole s) : r.Firm (r.lex s) :=
  ⟨h.complete.steady, h.plain⟩

namespace Firm

theorem append (ht : r.Firm ts) (hu : r.Firm us) : r.Firm (ts ++ us) :=
  ⟨ht.steady.append hu.steady, List.forall_mem_append.mpr ⟨ht.plain, hu.plain⟩⟩

theorem of_forall (h : ∀ t ∈ ts, t.role ∈ Steady.roles ∧ r.isStray t = false) : r.Firm ts :=
  ⟨.of_forall fun t ht => (h t ht).1, fun t ht => (h t ht).2⟩

/-- Two tokens around firm ones. -/
theorem enclosed {l r' : Token} (hsteady : Steady (l :: (ts ++ [r'])))
    (hl : r.isStray l = false) (hr : r.isStray r' = false) (h : r.Firm ts) :
    r.Firm (l :: (ts ++ [r'])) := by
  refine ⟨hsteady, ?_⟩
  simp only [List.forall_mem_cons, List.forall_mem_append]
  exact ⟨hl, h.plain, hr, fun t ht => by cases ht⟩

theorem paren (h : r.Firm ts) : r.Firm (.mark '(' :: (ts ++ [.mark ')'])) :=
  h.enclosed (h.steady.group rfl rfl) rfl rfl

end Firm
end Reading

theorem Token.role_of_isInert {t : Token} (h : t.isInert = true) : t.role ∈ Steady.roles := by
  simp only [isInert, groupWords, List.any_cons, List.any_nil, Bool.or_false, Bool.and_eq_true,
    decide_eq_true_eq, Bool.not_eq_true', Bool.or_eq_false_iff, List.mem_cons, List.not_mem_nil,
    or_false, not_or] at h
  obtain ⟨⟨hopen, hclose, -⟩, hcase, hend, hbetween, -⟩ := h
  unfold role
  rw [if_neg (by simp [hopen, hcase]), if_neg (by simp [hclose, hend]), if_neg (by simp [hbetween])]
  split
  · decide
  · split <;> decide

theorem Token.isStray_of_isInert {t : Token} (h : t.isInert = true) (r : Reading) :
    r.isStray t = false := by
  simp only [isInert, groupWords, List.any_cons, List.any_nil, Bool.or_false, Bool.and_eq_true,
    decide_eq_true_eq, Bool.not_eq_true', Bool.or_eq_false_iff, List.mem_cons, List.not_mem_nil,
    or_false, not_or] at h
  obtain ⟨⟨-, -, hsemicolon, hhash, hdashes⟩, -, -, -, hxor, -⟩ := h
  unfold Reading.isStray
  split
  · exact absurd rfl hdashes
  · exact absurd rfl hsemicolon
  · exact absurd rfl hhash
  · rw [hxor, Bool.and_false]
  · rfl

theorem Reading.firm_of_inert {r : Reading} {ts : List Token}
    (h : ∀ t ∈ ts, t.isInert = true) : r.Firm ts :=
  .of_forall fun t ht => ⟨Token.role_of_isInert (h t ht), Token.isStray_of_isInert (h t ht) r⟩

theorem Reading.kept_firm (r : Reading) : Kept fun _ => r.Firm where
  append := Firm.append
  range h := h.enclosed (h.steady.range rfl rfl) (isStray_word rfl) (isStray_word rfl)
  choice h := h.enclosed (h.steady.group rfl rfl) (isStray_word rfl) (isStray_word rfl)
  paren := Firm.paren
  sheltered := id
  inert := firm_of_inert
  or := .of_forall (List.forall_mem_singleton.mpr ⟨by decide, isStray_word rfl⟩)

/-! ## 2. Texts made of whole parts -/

section Spelled

variable {how : Spelling}

/-- What the caller writes into a text is whole. Values always are. -/
def Mention.Whole (r : Reading) : Mention → Prop
  | .value _ => True
  | .verbatim sql _ => r.Whole sql
  | .bare _ s => r.Whole s

/-- What is whole is legible. -/
theorem Mention.Whole.legible {m : Mention} (h : m.Whole (how.reading true)) :
    m.Legible how true := by
  cases m with
  | value v => exact fun bound => (how.inert_value v bound).1
  | verbatim sql binds => exact h.settled
  | bare rule s => exact h.settled

theorem Mention.Whole.firm {m : Mention} (h : m.Whole (how.reading true)) :
    m.Satisfies how true (how.reading true).Firm := by
  cases m with
  | value v => exact fun bound => firm_of_inert (how.inert_value v bound).2
  | verbatim sql binds => exact Reading.Whole.firm h
  | bare rule s => exact Reading.Whole.firm h

/-- **A text whose parts fit is firm**, if what the caller writes into it is whole. -/
theorem Doc.Spaced.firm {inside : Bool} {e e' : Seam} {d : Doc}
    (h : Doc.Spaced .oneLine inside e d e') (hm : ∀ m ∈ d.mentions, m.Whole (how.reading true)) :
    ∀ bound, (how.reading true).Firm (d.tokens how true bound) :=
  h.tokens_kept (kept_firm _) fun m hm' _ _ => (hm m hm').firm

/-- **The text of a tree is whole** if the verbatim texts and the bare names in it are, on one
    line. -/
theorem Node.whole_spell {n : Node}
    (hm : ∀ m ∈ n.visited.flatMap Node.mentioned, m.Whole (how.reading true)) (bound : Nat) :
    (how.reading true).Whole (how.spell (n.doc .oneLine) bound) := by
  have hdoc : ∀ m ∈ (n.doc .oneLine).mentions, m.Whole (how.reading true) := by
    rw [n.mentions_doc]
    exact hm
  have hlegible : ∀ m ∈ (n.doc .oneLine).mentions, m.Legible how true :=
    fun m hm' => (hdoc m hm').legible
  have hreads := (n.spaced_doc .oneLine).reads hlegible bound
  have hfirm := (n.spaced_doc .oneLine).firm hdoc bound
  obtain ⟨m, ts, hread, hsettled, -⟩ := hreads .gap rfl
  refine ⟨?_, ?_, ?_⟩
  · rw [hread]
    exact hsettled
  · rw [hreads.lex_eq]
    exact hfirm.steady.complete
  · rw [hreads.lex_eq]
    exact hfirm.plain

end Spelled

end SqlTree
