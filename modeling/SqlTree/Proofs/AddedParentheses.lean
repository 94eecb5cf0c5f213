import SqlTree.Proofs.Tokens

/-!
# Added parentheses

A text may have more parentheses than another and be the same otherwise. What the two have in
common does not depend on where the parentheses are:

* `Doc.Wraps` -- the second text is the first with a number of parentheses added;
* `Doc.Wraps.bindings_eq`, `Doc.Wraps.fault?_eq` -- both bind the same and have the same fault;
* `Doc.Wraps.count_spell` -- in every spelling, each added pair is there;
* `Doc.WrapsAll` -- the same for texts one after the other.
-/

namespace SqlTree

/-! ## 1. One text -/

/-- An indented text has the parentheses of the text. -/
theorem Text.count_indent (s : String) :
    (Text.indent s).toList.count '(' = s.toList.count '(' := by
  have hshifted : ∀ l : List Char, (shifted l).count '(' = l.count '(' := by
    intro l
    induction l using line_induction with
    | nil => rfl
    | feed text ih => rw [shifted_feed]; simp [ih]
    | return_feed text ih => rw [shifted_return_feed]; simp [ih]
    | other c text hc hreturn ih =>
      rw [shifted_cons hc hreturn, List.count_cons, List.count_cons, ih]
  obtain ⟨rest, hrest, heq⟩ := tab_shifted s.toList
  have hnone : rest.count '(' = 0 := by
    refine List.count_eq_zero.mpr fun hmem => ?_
    rcases hrest _ hmem with h | h <;> cases h
  have hcount := congrArg (List.count '(') heq
  rw [List.count_cons_of_ne (by decide), hshifted, List.count_append, hnone] at hcount
  rw [hcount]
  exact congrArg (List.count '(') String.toList_ofList

/-- The second text is the first with a number of parentheses added around parts of it. -/
inductive Doc.Wraps : Nat → Doc → Doc → Prop where
  | same (d : Doc) : Wraps 0 d d
  | added {k : Nat} {d d' : Doc} (h : Wraps k d d') : Wraps (k + 1) d (.paren d')
  | comparison (op : ComparisonOp) {k m : Nat} {l l' r r' : Doc} (hl : Wraps k l l')
    (hr : Wraps m r r') : Wraps (k + m) (.comparison op l r) (.comparison op l' r')
  | paren {k : Nat} {d d' : Doc} (h : Wraps k d d') : Wraps k (.paren d) (.paren d')
  | indented {k : Nat} {d d' : Doc} (h : Wraps k d d') : Wraps k (.indented d) (.indented d')
  | append {k m : Nat} {l l' r r' : Doc} (hl : Wraps k l l') (hr : Wraps m r r') :
    Wraps (k + m) (.append l r) (.append l' r')

namespace Doc.Wraps

variable {k m : Nat} {d d' : Doc}

theorem of_eq (h : Wraps k d d') (hk : k = m) : Wraps m d d' := hk ▸ h

/-- Parentheses bind nothing. -/
theorem bindings_eq (h : Wraps k d d') : d'.bindings = d.bindings := by
  induction h with
  | same d => rfl
  | added _ ih => exact ih
  | paren _ ih => exact ih
  | indented _ ih => exact ih
  | comparison op _ _ ihl ihr => simp only [bindings, ihl, ihr]
  | append _ _ ihl ihr => simp only [bindings, ihl, ihr]

theorem slots_eq (h : Wraps k d d') : d'.slots = d.slots := congrArg List.length h.bindings_eq

/-- Nor is anything wrong with them. -/
theorem fault?_eq (h : Wraps k d d') : d'.fault? = d.fault? := by
  induction h with
  | same d => rfl
  | added _ ih => exact ih
  | paren _ ih => exact ih
  | indented _ ih => exact ih
  | comparison op _ _ ihl ihr => simp only [fault?, ihl, ihr]
  | append _ _ ihl ihr => simp only [fault?, ihl, ihr]

/-- With none added the text is the same. -/
theorem eq_of_zero (h : Wraps k d d') (hk : k = 0) : d' = d := by
  induction h with
  | same d => rfl
  | added _ _ => cases hk
  | paren _ ih => rw [ih hk]
  | indented _ ih => rw [ih hk]
  | comparison op _ _ ihl ihr =>
    obtain ⟨hl, hr⟩ := Nat.add_eq_zero_iff.mp hk
    rw [ihl hl, ihr hr]
  | append _ _ ihl ihr =>
    obtain ⟨hl, hr⟩ := Nat.add_eq_zero_iff.mp hk
    rw [ihl hl, ihr hr]

/-- **Each added pair of parentheses is there in every spelling.** -/
theorem count_spell (how : Spelling) (h : Wraps k d d') : ∀ bound,
    (how.spell d' bound).toList.count '(' = (how.spell d bound).toList.count '(' + k := by
  induction h with
  | same d => exact fun bound => rfl
  | added _ ih =>
    intro bound
    simp +arith [Spelling.spell, ih bound]
  | paren _ ih =>
    intro bound
    simp +arith [Spelling.spell, ih bound]
  | indented _ ih =>
    intro bound
    rw [Spelling.spell, Spelling.spell, Text.count_indent, Text.count_indent, ih bound]
  | comparison op hl hr ihl ihr =>
    intro bound
    simp only [Spelling.spell, Dialect.compare_eq, String.toList_append, List.count_append,
      hl.slots_eq, ihl bound, ihr]
    omega
  | append hl hr ihl ihr =>
    intro bound
    simp only [Spelling.spell, String.toList_append, List.count_append, hl.slots_eq, ihl bound,
      ihr]
    omega

end Doc.Wraps

/-! ## 2. Texts one after the other -/

/-- The same for texts one after the other. -/
inductive Doc.WrapsAll : Nat → List Doc → List Doc → Prop where
  | nil : WrapsAll 0 [] []
  | cons {k m : Nat} {d d' : Doc} {ds ds' : List Doc} (h : Doc.Wraps k d d')
    (hrest : WrapsAll m ds ds') : WrapsAll (k + m) (d :: ds) (d' :: ds')

namespace Doc.WrapsAll

variable {k m : Nat} {ds ds' es es' : List Doc}

theorem of_eq (h : WrapsAll k ds ds') (hk : k = m) : WrapsAll m ds ds' := hk ▸ h

theorem append (h : WrapsAll k ds ds') (he : WrapsAll m es es') :
    WrapsAll (k + m) (ds ++ es) (ds' ++ es') := by
  induction h with
  | nil => exact he.of_eq (Nat.zero_add m).symm
  | cons h _ ih => exact (WrapsAll.cons h ih).of_eq (Nat.add_assoc ..).symm

theorem join (separator : Doc) (h : WrapsAll k ds ds') :
    Wraps k (Doc.join separator ds) (Doc.join separator ds') := by
  induction h with
  | nil => exact .same _
  | cons h hrest ih =>
    cases hrest with
    | nil => exact h
    | cons h' hrest => exact .append (.append h (.same separator)) ih

end Doc.WrapsAll

end SqlTree
