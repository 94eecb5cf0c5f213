import SqlTree.Node.Predicate
import SqlTree.Proofs.WhereClause

/-!
# Trees rendered one after the other

The text of a predicate is fixed text around the texts of its parts. This file renders the parts one
after the other, and carries what that gives over to the predicate:

* `Session.renderEach` -- trees rendered one after the other, each behind the parameters of those
  before it;
* `Session.renderEach_eq` -- their texts, and the parameters that they leave;
* `Session.render_of_parts` -- a tree whose text is made of the texts of others is rendered as they
  are, and refused when one of them is;
* `Node.castTo`, `Node.coerced` -- what a predicate makes of its arguments, beside a typed column
  and beside any operand.
-/

namespace SqlTree

/-! ## 1. One tree after the other -/

theorem Spelling.spellEach_eq_of_inline {how : Spelling} (h : how.parameterise = false)
    (ds : List Doc) (bound bound' : Nat) : how.spellEach ds bound = how.spellEach ds bound' := by
  induction ds generalizing bound bound' with
  | nil => rfl
  | cons d rest ih =>
    rw [spellEach, spellEach, Doc.spell_eq_of_inline h d bound bound',
      ih (bound + d.slots) (bound' + d.slots)]

namespace Session

/-- Renders trees one after the other, each behind the parameters of those before it. -/
def renderEach : Session → List Node → Except Misuse (List String × Session)
  | s, [] => .ok ([], s)
  | s, n :: rest => do
    let (text, s) ← s.render n
    let (texts, s) ← renderEach s rest
    return (text :: texts, s)

/-- The session once more values are bound. Without placeholders it stays as it is. -/
def bindAll (s : Session) (vs : List Value) : Session :=
  if s.renderer.parameterise then { s with params := s.params ++ vs } else s

section Bound

variable (s : Session) (vs ws : List Value)

@[simp] theorem renderer_bindAll : (s.bindAll vs).renderer = s.renderer := by
  unfold bindAll
  split <;> rfl

theorem bindAll_nil : s.bindAll [] = s := by
  unfold bindAll
  rw [List.append_nil]
  split <;> rfl

theorem bindAll_append : (s.bindAll vs).bindAll ws = s.bindAll (vs ++ ws) := by
  unfold bindAll
  cases h : s.renderer.parameterise <;> simp [h]

/-- Behind more values placeholders are numbered from there; literals are the same everywhere. -/
theorem spellEach_bindAll (ds : List Doc) :
    s.renderer.spelling.spellEach ds (s.bindAll vs).index
      = s.renderer.spelling.spellEach ds (s.index + vs.length) := by
  cases h : s.renderer.parameterise with
  | false => exact Spelling.spellEach_eq_of_inline h ds _ _
  | true =>
    unfold bindAll
    rw [if_pos h]
    exact congrArg _ List.length_append

end Bound

/-- A rendering is refused for the first of its mentions that is at fault, and binds what the tree
    collects. -/
theorem render_eq (s : Session) (n : Node) :
    s.render n = match (n.doc s.renderer.layout).fault? with
      | some misuse => .error misuse
      | none => .ok (s.renderer.spelling.spell (n.doc s.renderer.layout) s.index,
          s.bindAll n.collect) := by
  unfold render write bindAll
  cases (n.doc s.renderer.layout).fault? with
  | some misuse => rfl
  | none =>
    dsimp only
    rw [Node.bindings_doc]

/-- **Trees rendered one after the other** are refused for the first of them that is; otherwise they
    bind what they collect, in their order. -/
theorem renderEach_eq (s : Session) (ns : List Node) :
    s.renderEach ns = match ns.findSome? fun n => (n.doc s.renderer.layout).fault? with
      | some misuse => .error misuse
      | none => .ok (s.renderer.spelling.spellEach (ns.map (Node.doc s.renderer.layout)) s.index,
          s.bindAll (ns.flatMap Node.collect)) := by
  induction ns generalizing s with
  | nil => exact congrArg (fun s' => Except.ok ([], s')) s.bindAll_nil.symm
  | cons n rest ih =>
    rw [renderEach, render_eq, List.findSome?_cons]
    cases hn : (n.doc s.renderer.layout).fault? with
    | some misuse => rfl
    | none =>
      show ((s.bindAll n.collect).renderEach rest).bind _ = _
      rw [ih, renderer_bindAll]
      cases hrest : rest.findSome? fun n => (n.doc s.renderer.layout).fault? with
      | some misuse => rfl
      | none =>
        show Except.ok (_, _) = Except.ok (_, _)
        rw [spellEach_bindAll, bindAll_append, List.flatMap_cons, List.map_cons,
          Spelling.spellEach, Doc.slots, Node.bindings_doc]

/-- **A tree whose text is made of the texts of others is rendered as they are**, one after the
    other, and refused when one of them is. -/
theorem render_of_parts {s : Session} {n : Node} {parts : List Node} {write : List String → String}
    (hmentions : (n.doc s.renderer.layout).mentions
      = parts.flatMap fun p => (p.doc s.renderer.layout).mentions)
    (hspell : s.renderer.spelling.spell (n.doc s.renderer.layout) s.index
      = write (s.renderer.spelling.spellEach (parts.map (Node.doc s.renderer.layout)) s.index)) :
    s.render n = (s.renderEach parts).map fun answer => (write answer.1, answer.2) := by
  have hfault : (n.doc s.renderer.layout).fault?
      = parts.findSome? fun p => (p.doc s.renderer.layout).fault? := by
    rw [Doc.fault?_eq, hmentions, findSome?_flatMap]
    exact congrArg (parts.findSome? ·) (funext fun p => (Doc.fault?_eq _).symm)
  have hcollect : n.collect = parts.flatMap Node.collect := by
    rw [← n.bindings_doc s.renderer.layout, Doc.bindings_eq, hmentions, List.flatMap_assoc]
    refine List.flatMap_congr fun p _ => ?_
    rw [← Doc.bindings_eq, Node.bindings_doc]
  rw [render_eq, renderEach_eq, hfault, hcollect, hspell]
  cases parts.findSome? fun p => (p.doc s.renderer.layout).fault? <;> rfl

end Session

/-! ## 2. The arguments of predicates -/

namespace Node

/-- The type of a typed column. -/
def typeName? (n : Node) : Option String :=
  match n.form with
  | .column _ _ typeName => typeName
  | _ => none

/-- If this is a typed column, its type may be written. -/
def WellTyped (n : Node) : Prop := ∀ typeName ∈ n.typeName?, NameRule.type.accepts typeName = true

theorem wellTyped_column {relation : Node} {name typeName : String}
    (h : NameRule.type.accepts typeName = true) :
    (Node.mk (.column relation name (some typeName))).WellTyped := fun typeName' htypeName => by
  obtain rfl : typeName = typeName' := Option.some.inj htypeName
  exact h

/-- A constant converted to a type. Nulls and all other expressions stay as they are. -/
def castTo (typeName : String) (n : Node) : Node :=
  match n.form with
  | .literal v => if v.isNull then n else ⟨.cast v typeName⟩
  | _ => n

/-- What an argument becomes beside an operand. -/
def coerced (operand other : Node) : Node :=
  match operand.typeName? with
  | some typeName => other.castTo typeName
  | none => other

section Coerced

variable {operand : Node} (h : operand.WellTyped)

include h

/-- Beside a column whose type may be written, or beside any other operand, no argument is
    refused. -/
theorem coerce_eq (other : Node) : operand.coerce other = .ok (operand.coerced other) := by
  unfold coerce coerced castTo
  obtain ⟨form⟩ := operand
  obtain ⟨other⟩ := other
  cases form with
  | column relation name typeName =>
    cases typeName with
    | none => rfl
    | some typeName =>
      have haccepts : NameRule.type.accepts typeName = true := h typeName rfl
      have hcast : ∀ v, Node.cast v typeName = .ok ⟨.cast v typeName⟩ := fun v => by
        unfold Node.cast NameRule.check
        rw [if_pos haccepts]
        rfl
      cases other with
      | literal v => cases v with
        | null => rfl
        | _ => exact hcast _
      | _ => rfl
  | _ => rfl

theorem compare_eq (op : ComparisonOp) (right : Node) :
    operand.compare op right = .ok ⟨.comparison operand op (operand.coerced right)⟩ := by
  rw [compare, coerce_eq h]
  rfl

theorem inList_eq (values : List Node) (negated : Bool) : operand.inList values negated
    = .ok ⟨.membership operand (values.map operand.coerced) negated⟩ := by
  rw [inList, mapM_eq_ok (coerce_eq h)]
  rfl

theorem between_eq (low high : Node) (negated : Bool) : operand.between low high negated
    = .ok ⟨.between operand (operand.coerced low) (operand.coerced high) negated⟩ := by
  rw [between, coerce_eq h, coerce_eq h]
  rfl

end Coerced
end Node
end SqlTree
