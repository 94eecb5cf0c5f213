import SqlTree.Proofs.Mention
import SqlTree.Session

/-!
# Which parameters a rendering leaves

A session numbers its placeholders by how many values are bound before them, all at once. This
file ties that to a counter that moves with every single value, and both to the tree:

* `Node.collect` -- the values a tree binds: one list, read off the tree alone;
* `Tally`, `Doc.emit` -- a parameter list with a counter of its own, and the writing of a text
  that pushes each value when the text comes to it;
* `emit_eq` -- from a counter that is right, this writes the text that `Spelling.spell` gives and
  pushes the bindings of the text;
* `render_collects` -- so a rendering appends what the tree collects, in any dialect and layout.
-/

namespace SqlTree

/-! ## 1. The values of a tree -/

/-- The values that a form binds itself. A null value is a keyword; verbatim SQL brings along
    whatever it binds, nulls included. -/
def Form.bound {ν : Type} : Form ν → List Value
  | .literal v => if v.isNull then [] else [v]
  | .bind v => if v.isNull then [] else [v]
  | .cast v _ => if v.isNull then [] else [v]
  | .raw _ binds => binds
  | _ => []

namespace Node

/-- The values that a tree binds, in the order of the text. -/
def collect (n : Node) : List Value := n.visited.flatMap fun m => m.form.bound

/-- A tree binds what its form binds itself, then what its written children bind in turn. -/
theorem collect_mk (form : Form Node) :
    (Node.mk form).collect = form.bound ++ form.written.flatMap collect := by
  unfold collect
  rw [visited_mk, List.flatMap_cons, List.flatMap_assoc]
  rfl

theorem bound_mentioned (n : Node) : n.mentioned.flatMap Mention.bound = n.form.bound := by
  obtain ⟨form⟩ := n
  cases form <;> simp [mentioned, form, Form.mentioned, Mention.bound, Form.bound]

/-- **The text of a tree binds what the tree collects**, whatever the layout. -/
theorem bindings_doc (layout : Layout) (n : Node) : (n.doc layout).bindings = n.collect := by
  rw [Doc.bindings_eq, mentions_doc, List.flatMap_assoc, collect]
  exact List.flatMap_congr fun m _ => bound_mentioned m

end Node

/-! ## 2. One value at a time -/

/-- Parameters and the number of the last placeholder, kept apart. -/
structure Tally where
  params : List Value
  index : Nat

namespace Tally

/-- Nothing bound yet. -/
def fresh : Tally := ⟨[], 0⟩

/-- One more parameter. -/
def push (k : Tally) (v : Value) : Tally := ⟨k.params ++ [v], k.index + 1⟩

/-- The counter is right. -/
def Exact (k : Tally) : Prop := k.index = k.params.length

theorem foldl_push (vs : List Value) (k : Tally) :
    vs.foldl push k = ⟨k.params ++ vs, k.index + vs.length⟩ := by
  induction vs generalizing k with
  | nil => simp
  | cons v rest ih =>
    rw [List.foldl_cons, ih]
    simp only [push, List.append_assoc, List.singleton_append, List.length_cons]
    congr 1
    omega

end Tally

/-- A session's parameters with its counter. -/
def Session.tally (s : Session) : Tally := ⟨s.params, s.index⟩

namespace Doc

/-- A text written from left to right: a value is pushed when the text comes to it, and its
    placeholder shows the counter after that. -/
def emit (how : Spelling) : Doc → Tally → String × Tally
  | .text s, k => (s, k)
  | .name s, k => (how.dialect.quote s, k)
  | .bare _ s, k => (s, k)
  | .value v, k =>
    if v.isNull then ("NULL", k)
    else if how.parameterise then (how.dialect.placeholder (k.push v).index, k.push v)
    else (v.inline, k)
  | .raw sql binds, k => (sql, if how.parameterise then binds.foldl Tally.push k else k)
  | .comment mark s, k => (mark ++ " " ++ Text.sanitizeComment s ++ " */", k)
  | .comparison op left right, k =>
    let (l, k) := emit how left k
    let (r, k) := emit how right k
    (how.dialect.compare op l r, k)
  | .paren body, k =>
    let (s, k) := emit how body k
    ("(" ++ s ++ ")", k)
  | .indented body, k =>
    let (s, k) := emit how body k
    (Text.indent s, k)
  | .append left right, k =>
    let (l, k) := emit how left k
    let (r, k) := emit how right k
    (l ++ r, k)

/-- Without placeholders a text is spelled the same whatever was bound before. -/
theorem spell_eq_of_inline {how : Spelling} (hp : how.parameterise = false) (d : Doc) :
    ∀ bound bound' : Nat, how.spell d bound = how.spell d bound' := by
  induction d with
  | value v =>
    intro bound bound'
    unfold Spelling.spell Spelling.value
    rw [hp]
    rfl
  | comparison op l r ihl ihr =>
    intro bound bound'
    unfold Spelling.spell
    rw [ihl bound bound', ihr (bound + l.slots) (bound' + l.slots)]
  | append l r ihl ihr =>
    intro bound bound'
    unfold Spelling.spell
    rw [ihl bound bound', ihr (bound + l.slots) (bound' + l.slots)]
  | paren body ih =>
    intro bound bound'
    unfold Spelling.spell
    rw [ih bound bound']
  | indented body ih =>
    intro bound bound'
    unfold Spelling.spell
    rw [ih bound bound']
  | _ => exact fun _ _ => rfl

/-- **Without placeholders** the writing gives the spelling and binds nothing. -/
theorem emit_eq_of_inline {how : Spelling} (hp : how.parameterise = false) (d : Doc) (k : Tally) :
    d.emit how k = (how.spell d k.index, k) := by
  induction d with
  | value v => cases v <;> simp [emit, Spelling.spell, Spelling.value, Value.isNull, hp]
  | raw sql binds => simp [emit, Spelling.spell, hp]
  | comparison op l r ihl ihr =>
    have hr := spell_eq_of_inline hp r k.index (k.index + l.slots)
    simp only [emit, Spelling.spell, ihl, ihr, hr]
  | append l r ihl ihr =>
    have hr := spell_eq_of_inline hp r k.index (k.index + l.slots)
    simp only [emit, Spelling.spell, ihl, ihr, hr]
  | paren body ih => simp only [emit, Spelling.spell, ih]
  | indented body ih => simp only [emit, Spelling.spell, ih]
  | _ => rfl

/-- **With placeholders** the writing gives the spelling, pushes the bindings of the text and
    moves the counter by their number. -/
theorem emit_eq_of_parameterise {how : Spelling} (hp : how.parameterise = true) (d : Doc) :
    ∀ k : Tally,
      d.emit how k = (how.spell d k.index, ⟨k.params ++ d.bindings, k.index + d.slots⟩) := by
  induction d with
  | value v =>
    intro k
    cases v <;>
      simp [emit, Spelling.spell, Spelling.value, Value.isNull, hp, Tally.push, bindings, slots]
  | raw sql binds =>
    intro k
    simp only [emit, hp, if_true, Tally.foldl_push]
    rfl
  | comparison op l r ihl ihr =>
    intro k
    simp only [emit, Spelling.spell, ihl, ihr, bindings, slots, List.append_assoc,
      List.length_append, Nat.add_assoc]
  | append l r ihl ihr =>
    intro k
    simp only [emit, Spelling.spell, ihl, ihr, bindings, slots, List.append_assoc,
      List.length_append, Nat.add_assoc]
  | paren body ih =>
    intro k
    simp only [emit, Spelling.spell, ih]
    rfl
  | indented body ih =>
    intro k
    simp only [emit, Spelling.spell, ih]
    rfl
  | _ =>
    intro k
    simp [emit, Spelling.spell, bindings, slots]

end Doc

/-! ## 3. Reachable states -/

/-- The states that a fresh session comes to by writing texts, pushing values and resetting. -/
inductive Tally.Reached : Tally → Prop where
  | fresh : Reached .fresh
  | emit {k : Tally} (how : Spelling) (d : Doc) (h : Reached k) : Reached (d.emit how k).2
  | push {k : Tally} (v : Value) (h : Reached k) : Reached (k.push v)
  | reset {k : Tally} (h : Reached k) : Reached .fresh

/-- **The counter is the number of parameters in every state that is reached.** -/
theorem Tally.Reached.exact {k : Tally} (h : k.Reached) : k.Exact := by
  induction h with
  | fresh => rfl
  | reset _ _ => rfl
  | push v _ ih =>
    unfold Exact Tally.push at *
    rw [List.length_append, List.length_singleton, ih]
  | emit how d _ ih =>
    unfold Exact at *
    cases hp : how.parameterise with
    | false => rw [Doc.emit_eq_of_inline hp]; exact ih
    | true =>
      rw [Doc.emit_eq_of_parameterise hp, List.length_append, ← ih]
      rfl

/-! ## 4. Rendering a tree -/

namespace Session

/-- What a rendering that is not refused gives. -/
theorem render_eq_ok_iff {s s' : Session} {t : Node} {text : String} :
    s.render t = .ok (text, s') ↔
      (t.doc s.renderer.layout).fault? = none
        ∧ text = s.renderer.spelling.spell (t.doc s.renderer.layout) s.index
        ∧ s' = if s.renderer.parameterise then { s with params := s.params ++ t.collect }
          else s := by
  unfold render write
  rw [Node.bindings_doc]
  cases (t.doc s.renderer.layout).fault? with
  | some m => simp
  | none =>
    simp only [Except.ok.injEq, Prod.mk.injEq, true_and]
    exact ⟨fun ⟨h1, h2⟩ => ⟨h1.symm, h2.symm⟩, fun ⟨h1, h2⟩ => ⟨h1.symm, h2.symm⟩⟩

/-- A rendering is refused for the fault of its text. -/
theorem render_eq_error_iff {s : Session} {t : Node} {misuse : Misuse} :
    s.render t = .error misuse ↔ (t.doc s.renderer.layout).fault? = some misuse := by
  unfold render write
  cases (t.doc s.renderer.layout).fault? with
  | none => exact iff_of_false (fun h => by cases h) (fun h => by cases h)
  | some other =>
    show Except.error other = Except.error misuse ↔ _
    rw [Except.error.injEq, Option.some.injEq]

/-- **The parameter trace of a rendering.** With placeholders the parameters grow by what the
    tree collects, which is a list of the tree alone, and the counter by its length; without
    placeholders neither moves. Pushing one value at a time, as the text comes to it, leaves the
    same text and state, and in every state reached that way the counter is the number of
    parameters. -/
theorem render_collects {s s' : Session} {t : Node} {text : String}
    (h : s.render t = .ok (text, s')) :
    s'.renderer = s.renderer
      ∧ (s.renderer.parameterise = true →
          s'.params = s.params ++ t.collect ∧ s'.index = s.index + t.collect.length)
      ∧ (s.renderer.parameterise = false → s'.params = s.params ∧ s'.index = s.index)
      ∧ (t.doc s.renderer.layout).emit s.renderer.spelling s.tally = (text, s'.tally)
      ∧ ∀ k : Tally, k.Reached → k.index = k.params.length := by
  obtain ⟨_, rfl, rfl⟩ := render_eq_ok_iff.mp h
  refine ⟨?_, ?_, ?_, ?_, fun k hk => hk.exact⟩
  · split <;> rfl
  · intro hp
    rw [if_pos hp]
    exact ⟨rfl, List.length_append⟩
  · intro hp
    rw [hp]
    exact ⟨rfl, rfl⟩
  · cases hp : s.renderer.parameterise with
    | false => exact Doc.emit_eq_of_inline hp _ _
    | true =>
      rw [Doc.emit_eq_of_parameterise hp, Doc.slots, Node.bindings_doc]
      simp only [tally, index, if_true, List.length_append]

/-- A DELETE with an empty membership of a constant, a null, verbatim SQL that binds a null, and a
    parameter. -/
def mixedDelete : Node :=
  ⟨.delete
    { target := ⟨.table "t"⟩
      wheres :=
        [⟨.membership ⟨.literal (.int 7)⟩ [] false⟩, ⟨.nullTest ⟨.literal .null⟩ .isNull⟩,
          ⟨.raw "f($2, $3)" [.null, .int 1]⟩, ⟨.bind (.bool true)⟩] }⟩

/-- Behind one parameter and over several lines, `mixedDelete` adds the bindings of its verbatim
    SQL and the parameter after it, and nothing else. -/
theorem render_collects_mixedDelete :
    ∃ s' : Session,
      (Session.mk ⟨.postgres, .lines, true⟩ [.text "a"]).render mixedDelete =
          .ok ("DELETE FROM \"t\"\nWHERE 1=0\n\tAND NULL IS NULL\n\tAND f($2, $3)\n\tAND $4", s')
        ∧ s'.params = [.text "a"] ++ mixedDelete.collect
        ∧ mixedDelete.collect = [.null, .int 1, .bool true] := by
  have h : (Session.mk ⟨.postgres, .lines, true⟩ [.text "a"]).render mixedDelete =
      .ok ("DELETE FROM \"t\"\nWHERE 1=0\n\tAND NULL IS NULL\n\tAND f($2, $3)\n\tAND $4",
        ⟨⟨.postgres, .lines, true⟩, [.text "a", .null, .int 1, .bool true]⟩) := rfl
  exact ⟨_, h, ((render_collects h).2.1 rfl).1, rfl⟩

end Session
end SqlTree
