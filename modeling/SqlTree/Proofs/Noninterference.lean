import Mathlib.Data.List.Nodup
import SqlTree.Proofs.Masking
import SqlTree.Proofs.ParameterTrace

/-!
# Two runs over one shape

Two trees that hold different values in the same places are one tree once the values are masked.
This file shows that with placeholders nobody can tell them apart by the SQL text, and where the
parameters of each come from:

* `Place`, `Node.valueAt` -- where in a tree a value stands, and the value there;
* `Node.places` -- the places that a text takes its parameters from, in the order of the text:
  all of them different, and the same for all trees of one shape;
* `render_of_masked_eq` -- two trees of one shape are refused alike, or written as one text with
  parameters from the same places.
-/

namespace SqlTree

/-! ## 1. Places -/

/-- Where a value stands: the written child to go to from each node, and the value's position
    among those of the node that is reached. -/
structure Place where
  path : List Nat
  slot : Nat
  deriving DecidableEq

/-- The same place seen from the parent, of which the node is the `i`th written child. -/
def Place.below (i : Nat) (p : Place) : Place := ⟨i :: p.path, p.slot⟩

theorem Place.below_injective (i : Nat) : Function.Injective (Place.below i) := by
  intro p q h
  obtain ⟨path, slot⟩ := p
  obtain ⟨path', slot'⟩ := q
  simp only [below, mk.injEq, List.cons.injEq, true_and] at h
  obtain ⟨rfl, rfl⟩ := h
  rfl

@[simp] theorem Form.bound_map {ν μ : Type} (f : ν → μ) (form : Form ν) :
    (form.map f).bound = form.bound := by
  cases form <;> rfl

namespace Node

/-- The node that a path leads to. -/
def descend : List Nat → Node → Option Node
  | [], n => some n
  | i :: path, n => n.form.written[i]?.bind (descend path)

/-- The value at a place, if one stands there. -/
def valueAt (n : Node) (p : Place) : Option Value :=
  (descend p.path n).bind fun m => m.form.bound[p.slot]?

theorem valueAt_below {form : Form Node} {c : Node} {i : Nat} (hc : form.written[i]? = some c)
    (p : Place) : (Node.mk form).valueAt (p.below i) = c.valueAt p := by
  have hd : descend (i :: p.path) ⟨form⟩ = descend p.path c := by
    show form.written[i]?.bind (descend p.path) = _
    rw [hc]
    rfl
  unfold valueAt Place.below
  rw [hd]

/-- Where a tree holds the values that its text binds, in the order of the text. -/
def places : Node → List Place :=
  fold fun form =>
    (List.range form.bound.length).map (Place.mk [])
      ++ form.written.zipIdx.flatMap fun c => c.1.2.map (Place.below c.2)

theorem places_mk (form : Form Node) :
    (Node.mk form).places = (List.range form.bound.length).map (Place.mk [])
      ++ form.written.zipIdx.flatMap fun c => c.1.places.map (Place.below c.2) := by
  unfold places
  rw [fold_mk, Form.bound_map, Form.written_map, List.zipIdx_map, List.flatMap_map]
  rfl

/-- **The values at the places of a tree are those it collects**, in their order. -/
theorem map_valueAt_places (n : Node) : n.places.map n.valueAt = n.collect.map some := by
  induction n using written_induction with
  | step form ih =>
    have hown : ((List.range form.bound.length).map (Place.mk [])).map (valueAt ⟨form⟩)
        = form.bound.map some := by
      rw [List.map_map]
      refine List.ext_getElem (by simp) fun i hi _ => ?_
      have hlt : i < form.bound.length := by simpa using hi
      rw [List.getElem_map, List.getElem_map, List.getElem_range]
      exact List.getElem?_eq_getElem hlt
    have hbelow : ∀ c ∈ form.written.zipIdx,
        (c.1.places.map (Place.below c.2)).map (valueAt ⟨form⟩) = c.1.collect.map some := by
      intro c hc
      have hi : form.written[c.2]? = some c.1 := List.mem_zipIdx_iff_getElem?.mp hc
      rw [List.map_map, ← ih c.1 (List.mem_of_getElem? hi)]
      exact List.map_congr_left fun p _ => valueAt_below hi p
    rw [places_mk, collect_mk, List.map_append, List.map_append, hown, List.map_flatMap,
      List.flatMap_congr hbelow, List.map_flatMap]
    have hfst := List.flatMap_map Prod.fst (fun c => (collect c).map some) form.written.zipIdx
    rw [List.zipIdx_map_fst] at hfst
    rw [hfst]

theorem length_places (n : Node) : n.places.length = n.collect.length := by
  have h := congrArg List.length n.map_valueAt_places
  rwa [List.length_map, List.length_map] at h

/-- **No place is taken twice.** -/
theorem nodup_places (n : Node) : n.places.Nodup := by
  induction n using written_induction with
  | step form ih =>
    rw [places_mk, List.nodup_append]
    refine ⟨?_, ?_, ?_⟩
    · refine List.Nodup.map ?_ List.nodup_range
      intro i j h
      injection h
    · refine List.nodup_flatMap.mpr ⟨?_, ?_⟩
      · intro c hc
        have hi : form.written[c.2]? = some c.1 := List.mem_zipIdx_iff_getElem?.mp hc
        exact (ih c.1 (List.mem_of_getElem? hi)).map (Place.below_injective c.2)
      · have hpos : (form.written.zipIdx.map Prod.snd).Nodup := by
          rw [List.zipIdx_map_snd]
          exact List.nodup_range'
        refine (List.pairwise_map.mp hpos).imp fun {c d} hne => ?_
        intro p hp hq
        obtain ⟨p', _, rfl⟩ := List.mem_map.mp hp
        obtain ⟨q', _, hq⟩ := List.mem_map.mp hq
        exact hne (List.cons.inj (Place.mk.inj hq).1).1.symm
    · intro p hp q hq heq
      obtain ⟨i, _, rfl⟩ := List.mem_map.mp hp
      obtain ⟨c, _, hq⟩ := List.mem_flatMap.mp hq
      obtain ⟨q', _, rfl⟩ := List.mem_map.mp hq
      exact List.cons_ne_nil _ _ (Place.mk.inj heq).1.symm

end Node

namespace Masking

/-- A masking that keeps nulls leaves how many values a form binds. -/
theorem length_bound_form {ν : Type} {k : Masking} (hk : k.KeepsNulls) (f : Form ν) :
    (k.form f).bound.length = f.bound.length := by
  have hv : ∀ v, (if (k.own v).isNull then [] else [k.own v]).length
      = (if v.isNull then [] else [v]).length := by
    intro v
    rw [hk v]
    split <;> rfl
  cases f with
  | literal v => exact hv v
  | bind v => exact hv v
  | cast v typeName => exact hv v
  | raw sql binds => exact List.length_map _
  | _ => rfl

/-- **The places of a tree are those of its shape.** -/
theorem places_node {k : Masking} (hk : k.KeepsNulls) (n : Node) :
    (k.node n).places = n.places := by
  induction n using Node.written_induction with
  | step form ih =>
    rw [node_mk, Node.places_mk, Node.places_mk, length_bound_form hk, Form.bound_map,
      written_form, Form.written_map, List.zipIdx_map, List.flatMap_map]
    congr 1
    refine List.flatMap_congr fun c hc => ?_
    have hi : form.written[c.2]? = some c.1 := List.mem_zipIdx_iff_getElem?.mp hc
    show (k.node c.1).places.map (Place.below c.2) = _
    rw [ih c.1 (List.mem_of_getElem? hi)]

/-! ## 2. Trees of one shape -/

/-- With placeholders two trees of one shape are spelled alike behind the same parameters. -/
theorem spell_doc_eq {k : Masking} (hk : k.KeepsNulls) {how : Spelling}
    (hp : how.parameterise = true) {t₁ t₂ : Node} (ht : k.node t₁ = k.node t₂)
    (layout : Layout) (bound : Nat) :
    how.spell (t₁.doc layout) bound = how.spell (t₂.doc layout) bound := by
  rw [← spell_doc hk hp, ← doc_node, ht, doc_node, spell_doc hk hp]

theorem fault?_doc_eq {k : Masking} {t₁ t₂ : Node} (ht : k.node t₁ = k.node t₂)
    (layout : Layout) : (t₁.doc layout).fault? = (t₂.doc layout).fault? := by
  rw [← k.fault?_doc, ← doc_node, ht, doc_node, fault?_doc]

theorem places_eq {k : Masking} (hk : k.KeepsNulls) {t₁ t₂ : Node}
    (ht : k.node t₁ = k.node t₂) : t₁.places = t₂.places := by
  rw [← places_node hk, ht, places_node hk]

end Masking

namespace Session

/-- A rendering with placeholders, from the text and the values of the tree. -/
theorem render_of_parameterise {s : Session} (hp : s.renderer.parameterise = true) {t : Node}
    (hf : (t.doc s.renderer.layout).fault? = none) :
    s.render t = .ok (s.renderer.spelling.spell (t.doc s.renderer.layout) s.index,
      { s with params := s.params ++ t.collect }) := by
  refine render_eq_ok_iff.mpr ⟨hf, rfl, ?_⟩
  rw [if_pos hp]

/-- **Values never reach the text of a rendering with placeholders.** Two trees that are the same
    once every non-null value of a constant, parameter or cast is replaced by `v`, and every value
    of verbatim SQL by `w`, are both refused, for the same reason, or both written as the same
    text; and then each adds one parameter for each of the places that they share. -/
theorem render_of_masked_eq {s₁ s₂ : Session} {t₁ t₂ : Node} {v w : Value}
    (hv : v.isNull = false) (ht : (Masking.fixed v w).node t₁ = (Masking.fixed v w).node t₂)
    (hr : s₁.renderer = s₂.renderer) (hp : s₁.renderer.parameterise = true)
    (hi : s₁.index = s₂.index) :
    (∃ misuse, s₁.render t₁ = .error misuse ∧ s₂.render t₂ = .error misuse)
      ∨ ∃ text vs₁ vs₂,
          s₁.render t₁ = .ok (text, { s₁ with params := s₁.params ++ vs₁ })
            ∧ s₂.render t₂ = .ok (text, { s₂ with params := s₂.params ++ vs₂ })
            ∧ vs₁.length = vs₂.length
            ∧ t₁.places = t₂.places ∧ t₁.places.Nodup
            ∧ t₁.places.map t₁.valueAt = vs₁.map some
            ∧ t₁.places.map t₂.valueAt = vs₂.map some := by
  have hk := Masking.keepsNulls_fixed hv w
  have hfault := Masking.fault?_doc_eq ht s₁.renderer.layout
  cases hf : (t₁.doc s₁.renderer.layout).fault? with
  | some misuse =>
    refine .inl ⟨misuse, ?_, ?_⟩
    · simp only [render, write, hf]
    · rw [hf, hr] at hfault
      simp only [render, write, ← hfault]
  | none =>
    have hplaces := Masking.places_eq hk ht
    have hspell : s₁.renderer.spelling.spell (t₁.doc s₁.renderer.layout) s₁.index
        = s₁.renderer.spelling.spell (t₂.doc s₁.renderer.layout) s₁.index :=
      Masking.spell_doc_eq hk hp ht _ _
    rw [hf, hr] at hfault
    refine .inr ⟨_, t₁.collect, t₂.collect, render_of_parameterise hp hf, ?_, ?_, hplaces,
      t₁.nodup_places, t₁.map_valueAt_places, ?_⟩
    · rw [hspell, hr, hi]
      exact render_of_parameterise (hr ▸ hp) hfault.symm
    · rw [← t₁.length_places, ← t₂.length_places, hplaces]
    · rw [hplaces]
      exact t₂.map_valueAt_places

/-- Two lookups combined: by the value `v`, and by verbatim SQL that brings along `w`. -/
def lookupBoth (v w : Value) : Node :=
  ⟨.setOperation
    { left := ⟨.select
        { source := some ⟨.table "t"⟩
          wheres := [⟨.comparison ⟨.column ⟨.table "t"⟩ "a" none⟩ .eq ⟨.bind v⟩⟩] }⟩
      op := .union
      right := ⟨.select { source := some ⟨.table "t"⟩, wheres := [⟨.raw "b = $2" [w]⟩] }⟩ }⟩

/-- Over several lines, a text that tries to leave its place and a number are looked up by one
    statement. -/
theorem render_of_masked_eq_lookupBoth :
    ∃ text vs₁ vs₂,
      (Session.mk ⟨.postgres, .lines, true⟩ []).render
            (lookupBoth (.text "x\x27\n OR 1=1 --") .null)
          = .ok (text, ⟨⟨.postgres, .lines, true⟩, vs₁⟩)
        ∧ (Session.mk ⟨.postgres, .lines, true⟩ []).render (lookupBoth (.int 5) (.bool true))
          = .ok (text, ⟨⟨.postgres, .lines, true⟩, vs₂⟩)
        ∧ vs₁.length = vs₂.length := by
  have ht : (Masking.fixed (.int 0) .null).node (lookupBoth (.text "x\x27\n OR 1=1 --") .null)
      = (Masking.fixed (.int 0) .null).node (lookupBoth (.int 5) (.bool true)) := rfl
  have hruns := @render_of_masked_eq ⟨⟨.postgres, .lines, true⟩, []⟩
    ⟨⟨.postgres, .lines, true⟩, []⟩ _ _ _ _ rfl ht rfl rfl rfl
  rcases hruns with ⟨misuse, h, _⟩ | ⟨text, vs₁, vs₂, h₁, h₂, hlen, _⟩
  · have hok : ((⟨⟨.postgres, .lines, true⟩, []⟩ : Session).render
        (lookupBoth (.text "x\x27\n OR 1=1 --") .null)).isOk = true := rfl
    rw [h] at hok
    cases hok
  · exact ⟨text, vs₁, vs₂, h₁, h₂, hlen⟩

end Session
end SqlTree
