import SqlTree.Proofs.Sketches

/-!
# How links are labelled

The label of a link says what a box is to another one, in words of a fixed list. No text of the tree
that is drawn ever stands there:

* `linkLabels` -- the list;
* `Sketch.Worded` -- a sketch with labels of the list, however it is grown;
* `Draw.worded_form` -- what is drawn for a form, one lemma for each clause;
* `Node.worded_sketch` -- every tree is drawn with labels of the list.
-/

namespace SqlTree

/-! ## 1. Sketches with labels of a list -/

/-- The labels that links have. -/
def linkLabels : List String :=
  ["relation", "expr", "left", "right", "value", "low", "high", "subquery", "arg", "filter",
    "window", "operand", "when", "then", "else", "column", "set", "offset", "start", "end",
    "partition", "order", "frame", "on", "query", "where", "cte", "projection", "from", "join",
    "group", "having", "limit", "into", "values", "select", "on_conflict", "returning", "table"]

namespace Sketch

/-- All links of a sketch have labels of the list. -/
def Worded : Sketch → Prop
  | .box _ => True
  | .attach parent label _ child => parent.Worded ∧ label ∈ linkLabels ∧ child.Worded

variable {s c : Sketch} {label : String}

theorem worded_leaf (label : String) (fill : Fill) : (leaf label fill).Worded := trivial

namespace Worded

theorem link (h : s.Worded) (hlabel : label ∈ linkLabels) (hc : c.Worded) :
    (s.link label c).Worded := ⟨h, hlabel, hc⟩

theorem linkFirst (h : s.Worded) (hlabel : label ∈ linkLabels) (hc : c.Worded) :
    (s.linkFirst label c).Worded := ⟨h, hlabel, hc⟩

theorem linkOption (h : s.Worded) (hlabel : label ∈ linkLabels) {child : Option Sketch}
    (hc : ∀ c ∈ child, c.Worded) : (s.linkOption label child).Worded := by
  cases child with
  | none => exact h
  | some c => exact ⟨h, hlabel, hc c rfl⟩

/-- When links are drawn does not change how they are labelled. -/
theorem foldl (h : s.Worded) (hlabel : label ∈ linkLabels) (time : LinkTime)
    {children : List Sketch} (hc : ∀ c ∈ children, c.Worded) :
    (children.foldl (fun p c => p.attach label time c) s).Worded := by
  induction children generalizing s with
  | nil => exact h
  | cons c rest ih =>
    obtain ⟨hfirst, hrest⟩ := List.forall_mem_cons.mp hc
    exact ih ⟨h, hlabel, hfirst⟩ hrest

theorem linkAll (h : s.Worded) (hlabel : label ∈ linkLabels) {children : List Sketch}
    (hc : ∀ c ∈ children, c.Worded) : (s.linkAll label children).Worded :=
  h.foldl hlabel .late hc

theorem linkAllFirst (h : s.Worded) (hlabel : label ∈ linkLabels) {children : List Sketch}
    (hc : ∀ c ∈ children, c.Worded) : (s.linkAllFirst label children).Worded :=
  h.foldl hlabel .early hc

theorem mem_linkLabels (h : s.Worded) (start : Nat) :
    ∀ e ∈ s.edges start, e.label ∈ linkLabels := by
  induction s generalizing start with
  | box b => exact fun e he => by cases he
  | attach parent label time child ihp ihc =>
    obtain ⟨hparent, hlabel, hchild⟩ := h
    intro e he
    rcases List.mem_append.mp ((edges_attach start parent label time child).mem_iff.mp he)
      with he | he
    · exact ihp hparent start e he
    · rcases List.mem_cons.mp he with rfl | he
      · exact hlabel
      · exact ihc hchild _ e he

end Worded
end Sketch

namespace Draw

open Sketch

/-! ## 2. What is drawn for a form -/

/-- A child that is drawn with labels of the list. -/
abbrev Drawn := { c : Child // c.2.Worded }

theorem worded_sketches (children : List Drawn) :
    ∀ s ∈ sketches (children.map Subtype.val), s.Worded := by
  intro s hs
  obtain ⟨c, hc, rfl⟩ := List.mem_map.mp hs
  obtain ⟨d, -, rfl⟩ := List.mem_map.mp hc
  exact d.property

theorem worded_option (child : Option Drawn) :
    ∀ s ∈ (child.map Subtype.val).map (·.2), s.Worded := by
  intro s hs
  cases child with
  | none => cases hs
  | some d =>
    obtain rfl := Option.some.inj hs
    exact d.property

/-- The sketches of clauses, if each of them is worded. -/
theorem worded_clauses {α β : Type} {f : α → β} {draw : β → Sketch}
    (h : ∀ a, (draw (f a)).Worded) (items : List α) :
    ∀ s ∈ (items.map f).map draw, s.Worded := by
  rw [List.map_map]
  exact List.forall_mem_map.mpr fun a _ => h a

theorem worded_bound (b : Bound Drawn) : (bound (b.map Subtype.val)).Worded := by
  refine (worded_leaf _ _).linkOption (by decide) fun s hs => ?_
  cases b with
  | preceding offset =>
    obtain rfl := Option.some.inj hs
    exact offset.property
  | following offset =>
    obtain rfl := Option.some.inj hs
    exact offset.property
  | _ => cases hs

theorem worded_frame (f : Frame Drawn) : (frame (f.map Subtype.val)).Worded := by
  refine ((worded_leaf _ _).link (by decide) (worded_bound f.start)).linkOption (by decide)
    fun s hs => ?_
  obtain ⟨unit, start, stop⟩ := f
  cases stop with
  | none => cases hs
  | some b =>
    obtain rfl := Option.some.inj hs
    exact worded_bound b

theorem worded_window (w : Window Drawn) : (window (w.map Subtype.val)).Worded := by
  have h (label : String) := ((worded_leaf label .lightgreen).linkAll
    (by decide : "partition" ∈ linkLabels) (worded_sketches w.partition)).linkAll
    (by decide : "order" ∈ linkLabels) (worded_sketches w.order)
  obtain ⟨name, partition, order, frame⟩ := w
  cases frame with
  | none => exact h _
  | some f => exact (h _).linkFirst (by decide) (worded_frame f)

theorem worded_windowRef (w : WindowRef Drawn) : (windowRef (w.map Subtype.val)).Worded := by
  cases w with
  | inline w => exact worded_window w
  | named name => exact worded_leaf _ _

theorem worded_join (j : Join Drawn) : (join (j.map Subtype.val)).Worded :=
  ((worded_leaf _ _).link (by decide) j.right.property).linkOption (by decide)
    (worded_option j.predicate)

theorem worded_cte (c : Cte Drawn) : (cte (c.map Subtype.val)).Worded :=
  (worded_leaf _ _).link (by decide) c.query.property

theorem worded_assignment (a : Assignment Drawn) : (assignment (a.map Subtype.val)).Worded :=
  ((worded_leaf _ _).link (by decide) a.target.property).link (by decide) a.value.property

theorem worded_group {item : String} (hitem : item ∈ linkLabels) (label : String)
    (children : List Drawn) : (group label item (children.map Subtype.val)).Worded :=
  (worded_leaf _ _).linkAll hitem (worded_sketches children)

theorem worded_onConflict (c : OnConflict Drawn) : (onConflict (c.map Subtype.val)).Worded := by
  have h (label : String) := (worded_leaf label .lightgrey).linkAll
    (by decide : "column" ∈ linkLabels) (worded_sketches c.columns)
  obtain ⟨columns, action⟩ := c
  cases action with
  | doNothing => exact h _
  | doUpdate assignments wheres =>
    exact ((h _).linkAllFirst (by decide) (worded_clauses worded_assignment assignments)).linkAll
      (by decide) (worded_sketches wheres)

theorem worded_select (s : Select Drawn) : (select (s.map Subtype.val)).Worded := by
  have h := (worded_leaf "SelectCore" .lightgrey).linkAllFirst (by decide : "cte" ∈ linkLabels)
    (worded_clauses worded_cte s.ctes)
  have h := (h.linkAll (by decide : "projection" ∈ linkLabels)
    (worded_sketches s.projections)).linkOption (by decide : "from" ∈ linkLabels)
    (worded_option s.source)
  have h := (h.linkAll (by decide : "join" ∈ linkLabels)
    (worded_clauses worded_join s.joins)).linkAll (by decide : "where" ∈ linkLabels)
    (worded_sketches s.wheres)
  have h := (h.linkAll (by decide : "group" ∈ linkLabels) (worded_sketches s.groups)).linkAll
    (by decide : "having" ∈ linkLabels) (worded_sketches s.havings)
  have h := (h.linkAll (by decide : "window" ∈ linkLabels)
    (worded_clauses worded_window s.windows)).linkAll (by decide : "order" ∈ linkLabels)
    (worded_sketches s.orders)
  exact (h.linkOption (by decide) (worded_option s.limit)).linkOption (by decide)
    (worded_option s.offset)

theorem worded_setOperation (s : SetOperation Drawn) :
    (setOperation (s.map Subtype.val)).Worded := by
  have h := ((worded_leaf ("SetOperation\n" ++ s.op.word) .lightgrey).link
    (by decide : "left" ∈ linkLabels) s.left.property).link (by decide : "right" ∈ linkLabels)
    s.right.property
  exact ((h.linkAll (by decide) (worded_sketches s.orders)).linkOption (by decide)
    (worded_option s.limit)).linkOption (by decide) (worded_option s.offset)

theorem worded_insert (s : Insert Drawn) : (insert (s.map Subtype.val)).Worded := by
  have h := ((worded_leaf "InsertStatement" .lightgrey).link (by decide : "into" ∈ linkLabels)
    s.target.property).linkAll (by decide : "column" ∈ linkLabels) (worded_sketches s.columns)
  have h := (h.linkAllFirst (by decide : "values" ∈ linkLabels)
    (worded_clauses (worded_group (by decide : "value" ∈ linkLabels) "Row") s.rows)).linkOption
    (by decide : "select" ∈ linkLabels) (worded_option s.select)
  obtain ⟨target, columns, rows, query, returning, onConflict⟩ := s
  cases onConflict with
  | none => exact h.linkAll (by decide) (worded_sketches returning)
  | some c =>
    exact (h.linkFirst (by decide : "on_conflict" ∈ linkLabels) (worded_onConflict c)).linkAll
      (by decide) (worded_sketches returning)

theorem worded_update (s : Update Drawn) : (update (s.map Subtype.val)).Worded := by
  have h := ((worded_leaf "UpdateStatement" .lightgrey).link (by decide : "table" ∈ linkLabels)
    s.target.property).linkAllFirst (by decide : "set" ∈ linkLabels)
    (worded_clauses worded_assignment s.assignments)
  exact (h.linkAll (by decide) (worded_sketches s.wheres)).linkAll (by decide)
    (worded_sketches s.returning)

theorem worded_delete (s : Delete Drawn) : (delete (s.map Subtype.val)).Worded :=
  (((worded_leaf _ _).link (by decide) s.target.property).linkAll (by decide)
    (worded_sketches s.wheres)).linkAll (by decide) (worded_sketches s.returning)

theorem worded_branches {base : Sketch} (h : base.Worded) (bs : List (Branch Drawn)) :
    (branches base (bs.map (Branch.map Subtype.val))).Worded := by
  unfold branches
  induction bs generalizing base with
  | nil => exact h
  | cons b rest ih =>
    exact ih ((h.link (by decide) b.condition.property).link (by decide) b.result.property)

theorem worded_one {role : String} (hrole : role ∈ linkLabels) (label : String) (fill : Fill)
    (c : Drawn) : (one label fill role c.val).Worded :=
  (worded_leaf _ _).link hrole c.property

theorem worded_two (label : String) (fill : Fill) (left right : Drawn) :
    (two label fill left.val right.val).Worded :=
  ((worded_leaf _ _).link (by decide) left.property).link (by decide) right.property

/-- **Whatever is drawn, its links are labelled by words of the list.** -/
theorem worded_form (form : Form Drawn) : (Draw.form (form.map Subtype.val)).Worded := by
  cases form with
  | comparison left op right => exact worded_two _ _ left right
  | and left right => exact worded_two _ _ left right
  | or left right => exact worded_two _ _ left right
  | arithmetic left op right => exact worded_two _ _ left right
  | tableAlias relation name => exact worded_one (by decide) _ _ relation
  | nullTest c op => exact worded_one (by decide) _ _ c
  | not c => exact worded_one (by decide) _ _ c
  | grouping c => exact worded_one (by decide) _ _ c
  | existence query negated => exact worded_one (by decide) _ _ query
  | unary op c => exact worded_one (by decide) _ _ c
  | extract field c => exact worded_one (by decide) _ _ c
  | ordering c direction nulls => exact worded_one (by decide) _ _ c
  | labelled c name => exact worded_one (by decide) _ _ c
  | membership c values negated =>
    exact (worded_one (by decide) _ _ c).linkAll (by decide) (worded_sketches values)
  | between c low high negated =>
    exact ((worded_one (by decide) _ _ c).link (by decide) low.property).link (by decide)
      high.property
  | call name arguments distinct =>
    exact (worded_leaf _ _).linkAll (by decide) (worded_sketches arguments)
  | aggregate func argument distinct filter =>
    exact ((worded_leaf _ _).linkOption (by decide) (worded_option argument)).linkOption
      (by decide) (worded_option filter)
  | window w => exact worded_window w
  | windowed c w => exact (worded_one (by decide) _ _ c).link (by decide) (worded_windowRef w)
  | choice c bs otherwise =>
    exact (worded_branches ((worded_leaf _ _).linkOption (by decide) (worded_option c))
      bs).linkOption (by decide) (worded_option otherwise)
  | groupingSet kind columns sets =>
    exact ((worded_leaf _ _).linkAll (by decide) (worded_sketches columns)).linkAllFirst
      (by decide) (worded_clauses (worded_group (by decide) "Set") sets)
  | setOperation s => exact worded_setOperation s
  | cte c => exact worded_cte c
  | assignment a => exact worded_assignment a
  | join j => exact worded_join j
  | select s => exact worded_select s
  | insert s => exact worded_insert s
  | update s => exact worded_update s
  | delete s => exact worded_delete s
  | _ => exact worded_leaf _ _

end Draw

/-! ## 3. Trees -/

/-- **Every tree is drawn with labels of the list.** -/
theorem Node.worded_sketch (n : Node) : n.sketch.Worded := by
  induction n using Node.stored_induction with
  | step form =>
    have h := Draw.worded_form
      (form.map fun n => (⟨(n.val, n.val.sketch), n.property⟩ : Draw.Drawn))
    rw [Form.map_map] at h
    rw [Node.sketch_mk, Form.map_map]
    exact h

end SqlTree
