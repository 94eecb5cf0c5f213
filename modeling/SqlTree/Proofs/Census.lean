import Mathlib
import SqlTree.Proofs.ParameterTrace
import SqlTree.Proofs.SketchDrawing

/-!
# Which boxes are drawn

How many boxes a tree is due is read off the tree alone, and so is which of them it gets:

* `Form.clauses`, `Form.countedChildren`, `Node.size` -- a box for every node and one for every
  clause that is a thing of its own; the relation of a column or star is only named;
* `Form.drawnChildren` -- the same without what the rows of a SELECT are distinct on;
* `Sketch.Draws` -- a sketch draws one box, some boxes for clauses, and other sketches behind each
  other; one step per way of growing a sketch, one lemma per clause, `Draw.draws_form` for all
  forms;
* `Node.size_eq` -- the boxes that are missing are those below DISTINCT ON;
* `Graph.visit_counts` -- what a visit adds: in number, in order, and next to the values that the
  text of the tree binds.
-/

namespace SqlTree

variable {ν μ : Type}

/-! ## 1. What is due a box -/

/-- The ends of a frame. -/
def Frame.clauses (frame : Frame ν) : Nat := 1 + frame.stop.toList.length

/-- The frame and its ends. -/
def Window.clauses (w : Window ν) : Nat :=
  (w.frame.toList.map fun frame => 1 + frame.clauses).sum

/-- The window of a window function, also if it is only named. -/
def WindowRef.clauses : WindowRef ν → Nat
  | .inline w => 1 + w.clauses
  | .named _ => 1

def ConflictAction.clauses : ConflictAction ν → Nat
  | .doNothing => 0
  | .doUpdate assignments _ => assignments.length

def Select.clauses (s : Select ν) : Nat :=
  s.ctes.length + s.joins.length + (s.windows.map fun w => 1 + w.clauses).sum

def Insert.clauses (s : Insert ν) : Nat :=
  s.rows.length + (s.onConflict.toList.map fun c => 1 + c.action.clauses).sum

/-- How many things of its own, besides its children, a form holds: CTEs, joins, windows, frames and
    their ends, grouping sets, rows, conflict clauses and assignments. -/
def Form.clauses : Form ν → Nat
  | .window w => w.clauses
  | .windowed _ w => w.clauses
  | .groupingSet _ _ sets => sets.length
  | .select s => s.clauses
  | .insert s => s.clauses
  | .update s => s.assignments.length
  | _ => 0

/-- The children of a form, except a relation that a column or star only names. -/
def Form.countedChildren : Form ν → List ν
  | .column _ _ _ => []
  | .star _ => []
  | form => form.children

/-- What the rows of a SELECT are distinct on. -/
def Form.distinctOn : Form ν → List ν
  | .select s => s.distinctOn
  | _ => []

/-- The counted children of a form without what its rows are distinct on. -/
def Form.drawnChildren : Form ν → List ν
  | .select s => { s with distinctOn := [] }.children
  | form => form.countedChildren

section Map

variable (f : ν → μ)

@[simp] theorem Frame.clauses_map (frame : Frame ν) : (frame.map f).clauses = frame.clauses := by
  obtain ⟨unit, start, stop⟩ := frame
  cases stop <;> rfl

@[simp] theorem Window.clauses_map (w : Window ν) : (w.map f).clauses = w.clauses := by
  obtain ⟨name, partition, order, frame⟩ := w
  cases frame with
  | none => rfl
  | some frame => simp [clauses, map]

@[simp] theorem WindowRef.clauses_map (w : WindowRef ν) : (w.map f).clauses = w.clauses := by
  cases w <;> simp [clauses, map]

@[simp] theorem ConflictAction.clauses_map (a : ConflictAction ν) :
    (a.map f).clauses = a.clauses := by
  cases a <;> simp [clauses, map]

@[simp] theorem Select.clauses_map (s : Select ν) : (s.map f).clauses = s.clauses := by
  simp [clauses, map, Function.comp_def]

@[simp] theorem Insert.clauses_map (s : Insert ν) : (s.map f).clauses = s.clauses := by
  obtain ⟨target, columns, rows, select, returning, onConflict⟩ := s
  cases onConflict <;> simp [clauses, map, OnConflict.map]

@[simp] theorem Form.clauses_map (form : Form ν) : (form.map f).clauses = form.clauses := by
  cases form <;> simp [clauses, map, Update.map]

theorem Form.countedChildren_map (form : Form ν) :
    (form.map f).countedChildren = form.countedChildren.map f := by
  have hchildren := form.children_map f
  cases form with
  | column relation name typeName => rfl
  | star relation => rfl
  | _ => exact hchildren

theorem Form.drawnChildren_map (form : Form ν) :
    (form.map f).drawnChildren = form.drawnChildren.map f := by
  have hcounted := form.countedChildren_map f
  cases form with
  | select s => exact Select.children_map f { s with distinctOn := [] }
  | _ => exact hcounted

end Map

theorem Form.countedChildren_sublist (form : Form ν) :
    form.countedChildren.Sublist form.children := by
  cases form with
  | column relation name typeName => exact List.nil_sublist _
  | star relation => exact List.nil_sublist _
  | _ => exact .refl _

theorem Form.drawnChildren_sublist (form : Form ν) :
    form.drawnChildren.Sublist form.countedChildren := by
  cases form with
  | select s =>
    simp only [drawnChildren, countedChildren, children, Select.children, List.append_assoc]
    exact (List.nil_sublist s.distinctOn).append_right _ |>.append_left _
  | _ => exact .refl _

theorem Form.drawnChildren_eq {form : Form ν} (h : form.distinctOn = []) :
    form.drawnChildren = form.countedChildren := by
  cases form with
  | select s =>
    obtain ⟨⟩ := s
    obtain rfl : _ = [] := h
    rfl
  | _ => rfl

/-- **What is counted is drawn, or the rows are distinct on it.** -/
theorem Form.countedChildren_perm (form : Form ν) :
    form.countedChildren.Perm (form.distinctOn ++ form.drawnChildren) := by
  cases form with
  | select s =>
    simp only [drawnChildren, countedChildren, distinctOn, children, Select.children,
      List.append_assoc]
    exact List.perm_append_comm_assoc _ _ _
  | _ => exact .refl _

/-! ## 2. What the text holds is counted -/

theorem Join.written_sublist (j : Join ν) : j.written.Sublist j.children := by
  obtain ⟨kind, right, predicate, lateral⟩ := j
  cases kind with
  | verbatim => exact (List.nil_sublist _).cons_cons right
  | _ => exact .refl _

theorem Insert.writtenSource_sublist (s : Insert ν) :
    s.writtenSource.Sublist (s.rows.flatten ++ s.select.toList) := by
  obtain ⟨target, columns, rows, select, returning, onConflict⟩ := s
  cases select with
  | none => exact List.sublist_append_left _ _
  | some query => exact List.sublist_append_right _ _

/-- **What is written of a form is counted**, and in the same order. -/
theorem Form.written_sublist (form : Form ν) : form.written.Sublist form.countedChildren := by
  cases form with
  | column relation name typeName => exact .refl _
  | star relation => exact .refl _
  | membership operand values negated =>
    cases values with
    | nil => exact List.nil_sublist _
    | cons v rest => exact .refl _
  | groupingSet kind columns sets =>
    cases kind with
    | groupingSets => exact List.sublist_append_right _ _
    | _ => exact List.sublist_append_left _ _
  | join j => exact j.written_sublist
  | select s =>
    have hjoins : (s.joins.flatMap Join.written).Sublist (s.joins.flatMap Join.children) :=
      List.Sublist.flatMap_right _ fun j _ => j.written_sublist
    simp only [written, countedChildren, children, Select.written, Select.children,
      List.append_assoc]
    exact (((((hjoins.append_right _).append_left _).append_left _).append_left _).append_left _)
  | insert s =>
    have hsource := s.writtenSource_sublist
    simp only [written, countedChildren, children, Insert.written, Insert.children]
    refine List.Sublist.cons_cons _ (List.Sublist.append_right ?_ _)
    refine List.Sublist.append_right ?_ _
    rw [List.append_assoc]
    exact hsource.append_left _
  | _ => exact .refl _

/-! ## 3. All nodes below chosen children -/

/-- A choice of children that depends only on where they stand in their form. -/
structure Choice where
  pick : {ν : Type} → Form ν → List ν
  pick_map : ∀ {ν μ : Type} (f : ν → μ) (form : Form ν), pick (form.map f) = (pick form).map f
  pick_sublist : ∀ {ν : Type} (form : Form ν), (pick form).Sublist form.children

namespace Choice

/-- A node and, before its next sibling, everything below it that is chosen. -/
def all (c : Choice) (n : Node) : List Node :=
  n :: n.fold fun form => (c.pick form).flatMap fun child => child.1 :: child.2

theorem all_mk (c : Choice) (form : Form Node) :
    c.all ⟨form⟩ = ⟨form⟩ :: (c.pick form).flatMap c.all := by
  unfold all
  rw [Node.fold_mk, c.pick_map, List.flatMap_map]

theorem all_sublist {c d : Choice}
    (h : ∀ form : Form Node, (c.pick form).Sublist (d.pick form)) (n : Node) :
    (c.all n).Sublist (d.all n) := by
  induction n using Node.children_induction with
  | step form ih =>
    rw [all_mk, all_mk]
    refine List.Sublist.cons_cons _ ?_
    have hbelow : ((c.pick form).flatMap c.all).Sublist ((c.pick form).flatMap d.all) :=
      List.Sublist.flatMap_right _ fun child hchild =>
        ih child ((c.pick_sublist form).subset hchild)
    exact hbelow.trans ((h form).flatMap d.all)

/-- The nodes that are due a box. -/
def counted : Choice := ⟨Form.countedChildren, Form.countedChildren_map,
  Form.countedChildren_sublist⟩

/-- The nodes that get one. -/
def drawn : Choice := ⟨Form.drawnChildren, Form.drawnChildren_map,
  fun form => form.drawnChildren_sublist.trans form.countedChildren_sublist⟩

/-- The nodes that the text of a tree is made of. -/
def written : Choice := ⟨Form.written, Form.written_map,
  fun form => form.written_sublist.trans form.countedChildren_sublist⟩

end Choice

/-! ## 4. What a sketch draws -/

namespace Sketch

/-- The box that a sketch starts with. -/
def root : Sketch → Box
  | .box b => b
  | .attach parent _ _ _ => parent.root

/-- A sketch draws its first box, a number of boxes for clauses, and some sketches in order. -/
structure Draws (s : Sketch) (clauses : Nat) (inner : List Sketch) : Prop where
  size : s.size = 1 + clauses + (inner.map Sketch.size).sum
  order : (s.root :: inner.flatMap boxes).Sublist s.boxes

namespace Draws

variable {s c : Sketch} {k m : Nat} {inner below : List Sketch} {label : String} {time : LinkTime}

theorem of_eq {n : Nat} (h : Draws s k inner) (hk : k = n) (hinner : inner = below) :
    Draws s n below := by
  rw [← hk, ← hinner]
  exact h

theorem leaf (label : String) (fill : Fill) : Draws (Sketch.leaf label fill) 0 [] where
  size := rfl
  order := .refl _

/-- A link to a child. -/
theorem child (h : Draws s k inner) (label : String) (time : LinkTime) (c : Sketch) :
    Draws (s.attach label time c) k (inner ++ [c]) where
  size := by
    rw [Sketch.size, h.size, List.map_append, List.sum_append, List.map_singleton,
      List.sum_singleton, Nat.add_assoc]
  order := by
    rw [List.flatMap_append, List.flatMap_singleton]
    exact h.order.append_right c.boxes

/-- A link to the box of a clause. -/
theorem clause (h : Draws s k inner) (label : String) (time : LinkTime) (hc : Draws c m below) :
    Draws (s.attach label time c) (k + (1 + m)) (inner ++ below) where
  size := by
    rw [Sketch.size, h.size, hc.size, List.map_append, List.sum_append]
    omega
  order := by
    rw [List.flatMap_append]
    exact h.order.append ((List.sublist_cons_self _ _).trans hc.order)

theorem linkOption (h : Draws s k inner) (label : String) (child : Option Sketch) :
    Draws (s.linkOption label child) k (inner ++ child.toList) := by
  cases child with
  | none =>
    rw [Option.toList_none, List.append_nil]
    exact h
  | some c => exact h.child label .late c

theorem foldl_child (h : Draws s k inner) (label : String) (time : LinkTime)
    (children : List Sketch) :
    Draws (children.foldl (fun p c => p.attach label time c) s) k (inner ++ children) := by
  induction children generalizing s inner with
  | nil =>
    rw [List.append_nil]
    exact h
  | cons c rest ih =>
    have hrest := ih (h.child label time c)
    rw [List.append_assoc] at hrest
    exact hrest

theorem linkAll (h : Draws s k inner) (label : String) (children : List Sketch) :
    Draws (s.linkAll label children) k (inner ++ children) := h.foldl_child label .late children

variable {α : Type} {draw : α → Sketch} {more : α → Nat} {kids : α → List Sketch}

/-- Links to the boxes of several clauses. -/
theorem foldl_clause (h : Draws s k inner) (label : String) (time : LinkTime)
    (hdraw : ∀ a, Draws (draw a) (more a) (kids a)) (items : List α) :
    Draws ((items.map draw).foldl (fun p c => p.attach label time c) s)
      (k + (items.map fun a => 1 + more a).sum) (inner ++ items.flatMap kids) := by
  induction items generalizing s k inner with
  | nil =>
    rw [List.flatMap_nil, List.append_nil]
    exact h
  | cons a rest ih =>
    have hrest := ih (h.clause label time (hdraw a))
    rw [List.append_assoc, Nat.add_assoc] at hrest
    rw [List.map_cons, List.map_cons, List.sum_cons, List.flatMap_cons]
    exact hrest

theorem linkAllClauses (h : Draws s k inner) (label : String)
    (hdraw : ∀ a, Draws (draw a) (more a) (kids a)) (items : List α) :
    Draws (s.linkAll label (items.map draw)) (k + (items.map fun a => 1 + more a).sum)
      (inner ++ items.flatMap kids) := h.foldl_clause label .late hdraw items

theorem linkAllClausesFirst (h : Draws s k inner) (label : String)
    (hdraw : ∀ a, Draws (draw a) (more a) (kids a)) (items : List α) :
    Draws (s.linkAllFirst label (items.map draw)) (k + (items.map fun a => 1 + more a).sum)
      (inner ++ items.flatMap kids) := h.foldl_clause label .early hdraw items

end Draws
end Sketch

/-! ## 5. Clauses, statements and forms -/

namespace Draw

open Sketch

theorem flatMap_sketches (lists : List (List Child)) :
    lists.flatMap sketches = sketches lists.flatten := by
  rw [sketches, List.map_flatten]
  rfl

theorem draws_bound (b : Bound Child) : Draws (bound b) 0 (sketches b.children) := by
  have h := (Draws.leaf ("FrameBound\n" ++ b.word) .white).linkOption "offset"
    (b.offset?.map (·.2))
  rw [List.nil_append, Option.toList_map] at h
  exact h

theorem draws_frame (f : Frame Child) : Draws (frame f) f.clauses (sketches f.children) := by
  obtain ⟨unit, start, stop⟩ := f
  have h := (Draws.leaf ("Frame\n" ++ unit.word) .white).clause "start" .late (draws_bound start)
  cases stop with
  | none => exact h.of_eq rfl (by simp [Frame.children, sketches])
  | some b =>
    exact (h.clause "end" .late (draws_bound b)).of_eq rfl (by simp [Frame.children, sketches])

theorem draws_window (w : Window Child) : Draws (window w) w.clauses (sketches w.children) := by
  obtain ⟨name, partition, order, frame⟩ := w
  have h (label : String) := ((Draws.leaf label .lightgreen).linkAll "partition"
    (sketches partition)).linkAll "order" (sketches order)
  cases frame with
  | none => exact (h _).of_eq rfl (by simp [Window.children, sketches])
  | some f =>
    exact ((h _).clause "frame" .early (draws_frame f)).of_eq (by simp [Window.clauses])
      (by simp [Window.children, sketches])

theorem draws_windowRef (w : WindowRef Child) :
    ∃ k, w.clauses = 1 + k ∧ Draws (windowRef w) k (sketches w.children) := by
  cases w with
  | inline w => exact ⟨w.clauses, rfl, draws_window w⟩
  | named name => exact ⟨0, rfl, .leaf _ _⟩

theorem draws_join (j : Join Child) : Draws (join j) 0 (sketches j.children) := by
  have h (label : String) := ((Draws.leaf label .lightblue).child "right" .late
    j.right.2).linkOption "on" (j.predicate.map (·.2))
  exact (h _).of_eq rfl (by simp [Join.children, sketches, Option.toList_map])

theorem draws_cte (c : Cte Child) : Draws (cte c) 0 [c.query.2] :=
  (Draws.leaf _ _).child "query" .late c.query.2

theorem draws_assignment (a : Assignment Child) :
    Draws (assignment a) 0 (sketches a.children) :=
  ((Draws.leaf _ _).child "left" .late a.target.2).child "right" .late a.value.2

theorem draws_group (label item : String) (children : List Child) :
    Draws (group label item children) 0 (sketches children) :=
  (Draws.leaf _ _).linkAll item (sketches children)

theorem draws_onConflict (c : OnConflict Child) :
    Draws (onConflict c) c.action.clauses (sketches c.children) := by
  obtain ⟨columns, action⟩ := c
  have h (action : String) := (Draws.leaf ("OnConflict\n" ++ action) .lightgrey).linkAll "column"
    (sketches columns)
  cases action with
  | doNothing => exact (h _).of_eq rfl (by simp [OnConflict.children, ConflictAction.children])
  | doUpdate assignments wheres =>
    exact (((h _).linkAllClausesFirst "set" draws_assignment assignments).linkAll "where"
      (sketches wheres)).of_eq (by simp [ConflictAction.clauses])
      (by simp [OnConflict.children, ConflictAction.children, sketches, List.map_flatMap])

theorem draws_select (s : Select Child) : Draws (select s) s.clauses
    (sketches { s with distinctOn := [] }.children) := by
  have h := (Draws.leaf "SelectCore" .lightgrey).linkAllClausesFirst "cte" draws_cte s.ctes
  have h := (h.linkAll "projection" (sketches s.projections)).linkOption "from"
    (s.source.map (·.2))
  have h := (h.linkAllClauses "join" draws_join s.joins).linkAll "where" (sketches s.wheres)
  have h := (h.linkAll "group" (sketches s.groups)).linkAll "having" (sketches s.havings)
  have h := (h.linkAllClauses "window" draws_window s.windows).linkAll "order" (sketches s.orders)
  have h := (h.linkOption "limit" (s.limit.map (·.2))).linkOption "offset" (s.offset.map (·.2))
  refine h.of_eq (by simp [Select.clauses]) ?_
  have hctes : s.ctes.flatMap (fun c => [c.query.2]) = sketches (s.ctes.map (·.query)) := by
    rw [sketches, List.map_map, List.map_eq_flatMap]
    rfl
  rw [hctes]
  simp [Select.children, sketches, List.map_flatMap, Option.toList_map]

theorem draws_setOperation (s : SetOperation Child) :
    Draws (setOperation s) 0 (sketches s.children) := by
  have h := ((Draws.leaf ("SetOperation\n" ++ s.op.word) .lightgrey).child "left" .late
    s.left.2).child "right" .late s.right.2
  have h := ((h.linkAll "order" (sketches s.orders)).linkOption "limit"
    (s.limit.map (·.2))).linkOption "offset" (s.offset.map (·.2))
  exact h.of_eq rfl (by simp [SetOperation.children, sketches, Option.toList_map])

theorem draws_insert (s : Insert Child) : Draws (insert s) s.clauses (sketches s.children) := by
  obtain ⟨target, columns, rows, select, returning, onConflict⟩ := s
  have h := ((Draws.leaf "InsertStatement" .lightgrey).child "into" .late target.2).linkAll "column"
    (sketches columns)
  have h := (h.linkAllClausesFirst "values" (draws_group "Row" "value") rows).linkOption "select"
    (select.map (·.2))
  cases onConflict with
  | none =>
    exact (h.linkAll "returning" (sketches returning)).of_eq (by simp [Insert.clauses])
      (by simp [Insert.children, flatMap_sketches, sketches, Option.toList_map])
  | some c =>
    exact ((h.clause "on_conflict" .early (draws_onConflict c)).linkAll "returning"
      (sketches returning)).of_eq (by simp [Insert.clauses])
      (by simp [Insert.children, flatMap_sketches, sketches, Option.toList_map])

theorem draws_update (s : Update Child) :
    Draws (update s) s.assignments.length (sketches s.children) := by
  have h := ((Draws.leaf "UpdateStatement" .lightgrey).child "table" .late
    s.target.2).linkAllClausesFirst "set" draws_assignment s.assignments
  have h := (h.linkAll "where" (sketches s.wheres)).linkAll "returning" (sketches s.returning)
  exact h.of_eq (by simp) (by simp [Update.children, sketches, List.map_flatMap])

theorem draws_delete (s : Delete Child) : Draws (delete s) 0 (sketches s.children) := by
  have h := (Draws.leaf "DeleteStatement" .lightgrey).child "from" .late s.target.2
  have h := (h.linkAll "where" (sketches s.wheres)).linkAll "returning" (sketches s.returning)
  exact h.of_eq rfl (by simp [Delete.children, sketches])

theorem draws_one (label : String) (fill : Fill) (role : String) (c : Child) :
    Draws (one label fill role c) 0 [c.2] := (Draws.leaf _ _).child role .late c.2

theorem draws_two (label : String) (fill : Fill) (left right : Child) :
    Draws (two label fill left right) 0 [left.2, right.2] :=
  ((Draws.leaf _ _).child "left" .late left.2).child "right" .late right.2

theorem draws_branches {base : Sketch} {k : Nat} {inner : List Sketch} (h : Draws base k inner)
    (bs : List (Branch Child)) :
    Draws (branches base bs) k (inner ++ sketches (bs.flatMap Branch.children)) := by
  induction bs generalizing base inner with
  | nil => exact h.of_eq rfl (by simp [sketches])
  | cons b rest ih =>
    have hrest := ih ((h.child "when" .late b.condition.2).child "then" .late b.result.2)
    exact hrest.of_eq rfl (by simp [sketches, Branch.children])

/-- **A form draws its box, its clauses and its drawn children.** -/
theorem draws_form (f : Form Child) : Draws (form f) f.clauses (sketches f.drawnChildren) := by
  cases f with
  | table name => exact .leaf _ _
  | tableAlias relation name => exact draws_one _ _ _ relation
  | column relation name typeName => exact .leaf _ _
  | star relation => exact .leaf _ _
  | literal v => exact .leaf _ _
  | bind v => exact .leaf _ _
  | cast v typeName => exact .leaf _ _
  | raw sql binds => exact .leaf _ _
  | comparison left op right => exact draws_two _ _ left right
  | nullTest operand op => exact draws_one _ _ _ operand
  | and left right => exact draws_two _ _ left right
  | or left right => exact draws_two _ _ left right
  | not operand => exact draws_one _ _ _ operand
  | grouping operand => exact draws_one _ _ _ operand
  | membership operand values negated =>
    exact (draws_one _ _ _ operand).linkAll "value" (sketches values)
  | between operand low high negated =>
    exact ((draws_one _ _ _ operand).child "low" .late low.2).child "high" .late high.2
  | existence query negated => exact draws_one _ _ _ query
  | arithmetic left op right => exact draws_two _ _ left right
  | unary op operand => exact draws_one _ _ _ operand
  | call name arguments distinct => exact (Draws.leaf _ _).linkAll "arg" (sketches arguments)
  | aggregate func argument distinct filter =>
    have h := (Draws.leaf ("Aggregate\n" ++ func.word) .lightgreen).linkOption "expr"
      (argument.map (·.2))
    refine (h.linkOption "filter" (filter.map (·.2))).of_eq rfl ?_
    simp [Form.drawnChildren, Form.countedChildren, Form.children, sketches, Option.toList_map]
  | extract field operand => exact draws_one _ _ _ operand
  | ordering operand direction nulls => exact draws_one _ _ _ operand
  | window w => exact draws_window w
  | windowed operand w =>
    obtain ⟨k, hk, hw⟩ := draws_windowRef w
    exact ((draws_one _ _ _ operand).clause "window" .late hw).of_eq
      (by rw [Form.clauses, hk, Nat.zero_add]) rfl
  | labelled operand name => exact draws_one _ _ _ operand
  | choice operand bs otherwise =>
    have h := draws_branches ((Draws.leaf "Case" .lightgreen).linkOption "operand"
      (operand.map (·.2))) bs
    refine (h.linkOption "else" (otherwise.map (·.2))).of_eq rfl ?_
    simp [Form.drawnChildren, Form.countedChildren, Form.children, sketches, Option.toList_map]
  | groupingSet kind columns sets =>
    have h := (Draws.leaf ("GroupingSet\n" ++ kind.word) .lightgreen).linkAll "column"
      (sketches columns)
    refine (h.linkAllClausesFirst "set" (draws_group "Set" "column") sets).of_eq
      (by simp [Form.clauses]) ?_
    simp [Form.drawnChildren, Form.countedChildren, Form.children, flatMap_sketches, sketches]
  | setOperation s => exact draws_setOperation s
  | cte c => exact draws_cte c
  | assignment a => exact draws_assignment a
  | join j => exact draws_join j
  | select s => exact draws_select s
  | insert s => exact draws_insert s
  | update s => exact draws_update s
  | delete s => exact draws_delete s

end Draw

/-! ## 6. Trees -/

namespace Node

/-- How many boxes a tree is due: one for every node, and one for every clause that is a thing of
    its own. -/
def size (n : Node) : Nat := ((Choice.counted.all n).map fun m => 1 + m.form.clauses).sum

/-- A tree is due a box for its node, one for each clause in it, and the boxes of its children. -/
theorem size_mk (form : Form Node) :
    (Node.mk form).size = 1 + form.clauses + (form.countedChildren.map size).sum := by
  unfold size
  rw [Choice.all_mk, List.map_cons, List.sum_cons, List.map_flatMap, List.flatMap_def,
    List.sum_flatten, List.map_map]
  rfl

/-- The expressions of all drawn SELECTs that their rows are distinct on. -/
def undrawn (n : Node) : List Node := (Choice.drawn.all n).flatMap fun m => m.form.distinctOn

theorem undrawn_mk (form : Form Node) :
    (Node.mk form).undrawn = form.distinctOn ++ form.drawnChildren.flatMap undrawn := by
  unfold undrawn
  rw [Choice.all_mk, List.flatMap_cons, List.flatMap_assoc]
  rfl

/-- A node draws its box, its clauses and its drawn children. -/
theorem draws_mk (form : Form Node) :
    (Node.mk form).sketch.Draws form.clauses (form.drawnChildren.map sketch) := by
  have h := Draw.draws_form (form.map fun n => (n, n.sketch))
  rw [Form.clauses_map, Form.drawnChildren_map, Draw.sketches, List.map_map] at h
  rw [sketch_mk]
  exact h

/-- **What is due and not drawn is below DISTINCT ON.** -/
theorem size_eq (n : Node) : n.size = n.sketch.size + (n.undrawn.map size).sum := by
  induction n using children_induction with
  | step form ih =>
    have hdrawn : ∀ c ∈ form.drawnChildren,
        c.size = c.sketch.size + (c.undrawn.map size).sum := fun c hc =>
      ih c ((form.drawnChildren_sublist.trans form.countedChildren_sublist).subset hc)
    have hbelow : ((form.drawnChildren.flatMap undrawn).map size).sum
        = (form.drawnChildren.map fun c => (c.undrawn.map size).sum).sum := by
      rw [List.map_flatMap, List.flatMap_def, List.sum_flatten, List.map_map]
      rfl
    have hsketches : (form.drawnChildren.map sketch).map Sketch.size
        = form.drawnChildren.map fun c => c.sketch.size := List.map_map
    rw [size_mk, (form.countedChildren_perm.map size).sum_nat, (draws_mk form).size, undrawn_mk,
      List.map_append, List.sum_append, List.map_append, List.sum_append, hbelow, hsketches,
      List.map_congr_left hdrawn, List.sum_map_add]
    omega

/-- The box of a node. -/
def box (n : Node) : Box := n.sketch.root

/-- **Drawn nodes have their boxes in order.** -/
theorem drawn_sublist (n : Node) : ((Choice.drawn.all n).map box).Sublist n.sketch.boxes := by
  induction n using children_induction with
  | step form ih =>
    rw [Choice.all_mk, List.map_cons, List.map_flatMap]
    refine List.Sublist.trans (List.Sublist.cons_cons _ ?_) (draws_mk form).order
    rw [List.flatMap_map]
    exact List.Sublist.flatMap_right _ fun c hc =>
      ih c ((form.drawnChildren_sublist.trans form.countedChildren_sublist).subset hc)

theorem undrawn_eq_nil_iff {n : Node} :
    n.undrawn = [] ↔ ∀ m ∈ Choice.drawn.all n, m.form.distinctOn = [] := List.flatMap_eq_nil_iff

/-- Where no rows are distinct on anything, everything that is counted is drawn. -/
theorem drawn_all_eq {n : Node} (h : n.undrawn = []) :
    Choice.drawn.all n = Choice.counted.all n := by
  induction n using children_induction with
  | step form ih =>
    rw [undrawn_mk] at h
    obtain ⟨hself, hbelow⟩ := List.append_eq_nil_iff.mp h
    rw [Choice.all_mk, Choice.all_mk]
    show mk form :: form.drawnChildren.flatMap _ = mk form :: form.countedChildren.flatMap _
    rw [form.drawnChildren_eq hself] at hbelow ⊢
    refine congrArg _ (List.flatMap_congr fun c hc => ?_)
    exact ih c (form.countedChildren_sublist.subset hc) (List.flatMap_eq_nil_iff.mp hbelow c hc)

/-- **Nothing is left out exactly where no rows are distinct on anything.** -/
theorem undrawn_eq_nil_iff_counted {n : Node} :
    n.undrawn = [] ↔ ∀ m ∈ Choice.counted.all n, m.form.distinctOn = [] := by
  constructor
  · intro h
    rw [← drawn_all_eq h]
    exact undrawn_eq_nil_iff.mp h
  · intro h
    have hsub : (Choice.drawn.all n).Sublist (Choice.counted.all n) :=
      Choice.all_sublist (fun form => form.drawnChildren_sublist) n
    exact undrawn_eq_nil_iff.mpr fun m hm => h m (hsub.subset hm)

theorem size_pos (n : Node) : 0 < n.size := by
  obtain ⟨form⟩ := n
  rw [size_mk]
  omega

theorem sum_size_eq_zero_iff {l : List Node} : (l.map size).sum = 0 ↔ l = [] := by
  cases l with
  | nil => exact iff_of_true rfl rfl
  | cons n rest =>
    have hpos := n.size_pos
    refine iff_of_false (fun h => ?_) (List.cons_ne_nil _ _)
    rw [List.map_cons, List.sum_cons] at h
    omega

end Node

/-! ## 7. Visits -/

/-- The box of a node that holds a value which the text of a tree binds, or writes if it is null. -/
def Form.valueBox? : Form ν → Option Box
  | .literal v => some ⟨"Literal\n" ++ v.inline, .white⟩
  | .bind v => some ⟨"BindParam\n" ++ v.inline, .white⟩
  | .cast v typeName => some ⟨"Casted\n" ++ v.inline ++ " AS " ++ typeName, .white⟩
  | _ => none

theorem Node.box_of_valueBox? {n : Node} {b : Box} (h : n.form.valueBox? = some b) : n.box = b := by
  obtain ⟨form⟩ := n
  cases form with
  | literal v => exact Option.some.inj h
  | bind v => exact Option.some.inj h
  | cast v typeName => exact Option.some.inj h
  | _ => cases h

theorem Node.valueBoxes_sublist (l : List Node) :
    (l.filterMap fun n => n.form.valueBox?).Sublist (l.map Node.box) := by
  induction l with
  | nil => exact .refl _
  | cons n rest ih =>
    rw [List.filterMap_cons, List.map_cons]
    cases hbox : n.form.valueBox? with
    | none => exact ih.cons _
    | some b =>
      rw [n.box_of_valueBox? hbox]
      exact ih.cons_cons b

namespace Graph

/-- **What a visit draws.** Of all boxes that a tree is due exactly those are missing that are due
    to what the rows of a drawn SELECT are distinct on, so none is missing if and only if no SELECT
    in the tree has DISTINCT ON. The drawn nodes have their boxes in the order of the tree. If none
    is missing, every node has its own box, and among them stand, in the order of the text, the
    boxes of all constants, parameters and casts that the text of the tree holds. -/
theorem visit_counts (g : Graph) (n : Node) : ∃ added, (g.visit n).2.boxes = g.boxes ++ added
    ∧ n.size = added.length + (n.undrawn.map Node.size).sum
    ∧ (added.length = n.size ↔ ∀ m ∈ Choice.counted.all n, m.form.distinctOn = [])
    ∧ ((Choice.drawn.all n).map Node.box).Sublist added
    ∧ ((∀ m ∈ Choice.counted.all n, m.form.distinctOn = []) →
      ((Choice.counted.all n).map Node.box).Sublist added
        ∧ (n.visited.filterMap fun m => m.form.valueBox?).Sublist added) := by
  have hsize := n.size_eq
  refine ⟨n.sketch.boxes, g.boxes_visit n, ?_, ?_, n.drawn_sublist, fun hnone => ?_⟩
  · rw [n.sketch.length_boxes]
    exact hsize
  · rw [n.sketch.length_boxes, ← Node.undrawn_eq_nil_iff_counted, ← Node.sum_size_eq_zero_iff]
    omega
  · have hcounted := n.drawn_sublist
    rw [Node.drawn_all_eq (Node.undrawn_eq_nil_iff_counted.mpr hnone)] at hcounted
    have hwritten : (Choice.written.all n).Sublist (Choice.counted.all n) :=
      Choice.all_sublist (fun form => form.written_sublist) n
    exact ⟨hcounted, (Node.valueBoxes_sublist _).trans ((hwritten.map Node.box).trans hcounted)⟩

/-- Two rows for a table, and what to do with those that are there already. -/
def upsert : Node := ⟨.insert {
  target := ⟨.table "t"⟩
  columns := [⟨.column ⟨.table "t"⟩ "a" none⟩]
  rows := [[⟨.literal (.bool true)⟩], [⟨.bind (.text "x")⟩]]
  onConflict := some ⟨[⟨.column ⟨.table "t"⟩ "a" none⟩],
    .doUpdate [⟨⟨.column ⟨.table "t"⟩ "a" none⟩, ⟨.cast (.bool false) "text"⟩⟩] []⟩ }⟩

/-- Twelve boxes: the statement, its table, a column, two rows with a value each, the conflict
    clause with a column, and an assignment with its two sides. -/
theorem visit_counts_upsert : ∃ added, (({} : Graph).visit upsert).2.boxes = added
    ∧ (∀ m ∈ Choice.counted.all upsert, m.form.distinctOn = [])
    ∧ added.length = 12
    ∧ [⟨"Literal\nTRUE", .white⟩, ⟨"BindParam\n'x'", .white⟩,
        ⟨"Casted\nFALSE AS text", .white⟩].Sublist added := by
  have hnone : ∀ m ∈ Choice.counted.all upsert, m.form.distinctOn = [] :=
    Node.undrawn_eq_nil_iff_counted.mp rfl
  obtain ⟨added, hboxes, -, hcount, -, hall⟩ := visit_counts {} upsert
  exact ⟨added, hboxes, hnone, hcount.mpr hnone, (hall hnone).2⟩

/-- A query whose rows are distinct on a constant. -/
def distinctOnFive : Node := ⟨.select {
  source := some ⟨.table "t"⟩
  distinctOn := [⟨.literal (.int 5)⟩] }⟩

/-- **What rows are distinct on is not drawn.** The query is due three boxes and its text binds the
    constant, but only the query and its table are drawn. -/
theorem distinct_on_undrawn :
    (¬ ∀ (g : Graph) (n : Node), (g.visit n).2.boxes.length = g.boxes.length + n.size)
      ∧ distinctOnFive.size = 3
      ∧ distinctOnFive.collect = [.int 5]
      ∧ (({} : Graph).visit distinctOnFive).2.boxes
        = [⟨"SelectCore", .lightgrey⟩, ⟨"Table\nt", .lightblue⟩] := by
  refine ⟨fun h => ?_, rfl, rfl, rfl⟩
  have hlength : 2 = 0 + 3 := h {} distinctOnFive
  omega

end Graph
end SqlTree
