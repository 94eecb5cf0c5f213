import SqlTree.Form

/-!
# Statement trees

A `Node` is a form whose children are nodes. Everything that is computed from a tree is computed
by one recursion, `Node.fold`: its step sees the form of a node with, for each child, the child
itself and what was computed for it. `Node.fold_mk` is the equation that all proofs use, and
nothing else unfolds the recursion.
-/

namespace SqlTree

/-- A statement, a clause or an expression as a tree. -/
inductive Node where
  | mk (form : Form Node)

namespace Node

/-- The outermost layer of a tree. -/
def form : Node → Form Node
  | .mk form => form

/-- The name of a node's form. -/
def variant (n : Node) : String := n.form.variant

/-! ## 1. The recursion -/

variable {α : Type}

mutual

/-- The recursion over a tree: `step` combines what was computed for the children. -/
def fold (step : Form (Node × α) → α) : Node → α
  | .mk form => step (foldForm step form)

def foldForm (step : Form (Node × α) → α) : Form Node → Form (Node × α)
  | .table name => .table name
  | .tableAlias relation name => .tableAlias (relation, relation.fold step) name
  | .column relation name typeName => .column (relation, relation.fold step) name typeName
  | .star relation => .star (foldOption step relation)
  | .literal value => .literal value
  | .bind value => .bind value
  | .cast value typeName => .cast value typeName
  | .raw sql binds => .raw sql binds
  | .comparison left op right => .comparison (left, left.fold step) op (right, right.fold step)
  | .nullTest operand op => .nullTest (operand, operand.fold step) op
  | .and left right => .and (left, left.fold step) (right, right.fold step)
  | .or left right => .or (left, left.fold step) (right, right.fold step)
  | .not operand => .not (operand, operand.fold step)
  | .grouping operand => .grouping (operand, operand.fold step)
  | .membership operand values negated =>
    .membership (operand, operand.fold step) (foldList step values) negated
  | .between operand low high negated =>
    .between (operand, operand.fold step) (low, low.fold step) (high, high.fold step) negated
  | .existence query negated => .existence (query, query.fold step) negated
  | .arithmetic left op right => .arithmetic (left, left.fold step) op (right, right.fold step)
  | .unary op operand => .unary op (operand, operand.fold step)
  | .call name arguments distinct => .call name (foldList step arguments) distinct
  | .aggregate func argument distinct filter =>
    .aggregate func (foldOption step argument) distinct (foldOption step filter)
  | .extract field operand => .extract field (operand, operand.fold step)
  | .ordering operand direction nulls => .ordering (operand, operand.fold step) direction nulls
  | .window definition => .window (foldWindow step definition)
  | .windowed operand w => .windowed (operand, operand.fold step) (foldWindowRef step w)
  | .labelled operand name => .labelled (operand, operand.fold step) name
  | .choice operand branches otherwise =>
    .choice (foldOption step operand) (foldBranches step branches) (foldOption step otherwise)
  | .groupingSet kind columns sets => .groupingSet kind (foldList step columns) (foldRows step sets)
  | .setOperation s => .setOperation (foldSetOperation step s)
  | .cte c => .cte (foldCte step c)
  | .assignment a => .assignment (foldAssignment step a)
  | .join j => .join (foldJoin step j)
  | .select s => .select (foldSelect step s)
  | .insert s => .insert (foldInsert step s)
  | .update s => .update (foldUpdate step s)
  | .delete s => .delete (foldDelete step s)

def foldOption (step : Form (Node × α) → α) : Option Node → Option (Node × α)
  | none => none
  | some n => some (n, n.fold step)

def foldList (step : Form (Node × α) → α) : List Node → List (Node × α)
  | [] => []
  | n :: rest => (n, n.fold step) :: foldList step rest

def foldRows (step : Form (Node × α) → α) : List (List Node) → List (List (Node × α))
  | [] => []
  | row :: rest => foldList step row :: foldRows step rest

def foldBound (step : Form (Node × α) → α) : Bound Node → Bound (Node × α)
  | .unboundedPreceding => .unboundedPreceding
  | .preceding n => .preceding (n, n.fold step)
  | .currentRow => .currentRow
  | .following n => .following (n, n.fold step)
  | .unboundedFollowing => .unboundedFollowing

def foldBoundOption (step : Form (Node × α) → α) : Option (Bound Node) → Option (Bound (Node × α))
  | none => none
  | some b => some (foldBound step b)

def foldFrame (step : Form (Node × α) → α) : Frame Node → Frame (Node × α)
  | ⟨unit, start, stop⟩ => ⟨unit, foldBound step start, foldBoundOption step stop⟩

def foldFrameOption (step : Form (Node × α) → α) : Option (Frame Node) → Option (Frame (Node × α))
  | none => none
  | some frame => some (foldFrame step frame)

def foldWindow (step : Form (Node × α) → α) : Window Node → Window (Node × α)
  | ⟨name, partition, order, frame⟩ =>
    ⟨name, foldList step partition, foldList step order, foldFrameOption step frame⟩

def foldWindows (step : Form (Node × α) → α) : List (Window Node) → List (Window (Node × α))
  | [] => []
  | w :: rest => foldWindow step w :: foldWindows step rest

def foldWindowRef (step : Form (Node × α) → α) : WindowRef Node → WindowRef (Node × α)
  | .inline w => .inline (foldWindow step w)
  | .named name => .named name

def foldBranch (step : Form (Node × α) → α) : Branch Node → Branch (Node × α)
  | ⟨condition, result⟩ => ⟨(condition, condition.fold step), (result, result.fold step)⟩

def foldBranches (step : Form (Node × α) → α) : List (Branch Node) → List (Branch (Node × α))
  | [] => []
  | b :: rest => foldBranch step b :: foldBranches step rest

def foldAssignment (step : Form (Node × α) → α) : Assignment Node → Assignment (Node × α)
  | ⟨target, value⟩ => ⟨(target, target.fold step), (value, value.fold step)⟩

def foldAssignments (step : Form (Node × α) → α) :
    List (Assignment Node) → List (Assignment (Node × α))
  | [] => []
  | a :: rest => foldAssignment step a :: foldAssignments step rest

def foldJoin (step : Form (Node × α) → α) : Join Node → Join (Node × α)
  | ⟨kind, right, predicate, lateral⟩ =>
    ⟨kind, (right, right.fold step), foldOption step predicate, lateral⟩

def foldJoins (step : Form (Node × α) → α) : List (Join Node) → List (Join (Node × α))
  | [] => []
  | j :: rest => foldJoin step j :: foldJoins step rest

def foldCte (step : Form (Node × α) → α) : Cte Node → Cte (Node × α)
  | ⟨name, columns, query, recursive⟩ => ⟨name, columns, (query, query.fold step), recursive⟩

def foldCtes (step : Form (Node × α) → α) : List (Cte Node) → List (Cte (Node × α))
  | [] => []
  | c :: rest => foldCte step c :: foldCtes step rest

def foldAction (step : Form (Node × α) → α) : ConflictAction Node → ConflictAction (Node × α)
  | .doNothing => .doNothing
  | .doUpdate assignments wheres =>
    .doUpdate (foldAssignments step assignments) (foldList step wheres)

def foldConflict (step : Form (Node × α) → α) :
    Option (OnConflict Node) → Option (OnConflict (Node × α))
  | none => none
  | some c => some (foldOnConflict step c)

def foldOnConflict (step : Form (Node × α) → α) : OnConflict Node → OnConflict (Node × α)
  | ⟨columns, action⟩ => ⟨foldList step columns, foldAction step action⟩

def foldSetOperation (step : Form (Node × α) → α) : SetOperation Node → SetOperation (Node × α)
  | ⟨left, op, right, orders, limit, offset⟩ =>
    ⟨(left, left.fold step), op, (right, right.fold step), foldList step orders,
      foldOption step limit, foldOption step offset⟩

def foldSelect (step : Form (Node × α) → α) : Select Node → Select (Node × α)
  | ⟨source, projections, wheres, joins, groups, havings, windows, orders, limit, offset, distinct,
      distinctOn, lock, skipLocked, comment, hints, ctes⟩ =>
    ⟨foldOption step source, foldList step projections, foldList step wheres,
      foldJoins step joins, foldList step groups, foldList step havings, foldWindows step windows,
      foldList step orders, foldOption step limit, foldOption step offset, distinct,
      foldList step distinctOn, lock, skipLocked, comment, hints, foldCtes step ctes⟩

def foldInsert (step : Form (Node × α) → α) : Insert Node → Insert (Node × α)
  | ⟨target, columns, rows, select, returning, onConflict⟩ =>
    ⟨(target, target.fold step), foldList step columns, foldRows step rows,
      foldOption step select, foldList step returning, foldConflict step onConflict⟩

def foldUpdate (step : Form (Node × α) → α) : Update Node → Update (Node × α)
  | ⟨target, assignments, wheres, returning⟩ =>
    ⟨(target, target.fold step), foldAssignments step assignments, foldList step wheres,
      foldList step returning⟩

def foldDelete (step : Form (Node × α) → α) : Delete Node → Delete (Node × α)
  | ⟨target, wheres, returning⟩ =>
    ⟨(target, target.fold step), foldList step wheres, foldList step returning⟩

end

/-! ## 2. The equation of the recursion -/

section Equation

variable (step : Form (Node × α) → α)

/-- A child together with what was computed for it. -/
def paired (n : Node) : Node × α := (n, n.fold step)

theorem foldOption_eq (o : Option Node) : foldOption step o = o.map (paired step) := by
  cases o <;> simp [foldOption, paired]

theorem foldList_eq (l : List Node) : foldList step l = l.map (paired step) := by
  induction l with
  | nil => simp [foldList]
  | cons n rest ih => simp [foldList, paired, ih]

theorem foldRows_eq (l : List (List Node)) : foldRows step l = l.map (List.map (paired step)) := by
  induction l with
  | nil => simp [foldRows]
  | cons row rest ih => simp [foldRows, foldList_eq, ih]

theorem foldBound_eq (b : Bound Node) : foldBound step b = b.map (paired step) := by
  cases b <;> simp [foldBound, Bound.map, paired]

theorem foldFrame_eq (frame : Frame Node) : foldFrame step frame = frame.map (paired step) := by
  obtain ⟨unit, start, stop⟩ := frame
  cases stop <;> simp [foldFrame, foldBoundOption, Frame.map, foldBound_eq]

theorem foldWindow_eq (w : Window Node) : foldWindow step w = w.map (paired step) := by
  obtain ⟨name, partition, order, frame⟩ := w
  cases frame <;> simp [foldWindow, foldFrameOption, Window.map, foldList_eq, foldFrame_eq]

theorem foldWindows_eq (l : List (Window Node)) :
    foldWindows step l = l.map (Window.map (paired step)) := by
  induction l with
  | nil => simp [foldWindows]
  | cons w rest ih => simp [foldWindows, foldWindow_eq, ih]

theorem foldWindowRef_eq (w : WindowRef Node) : foldWindowRef step w = w.map (paired step) := by
  cases w <;> simp [foldWindowRef, WindowRef.map, foldWindow_eq]

theorem foldBranches_eq (l : List (Branch Node)) :
    foldBranches step l = l.map (Branch.map (paired step)) := by
  induction l with
  | nil => simp [foldBranches]
  | cons b rest ih =>
    cases b
    simp [foldBranches, foldBranch, Branch.map, paired, ih]

theorem foldAssignment_eq (a : Assignment Node) :
    foldAssignment step a = a.map (paired step) := by
  cases a
  simp [foldAssignment, Assignment.map, paired]

theorem foldAssignments_eq (l : List (Assignment Node)) :
    foldAssignments step l = l.map (Assignment.map (paired step)) := by
  induction l with
  | nil => simp [foldAssignments]
  | cons a rest ih => simp [foldAssignments, foldAssignment_eq, ih]

theorem foldJoin_eq (j : Join Node) : foldJoin step j = j.map (paired step) := by
  cases j
  simp [foldJoin, Join.map, paired, foldOption_eq]

theorem foldJoins_eq (l : List (Join Node)) :
    foldJoins step l = l.map (Join.map (paired step)) := by
  induction l with
  | nil => simp [foldJoins]
  | cons j rest ih => simp [foldJoins, foldJoin_eq, ih]

theorem foldCte_eq (c : Cte Node) : foldCte step c = c.map (paired step) := by
  cases c
  simp [foldCte, Cte.map, paired]

theorem foldCtes_eq (l : List (Cte Node)) : foldCtes step l = l.map (Cte.map (paired step)) := by
  induction l with
  | nil => simp [foldCtes]
  | cons c rest ih => simp [foldCtes, foldCte_eq, ih]

theorem foldOnConflict_eq (c : OnConflict Node) :
    foldOnConflict step c = c.map (paired step) := by
  obtain ⟨columns, action⟩ := c
  cases action <;>
    simp [foldOnConflict, foldAction, OnConflict.map, ConflictAction.map, foldList_eq,
      foldAssignments_eq]

theorem foldConflict_eq (c : Option (OnConflict Node)) :
    foldConflict step c = c.map (OnConflict.map (paired step)) := by
  cases c <;> simp [foldConflict, foldOnConflict_eq]

theorem foldSetOperation_eq (s : SetOperation Node) :
    foldSetOperation step s = s.map (paired step) := by
  cases s
  simp [foldSetOperation, SetOperation.map, paired, foldOption_eq, foldList_eq]

theorem foldSelect_eq (s : Select Node) : foldSelect step s = s.map (paired step) := by
  cases s
  simp [foldSelect, Select.map, foldOption_eq, foldList_eq, foldJoins_eq, foldWindows_eq,
    foldCtes_eq]

theorem foldInsert_eq (s : Insert Node) : foldInsert step s = s.map (paired step) := by
  cases s
  simp [foldInsert, Insert.map, paired, foldOption_eq, foldList_eq, foldRows_eq, foldConflict_eq]

theorem foldUpdate_eq (s : Update Node) : foldUpdate step s = s.map (paired step) := by
  cases s
  simp [foldUpdate, Update.map, paired, foldList_eq, foldAssignments_eq]

theorem foldDelete_eq (s : Delete Node) : foldDelete step s = s.map (paired step) := by
  cases s
  simp [foldDelete, Delete.map, paired, foldList_eq]

theorem foldForm_eq (form : Form Node) : foldForm step form = form.map (paired step) := by
  cases form <;>
    simp [foldForm, Form.map, paired, foldOption_eq, foldList_eq, foldRows_eq, foldWindow_eq,
      foldWindowRef_eq, foldBranches_eq, foldAssignment_eq, foldJoin_eq, foldCte_eq,
      foldSetOperation_eq, foldSelect_eq, foldInsert_eq, foldUpdate_eq, foldDelete_eq]

/-- One step of the recursion: the form of the node with what was computed for its children. -/
theorem fold_mk (form : Form Node) :
    (Node.mk form).fold step = step (form.map fun n => (n, n.fold step)) := by
  rw [fold, foldForm_eq]
  rfl

end Equation

end Node
end SqlTree
