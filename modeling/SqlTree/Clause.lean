import SqlTree.Keyword

/-!
# Clauses

The parts that statements and expressions are built from, over an unspecified type `ν` of nodes.
Nothing here refers to the tree that they occur in: a clause is a record of nodes and words, so
whatever is computed for the nodes of a clause has again the shape of the clause (`map`).

* windows: `Bound`, `Frame`, `Window`, `WindowRef`;
* pieces of statements: `Branch`, `Assignment`, `Join`, `Cte`, `OnConflict`;
* the statements and the combination of two queries: `Select`, `Insert`, `Update`, `Delete`,
  `SetOperation`.
-/

namespace SqlTree

variable {ν μ : Type}

/-! ## 1. Windows -/

/-- One end of a window frame. -/
inductive Bound (ν : Type) where
  | unboundedPreceding
  | preceding (offset : ν)
  | currentRow
  | following (offset : ν)
  | unboundedFollowing

namespace Bound

/-- The words of the bound, which follow its offset. -/
def word : Bound ν → String
  | .unboundedPreceding => "UNBOUNDED PRECEDING"
  | .preceding _ => "PRECEDING"
  | .currentRow => "CURRENT ROW"
  | .following _ => "FOLLOWING"
  | .unboundedFollowing => "UNBOUNDED FOLLOWING"

def offset? : Bound ν → Option ν
  | .preceding n => some n
  | .following n => some n
  | _ => none

def map (f : ν → μ) : Bound ν → Bound μ
  | .unboundedPreceding => .unboundedPreceding
  | .preceding n => .preceding (f n)
  | .currentRow => .currentRow
  | .following n => .following (f n)
  | .unboundedFollowing => .unboundedFollowing

end Bound

/-- The rows around the current one that a window function sees. -/
structure Frame (ν : Type) where
  unit : FrameUnit
  start : Bound ν
  stop : Option (Bound ν)

def Frame.map (f : ν → μ) (frame : Frame ν) : Frame μ where
  unit := frame.unit
  start := frame.start.map f
  stop := frame.stop.map (Bound.map f)

/-- A window, with a name if it stands in a WINDOW clause. -/
structure Window (ν : Type) where
  name : Option String := none
  partition : List ν := []
  order : List ν := []
  frame : Option (Frame ν) := none

def Window.map (f : ν → μ) (w : Window ν) : Window μ where
  name := w.name
  partition := w.partition.map f
  order := w.order.map f
  frame := w.frame.map (Frame.map f)

/-- The window of a window function: written in place, or named. -/
inductive WindowRef (ν : Type) where
  | inline (window : Window ν)
  | named (name : String)

def WindowRef.map (f : ν → μ) : WindowRef ν → WindowRef μ
  | .inline w => .inline (w.map f)
  | .named name => .named name

/-! ## 2. Pieces of statements -/

/-- One WHEN and its THEN. -/
structure Branch (ν : Type) where
  condition : ν
  result : ν

def Branch.map (f : ν → μ) (b : Branch ν) : Branch μ := ⟨f b.condition, f b.result⟩

/-- A column and the value it is set to. -/
structure Assignment (ν : Type) where
  target : ν
  value : ν

def Assignment.map (f : ν → μ) (a : Assignment ν) : Assignment μ := ⟨f a.target, f a.value⟩

/-- A joined relation. -/
structure Join (ν : Type) where
  kind : JoinKind
  right : ν
  predicate : Option ν := none
  lateral : Bool := false

def Join.map (f : ν → μ) (j : Join ν) : Join μ where
  kind := j.kind
  right := f j.right
  predicate := j.predicate.map f
  lateral := j.lateral

/-- A query with a name that the statement can refer to. -/
structure Cte (ν : Type) where
  name : String
  columns : List String := []
  query : ν
  recursive : Bool := false

def Cte.map (f : ν → μ) (c : Cte ν) : Cte μ where
  name := c.name
  columns := c.columns
  query := f c.query
  recursive := c.recursive

/-- What an INSERT does with a row that is already there. -/
inductive ConflictAction (ν : Type) where
  | doNothing
  | doUpdate (assignments : List (Assignment ν)) (wheres : List ν)

def ConflictAction.map (f : ν → μ) : ConflictAction ν → ConflictAction μ
  | .doNothing => .doNothing
  | .doUpdate assignments wheres => .doUpdate (assignments.map (Assignment.map f)) (wheres.map f)

/-- The columns that may conflict and what happens if they do. -/
structure OnConflict (ν : Type) where
  columns : List ν
  action : ConflictAction ν

def OnConflict.map (f : ν → μ) (c : OnConflict ν) : OnConflict μ where
  columns := c.columns.map f
  action := c.action.map f

/-! ## 3. Statements -/

/-- A SELECT statement. -/
structure Select (ν : Type) where
  source : Option ν := none
  projections : List ν := []
  wheres : List ν := []
  joins : List (Join ν) := []
  groups : List ν := []
  havings : List ν := []
  windows : List (Window ν) := []
  orders : List ν := []
  limit : Option ν := none
  offset : Option ν := none
  distinct : Bool := false
  distinctOn : List ν := []
  lock : Option LockMode := none
  skipLocked : Bool := false
  comment : Option String := none
  hints : List String := []
  ctes : List (Cte ν) := []

def Select.map (f : ν → μ) (s : Select ν) : Select μ where
  source := s.source.map f
  projections := s.projections.map f
  wheres := s.wheres.map f
  joins := s.joins.map (Join.map f)
  groups := s.groups.map f
  havings := s.havings.map f
  windows := s.windows.map (Window.map f)
  orders := s.orders.map f
  limit := s.limit.map f
  offset := s.offset.map f
  distinct := s.distinct
  distinctOn := s.distinctOn.map f
  lock := s.lock
  skipLocked := s.skipLocked
  comment := s.comment
  hints := s.hints
  ctes := s.ctes.map (Cte.map f)

/-- An INSERT statement. -/
structure Insert (ν : Type) where
  target : ν
  columns : List ν := []
  rows : List (List ν) := []
  select : Option ν := none
  returning : List ν := []
  onConflict : Option (OnConflict ν) := none

def Insert.map (f : ν → μ) (s : Insert ν) : Insert μ where
  target := f s.target
  columns := s.columns.map f
  rows := s.rows.map (List.map f)
  select := s.select.map f
  returning := s.returning.map f
  onConflict := s.onConflict.map (OnConflict.map f)

/-- An UPDATE statement. -/
structure Update (ν : Type) where
  target : ν
  assignments : List (Assignment ν) := []
  wheres : List ν := []
  returning : List ν := []

def Update.map (f : ν → μ) (s : Update ν) : Update μ where
  target := f s.target
  assignments := s.assignments.map (Assignment.map f)
  wheres := s.wheres.map f
  returning := s.returning.map f

/-- A DELETE statement. -/
structure Delete (ν : Type) where
  target : ν
  wheres : List ν := []
  returning : List ν := []

def Delete.map (f : ν → μ) (s : Delete ν) : Delete μ where
  target := f s.target
  wheres := s.wheres.map f
  returning := s.returning.map f

/-- Two queries combined into one. -/
structure SetOperation (ν : Type) where
  left : ν
  op : SetOp
  right : ν
  orders : List ν := []
  limit : Option ν := none
  offset : Option ν := none

def SetOperation.map (f : ν → μ) (s : SetOperation ν) : SetOperation μ where
  left := f s.left
  op := s.op
  right := f s.right
  orders := s.orders.map f
  limit := s.limit.map f
  offset := s.offset.map f

end SqlTree
