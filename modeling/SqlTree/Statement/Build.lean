import SqlTree.Node.Build
import SqlTree.Statement

/-!
# Building statements up

Each function adds one thing to a statement. What comes as a list goes behind what is there, and
what a statement has only once replaces what was there. Numbers of rows become parameters.
-/

namespace SqlTree

/-- A number of rows as a parameter. -/
def rowCount (n : UInt64) : Node := .bind (.uint n)

/-! ## 1. Joins and named queries -/

namespace Join

/-- A join in SQL text of the caller. -/
def ofText (sql : String) : Join Node := { kind := .verbatim, right := .raw sql }

end Join

namespace Cte

/-- A named query that may refer to itself. -/
def recursiveOf (name : String) (query : Node) : Cte Node := { name, query, recursive := true }

end Cte

/-! ## 2. SELECT -/

namespace Select

/-- Every column of a relation. -/
def ofSource (relation : Node) : Select Node := { source := some relation }

def fromSource (s : Select Node) (relation : Node) : Select Node :=
  { s with source := some relation }

def project (s : Select Node) (columns : List Node) : Select Node :=
  { s with projections := s.projections ++ columns }

/-- Rows that satisfy a predicate. -/
def restrict (s : Select Node) (predicate : Node) : Select Node :=
  { s with wheres := s.wheres ++ [predicate] }

/-- Rows that satisfy all predicates there are. -/
def restrictAll (s : Select Node) (predicates : List (Option Node)) : Select Node :=
  { s with wheres := s.wheres ++ predicates.filterMap id }

def addJoin (s : Select Node) (join : Join Node) : Select Node :=
  { s with joins := s.joins ++ [join] }

/-- A relation joined where a predicate holds. -/
def joinOn (s : Select Node) (kind : JoinKind) (right predicate : Node) : Select Node :=
  s.addJoin { kind, right, predicate := some predicate }

/-- A query joined that refers to the relations before it. -/
def lateralJoinOn (s : Select Node) (kind : JoinKind) (right predicate : Node) : Select Node :=
  s.addJoin { kind, right, predicate := some predicate, lateral := true }

def crossJoin (s : Select Node) (right : Node) : Select Node := s.addJoin { kind := .cross, right }

def groupBy (s : Select Node) (expressions : List Node) : Select Node :=
  { s with groups := s.groups ++ expressions }

/-- Groups that satisfy a predicate. -/
def restrictGroups (s : Select Node) (predicate : Node) : Select Node :=
  { s with havings := s.havings ++ [predicate] }

def orderBy (s : Select Node) (expressions : List Node) : Select Node :=
  { s with orders := s.orders ++ expressions }

def addWindow (s : Select Node) (window : Window Node) : Select Node :=
  { s with windows := s.windows ++ [window] }

def addHint (s : Select Node) (hint : String) : Select Node := { s with hints := s.hints ++ [hint] }

def withComment (s : Select Node) (text : String) : Select Node := { s with comment := some text }

def addCte (s : Select Node) (cte : Cte Node) : Select Node := { s with ctes := s.ctes ++ [cte] }

def withDistinct (s : Select Node) (distinct : Bool := true) : Select Node := { s with distinct }

def distinctBy (s : Select Node) (expressions : List Node) : Select Node :=
  { s with distinctOn := s.distinctOn ++ expressions }

/-- At most so many rows. -/
def limitTo (s : Select Node) (n : UInt64) : Select Node := { s with limit := some (rowCount n) }

/-- Rows behind the first ones. -/
def skipping (s : Select Node) (n : UInt64) : Select Node := { s with offset := some (rowCount n) }

def lockedFor (s : Select Node) (mode : LockMode) : Select Node := { s with lock := some mode }

def withSkipLocked (s : Select Node) : Select Node := { s with skipLocked := true }

/-- The query as a relation with a name. -/
def named (s : Select Node) (name : String) : Node := (⟨.select s⟩ : Node).aliased name

/-- The query combined with another one. -/
def combine (s : Select Node) (op : SetOp) (other : Node) : SetOperation Node :=
  { left := ⟨.select s⟩, op, right := other }

end Select

namespace SetOperation

def orderBy (s : SetOperation Node) (expressions : List Node) : SetOperation Node :=
  { s with orders := s.orders ++ expressions }

/-- At most so many rows. -/
def limitTo (s : SetOperation Node) (n : UInt64) : SetOperation Node :=
  { s with limit := some (rowCount n) }

/-- Rows behind the first ones. -/
def skipping (s : SetOperation Node) (n : UInt64) : SetOperation Node :=
  { s with offset := some (rowCount n) }

end SetOperation

/-! ## 3. INSERT -/

namespace Insert

def addColumns (s : Insert Node) (columns : List Node) : Insert Node :=
  { s with columns := s.columns ++ columns }

def addRow (s : Insert Node) (row : List Node) : Insert Node := { s with rows := s.rows ++ [row] }

/-- The rows of a query instead of rows that are listed. -/
def ofQuery (s : Insert Node) (query : Node) : Insert Node := { s with select := some query }

def addReturning (s : Insert Node) (expressions : List Node) : Insert Node :=
  { s with returning := s.returning ++ expressions }

def onConflictDo (s : Insert Node) (columns : List Node) (action : ConflictAction Node) :
    Insert Node :=
  { s with onConflict := some ⟨columns, action⟩ }

/-- Rows that are already there stay. -/
def orIgnore (s : Insert Node) (columns : List Node) : Insert Node :=
  s.onConflictDo columns .doNothing

/-- Rows that are already there are updated; without assignments they stay. -/
def orUpdate (s : Insert Node) (columns : List Node) (assignments : List (Assignment Node))
    (wheres : List Node) : Insert Node :=
  if assignments.isEmpty then s.orIgnore columns
  else s.onConflictDo columns (.doUpdate assignments wheres)

end Insert

/-! ## 4. UPDATE and DELETE -/

namespace Update

def assign (s : Update Node) (target value : Node) : Update Node :=
  { s with assignments := s.assignments ++ [⟨target, value⟩] }

/-- Rows that satisfy all predicates there are. -/
def restrictAll (s : Update Node) (predicates : List (Option Node)) : Update Node :=
  { s with wheres := s.wheres ++ predicates.filterMap id }

/-- Rows that satisfy a predicate. -/
def restrict (s : Update Node) (predicate : Node) : Update Node := s.restrictAll [some predicate]

def addReturning (s : Update Node) (expressions : List Node) : Update Node :=
  { s with returning := s.returning ++ expressions }

end Update

namespace Delete

/-- Rows that satisfy all predicates there are. -/
def restrictAll (s : Delete Node) (predicates : List (Option Node)) : Delete Node :=
  { s with wheres := s.wheres ++ predicates.filterMap id }

/-- Rows that satisfy a predicate. -/
def restrict (s : Delete Node) (predicate : Node) : Delete Node := s.restrictAll [some predicate]

def addReturning (s : Delete Node) (expressions : List Node) : Delete Node :=
  { s with returning := s.returning ++ expressions }

end Delete
end SqlTree
