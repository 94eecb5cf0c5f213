import SqlTree.Name
import SqlTree.Node.Relation

/-!
# Building nodes

One function for each kind of node. Those that write a name bare, or that only apply to some
nodes, check it and answer a `Misuse`; the others cannot fail. A node made by `Node.mk` directly
goes past these checks.
-/

namespace SqlTree.Node

/-! ## 1. Values -/

protected def literal (v : Value) : Node := ⟨.literal v⟩

protected def null : Node := .literal .null

protected def bind (v : Value) : Node := ⟨.bind v⟩

/-- A constant converted to a type. -/
protected def cast (v : Value) (typeName : String) : Except Misuse Node := do
  NameRule.type.check typeName
  return ⟨.cast v typeName⟩

/-- SQL text as it is. It must not hold text of a user. -/
protected def raw (sql : String) (binds : List Value := []) : Node := ⟨.raw sql binds⟩

/-! ## 2. Relations and their columns -/

protected def table (name : String) : Node := ⟨.table name⟩

/-- A table or query under another name. -/
def aliased (relation : Node) (name : String) : Node := ⟨.tableAlias relation name⟩

/-- A column of any node. -/
def columnOf (relation : Node) (name : String) : Node := ⟨.column relation name none⟩

/-- A column with a type, of any node. -/
def typedColumnOf (relation : Node) (name typeName : String) : Except Misuse Node := do
  NameRule.type.check typeName
  return ⟨.column relation name (some typeName)⟩

/-- Refuses what is no relation. -/
def checkRelation (n : Node) : Except Misuse Unit :=
  if n.isRelation then .ok () else .error (.notRelation n.variant)

/-- A column of a relation. -/
def attr (relation : Node) (name : String) : Except Misuse Node := do
  relation.checkRelation
  return relation.columnOf name

/-- A column of a relation, with a type. -/
def typedAttr (relation : Node) (name typeName : String) : Except Misuse Node := do
  relation.checkRelation
  relation.typedColumnOf name typeName

/-- Every column. -/
protected def star : Node := ⟨.star none⟩

/-- Every column of a relation. -/
def allColumns (relation : Node) : Node := ⟨.star (some relation)⟩

/-! ## 3. Functions -/

protected def call (name : String) (arguments : List Node) (distinct : Bool := false) :
    Except Misuse Node := do
  NameRule.function.check name
  return ⟨.call name arguments distinct⟩

/-- An aggregate. Only a count may go without an argument. -/
protected def aggregate (func : AggregateFunc) (argument : Option Node) (distinct : Bool := false) :
    Except Misuse Node :=
  if argument.isSome || func == .count then .ok ⟨.aggregate func argument distinct none⟩
  else .error (.missingArgument func.word)

/-- The number of rows. -/
def countStar : Node := ⟨.aggregate .count none false none⟩

protected def extract (field : DateField) (operand : Node) : Node := ⟨.extract field operand⟩

/-- The same call over distinct arguments. -/
def distinct (n : Node) : Except Misuse Node :=
  match n.form with
  | .aggregate func argument _ filter => .ok ⟨.aggregate func argument true filter⟩
  | .call name arguments _ => .ok ⟨.call name arguments true⟩
  | form => .error (.notCall form.variant)

/-- The same aggregate over the rows that satisfy a predicate. -/
def filter (n predicate : Node) : Except Misuse Node :=
  match n.form with
  | .aggregate func argument distinct _ =>
    .ok ⟨.aggregate func argument distinct (some predicate)⟩
  | form => .error (.notAggregate form.variant)

/-! ## 4. Expressions around nodes -/

protected def grouping (operand : Node) : Node := ⟨.grouping operand⟩

def existence (query : Node) (negated : Bool := false) : Node := ⟨.existence query negated⟩

def windowed (operand : Node) (window : WindowRef Node) : Node := ⟨.windowed operand window⟩

/-- An expression with a name for its column. -/
def labelled (operand : Node) (name : String) : Node := ⟨.labelled operand name⟩

/-- A grouping over the columns of a cube or rollup. -/
def groupingColumns (kind : GroupingKind) (columns : List Node) : Node :=
  ⟨.groupingSet kind columns []⟩

def groupingSets (sets : List (List Node)) : Node := ⟨.groupingSet .groupingSets [] sets⟩

/-! ## 5. Orderings -/

def asc (operand : Node) : Node := ⟨.ordering operand .asc .unstated⟩

def desc (operand : Node) : Node := ⟨.ordering operand .desc .unstated⟩

/-- An ordering with its nulls placed. An expression that is no ordering yet ascends. -/
def placeNulls (n : Node) (nulls : NullPlacement) : Node :=
  match n.form with
  | .ordering operand direction _ => ⟨.ordering operand direction nulls⟩
  | _ => ⟨.ordering n .asc nulls⟩

end SqlTree.Node
