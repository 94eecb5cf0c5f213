import SqlTree.Clause
import SqlTree.Value

/-!
# Forms of a node

`Form ν` lists the 36 forms that a node of a statement tree can have, over the type `ν` of its
children. It is not recursive: `SqlTree.Node` ties the knot. `Form.variant` names a form and
`Form.map` applies a function to the children.
-/

namespace SqlTree

/-- One layer of a statement tree. -/
inductive Form (ν : Type) where
  /-- A base table. -/
  | table (name : String)
  /-- A table or query under another name. -/
  | tableAlias (relation : ν) (name : String)
  /-- A column of a relation. Values compared with a typed column are cast to its type. -/
  | column (relation : ν) (name : String) (typeName : Option String)
  /-- All columns, of one relation or of every one. -/
  | star (relation : Option ν)
  /-- A constant. -/
  | literal (value : Value)
  /-- A parameter. -/
  | bind (value : Value)
  /-- A constant converted to a type. -/
  | cast (value : Value) (typeName : String)
  /-- SQL text written as it is, with the parameters it mentions. -/
  | raw (sql : String) (binds : List Value)
  | comparison (left : ν) (op : ComparisonOp) (right : ν)
  | nullTest (operand : ν) (op : NullTest)
  | and (left right : ν)
  | or (left right : ν)
  | not (operand : ν)
  /-- An expression in parentheses. -/
  | grouping (operand : ν)
  | membership (operand : ν) (values : List ν) (negated : Bool)
  | between (operand low high : ν) (negated : Bool)
  | existence (query : ν) (negated : Bool)
  | arithmetic (left : ν) (op : ArithmeticOp) (right : ν)
  | unary (op : UnaryOp) (operand : ν)
  /-- A call of a function by name. -/
  | call (name : String) (arguments : List ν) (distinct : Bool)
  /-- An aggregate; without an argument it ranges over whole rows. -/
  | aggregate (func : AggregateFunc) (argument : Option ν) (distinct : Bool) (filter : Option ν)
  | extract (field : DateField) (operand : ν)
  | ordering (operand : ν) (direction : Direction) (nulls : NullPlacement)
  | window (definition : Window ν)
  | windowed (operand : ν) (window : WindowRef ν)
  /-- An expression with a name for its column. -/
  | labelled (operand : ν) (name : String)
  | choice (operand : Option ν) (branches : List (Branch ν)) (otherwise : Option ν)
  | groupingSet (kind : GroupingKind) (columns : List ν) (sets : List (List ν))
  | setOperation (operation : SetOperation ν)
  | cte (cte : Cte ν)
  | assignment (assignment : Assignment ν)
  | join (join : Join ν)
  | select (statement : Select ν)
  | insert (statement : Insert ν)
  | update (statement : Update ν)
  | delete (statement : Delete ν)

namespace Form

variable {ν μ : Type}

/-- The name of a form. -/
def variant : Form ν → String
  | .table .. => "Table"
  | .tableAlias .. => "TableAlias"
  | .column .. => "Attribute"
  | .star .. => "Star"
  | .literal .. => "Literal"
  | .bind .. => "BindParam"
  | .cast .. => "Casted"
  | .raw .. => "Raw"
  | .comparison .. => "Comparison"
  | .nullTest .. => "UnaryPredicate"
  | .and .. => "And"
  | .or .. => "Or"
  | .not .. => "Not"
  | .grouping .. => "Grouping"
  | .membership .. => "In"
  | .between .. => "Between"
  | .existence .. => "Exists"
  | .arithmetic .. => "Infix"
  | .unary .. => "UnaryMath"
  | .call .. => "NamedFunction"
  | .aggregate .. => "Aggregate"
  | .extract .. => "Extract"
  | .ordering .. => "Ordering"
  | .window .. => "Window"
  | .windowed .. => "Over"
  | .labelled .. => "Alias"
  | .choice .. => "Case"
  | .groupingSet .. => "GroupingSet"
  | .setOperation .. => "SetOperation"
  | .cte .. => "Cte"
  | .assignment .. => "Assignment"
  | .join .. => "Join"
  | .select .. => "SelectCore"
  | .insert .. => "InsertStatement"
  | .update .. => "UpdateStatement"
  | .delete .. => "DeleteStatement"

/-- A function applied to every child. -/
def map (f : ν → μ) : Form ν → Form μ
  | .table name => .table name
  | .tableAlias relation name => .tableAlias (f relation) name
  | .column relation name typeName => .column (f relation) name typeName
  | .star relation => .star (relation.map f)
  | .literal value => .literal value
  | .bind value => .bind value
  | .cast value typeName => .cast value typeName
  | .raw sql binds => .raw sql binds
  | .comparison left op right => .comparison (f left) op (f right)
  | .nullTest operand op => .nullTest (f operand) op
  | .and left right => .and (f left) (f right)
  | .or left right => .or (f left) (f right)
  | .not operand => .not (f operand)
  | .grouping operand => .grouping (f operand)
  | .membership operand values negated => .membership (f operand) (values.map f) negated
  | .between operand low high negated => .between (f operand) (f low) (f high) negated
  | .existence query negated => .existence (f query) negated
  | .arithmetic left op right => .arithmetic (f left) op (f right)
  | .unary op operand => .unary op (f operand)
  | .call name arguments distinct => .call name (arguments.map f) distinct
  | .aggregate func argument distinct filter =>
    .aggregate func (argument.map f) distinct (filter.map f)
  | .extract field operand => .extract field (f operand)
  | .ordering operand direction nulls => .ordering (f operand) direction nulls
  | .window definition => .window (definition.map f)
  | .windowed operand w => .windowed (f operand) (w.map f)
  | .labelled operand name => .labelled (f operand) name
  | .choice operand branches otherwise =>
    .choice (operand.map f) (branches.map (Branch.map f)) (otherwise.map f)
  | .groupingSet kind columns sets => .groupingSet kind (columns.map f) (sets.map (List.map f))
  | .setOperation operation => .setOperation (operation.map f)
  | .cte c => .cte (c.map f)
  | .assignment a => .assignment (a.map f)
  | .join j => .join (j.map f)
  | .select s => .select (s.map f)
  | .insert s => .insert (s.map f)
  | .update s => .update (s.map f)
  | .delete s => .delete (s.map f)

end Form
end SqlTree
