import SqlTree.Node

/-!
# What a node is

Which nodes are queries, which are relations, and how columns and relations are called: a relation
by its alias if it has one, while its table is found by looking through all aliases. A subquery has
no table.
-/

namespace SqlTree.Node

/-- The literal null. -/
def isNullLiteral (n : Node) : Bool :=
  match n.form with
  | .literal .null => true
  | _ => false

/-- A query: a SELECT or a combination of two queries. -/
def isQuery (n : Node) : Bool :=
  match n.form with
  | .select _ => true
  | .setOperation _ => true
  | _ => false

/-- A relation: a table or an alias. -/
def isRelation (n : Node) : Bool :=
  match n.form with
  | .table _ => true
  | .tableAlias _ _ => true
  | _ => false

/-- The name that qualifies the columns of a relation. -/
def relationName? (n : Node) : Option String :=
  match n.form with
  | .table name => some name
  | .tableAlias _ name => some name
  | _ => none

/-- The name of a column, if the node is one. -/
def columnName? (n : Node) : Option String :=
  match n.form with
  | .column _ name _ => some name
  | _ => none

/-- The table under a relation, seen through its aliases. -/
def tableName? : Node → Option String :=
  fold fun
    | .table name => some name
    | .tableAlias relation _ => relation.2
    | _ => none

end SqlTree.Node
