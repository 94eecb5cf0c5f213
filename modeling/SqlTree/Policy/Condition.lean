import SqlTree.Node.Predicate
import SqlTree.Value.Document

/-!
# Conditions

A condition restricts the rows of one table, named without the table. It is data, so a policy can
hold it, and `Condition.predicate` turns it into a predicate on a relation. Two rules hold for
the result:

* a column compared with null is tested for null, except in a list of values;
* every AND and OR it is built from stands in parentheses or under a NOT, so the predicate stays
  one item beside others.
-/

namespace SqlTree

/-- A condition on the columns of one table. -/
inductive Condition where
  | eq (column : String) (value : Json)
  | neq (column : String) (value : Json)
  | oneOf (column : String) (values : List Json)
  | isNull (column : String)
  /-- Every condition holds. -/
  | and (conditions : List Condition)
  /-- Some condition holds. -/
  | or (conditions : List Condition)
  | not (condition : Condition)

/-- What goes wrong in a policy. -/
inductive PolicyFault where
  /-- No decision could be reached. -/
  | evaluation (text : String)
  /-- The text of a policy could not be read. -/
  | document (text : String)
  /-- A column is compared with an array or an object. -/
  | unsupportedValue (column : String) (value : Json)
  /-- A condition is put on what is no relation. -/
  | misuse (fault : Misuse)

namespace PolicyFault

/-- The text of a fault. -/
def message : PolicyFault → String
  | .evaluation text => "policy evaluation failed: " ++ text
  | .document text => "invalid policy document: " ++ text
  | .unsupportedValue column value =>
    "unsupported value for column \x27" ++ column ++ "\x27: " ++ value.compact
  | .misuse fault => fault.message

end PolicyFault

namespace Condition

/-! ## 1. Values -/

/-- The value that a column is compared with. -/
def valueOf (column : String) (j : Json) : Except PolicyFault Value :=
  match Value.ofJson? j with
  | some v => .ok v
  | none => .error (.unsupportedValue column j)

/-! ## 2. Predicates -/

/-- A misuse as the fault of a policy. -/
def ofMisuse {α : Type} (result : Except Misuse α) : Except PolicyFault α :=
  result.mapError .misuse

/-- A column compared with a value, or put to a test if the value is null. -/
def comparison (relation : Node) (column : String) (value : Json) (op : ComparisonOp)
    (test : Node → Node) : Except PolicyFault Node := do
  let left ← ofMisuse (relation.attr column)
  match ← valueOf column value with
  | .null => return test left
  | v => ofMisuse (left.compare op (.literal v))

/-- A column among some values. -/
def membership (relation : Node) (column : String) (values : List Json) :
    Except PolicyFault Node := do
  let values ← values.mapM (valueOf column)
  let left ← ofMisuse (relation.attr column)
  ofMisuse (left.inList (values.map .literal))

/-- Predicates joined from the left; without any, a constant. -/
def joined (whenEmpty : String) (join : Node → Node → Node) : List Node → Node
  | [] => .raw whenEmpty
  | first :: rest => rest.foldl join first

mutual

/-- The condition as a predicate on a relation. -/
def predicate (relation : Node) : Condition → Except PolicyFault Node
  | .eq column value => comparison relation column value .eq Node.isNull
  | .neq column value => comparison relation column value .notEq Node.isNotNull
  | .oneOf column values => membership relation column values
  | .isNull column => (ofMisuse (relation.attr column)).map Node.isNull
  | .and conditions =>
    (predicates relation conditions).map (joined "1=1" fun l r => .grouping (l.conjoin r))
  | .or conditions => (predicates relation conditions).map (joined "1=0" Node.disjoin)
  | .not condition => (predicate relation condition).map Node.negate

/-- Conditions as predicates, in order; the first fault ends them. -/
def predicates (relation : Node) : List Condition → Except PolicyFault (List Node)
  | [] => .ok []
  | condition :: rest => do
    let first ← predicate relation condition
    let more ← predicates relation rest
    return first :: more

end

end Condition
end SqlTree
