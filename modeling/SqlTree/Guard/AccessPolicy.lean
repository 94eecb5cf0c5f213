import SqlTree.Guard
import SqlTree.Policy.Rules

/-!
# Access policies

An access policy asks an evaluator about every table a statement touches. A denial ends the
statement; a filter becomes a predicate on the relation. Rows that an INSERT adds are not there
yet, so for an INSERT only a denial counts.
-/

namespace SqlTree

/-- Decides whether a kind of statement may touch a table, or fails to. -/
abbrev Evaluator := StatementKind → String → Except PolicyFault Decision

/-- A policy as an evaluator, which always decides. -/
def Policy.evaluator (p : Policy) : Evaluator := fun kind table => .ok (p.decide kind table)

/-- The fault of a policy as the reason why a statement is not written. -/
def PolicyFault.failure : PolicyFault → Failure
  | .misuse fault => .misuse fault
  | fault => .evaluator fault.message

namespace AccessPolicy

/-- The predicate to add for a relation, if any. -/
def guard (evaluator : Evaluator) : Guard := fun kind relation table => do
  match ← (evaluator kind table).mapError PolicyFault.failure with
  | .allow => return none
  | .deny reason => throw (.accessDenied table reason)
  | .filter condition =>
    let predicate ← (condition.predicate relation).mapError PolicyFault.failure
    return some predicate

/-- An INSERT as it is, unless its target is denied. -/
def insert (evaluator : Evaluator) (s : Insert Node) : Except Failure (Insert Node) := do
  let _ ← (guard evaluator).predicates .insert (tablesAmong [s.target])
  return s

def transformer (evaluator : Evaluator) : Transformer :=
  { (guard evaluator).transformer "access_policy" with insert := insert evaluator }

end AccessPolicy
end SqlTree
