import SqlTree.Node.Predicate
import SqlTree.Pipeline

/-!
# Guards on rows

A guard answers, for each relation that a statement reads or writes, with a predicate that rows
have to satisfy, with nothing, or with a failure. The predicates go behind those already in the
WHERE clause, relation by relation, and the first failure ends the run.
-/

namespace SqlTree

/-- A guard: given the kind of a statement, a relation and its table, the predicate to add. -/
abbrev Guard := StatementKind → Node → String → Except Failure (Option Node)

namespace Guard

/-- The predicates for some relations, in order. -/
def predicates (g : Guard) (kind : StatementKind) (tables : List (Node × String)) :
    Except Failure (List Node) := do
  let answers ← tables.mapM fun (relation, table) => g kind relation table
  return answers.filterMap id

/-- A SELECT with the predicates for all its tables. -/
def select (g : Guard) (s : Select Node) : Except Failure (Select Node) := do
  let added ← g.predicates .select s.tables
  return { s with wheres := s.wheres ++ added }

/-- An UPDATE with the predicate for its target. -/
def update (g : Guard) (s : Update Node) : Except Failure (Update Node) := do
  let added ← g.predicates .update (tablesAmong [s.target])
  return { s with wheres := s.wheres ++ added }

/-- A DELETE with the predicate for its target. -/
def delete (g : Guard) (s : Delete Node) : Except Failure (Delete Node) := do
  let added ← g.predicates .delete (tablesAmong [s.target])
  return { s with wheres := s.wheres ++ added }

/-- A guard as a transformer that leaves every INSERT alone. -/
def transformer (g : Guard) (name : String) : Transformer where
  name := name
  select := g.select
  update := g.update
  delete := g.delete

/-- The tables that a guard covers. -/
inductive Coverage where
  | every
  | only (tables : List String)

def Coverage.covers : Coverage → String → Bool
  | .every, _ => true
  | .only tables, table => tables.contains table

end Guard
end SqlTree
