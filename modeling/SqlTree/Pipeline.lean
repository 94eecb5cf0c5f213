import SqlTree.Attribution
import SqlTree.Failure
import SqlTree.Node.Relation
import SqlTree.Statement

/-!
# Pipelines

A `Transformer` changes statements of each kind or fails, and a `Pipeline` is a list of them. A
statement passes through them in order, and the first failure ends the run (`Pipeline.apply`).
For a SELECT the run can also say which WHERE items and joins each transformer added
(`Pipeline.applyAttributed`); its result is the same.
-/

namespace SqlTree

/-! ## 1. Transformers -/

/-- A change to statements. The kinds it says nothing about it leaves alone. -/
structure Transformer where
  name : String := "transformer"
  select : Select Node → Except Failure (Select Node) := .ok
  insert : Insert Node → Except Failure (Insert Node) := .ok
  update : Update Node → Except Failure (Update Node) := .ok
  delete : Delete Node → Except Failure (Delete Node) := .ok

/-- The types of statements that pass through transformers. -/
class Transformable (σ : Type) where
  /-- The statement as one transformer changes it. -/
  transform : Transformer → σ → Except Failure σ
  /-- The statement among all statements. -/
  statement : σ → Statement
  /-- What keeps a statement from being written even though every transformer let it pass. -/
  defect? : σ → Option Failure := fun _ => none

instance : Transformable (Select Node) where
  transform := Transformer.select
  statement := .select

instance : Transformable (Insert Node) where
  transform := Transformer.insert
  statement := .insert

/-- An UPDATE has to assign something. -/
instance : Transformable (Update Node) where
  transform := Transformer.update
  statement := .update
  defect? s :=
    if s.assignments.isEmpty then some (.missingConfiguration "UPDATE without SET assignments")
    else none

instance : Transformable (Delete Node) where
  transform := Transformer.delete
  statement := .delete

/-! ## 2. Running them in order -/

/-- Transformers in the order in which they run. -/
abbrev Pipeline := List Transformer

namespace Pipeline

def names (p : Pipeline) : List String := p.map (·.name)

/-- The names, each shown, in brackets. -/
def shown (p : Pipeline) : String := Text.escapedList p.names

variable {σ : Type} [Transformable σ]

/-- A statement after every transformer, or the first failure. -/
def apply (p : Pipeline) (s : σ) : Except Failure σ :=
  p.foldlM (fun s t => Transformable.transform t s) s

/-- What a transformer is credited with: the positions behind the former end of each list. -/
def attribution (t : Transformer) (before after : Select Node) : Attribution where
  name := t.name
  wheres := ⟨before.wheres.length, max after.wheres.length before.wheres.length⟩
  joins := ⟨before.joins.length, max after.joins.length before.joins.length⟩

/-- A SELECT after every transformer, with what each of them added. -/
def applyAttributed : Pipeline → Select Node → Except Failure (Select Node × List Attribution)
  | [], s => .ok (s, [])
  | t :: rest, s => do
    let next ← t.select s
    let (last, later) ← applyAttributed rest next
    return (last, attribution t s next :: later)

end Pipeline

/-! ## 3. The tables of a statement -/

/-- Those nodes that are relations over a table, each with its table. Subqueries and verbatim
    joins have no table. -/
def tablesAmong (nodes : List Node) : List (Node × String) :=
  nodes.filterMap fun n => n.tableName?.map fun table => (n, table)

/-- The relations that a SELECT reads at its top, each with its table: the source, then the
    joins. A relation keeps its alias. -/
def Select.tables (s : Select Node) : List (Node × String) :=
  tablesAmong (s.source.toList ++ s.joins.map (·.right))

end SqlTree
