import SqlTree.Node

/-!
# Statements

The four forms that are statements, apart from the tree they may stand in.
-/

namespace SqlTree

/-- A statement. -/
inductive Statement where
  | select (s : Select Node)
  | insert (s : Insert Node)
  | update (s : Update Node)
  | delete (s : Delete Node)

namespace Statement

def kind : Statement → StatementKind
  | .select _ => .select
  | .insert _ => .insert
  | .update _ => .update
  | .delete _ => .delete

/-- The statement as a tree. -/
def node : Statement → Node
  | .select s => ⟨.select s⟩
  | .insert s => ⟨.insert s⟩
  | .update s => ⟨.update s⟩
  | .delete s => ⟨.delete s⟩

/-- The statement that a tree is, if it is one. -/
def ofNode? (n : Node) : Option Statement :=
  match n.form with
  | .select s => some (.select s)
  | .insert s => some (.insert s)
  | .update s => some (.update s)
  | .delete s => some (.delete s)
  | _ => none

end Statement
end SqlTree
