import SqlTree.Guard

/-!
# Soft deletion

Rows of a covered table count as deleted once a column of theirs is not null. Statements see only
the others: every relation over a covered table gets the predicate that the column is null.
-/

namespace SqlTree

/-- Which column marks a row as deleted, and in which tables. -/
structure SoftDelete where
  column : String := "deleted_at"
  coverage : Guard.Coverage := .every

namespace SoftDelete

/-- The predicate that a relation's rows are not deleted. -/
def predicate (d : SoftDelete) (relation : Node) (table : String) :
    Except Failure (Option Node) := do
  if d.coverage.covers table then
    let column ← Failure.ofMisuse (relation.attr d.column)
    return some column.isNull
  else return none

def guard (d : SoftDelete) : Guard := fun _ relation table => d.predicate relation table

def transformer (d : SoftDelete) : Transformer := d.guard.transformer "soft_delete"

end SoftDelete
end SqlTree
