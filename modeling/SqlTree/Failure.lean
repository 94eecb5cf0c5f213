import SqlTree.Name

/-!
# Why a statement is not written

A transformer may refuse a statement, or lack what it needs to change it; and a tree may be
misused. `Failure.message` is the text of each.
-/

namespace SqlTree

/-- The reason why a statement is not written. -/
inductive Failure where
  /-- Access to a table is denied. -/
  | accessDenied (table reason : String)
  /-- Something needed was never given. -/
  | missingConfiguration (what : String)
  /-- Whoever was asked for a decision reached none. -/
  | evaluator (text : String)
  /-- Any other reason of a transformer. -/
  | other (text : String)
  /-- A rule of the tree is broken. -/
  | misuse (fault : Misuse)
  deriving DecidableEq

namespace Failure

/-- The text of a failure. -/
def message : Failure → String
  | .accessDenied table reason => "access denied to \x27" ++ table ++ "\x27: " ++ reason
  | .missingConfiguration what => "missing configuration: " ++ what
  | .evaluator text => "evaluator error: " ++ text
  | .other text => text
  | .misuse fault => fault.message

/-- A misuse as the reason for a failure. -/
def ofMisuse {α : Type} (result : Except Misuse α) : Except Failure α := result.mapError .misuse

end Failure
end SqlTree
