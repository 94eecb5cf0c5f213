/-!
# Attributions

An attribution credits one participant with a stretch of the WHERE items and a stretch of the
joins of a SELECT. A stretch runs from its first position up to, but not including, its last; one
whose first position is not below its last is empty.
-/

namespace SqlTree

/-- Positions of a list, from a first one up to an end. -/
structure Stretch where
  start : Nat
  stop : Nat
  deriving DecidableEq

namespace Stretch

/-- The items of a list at the positions of a stretch; positions behind the end hold nothing. -/
def slice {α : Type} (s : Stretch) (items : List α) : List α :=
  (items.drop s.start).take (s.stop - s.start)

end Stretch

/-- The WHERE items and joins that one participant is credited with. -/
structure Attribution where
  name : String
  wheres : Stretch
  joins : Stretch
  deriving DecidableEq

end SqlTree
