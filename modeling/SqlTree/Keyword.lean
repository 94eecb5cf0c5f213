/-!
# Keywords

The closed vocabularies of SQL text, one inductive type each. A `Vocabulary` lists its members in
order and gives each a label, which names it, and a word, which is what a statement holds. No
two members of a vocabulary share a label; several may share a word.
-/

namespace SqlTree

/-- A closed set of keywords, each with a label and the word it is written as. -/
class Vocabulary (α : Type) where
  /-- Every member, in order. -/
  members : List α
  /-- The name of a member. -/
  label : α → String
  /-- The word that a statement holds. -/
  word : α → String

namespace Vocabulary

/-- The member with a label. -/
def ofLabel? {α : Type} [Vocabulary α] (text : String) : Option α :=
  members.find? fun m => label m == text

/-- Labels and words of a vocabulary, in order. -/
def entries (α : Type) [Vocabulary α] : List (String × String) :=
  (members : List α).map fun m => (label m, word m)

end Vocabulary

/-! ## 1. ComparisonOp -/

/-- A binary comparison. -/
inductive ComparisonOp where
  | eq
  | notEq
  | gt
  | gtEq
  | lt
  | ltEq
  | like
  | notLike
  | regexMatch
  | regexNotMatch
  | isDistinctFrom
  | isNotDistinctFrom
  | caseSensitiveEq
  | caseInsensitiveEq
  | contains
  | overlaps
  deriving DecidableEq

namespace ComparisonOp

/-- The name of the member. -/
def label : ComparisonOp → String
  | .eq => "Eq"
  | .notEq => "NotEq"
  | .gt => "Gt"
  | .gtEq => "GtEq"
  | .lt => "Lt"
  | .ltEq => "LtEq"
  | .like => "Like"
  | .notLike => "NotLike"
  | .regexMatch => "RegexMatch"
  | .regexNotMatch => "RegexNotMatch"
  | .isDistinctFrom => "IsDistinctFrom"
  | .isNotDistinctFrom => "IsNotDistinctFrom"
  | .caseSensitiveEq => "CaseSensitiveEq"
  | .caseInsensitiveEq => "CaseInsensitiveEq"
  | .contains => "Contains"
  | .overlaps => "Overlaps"

/-- The word in a statement. -/
def word : ComparisonOp → String
  | .eq => "="
  | .notEq => "!="
  | .gt => ">"
  | .gtEq => ">="
  | .lt => "<"
  | .ltEq => "<="
  | .like => "LIKE"
  | .notLike => "NOT LIKE"
  | .regexMatch => "~"
  | .regexNotMatch => "!~"
  | .isDistinctFrom => "IS DISTINCT FROM"
  | .isNotDistinctFrom => "IS NOT DISTINCT FROM"
  | .caseSensitiveEq => "="
  | .caseInsensitiveEq => "="
  | .contains => "@>"
  | .overlaps => "&&"

instance : Vocabulary ComparisonOp where
  members :=
    [.eq, .notEq, .gt, .gtEq, .lt, .ltEq, .like, .notLike, .regexMatch, .regexNotMatch,
     .isDistinctFrom, .isNotDistinctFrom, .caseSensitiveEq, .caseInsensitiveEq, .contains,
     .overlaps]
  label := label
  word := word

end ComparisonOp

/-! ## 2. NullTest -/

/-- A test behind its operand. -/
inductive NullTest where
  | isNull
  | isNotNull
  deriving DecidableEq

namespace NullTest

/-- The name of the member. -/
def label : NullTest → String
  | .isNull => "IsNull"
  | .isNotNull => "IsNotNull"

/-- The word in a statement. -/
def word : NullTest → String
  | .isNull => "IS NULL"
  | .isNotNull => "IS NOT NULL"

instance : Vocabulary NullTest where
  members :=
    [.isNull, .isNotNull]
  label := label
  word := word

end NullTest

/-! ## 3. ArithmeticOp -/

/-- An operator between two operands that is no comparison. -/
inductive ArithmeticOp where
  | add
  | sub
  | mul
  | div
  | bitAnd
  | bitOr
  | bitXor
  | shiftLeft
  | shiftRight
  | concat
  deriving DecidableEq

namespace ArithmeticOp

/-- The name of the member. -/
def label : ArithmeticOp → String
  | .add => "Add"
  | .sub => "Sub"
  | .mul => "Mul"
  | .div => "Div"
  | .bitAnd => "BitAnd"
  | .bitOr => "BitOr"
  | .bitXor => "BitXor"
  | .shiftLeft => "ShiftLeft"
  | .shiftRight => "ShiftRight"
  | .concat => "Concat"

/-- The word in a statement. -/
def word : ArithmeticOp → String
  | .add => "+"
  | .sub => "-"
  | .mul => "*"
  | .div => "/"
  | .bitAnd => "&"
  | .bitOr => "|"
  | .bitXor => "^"
  | .shiftLeft => "<<"
  | .shiftRight => ">>"
  | .concat => "||"

instance : Vocabulary ArithmeticOp where
  members :=
    [.add, .sub, .mul, .div, .bitAnd, .bitOr, .bitXor, .shiftLeft, .shiftRight, .concat]
  label := label
  word := word

end ArithmeticOp

/-! ## 4. UnaryOp -/

/-- An operator in front of its operand. -/
inductive UnaryOp where
  | bitNot
  deriving DecidableEq

namespace UnaryOp

/-- The name of the member. -/
def label : UnaryOp → String
  | .bitNot => "BitNot"

/-- The word in a statement. -/
def word : UnaryOp → String
  | .bitNot => "~"

instance : Vocabulary UnaryOp where
  members :=
    [.bitNot]
  label := label
  word := word

end UnaryOp

/-! ## 5. AggregateFunc -/

/-- A function over the rows of a group. -/
inductive AggregateFunc where
  | count
  | sum
  | avg
  | min
  | max
  deriving DecidableEq

namespace AggregateFunc

/-- The name of the member. -/
def label : AggregateFunc → String
  | .count => "Count"
  | .sum => "Sum"
  | .avg => "Avg"
  | .min => "Min"
  | .max => "Max"

/-- The word in a statement. -/
def word : AggregateFunc → String
  | .count => "COUNT"
  | .sum => "SUM"
  | .avg => "AVG"
  | .min => "MIN"
  | .max => "MAX"

instance : Vocabulary AggregateFunc where
  members :=
    [.count, .sum, .avg, .min, .max]
  label := label
  word := word

end AggregateFunc

/-! ## 6. DateField -/

/-- The part of a date that is taken out of it. -/
inductive DateField where
  | year
  | month
  | day
  | hour
  | minute
  | second
  | dow
  | doy
  | epoch
  | quarter
  | week
  deriving DecidableEq

namespace DateField

/-- The name of the member. -/
def label : DateField → String
  | .year => "Year"
  | .month => "Month"
  | .day => "Day"
  | .hour => "Hour"
  | .minute => "Minute"
  | .second => "Second"
  | .dow => "Dow"
  | .doy => "Doy"
  | .epoch => "Epoch"
  | .quarter => "Quarter"
  | .week => "Week"

/-- The word in a statement. -/
def word : DateField → String
  | .year => "YEAR"
  | .month => "MONTH"
  | .day => "DAY"
  | .hour => "HOUR"
  | .minute => "MINUTE"
  | .second => "SECOND"
  | .dow => "DOW"
  | .doy => "DOY"
  | .epoch => "EPOCH"
  | .quarter => "QUARTER"
  | .week => "WEEK"

instance : Vocabulary DateField where
  members :=
    [.year, .month, .day, .hour, .minute, .second, .dow, .doy, .epoch, .quarter, .week]
  label := label
  word := word

end DateField

/-! ## 7. Direction -/

/-- The direction of an ordering. -/
inductive Direction where
  | asc
  | desc
  deriving DecidableEq

namespace Direction

/-- The name of the member. -/
def label : Direction → String
  | .asc => "Asc"
  | .desc => "Desc"

/-- The word in a statement. -/
def word : Direction → String
  | .asc => "ASC"
  | .desc => "DESC"

instance : Vocabulary Direction where
  members :=
    [.asc, .desc]
  label := label
  word := word

end Direction

/-! ## 8. NullPlacement -/

/-- Where an ordering puts nulls; by default nothing is written. -/
inductive NullPlacement where
  | unstated
  | first
  | last
  deriving DecidableEq

namespace NullPlacement

/-- The name of the member. -/
def label : NullPlacement → String
  | .unstated => "Default"
  | .first => "First"
  | .last => "Last"

/-- The word in a statement. -/
def word : NullPlacement → String
  | .unstated => ""
  | .first => "NULLS FIRST"
  | .last => "NULLS LAST"

instance : Vocabulary NullPlacement where
  members :=
    [.unstated, .first, .last]
  label := label
  word := word

end NullPlacement

/-! ## 9. JoinKind -/

/-- How two relations are joined. A verbatim join is its own text. -/
inductive JoinKind where
  | inner
  | leftOuter
  | rightOuter
  | fullOuter
  | cross
  | verbatim
  deriving DecidableEq

namespace JoinKind

/-- The name of the member. -/
def label : JoinKind → String
  | .inner => "Inner"
  | .leftOuter => "LeftOuter"
  | .rightOuter => "RightOuter"
  | .fullOuter => "FullOuter"
  | .cross => "Cross"
  | .verbatim => "String"

/-- The word in a statement. -/
def word : JoinKind → String
  | .inner => "INNER JOIN"
  | .leftOuter => "LEFT OUTER JOIN"
  | .rightOuter => "RIGHT OUTER JOIN"
  | .fullOuter => "FULL OUTER JOIN"
  | .cross => "CROSS JOIN"
  | .verbatim => ""

instance : Vocabulary JoinKind where
  members :=
    [.inner, .leftOuter, .rightOuter, .fullOuter, .cross, .verbatim]
  label := label
  word := word

end JoinKind

/-! ## 10. LockMode -/

/-- The lock a query takes on the rows it returns. -/
inductive LockMode where
  | forUpdate
  | forShare
  | forNoKeyUpdate
  | forKeyShare
  deriving DecidableEq

namespace LockMode

/-- The name of the member. -/
def label : LockMode → String
  | .forUpdate => "ForUpdate"
  | .forShare => "ForShare"
  | .forNoKeyUpdate => "ForNoKeyUpdate"
  | .forKeyShare => "ForKeyShare"

/-- The word in a statement. -/
def word : LockMode → String
  | .forUpdate => "FOR UPDATE"
  | .forShare => "FOR SHARE"
  | .forNoKeyUpdate => "FOR NO KEY UPDATE"
  | .forKeyShare => "FOR KEY SHARE"

instance : Vocabulary LockMode where
  members :=
    [.forUpdate, .forShare, .forNoKeyUpdate, .forKeyShare]
  label := label
  word := word

end LockMode

/-! ## 11. SetOp -/

/-- How two queries are combined. -/
inductive SetOp where
  | union
  | unionAll
  | intersect
  | intersectAll
  | except
  | exceptAll
  deriving DecidableEq

namespace SetOp

/-- The name of the member. -/
def label : SetOp → String
  | .union => "Union"
  | .unionAll => "UnionAll"
  | .intersect => "Intersect"
  | .intersectAll => "IntersectAll"
  | .except => "Except"
  | .exceptAll => "ExceptAll"

/-- The word in a statement. -/
def word : SetOp → String
  | .union => "UNION"
  | .unionAll => "UNION ALL"
  | .intersect => "INTERSECT"
  | .intersectAll => "INTERSECT ALL"
  | .except => "EXCEPT"
  | .exceptAll => "EXCEPT ALL"

instance : Vocabulary SetOp where
  members :=
    [.union, .unionAll, .intersect, .intersectAll, .except, .exceptAll]
  label := label
  word := word

end SetOp

/-! ## 12. FrameUnit -/

/-- What a window frame counts. -/
inductive FrameUnit where
  | rows
  | range
  deriving DecidableEq

namespace FrameUnit

/-- The name of the member. -/
def label : FrameUnit → String
  | .rows => "Rows"
  | .range => "Range"

/-- The word in a statement. -/
def word : FrameUnit → String
  | .rows => "ROWS"
  | .range => "RANGE"

instance : Vocabulary FrameUnit where
  members :=
    [.rows, .range]
  label := label
  word := word

end FrameUnit

/-! ## 13. GroupingKind -/

/-- A construct over several groupings. -/
inductive GroupingKind where
  | cube
  | rollup
  | groupingSets
  deriving DecidableEq

namespace GroupingKind

/-- The name of the member. -/
def label : GroupingKind → String
  | .cube => "Cube"
  | .rollup => "Rollup"
  | .groupingSets => "GroupingSets"

/-- The word in a statement. -/
def word : GroupingKind → String
  | .cube => "CUBE"
  | .rollup => "ROLLUP"
  | .groupingSets => "GROUPING SETS"

instance : Vocabulary GroupingKind where
  members :=
    [.cube, .rollup, .groupingSets]
  label := label
  word := word

end GroupingKind

/-! ## 14. StatementKind -/

/-- The four kinds of statement. -/
inductive StatementKind where
  | select
  | insert
  | update
  | delete
  deriving DecidableEq

namespace StatementKind

/-- The name of the member. -/
def label : StatementKind → String
  | .select => "Select"
  | .insert => "Insert"
  | .update => "Update"
  | .delete => "Delete"

/-- The word in a statement. -/
def word : StatementKind → String
  | .select => "SELECT"
  | .insert => "INSERT"
  | .update => "UPDATE"
  | .delete => "DELETE"

instance : Vocabulary StatementKind where
  members :=
    [.select, .insert, .update, .delete]
  label := label
  word := word

end StatementKind

end SqlTree
