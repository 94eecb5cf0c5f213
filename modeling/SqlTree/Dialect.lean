import SqlTree.Doc
import SqlTree.Text.Lines

/-!
# Dialects

A dialect decides three things: how a name is quoted, what a placeholder looks like, and how a
comparison is spelled. Given these and whether values become placeholders, every text has one
spelling (`Spelling.spell`), which depends only on how many parameters were bound before.
-/

namespace SqlTree

/-- The dialects of SQL. -/
inductive Dialect where
  | postgres
  | mysql
  | sqlite
  deriving DecidableEq

namespace Dialect

def all : List Dialect := [.postgres, .mysql, .sqlite]

def name : Dialect → String
  | .postgres => "postgres"
  | .mysql => "mysql"
  | .sqlite => "sqlite"

/-- The character around names. -/
def quoteMark : Dialect → Char
  | .mysql => '\x60'
  | _ => '\x22'

/-- A quoted name. -/
def quote (dialect : Dialect) (name : String) : String := Text.quote dialect.quoteMark name

/-- The placeholder of the parameter with a position, counted from one. -/
def placeholder : Dialect → Nat → String
  | .postgres, index => "$" ++ toString index
  | _, _ => "?"

/-- A comparison as most dialects spell it. -/
def commonComparison (op : ComparisonOp) (left right : String) : String :=
  match op with
  | .caseInsensitiveEq => "LOWER(" ++ left ++ ") = LOWER(" ++ right ++ ")"
  | op => left ++ " " ++ op.word ++ " " ++ right

/-- A comparison of two texts. -/
def compare (dialect : Dialect) (op : ComparisonOp) (left right : String) : String :=
  match dialect, op with
  | .mysql, .regexMatch => left ++ " REGEXP " ++ right
  | .mysql, .regexNotMatch => left ++ " NOT REGEXP " ++ right
  | .mysql, .caseSensitiveEq => left ++ " = BINARY " ++ right
  | .mysql, .caseInsensitiveEq => left ++ " = " ++ right
  | .sqlite, .regexMatch => left ++ " REGEXP " ++ right
  | .sqlite, .regexNotMatch => left ++ " NOT REGEXP " ++ right
  | .sqlite, .caseSensitiveEq => left ++ " = " ++ right ++ " COLLATE BINARY"
  | .sqlite, .caseInsensitiveEq => left ++ " = " ++ right ++ " COLLATE NOCASE"
  | _, op => commonComparison op left right

end Dialect

/-- A dialect, and whether values become placeholders. -/
structure Spelling where
  dialect : Dialect
  parameterise : Bool

namespace Spelling

/-- A value as text: null is a keyword, any other value a placeholder or a literal. -/
def value (how : Spelling) (v : Value) (bound : Nat) : String :=
  if v.isNull then "NULL"
  else if how.parameterise then how.dialect.placeholder (bound + 1)
  else v.inline

/-- A text in full, `bound` parameters having been bound before it. -/
def spell (how : Spelling) : Doc → Nat → String
  | .text s, _ => s
  | .name s, _ => how.dialect.quote s
  | .bare _ s, _ => s
  | .value v, bound => how.value v bound
  | .raw sql _, _ => sql
  | .comment mark s, _ => mark ++ " " ++ Text.sanitizeComment s ++ " */"
  | .comparison op left right, bound =>
    how.dialect.compare op (how.spell left bound) (how.spell right (bound + left.slots))
  | .paren body, bound => "(" ++ how.spell body bound ++ ")"
  | .indented body, bound => Text.indent (how.spell body bound)
  | .append left right, bound => how.spell left bound ++ how.spell right (bound + left.slots)

end Spelling
end SqlTree
