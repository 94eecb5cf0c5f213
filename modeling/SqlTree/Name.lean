import SqlTree.Text.Escaped

/-!
# Names that are written bare

Function names and type names are the only texts of the caller that a statement holds without
quotes, so each must consist of harmless characters: letters, digits and the underscore of ASCII
for a function, and also space, parentheses and comma for a type. The empty text is no name.
-/

namespace SqlTree

/-- Where a name stands bare. -/
inductive NameRule where
  | function
  | type
  deriving DecidableEq

namespace NameRule

/-- A letter or digit of ASCII, or the underscore. -/
def isWordChar (c : Char) : Bool :=
  ('a' ≤ c && c ≤ 'z') || ('A' ≤ c && c ≤ 'Z') || ('0' ≤ c && c ≤ '9') || c == '_'

/-- The characters that a bare name may hold. -/
def allows : NameRule → Char → Bool
  | .function, c => isWordChar c
  | .type, c => isWordChar c || c == ' ' || c == '(' || c == ')' || c == ','

/-- A text is a name under the rule: not empty, and every character allowed. -/
def accepts (rule : NameRule) (name : String) : Bool :=
  !name.toList.isEmpty && name.toList.all rule.allows

/-- What the rule allows, in words. -/
def explanation : NameRule → String
  | .function => "only letters, digits and '_' are allowed"
  | .type => "only letters, digits, '_', ' ', '(', ')' and ',' are allowed"

/-- What the rule is for. -/
def subject : NameRule → String
  | .function => "function"
  | .type => "type"

end NameRule

/-- A use of the tree against its rules: a bare name with a forbidden character, or an operation
    on a node it does not apply to. `variant` is the name of that node's form. -/
inductive Misuse where
  | invalidName (rule : NameRule) (name : String)
  | missingArgument (function : String)
  | notRelation (variant : String)
  | notCall (variant : String)
  | notAggregate (variant : String)
  deriving DecidableEq

namespace Misuse

/-- The text of a misuse. -/
def message : Misuse → String
  | .invalidName rule name =>
    "invalid SQL " ++ rule.subject ++ " name " ++ Text.escaped name ++ ": " ++ rule.explanation
  | .missingArgument function =>
    function ++ "(*) is not valid SQL; only COUNT accepts a missing expression"
  | .notRelation variant =>
    "attributes can only be taken from tables and aliases, not " ++ variant
  | .notCall variant => "DISTINCT applies to function calls, not " ++ variant
  | .notAggregate variant => "FILTER applies to aggregates, not " ++ variant

end Misuse

/-- Refuses a name that the rule does not accept. -/
def NameRule.check (rule : NameRule) (name : String) : Except Misuse Unit :=
  if rule.accepts name then .ok () else .error (.invalidName rule name)

end SqlTree
