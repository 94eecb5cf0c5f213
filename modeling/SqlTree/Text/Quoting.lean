/-!
# Quoting caller text

Names, string literals, patterns and comments carry text of the caller into a statement. Each
has one rule that keeps the text inside its token:

* a quoted name writes its quote character twice (`doubled`, `quoted`);
* a string literal writes a backslash and a single quote twice (`stringBody`);
* a LIKE pattern puts a backslash before its three special characters (`likeLiteral`);
* a comment gets a space between a star and a slash (`commentBody`).

All four work on lists of characters; the functions on `String` at the end only convert.
-/

namespace SqlTree.Text

/-! ## 1. Quoted names -/

/-- Every `quote` is written twice, all else once. -/
def doubled (quote : Char) : List Char → List Char
  | [] => []
  | c :: rest => if c = quote then quote :: quote :: doubled quote rest else c :: doubled quote rest

/-- The name between two quotes, the quotes inside it doubled. -/
def quoted (quote : Char) (name : List Char) : List Char :=
  quote :: (doubled quote name ++ [quote])

/-! ## 2. String literals and patterns -/

/-- The single quote. -/
def singleQuote : Char := '\x27'

/-- The body of a string literal: a backslash and a single quote are each written twice. -/
def stringBody : List Char → List Char
  | [] => []
  | c :: rest =>
    if c = '\\' ∨ c = singleQuote then c :: c :: stringBody rest else c :: stringBody rest

/-- The three characters with a meaning in a LIKE pattern. -/
def isLikeSpecial (c : Char) : Bool := c == '\\' || c == '%' || c == '_'

/-- The pattern that matches exactly the given text. -/
def likeLiteral : List Char → List Char
  | [] => []
  | c :: rest => if isLikeSpecial c then '\\' :: c :: likeLiteral rest else c :: likeLiteral rest

/-! ## 3. Comments -/

/-- A star directly before a slash is moved away from it by a space, so the text cannot close
    the comment it stands in. -/
def commentBody : List Char → List Char
  | '*' :: '/' :: rest => '*' :: ' ' :: '/' :: commentBody rest
  | c :: rest => c :: commentBody rest
  | [] => []

/-! ## 4. On strings -/

/-- A name between two `quote` characters. -/
def quote (mark : Char) (name : String) : String := String.ofList (quoted mark name.toList)

/-- A name in double quotes. -/
def doubleQuote (name : String) : String := quote '\x22' name

/-- A name in backticks. -/
def backtick (name : String) : String := quote '\x60' name

/-- Text for the inside of a single-quoted literal. -/
def escapeString (s : String) : String := String.ofList (stringBody s.toList)

/-- Text for the inside of a LIKE pattern. -/
def escapeLike (s : String) : String := String.ofList (likeLiteral s.toList)

/-- Text for the inside of a comment. -/
def sanitizeComment (s : String) : String := String.ofList (commentBody s.toList)

end SqlTree.Text
