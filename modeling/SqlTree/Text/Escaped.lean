import SqlTree.Text.Unmarked

/-!
# Text shown in a message

A text of the caller appears in a message between double quotes, and so that a reader can see
every character, a quote, a backslash and the usual controls are written with a backslash, and
every other character without a mark of its own by its code point.
-/

namespace SqlTree.Text

/-- The code point of a character in braces. -/
def codePoint (c : Char) : List Char :=
  '\\' :: 'u' :: '\x7b' :: (Nat.toDigits 16 c.toNat ++ ['\x7d'])

/-- One character inside a shown text. -/
def shown (c : Char) : List Char :=
  match c with
  | '\x00' => ['\\', '0']
  | '\t' => ['\\', 't']
  | '\r' => ['\\', 'r']
  | '\n' => ['\\', 'n']
  | '\\' => ['\\', '\\']
  | '\x22' => ['\\', '\x22']
  | c => if isUnmarked c then codePoint c else [c]

/-- A text between quotes with every character visible. -/
def escaped (s : String) : String :=
  String.ofList ('\x22' :: (s.toList.flatMap shown ++ ['\x22']))

/-- Several texts, each shown, in brackets. -/
def escapedList (items : List String) : String :=
  "[" ++ ", ".intercalate (items.map escaped) ++ "]"

end SqlTree.Text
