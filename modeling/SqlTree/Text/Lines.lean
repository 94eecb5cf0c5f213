/-!
# Lines of a text

A line ends at a line feed, and a carriage return directly before that line feed belongs to the
ending. Text after the last line feed is a line only if it is not empty. `indent` writes the
lines again, each behind a tab.
-/

namespace SqlTree.Text

/-- The lines of a text, without their endings. -/
def lines : List Char → List (List Char)
  | [] => []
  | '\n' :: rest => [] :: lines rest
  | '\r' :: '\n' :: rest => [] :: lines rest
  | c :: rest =>
    match lines rest with
    | [] => [[c]]
    | line :: more => (c :: line) :: more

/-- Lines put back together: a line feed between each two. -/
def unlines : List (List Char) → List Char
  | [] => []
  | [line] => line
  | line :: more => line ++ '\n' :: unlines more

/-- Every line behind a tab. -/
def indent (s : String) : String :=
  String.ofList (unlines ((lines s.toList).map ('\t' :: ·)))

end SqlTree.Text
