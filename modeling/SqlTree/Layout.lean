import SqlTree.Doc

/-!
# The layout of a statement

A statement is a list of sections, and a layout turns them into one text: on one line with spaces
between the sections, or each section on lines of its own, where the further items of a list
stand behind a tab. A layout changes nothing but blanks.
-/

namespace SqlTree

/-- What stands between the items of a list. -/
inductive Separator where
  | comma
  | conjunction

/-- A part of a statement that starts a line of its own in a layout over several lines. -/
inductive Section where
  /-- A part that stays on its line. -/
  | line (text : Doc)
  /-- A heading with the items of its list. -/
  | items (heading : Doc) (separator : Separator) (items : List Doc)
  /-- A query in parentheses. -/
  | block (body : Doc)

/-- How the sections of a statement are laid out. -/
inductive Layout where
  | oneLine
  | lines
  deriving DecidableEq

namespace Layout

/-- The text between two items. -/
def between : Layout → Separator → Doc
  | .oneLine, .comma => ", "
  | .oneLine, .conjunction => " AND "
  | .lines, .comma => "\n\t,"
  | .lines, .conjunction => "\n\tAND "

/-- One section. A heading without items keeps its space only on one line. -/
def lay (layout : Layout) : Section → Doc
  | .line text => text
  | .items heading separator items =>
    match layout, items with
    | .lines, [] => heading
    | _, items => heading ++ " " ++ Doc.join (layout.between separator) items
  | .block body =>
    match layout with
    | .oneLine => .paren body
    | .lines => .paren ("\n" ++ .indented body ++ "\n")

/-- A statement from its sections. -/
def statement (layout : Layout) (sections : List Section) : Doc :=
  Doc.join (match layout with | .oneLine => " " | .lines => "\n") (sections.map layout.lay)

end Layout
end SqlTree
