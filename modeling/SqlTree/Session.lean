import SqlTree.Dialect
import SqlTree.Render

/-!
# Rendering sessions

A `Renderer` is a dialect, a layout and the choice between placeholders and literals. A `Session`
is a renderer with the parameters bound so far: each rendering adds the values its text binds, and
numbers its placeholders after those already there. A text with an invalid bare name is refused.
-/

namespace SqlTree

/-- How statements are written. -/
structure Renderer where
  dialect : Dialect
  layout : Layout := .oneLine
  /-- Whether values become placeholders. Without placeholders, values stand in the text. -/
  parameterise : Bool := true
  deriving DecidableEq

namespace Renderer

def spelling (r : Renderer) : Spelling := ⟨r.dialect, r.parameterise⟩

end Renderer

/-- A renderer and the parameters bound so far. -/
structure Session where
  renderer : Renderer
  params : List Value := []

namespace Session

/-- The position of the last parameter. -/
def index (s : Session) : Nat := s.params.length

/-- The same renderer without parameters. -/
def reset (s : Session) : Session := { s with params := [] }

/-- One more parameter. -/
def push (s : Session) (v : Value) : Session := { s with params := s.params ++ [v] }

/-- The same session with everything on one line. -/
def onOneLine (s : Session) : Session :=
  { s with renderer := { s.renderer with layout := .oneLine } }

/-! ## 1. Writing texts -/

/-- Writes a text: its spelling, and the session with the values it binds. -/
def write (s : Session) (d : Doc) : Except Misuse (String × Session) :=
  match d.fault? with
  | some misuse => .error misuse
  | none =>
    let text := s.renderer.spelling.spell d s.index
    .ok (text, if s.renderer.parameterise then { s with params := s.params ++ d.bindings } else s)

/-! ## 2. Writing parts of trees -/

/-- A child as this session lays it out. -/
def child (s : Session) (n : Node) : Render.Child := n.rendered s.renderer.layout

/-- Renders a tree. -/
def render (s : Session) (n : Node) : Except Misuse (String × Session) :=
  s.write (n.doc s.renderer.layout)

/-- Renders a tree where an expression stands. -/
def operand (s : Session) (n : Node) : Except Misuse (String × Session) :=
  s.write (Render.operand (s.child n))

/-- Renders trees with a separator between each two. -/
def list (s : Session) (nodes : List Node) (separator : String) :
    Except Misuse (String × Session) :=
  s.write (Doc.join separator (nodes.map (Node.doc s.renderer.layout)))

/-- Renders a column without its relation. -/
def unqualified (s : Session) (n : Node) : Except Misuse (String × Session) :=
  s.write (Render.unqualified (s.child n))

/-- Renders a column list. -/
def columnList (s : Session) (columns : List Node) : Except Misuse (String × Session) :=
  s.write (Render.columnList (columns.map s.child))

/-- Renders one row of values. -/
def valuesRow (s : Session) (row : List Node) : Except Misuse (String × Session) :=
  s.write (Render.valuesRow (row.map s.child))

/-- Renders the inside of a window. -/
def windowBody (s : Session) (w : Window Node) : Except Misuse (String × Session) :=
  s.write (Render.windowBody (w.map s.child))

/-- Renders the named queries of a SELECT, if it has any. -/
def withClause (s : Session) (q : Select Node) : Except Misuse (Option String × Session) :=
  match Render.withClause? (q.ctes.map (Cte.map s.child)) with
  | none => .ok (none, s)
  | some d => (s.write d).map fun (text, s) => (some text, s)

/-- Renders a SELECT up to its projections. -/
def selectHead (s : Session) (q : Select Node) : Except Misuse (String × Session) :=
  s.write (Render.selectHead (q.map s.child))

/-- Renders the lock of a SELECT, if it has one. -/
def lockClause (s : Session) (q : Select Node) : Except Misuse (Option String × Session) :=
  match Render.lockClause? (q.map s.child) with
  | none => .ok (none, s)
  | some d => (s.write d).map fun (text, s) => (some text, s)

/-- Renders a value. -/
def value (s : Session) (v : Value) : Except Misuse (String × Session) := s.write (.value v)

end Session
end SqlTree
