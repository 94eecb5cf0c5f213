import SqlTree.Attribution
import SqlTree.Drawing.Pen

/-!
# Graphs

Trees are drawn on a graph one after the other (`Graph.visit`), and boxes of the first one are
credited to participants. `Graph.dot` writes the graph as a digraph; a label stands there between
double quotes, with a backslash before each quote and backslash and with line feeds written out.

Only the WHERE items and joins of a SELECT at the root of a fresh graph can be credited.
-/

namespace SqlTree
namespace Graph

/-! ## 1. Drawing -/

/-- Draws a tree and answers the number of its root. -/
def visit (g : Graph) (n : Node) : Nat × Graph := n.pen.run g

/-! ## 2. Credits -/

/-- The colours of clusters, used in turn. -/
def colors : List String := ["red", "blue", "darkgreen", "purple", "orange", "brown"]

/-- The colour of the next cluster. -/
def nextColor (g : Graph) : String := colors.getD (g.clusters.length % colors.length) "red"

/-- The numbers of the boxes of some blocks. -/
def boxesOf (blocks : List (Nat × Nat)) : List Nat :=
  blocks.flatMap fun b => List.range' b.1 (b.2 - b.1)

/-- Credits the boxes of an attribution; credits for no box leave no cluster. -/
def credit (g : Graph) (a : Attribution) : Graph :=
  let members := boxesOf (a.wheres.slice g.whereBlocks) ++ boxesOf (a.joins.slice g.joinBlocks)
  if members.isEmpty then g
  else { g with clusters := g.clusters ++ [⟨a.name, g.nextColor, members⟩] }

/-- A graph of one tree. -/
def ofNode (n : Node) : Graph := (({} : Graph).visit n).2

/-- A graph of one tree with its credits. -/
def ofAttributed (n : Node) (attributions : List Attribution) : Graph :=
  attributions.foldl credit (ofNode n)

/-! ## 3. Text -/

/-- A label between double quotes. -/
def escapeLabel (s : String) : String :=
  String.ofList <| s.toList.flatMap fun
    | '\\' => ['\\', '\\']
    | '\x22' => ['\\', '\x22']
    | '\n' => ['\\', 'n']
    | c => [c]

def quotedLabel (s : String) : String := "\x22" ++ escapeLabel s ++ "\x22"

/-- The name of a box. -/
def boxName (number : Nat) : String := "n" ++ toString number

def boxLine (number : Nat) (b : Box) : String :=
  "  " ++ boxName number ++ " [label=" ++ quotedLabel b.label ++ ", fillcolor=\x22" ++ b.fill.word
    ++ "\x22];\n"

def edgeLine (e : Edge) : String :=
  "  " ++ boxName e.parent ++ " -> " ++ boxName e.child ++ " [label=\x22" ++ e.label ++ "\x22];\n"

def clusterLines (number : Nat) (c : Cluster) : String :=
  "  subgraph cluster_" ++ toString number ++ " \x7b\n    label=" ++ quotedLabel c.label
    ++ ";\n    style=dashed;\n    color=\x22" ++ c.color ++ "\x22;\n"
    ++ String.join (c.members.map fun m => "    " ++ boxName m ++ ";\n") ++ "  \x7d\n"

/-- The graph as a digraph. -/
def dot (g : Graph) : String :=
  "digraph AST \x7b\n  rankdir=TB;\n"
    ++ "  node [shape=box, style=filled, fontname=\x22Helvetica\x22];\n"
    ++ String.join (g.boxes.zipIdx.map fun (b, i) => boxLine i b)
    ++ String.join (g.edges.map edgeLine)
    ++ String.join (g.clusters.zipIdx.map fun (c, i) => clusterLines i c) ++ "\x7d\n"

end Graph
end SqlTree
