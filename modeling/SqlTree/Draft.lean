import SqlTree.Drawing.Graph
import SqlTree.Pipeline
import SqlTree.Session

/-!
# Drafts

A draft is a statement with the transformers it passes through before it is written. Writing a
draft never changes it: the transformers work on the statement as it stands, and what they make
of it is written to an `Output`, a session for SQL text or a graph.

An output is started afresh for every statement, but only once the statement is known to be
written: a failure before that leaves the output as it was.
-/

namespace SqlTree

/-! ## 1. Outputs -/

/-- What statements are written to. -/
inductive Output where
  /-- SQL text with its parameters. -/
  | sql (session : Session)
  /-- A digraph. -/
  | drawing (graph : Graph)

/-- A statement as it was written: its text and, for SQL, all parameters of the output. -/
structure Rendered where
  text : String
  params : Option (List Value)

namespace Output

/-- The same output with nothing written to it. -/
def reset : Output → Output
  | .sql s => .sql s.reset
  | .drawing _ => .drawing {}

/-- The parameters bound so far. A drawing has none. -/
def params : Output → Option (List Value)
  | .sql s => some s.params
  | .drawing _ => none

/-- Writes a tree: behind what a session wrote before, but to a graph of its own. -/
def render (tree : Node) : Output → Except Misuse (String × Output)
  | .sql s => (s.render tree).map fun (text, s) => (text, .sql s)
  | .drawing _ => .ok ((Graph.ofNode tree).dot, .drawing (Graph.ofNode tree))

/-- Writes a statement to an output started afresh. -/
def present (out : Output) (tree : Node) : Except Failure Rendered × Output :=
  match out.reset.render tree with
  | .ok (text, out) => (.ok ⟨text, out.params⟩, out)
  | .error fault => (.error (.misuse fault), out.reset)

end Output

/-! ## 2. Drafts -/

/-- A statement with the transformers it passes through. -/
structure Draft (σ : Type) where
  statement : σ
  pipeline : Pipeline := []

namespace Draft

variable {σ : Type} [Transformable σ]

/-- One more transformer, behind all others. -/
def use (d : Draft σ) (t : Transformer) : Draft σ := { d with pipeline := d.pipeline ++ [t] }

/-- The statement as a tree, before any transformer. -/
def node (d : Draft σ) : Node := (Transformable.statement d.statement).node

/-- The tree to be written: what the transformers make of the statement. -/
def final (d : Draft σ) : Except Failure Node := do
  let s ← d.pipeline.apply d.statement
  match Transformable.defect? s with
  | some failure => throw failure
  | none => return (Transformable.statement s).node

/-- Writes a draft. If there is nothing to write, the output stays as it was. -/
def write (d : Draft σ) (out : Output) : Except Failure Rendered × Output :=
  match d.final with
  | .error failure => (.error failure, out)
  | .ok tree => out.present tree

/-- Draws a SELECT with a cluster for what each transformer added. -/
def graph (d : Draft (Select Node)) : Except Failure Graph := do
  let (s, attributions) ← d.pipeline.applyAttributed d.statement
  return Graph.ofAttributed ⟨.select s⟩ attributions

end Draft
end SqlTree
