import SqlTree.Name
import SqlTree.Keyword
import SqlTree.Value

/-!
# Statement text that no dialect has spelled yet

A `Doc` is the text of a statement with everything left open that dialects spell differently:
names to be quoted, values that become placeholders or literals, and comparisons. Two things can
be read off it before it is spelled:

* `bindings`: the values it binds, in the order in which the text mentions them. A null value is
  a keyword and binds nothing; verbatim SQL binds all it brings along;
* `fault?`: the first name written bare that its rule does not accept.
-/

namespace SqlTree

/-- Statement text with names, values and comparisons left open. -/
inductive Doc where
  /-- Keywords and punctuation. -/
  | text (s : String)
  /-- A name to be quoted. -/
  | name (s : String)
  /-- A name written as it is, if its rule accepts it. -/
  | bare (rule : NameRule) (s : String)
  /-- A value: a placeholder or a literal. -/
  | value (v : Value)
  /-- SQL text of the caller, with the values bound by it. -/
  | raw (sql : String) (binds : List Value)
  /-- A block comment with its opening mark. -/
  | comment (mark : String) (s : String)
  /-- A comparison of two texts. -/
  | comparison (op : ComparisonOp) (left right : Doc)
  /-- A text in parentheses. -/
  | paren (body : Doc)
  /-- A text whose lines are moved to the right. -/
  | indented (body : Doc)
  | append (left right : Doc)

namespace Doc

instance : Append Doc := ⟨append⟩

instance : Coe String Doc := ⟨text⟩

/-! ## 1. Putting texts together -/

def empty : Doc := .text ""

/-- Texts with a separator between each two. -/
def join (separator : Doc) : List Doc → Doc
  | [] => empty
  | [d] => d
  | d :: rest => d ++ separator ++ join separator rest

/-- A keyword in front of a text, or nothing. -/
def after (keyword : String) : Option Doc → Doc
  | none => empty
  | some d => keyword ++ d

/-! ## 2. What a text binds -/

/-- The values that a text binds, in the order of the text. -/
def bindings : Doc → List Value
  | .value v => if v.isNull then [] else [v]
  | .raw _ binds => binds
  | .comparison _ left right => left.bindings ++ right.bindings
  | .paren body => body.bindings
  | .indented body => body.bindings
  | .append left right => left.bindings ++ right.bindings
  | _ => []

/-- The number of values that a text binds. -/
def slots (d : Doc) : Nat := d.bindings.length

/-! ## 3. Faults -/

/-- The first name written bare that its rule does not accept. -/
def fault? : Doc → Option Misuse
  | .bare rule s => if rule.accepts s then none else some (.invalidName rule s)
  | .comparison _ left right => left.fault?.or right.fault?
  | .paren body => body.fault?
  | .indented body => body.fault?
  | .append left right => left.fault?.or right.fault?
  | _ => none

end Doc
end SqlTree
