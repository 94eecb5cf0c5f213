import SqlTree.Node.Relation

/-!
# Drawing a tree

A graph collects the boxes and links of the trees drawn so far, and clusters of boxes that are
credited to one participant. Boxes are numbered in the order in which they are drawn.

A pen draws on a graph. It draws a box and answers its number (`add`), it draws a link between two
boxes (`edge`), or it draws whatever hangs under a box and then the link to it (`child`,
`children`).

`Node.pen` draws a node: a box for the node, one for each child, and one for each clause that is a
thing of its own (a join, a window, a row, an assignment and so on). A clause that is not drawn by
a node is linked as soon as it has its box (`boxUnder`). The relation of a column is only named in
the label of the column.

A SELECT that is drawn before anything else notes the boxes of each of its WHERE items and joins,
for clusters.
-/

namespace SqlTree

/-! ## 1. Graphs -/

/-- The fill of a box. -/
inductive Fill where
  | lightblue
  | lightyellow
  | white
  | lightpink
  | lightgreen
  | lightgrey
  deriving DecidableEq

def Fill.word : Fill → String
  | .lightblue => "lightblue"
  | .lightyellow => "lightyellow"
  | .white => "white"
  | .lightpink => "lightpink"
  | .lightgreen => "lightgreen"
  | .lightgrey => "lightgrey"

/-- A box. -/
structure Box where
  label : String
  fill : Fill
  deriving DecidableEq

/-- A link between two boxes, by their numbers. -/
structure Edge where
  parent : Nat
  child : Nat
  label : String
  deriving DecidableEq

/-- Boxes credited to one participant. -/
structure Cluster where
  label : String
  color : String
  members : List Nat
  deriving DecidableEq

/-- What has been drawn so far. A block of boxes is noted by its first number and the one behind
    its last. -/
structure Graph where
  boxes : List Box := []
  edges : List Edge := []
  clusters : List Cluster := []
  /-- The blocks of the WHERE items of a SELECT that was drawn first. -/
  whereBlocks : List (Nat × Nat) := []
  /-- The blocks of its joins. -/
  joinBlocks : List (Nat × Nat) := []
  deriving DecidableEq

/-! ## 2. Pens -/

/-- What draws on a graph. -/
abbrev Pen := StateM Graph

namespace Pen

/-- Draws a box and answers its number. -/
def add (label : String) (fill : Fill) : Pen Nat :=
  modifyGet fun g => (g.boxes.length, { g with boxes := g.boxes ++ [⟨label, fill⟩] })

/-- Draws a link. -/
def edge (parent child : Nat) (label : String) : Pen Unit :=
  modify fun g => { g with edges := g.edges ++ [⟨parent, child, label⟩] }

/-- Draws what hangs under a box, and behind it the link. -/
def link (parent : Nat) (role : String) (drawing : Pen Nat) : Pen Unit := do
  let drawn ← drawing
  edge parent drawn role

/-- A child of a form: the node and what draws it. -/
abbrev Child := Node × Pen Nat

def child (parent : Nat) (role : String) (c : Child) : Pen Unit := link parent role c.2

def children (parent : Nat) (role : String) (cs : List Child) : Pen Unit :=
  cs.forM (child parent role)

/-- Draws a box and everything below it, and answers the number of the box. -/
def box (label : String) (fill : Fill) (below : Nat → Pen Unit) : Pen Nat := do
  let id ← add label fill
  below id
  return id

/-- Draws a box, the link to it, and behind them everything below it. -/
def boxUnder (parent : Nat) (role label : String) (fill : Fill) (below : Nat → Pen Unit) :
    Pen Unit := do
  let id ← add label fill
  edge parent id role
  below id

/-- How many boxes are drawn. -/
def count : Pen Nat := do
  return (← get).boxes.length

/-- Notes all boxes from a number on as those of a WHERE item. -/
def noteWhere (start : Nat) : Pen Unit :=
  modify fun g => { g with whereBlocks := g.whereBlocks ++ [(start, g.boxes.length)] }

/-- Notes all boxes from a number on as those of a join. -/
def noteJoin (start : Nat) : Pen Unit :=
  modify fun g => { g with joinBlocks := g.joinBlocks ++ [(start, g.boxes.length)] }

end Pen

/-! ## 3. Labels -/

section Labels

variable {ν : Type}

def Window.label (w : Window ν) : String :=
  match w.name with
  | some name => "Window\n" ++ name
  | none => "Window"

def Join.label (j : Join ν) : String :=
  "Join\n" ++ match j.kind with
    | .verbatim => "STRING"
    | kind => if j.lateral then kind.word ++ " LATERAL" else kind.word

def OnConflict.label (c : OnConflict ν) : String :=
  "OnConflict\n" ++ match c.action with
    | .doNothing => "DO NOTHING"
    | .doUpdate _ _ => "DO UPDATE"

end Labels

/-! ## 4. Clauses -/

namespace Pen

def bound (b : Bound Child) : Pen Nat :=
  box ("FrameBound\n" ++ b.word) .white fun id => b.offset?.forM (child id "offset")

def boundUnder (parent : Nat) (role : String) (b : Bound Child) : Pen Unit :=
  link parent role (bound b)

def frame (parent : Nat) (f : Frame Child) : Pen Unit :=
  boxUnder parent "frame" ("Frame\n" ++ f.unit.word) .white fun id => do
    boundUnder id "start" f.start
    f.stop.forM (boundUnder id "end")

def window (w : Window Child) : Pen Nat :=
  box w.label .lightgreen fun id => do
    children id "partition" w.partition
    children id "order" w.order
    w.frame.forM (frame id)

/-- A window with a name behind a SELECT. -/
def windowUnder (parent : Nat) (w : Window Child) : Pen Unit := link parent "window" (window w)

def windowRef : WindowRef Child → Pen Nat
  | .inline w => window w
  | .named name => add ("WindowRef\n" ++ name) .white

def join (j : Join Child) : Pen Nat :=
  box j.label .lightblue fun id => do
    child id "right" j.right
    j.predicate.forM (child id "on")

/-- The two sides of an assignment. -/
def sides (id : Nat) (a : Assignment Child) : Pen Unit := do
  child id "left" a.target
  child id "right" a.value

/-- An assignment of a statement. -/
def assign (parent : Nat) (a : Assignment Child) : Pen Unit :=
  boxUnder parent "set" "Assignment" .lightgreen fun id => sides id a

/-- The box of a list, with its items below it. -/
def group (parent : Nat) (role label item : String) (cs : List Child) : Pen Unit :=
  boxUnder parent role label .white fun id => children id item cs

def onConflict (parent : Nat) (c : OnConflict Child) : Pen Unit :=
  boxUnder parent "on_conflict" c.label .lightgrey fun id => do
    children id "column" c.columns
    match c.action with
    | .doNothing => pure ()
    | .doUpdate assignments wheres => do
      assignments.forM (assign id)
      children id "where" wheres

/-- A query with a name in front of a SELECT. -/
def cteUnder (parent : Nat) (c : Cte Child) : Pen Unit :=
  boxUnder parent "cte" ("Cte\n" ++ c.name) .lightgrey fun id => child id "query" c.query

/-! ## 5. Statements -/

/-- A join of a SELECT, noted if the SELECT was drawn first. -/
def joined (first : Bool) (parent : Nat) (j : Join Child) : Pen Unit := do
  let start ← count
  link parent "join" (join j)
  if first then noteJoin start

/-- A WHERE item of a SELECT, noted if the SELECT was drawn first. -/
def filtered (first : Bool) (parent : Nat) (c : Child) : Pen Unit := do
  let start ← count
  child parent "where" c
  if first then noteWhere start

/-- Everything below the box of a SELECT. What its rows are distinct on is not drawn. -/
def selectBelow (first : Bool) (s : Select Child) (id : Nat) : Pen Unit := do
  s.ctes.forM (cteUnder id)
  children id "projection" s.projections
  s.source.forM (child id "from")
  s.joins.forM (joined first id)
  s.wheres.forM (filtered first id)
  children id "group" s.groups
  children id "having" s.havings
  s.windows.forM (windowUnder id)
  children id "order" s.orders
  s.limit.forM (child id "limit")
  s.offset.forM (child id "offset")

def select (s : Select Child) : Pen Nat := do
  let first := (← get).boxes.isEmpty
  box "SelectCore" .lightgrey (selectBelow first s)

def setOperation (s : SetOperation Child) : Pen Nat :=
  box ("SetOperation\n" ++ s.op.word) .lightgrey fun id => do
    child id "left" s.left
    child id "right" s.right
    children id "order" s.orders
    s.limit.forM (child id "limit")
    s.offset.forM (child id "offset")

def insert (s : Insert Child) : Pen Nat :=
  box "InsertStatement" .lightgrey fun id => do
    child id "into" s.target
    children id "column" s.columns
    s.rows.forM (group id "values" "Row" "value")
    s.select.forM (child id "select")
    s.onConflict.forM (onConflict id)
    children id "returning" s.returning

def update (s : Update Child) : Pen Nat :=
  box "UpdateStatement" .lightgrey fun id => do
    child id "table" s.target
    s.assignments.forM (assign id)
    children id "where" s.wheres
    children id "returning" s.returning

def delete (s : Delete Child) : Pen Nat :=
  box "DeleteStatement" .lightgrey fun id => do
    child id "from" s.target
    children id "where" s.wheres
    children id "returning" s.returning

/-! ## 6. Expressions -/

/-- A box with one child. -/
def one (label : String) (fill : Fill) (role : String) (c : Child) : Pen Nat :=
  box label fill fun id => child id role c

/-- A box with a left and a right child. -/
def two (label : String) (fill : Fill) (left right : Child) : Pen Nat :=
  box label fill fun id => do
    child id "left" left
    child id "right" right

/-- A name, qualified by that of its relation if the relation has one. -/
def qualified (relation : Option String) (name : String) : String :=
  match relation with
  | some r => r ++ "." ++ name
  | none => name

def branch (id : Nat) (b : Branch Child) : Pen Unit := do
  child id "when" b.condition
  child id "then" b.result

/-- Draws a form, its children being drawn by their own pens. -/
def form : Form Child → Pen Nat
  | .table name => add ("Table\n" ++ name) .lightblue
  | .tableAlias relation name => one ("TableAlias\n" ++ name) .lightblue "relation" relation
  | .column relation name _ =>
    add ("Attribute\n" ++ qualified relation.1.relationName? name) .lightyellow
  | .star relation =>
    add ("Star\n" ++ qualified (relation.bind (·.1.relationName?)) "*") .lightyellow
  | .literal v => add ("Literal\n" ++ v.inline) .white
  | .bind v => add ("BindParam\n" ++ v.inline) .white
  | .cast v typeName => add ("Casted\n" ++ v.inline ++ " AS " ++ typeName) .white
  | .raw sql _ => add ("Raw\n" ++ sql) .white
  | .comparison left op right => two ("Comparison\n" ++ op.label) .lightpink left right
  | .nullTest c op => one ("UnaryPredicate\n" ++ op.word) .lightpink "expr" c
  | .and left right => two "And" .lightpink left right
  | .or left right => two "Or" .lightpink left right
  | .not c => one "Not" .lightpink "expr" c
  | .grouping c => one "Grouping" .lightpink "expr" c
  | .membership c values negated =>
    box (if negated then "NotIn" else "In") .lightpink fun id => do
      child id "expr" c
      children id "value" values
  | .between c low high negated =>
    box (if negated then "NotBetween" else "Between") .lightpink fun id => do
      child id "expr" c
      child id "low" low
      child id "high" high
  | .existence query negated =>
    one (if negated then "NotExists" else "Exists") .lightpink "subquery" query
  | .arithmetic left op right => two ("Infix\n" ++ op.word) .lightgreen left right
  | .unary op c => one ("UnaryMath\n" ++ op.word) .lightgreen "expr" c
  | .call name arguments _ =>
    box ("Function\n" ++ name) .lightgreen fun id => children id "arg" arguments
  | .aggregate func argument _ filter =>
    box ("Aggregate\n" ++ func.word) .lightgreen fun id => do
      argument.forM (child id "expr")
      filter.forM (child id "filter")
  | .extract field c => one ("Extract\n" ++ field.word) .lightgreen "expr" c
  | .ordering c direction _ => one ("Ordering\n" ++ direction.word) .lightgreen "expr" c
  | .window w => window w
  | .windowed c w =>
    box "Over" .lightgreen fun id => do
      child id "expr" c
      link id "window" (windowRef w)
  | .labelled c name => one ("Alias\n" ++ name) .lightgreen "expr" c
  | .choice c branches otherwise =>
    box "Case" .lightgreen fun id => do
      c.forM (child id "operand")
      branches.forM (branch id)
      otherwise.forM (child id "else")
  | .groupingSet kind columns sets =>
    box ("GroupingSet\n" ++ kind.word) .lightgreen fun id => do
      children id "column" columns
      sets.forM (group id "set" "Set" "column")
  | .setOperation s => setOperation s
  | .cte c => one ("Cte\n" ++ c.name) .lightgrey "query" c.query
  | .assignment a => box "Assignment" .lightgreen fun id => sides id a
  | .join j => join j
  | .select s => select s
  | .insert s => insert s
  | .update s => update s
  | .delete s => delete s

end Pen

/-- Draws a tree and answers the number of its root. -/
def Node.pen : Node → Pen Nat := fold Pen.form

end SqlTree
