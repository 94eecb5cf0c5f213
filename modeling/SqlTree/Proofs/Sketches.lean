import SqlTree.Proofs.Drawings

/-!
# Sketches

A sketch is what a pen draws, without the numbers: a box with labelled links to further sketches, in
the order in which they are drawn. It is grown link by link: `attach` adds one more link to the box
at the root. A sketch of `n` boxes that is drawn from number `i` on takes the numbers from `i` to
`i + n - 1` (`boxes`, `edges`).

* `Draw.form`, `Node.sketch` -- the sketch of a form from those of its children, and of a tree;
* `Sketch.spans` -- the links of a sketch span its boxes.
-/

namespace SqlTree

/-- When a link is drawn: before the boxes below its child, or after them. -/
inductive LinkTime where
  | early
  | late
  deriving DecidableEq

/-- A box with links to further sketches. -/
inductive Sketch where
  | box (box : Box)
  | attach (parent : Sketch) (label : String) (time : LinkTime) (child : Sketch)

namespace Sketch

/-! ## 1. What a sketch draws -/

/-- The boxes in the order of their numbers. -/
def boxes : Sketch → List Box
  | .box b => [b]
  | .attach parent _ _ child => parent.boxes ++ child.boxes

/-- The number of boxes. -/
def size : Sketch → Nat
  | .box _ => 1
  | .attach parent _ _ child => parent.size + child.size

/-- The links in the order in which they are drawn, the root having the number `start`. -/
def edges (start : Nat) : Sketch → List Edge
  | .box _ => []
  | .attach parent label time child =>
    let first := start + parent.size
    let link : Edge := ⟨start, first, label⟩
    parent.edges start ++
      match time with
      | .early => link :: child.edges first
      | .late => child.edges first ++ [link]

/-- The numbers of the boxes below each link of the root that has a label: the first one and the
    one behind the last. -/
def blocks (label : String) (start : Nat) : Sketch → List (Nat × Nat)
  | .box _ => []
  | .attach parent l _ child =>
    let first := start + parent.size
    parent.blocks label start ++ if l = label then [(first, first + child.size)] else []

/-! ## 2. Growing a sketch -/

/-- A box with a label. -/
def leaf (label : String) (fill : Fill) : Sketch := .box ⟨label, fill⟩

/-- A link drawn after its child. -/
def link (parent : Sketch) (label : String) (child : Sketch) : Sketch :=
  parent.attach label .late child

/-- A link drawn before the boxes below its child. -/
def linkFirst (parent : Sketch) (label : String) (child : Sketch) : Sketch :=
  parent.attach label .early child

/-- A link for a child that may be missing. -/
def linkOption (parent : Sketch) (label : String) (child : Option Sketch) : Sketch :=
  match child with
  | none => parent
  | some c => parent.link label c

/-- A link for every child of a list. -/
def linkAll (parent : Sketch) (label : String) (children : List Sketch) : Sketch :=
  children.foldl (fun p c => p.link label c) parent

/-- The same with links drawn before the boxes below their children. -/
def linkAllFirst (parent : Sketch) (label : String) (children : List Sketch) : Sketch :=
  children.foldl (fun p c => p.linkFirst label c) parent

end Sketch

/-! ## 3. Clauses -/

namespace Draw

/-- A child of a form: the node and its sketch. -/
abbrev Child := Node × Sketch

def sketches (children : List Child) : List Sketch := children.map (·.2)

def bound (b : Bound Child) : Sketch :=
  (Sketch.leaf ("FrameBound\n" ++ b.word) .white).linkOption "offset" (b.offset?.map (·.2))

def frame (f : Frame Child) : Sketch :=
  ((Sketch.leaf ("Frame\n" ++ f.unit.word) .white).link "start" (bound f.start)).linkOption "end"
    (f.stop.map bound)

def window (w : Window Child) : Sketch :=
  let base := ((Sketch.leaf w.label .lightgreen).linkAll "partition" (sketches w.partition)).linkAll
    "order" (sketches w.order)
  match w.frame with
  | none => base
  | some f => base.linkFirst "frame" (frame f)

def windowRef : WindowRef Child → Sketch
  | .inline w => window w
  | .named name => .leaf ("WindowRef\n" ++ name) .white

def join (j : Join Child) : Sketch :=
  ((Sketch.leaf j.label .lightblue).link "right" j.right.2).linkOption "on"
    (j.predicate.map (·.2))

def cte (c : Cte Child) : Sketch :=
  (Sketch.leaf ("Cte\n" ++ c.name) .lightgrey).link "query" c.query.2

def assignment (a : Assignment Child) : Sketch :=
  ((Sketch.leaf "Assignment" .lightgreen).link "left" a.target.2).link "right" a.value.2

def onConflict (c : OnConflict Child) : Sketch :=
  let base := (Sketch.leaf c.label .lightgrey).linkAll "column" (sketches c.columns)
  match c.action with
  | .doNothing => base
  | .doUpdate assignments wheres =>
    (base.linkAllFirst "set" (assignments.map assignment)).linkAll "where" (sketches wheres)

/-! ## 4. Statements -/

def select (s : Select Child) : Sketch :=
  let base := (Sketch.leaf "SelectCore" .lightgrey).linkAllFirst "cte" (s.ctes.map cte)
  let base := base.linkAll "projection" (sketches s.projections)
  let base := base.linkOption "from" (s.source.map (·.2))
  let base := base.linkAll "join" (s.joins.map join)
  let base := base.linkAll "where" (sketches s.wheres)
  let base := base.linkAll "group" (sketches s.groups)
  let base := base.linkAll "having" (sketches s.havings)
  let base := base.linkAll "window" (s.windows.map window)
  let base := base.linkAll "order" (sketches s.orders)
  let base := base.linkOption "limit" (s.limit.map (·.2))
  base.linkOption "offset" (s.offset.map (·.2))

def setOperation (s : SetOperation Child) : Sketch :=
  let base := (Sketch.leaf ("SetOperation\n" ++ s.op.word) .lightgrey).link "left" s.left.2
  let base := (base.link "right" s.right.2).linkAll "order" (sketches s.orders)
  let base := base.linkOption "limit" (s.limit.map (·.2))
  base.linkOption "offset" (s.offset.map (·.2))

/-- The box of a list whose items are drawn below it. -/
def group (label item : String) (children : List Child) : Sketch :=
  (Sketch.leaf label .white).linkAll item (sketches children)

def insert (s : Insert Child) : Sketch :=
  let base := (Sketch.leaf "InsertStatement" .lightgrey).link "into" s.target.2
  let base := base.linkAll "column" (sketches s.columns)
  let base := base.linkAllFirst "values" (s.rows.map (group "Row" "value"))
  let base := base.linkOption "select" (s.select.map (·.2))
  let base := match s.onConflict with
    | none => base
    | some c => base.linkFirst "on_conflict" (onConflict c)
  base.linkAll "returning" (sketches s.returning)

def update (s : Update Child) : Sketch :=
  let base := (Sketch.leaf "UpdateStatement" .lightgrey).link "table" s.target.2
  let base := base.linkAllFirst "set" (s.assignments.map assignment)
  let base := base.linkAll "where" (sketches s.wheres)
  base.linkAll "returning" (sketches s.returning)

def delete (s : Delete Child) : Sketch :=
  let base := (Sketch.leaf "DeleteStatement" .lightgrey).link "from" s.target.2
  let base := base.linkAll "where" (sketches s.wheres)
  base.linkAll "returning" (sketches s.returning)

/-! ## 5. Expressions -/

/-- A box with one child. -/
def one (label : String) (fill : Fill) (role : String) (c : Child) : Sketch :=
  (Sketch.leaf label fill).link role c.2

/-- A box with a left and a right child. -/
def two (label : String) (fill : Fill) (left right : Child) : Sketch :=
  ((Sketch.leaf label fill).link "left" left.2).link "right" right.2

def branches (base : Sketch) (bs : List (Branch Child)) : Sketch :=
  bs.foldl (fun s b => (s.link "when" b.condition.2).link "then" b.result.2) base

/-- The sketch of a form from the sketches of its children. -/
def form : Form Child → Sketch
  | .table name => .leaf ("Table\n" ++ name) .lightblue
  | .tableAlias relation name => one ("TableAlias\n" ++ name) .lightblue "relation" relation
  | .column relation name _ =>
    .leaf ("Attribute\n" ++ Pen.qualified relation.1.relationName? name) .lightyellow
  | .star relation =>
    .leaf ("Star\n" ++ Pen.qualified (relation.bind (·.1.relationName?)) "*") .lightyellow
  | .literal v => .leaf ("Literal\n" ++ v.inline) .white
  | .bind v => .leaf ("BindParam\n" ++ v.inline) .white
  | .cast v typeName => .leaf ("Casted\n" ++ v.inline ++ " AS " ++ typeName) .white
  | .raw sql _ => .leaf ("Raw\n" ++ sql) .white
  | .comparison left op right => two ("Comparison\n" ++ op.label) .lightpink left right
  | .nullTest c op => one ("UnaryPredicate\n" ++ op.word) .lightpink "expr" c
  | .and left right => two "And" .lightpink left right
  | .or left right => two "Or" .lightpink left right
  | .not c => one "Not" .lightpink "expr" c
  | .grouping c => one "Grouping" .lightpink "expr" c
  | .membership c values negated =>
    (one (if negated then "NotIn" else "In") .lightpink "expr" c).linkAll "value" (sketches values)
  | .between c low high negated =>
    ((one (if negated then "NotBetween" else "Between") .lightpink "expr" c).link "low" low.2).link
      "high" high.2
  | .existence query negated =>
    one (if negated then "NotExists" else "Exists") .lightpink "subquery" query
  | .arithmetic left op right => two ("Infix\n" ++ op.word) .lightgreen left right
  | .unary op c => one ("UnaryMath\n" ++ op.word) .lightgreen "expr" c
  | .call name arguments _ =>
    (Sketch.leaf ("Function\n" ++ name) .lightgreen).linkAll "arg" (sketches arguments)
  | .aggregate func argument _ filter =>
    ((Sketch.leaf ("Aggregate\n" ++ func.word) .lightgreen).linkOption "expr"
      (argument.map (·.2))).linkOption "filter" (filter.map (·.2))
  | .extract field c => one ("Extract\n" ++ field.word) .lightgreen "expr" c
  | .ordering c direction _ => one ("Ordering\n" ++ direction.word) .lightgreen "expr" c
  | .window w => window w
  | .windowed c w => (one "Over" .lightgreen "expr" c).link "window" (windowRef w)
  | .labelled c name => one ("Alias\n" ++ name) .lightgreen "expr" c
  | .choice c bs otherwise =>
    (branches ((Sketch.leaf "Case" .lightgreen).linkOption "operand" (c.map (·.2))) bs).linkOption
      "else" (otherwise.map (·.2))
  | .groupingSet kind columns sets =>
    ((Sketch.leaf ("GroupingSet\n" ++ kind.word) .lightgreen).linkAll "column"
      (sketches columns)).linkAllFirst "set" (sets.map (group "Set" "column"))
  | .setOperation s => setOperation s
  | .cte c => cte c
  | .assignment a => assignment a
  | .join j => join j
  | .select s => select s
  | .insert s => insert s
  | .update s => update s
  | .delete s => delete s

end Draw

/-- The sketch of a tree. -/
def Node.sketch : Node → Sketch := fold Draw.form

theorem Node.sketch_mk (form : Form Node) :
    (Node.mk form).sketch = Draw.form (form.map fun n => (n, n.sketch)) := fold_mk _ form

/-! ## 6. The boxes and links of a sketch -/

namespace Sketch

@[simp] theorem length_boxes (s : Sketch) : s.boxes.length = s.size := by
  induction s with
  | box b => rfl
  | attach parent label time child ihp ihc =>
    rw [boxes, List.length_append, ihp, ihc, size]

theorem size_pos (s : Sketch) : 0 < s.size := by
  cases s with
  | box b => exact Nat.one_pos
  | attach parent label time child =>
    have := parent.size_pos
    rw [size]
    omega

/-- When a link is drawn does not change which links there are. -/
theorem edges_attach (start : Nat) (parent : Sketch) (label : String) (time : LinkTime)
    (child : Sketch) :
    ((attach parent label time child).edges start).Perm (parent.edges start
      ++ ⟨start, start + parent.size, label⟩ :: child.edges (start + parent.size)) := by
  cases time with
  | early => exact .refl _
  | late => exact (List.perm_append_singleton _ _).append_left _

/-- **The links of a sketch span its boxes.** -/
theorem spans (s : Sketch) (start : Nat) : Spans start (start + s.size) (s.edges start) := by
  induction s generalizing start with
  | box b => exact .single start
  | attach parent label time child ihp ihc =>
    have hchild := ihc (start + parent.size)
    rw [Nat.add_assoc] at hchild
    exact (ihp start).attach (Nat.le_refl start) (ihp start).lt hchild
      (edges_attach start parent label time child)

end Sketch

end SqlTree
