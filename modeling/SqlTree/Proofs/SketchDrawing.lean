import SqlTree.Proofs.Sketches

/-!
# Pens that draw sketches

What a pen draws for a tree is the sketch of the tree, with its boxes numbered from the number of
boxes drawn before. So whatever is to be said about a drawn graph can be said about a sketch:

* `Graph.draw`, `Pen.Draws` -- a sketch drawn on a graph, and that a pen draws it;
* `Pen.Extends` -- a pen draws what a sketch has grown by: one rule for each way to hang something
  under a box, one lemma per clause, and `Pen.draws_sketch` for all forms;
* `Pen.Notes` -- the same with the notes of a SELECT that is drawn first;
* `Graph.visit_eq` -- a visit draws the sketch of the tree, and notes the blocks of its WHERE items
  and joins if it is a SELECT and drawn first.
-/

namespace SqlTree

/-! ## 1. Pens that draw sketches -/

/-- Draws a sketch behind all earlier boxes. -/
def Graph.draw (g : Graph) (s : Sketch) : Graph :=
  { g with boxes := g.boxes ++ s.boxes, edges := g.edges ++ s.edges g.boxes.length }

namespace Pen

/-- The pen draws a sketch on the graph and answers the number of its root. -/
def Draws (m : Pen Nat) (s : Sketch) (g : Graph) : Prop := m.run g = (g.boxes.length, g.draw s)

/-- The pen, told the number of the root, draws what a sketch has grown by. -/
def Extends (below : Nat → Pen Unit) (s s' : Sketch) : Prop :=
  ∀ g : Graph, (below g.boxes.length).run (g.draw s) = ((), g.draw s')

variable {s s' s'' c : Sketch} {α β γ : Type}

theorem draws_add (label : String) (fill : Fill) (g : Graph) :
    Draws (add label fill) (.leaf label fill) g := by
  show (_, _) = (_, _)
  rw [Graph.draw, Sketch.leaf, Sketch.edges, List.append_nil, Sketch.boxes]

/-- A box is drawn with everything that its sketch grows by. -/
theorem Extends.draws_box {label : String} {fill : Fill} {below : Nat → Pen Unit}
    (h : Extends below (.leaf label fill) s) (g : Graph) : Draws (box label fill below) s g := by
  have hadd : (add label fill).run g = (g.boxes.length, g.draw (.leaf label fill)) :=
    draws_add label fill g
  have hbelow := h g
  have hrun : (box label fill below).run g
      = (((add label fill).run g).1,
          ((below ((add label fill).run g).1).run ((add label fill).run g).2).2) := rfl
  rw [Draws, hrun, hadd, hbelow]

theorem Extends.refl (s : Sketch) : Extends (fun _ => pure ()) s s := fun _ => rfl

/-- What is drawn behind each other. -/
theorem Extends.seq {below more : Nat → Pen Unit} (h : Extends below s s')
    (h' : Extends more s' s'') : Extends (fun id => below id >>= fun _ => more id) s s'' :=
  fun g => by
    have hrun : (below g.boxes.length >>= fun _ => more g.boxes.length).run (g.draw s)
        = (more g.boxes.length).run ((below g.boxes.length).run (g.draw s)).2 := rfl
    rw [hrun, h g]
    exact h' g

theorem Extends.link {m : Pen Nat} (h : ∀ g : Graph, g.boxes ≠ [] → Draws m c g) (role : String) :
    Extends (fun id => link id role m) s (s.link role c) := fun g => by
  have hne : (g.draw s).boxes ≠ [] := by
    intro hnil
    have hlength := congrArg List.length hnil
    have hpos := s.size_pos
    rw [Graph.draw, List.length_append, s.length_boxes, List.length_nil] at hlength
    omega
  have hrun : (Pen.link g.boxes.length role m).run (g.draw s)
      = (edge g.boxes.length (m.run (g.draw s)).1 role).run (m.run (g.draw s)).2 := rfl
  rw [hrun, h _ hne]
  show ((), _) = ((), _)
  simp only [Graph.draw, Sketch.link, Sketch.boxes, Sketch.edges, List.length_append,
    Sketch.length_boxes, List.append_assoc]

theorem Extends.boxUnder {role label : String} {fill : Fill} {below : Nat → Pen Unit}
    (h : Extends below (.leaf label fill) c) :
    Extends (fun id => boxUnder id role label fill below) s (s.linkFirst role c) := fun g => by
  -- the new box and its link, then everything below it
  have hbelow := h { g.draw s with
    edges := (g.draw s).edges ++ [⟨g.boxes.length, (g.draw s).boxes.length, role⟩] }
  have hrun : (Pen.boxUnder g.boxes.length role label fill below).run (g.draw s)
      = (below (g.draw s).boxes.length).run { g.draw s with
          boxes := (g.draw s).boxes ++ [⟨label, fill⟩]
          edges := (g.draw s).edges ++ [⟨g.boxes.length, (g.draw s).boxes.length, role⟩] } := rfl
  rw [hrun]
  simp only [Graph.draw, Sketch.leaf, Sketch.boxes, Sketch.edges, List.append_nil] at hbelow ⊢
  rw [hbelow]
  simp only [Sketch.linkFirst, Sketch.boxes, Sketch.edges, List.length_append,
    Sketch.length_boxes, List.append_assoc, List.cons_append, List.nil_append]

/-- One drawing for each item of a list. -/
theorem Extends.foldl {f : α → β} {k : Nat → β → Pen Unit} {grow : Sketch → α → Sketch}
    (h : ∀ a s, Extends (fun id => k id (f a)) s (grow s a)) (items : List α) (s : Sketch) :
    Extends (fun id => (items.map f).forM (k id)) s (items.foldl grow s) := by
  induction items generalizing s with
  | nil => exact .refl s
  | cons a rest ih => exact (h a s).seq (ih _)

/-- One link for each item of a list. -/
theorem Extends.list {f : α → β} {k : Nat → β → Pen Unit} {f' : α → γ} {draw : γ → Sketch}
    {role : String} {time : LinkTime}
    (h : ∀ a s, Extends (fun id => k id (f a)) s (s.attach role time (draw (f' a))))
    (items : List α) : Extends (fun id => (items.map f).forM (k id)) s
      (((items.map f').map draw).foldl (fun p c => p.attach role time c) s) := by
  rw [List.foldl_map, List.foldl_map]
  exact .foldl h items s

theorem Extends.option {f : α → β} {k : Nat → β → Pen Unit} {f' : α → γ} {draw : γ → Sketch}
    {role : String} (h : ∀ a s, Extends (fun id => k id (f a)) s (s.link role (draw (f' a))))
    (item : Option α) : Extends (fun id => (item.map f).forM (k id)) s
      (s.linkOption role ((item.map f').map draw)) := by
  cases item with
  | none => exact .refl s
  | some a => exact h a s

/-! ## 2. Clauses -/

/-- A node whose pen draws its sketch, at least behind something else. -/
abbrev Sketched := { n : Node // ∀ g : Graph, g.boxes ≠ [] → Draws n.pen n.sketch g }

def penned (n : Sketched) : Child := (n.val, n.val.pen)

def sketched (n : Sketched) : Draw.Child := (n.val, n.val.sketch)

theorem extends_child (role : String) (n : Sketched) (s : Sketch) :
    Extends (fun id => child id role (penned n)) s (s.link role (sketched n).2) :=
  .link n.property role

theorem extends_children (role : String) (ns : List Sketched) :
    Extends (fun id => children id role (ns.map penned)) s
      (s.linkAll role (Draw.sketches (ns.map sketched))) := .list (extends_child role) ns

theorem extends_option (role : String) (n : Option Sketched) :
    Extends (fun id => (n.map penned).forM (child id role)) s
      (s.linkOption role ((n.map sketched).map (·.2))) := .option (extends_child role) n

theorem draws_sketch_bound (b : Bound Sketched) (g : Graph) :
    Draws (bound (b.map penned)) (Draw.bound (b.map sketched)) g := by
  unfold bound Draw.bound
  rw [b.offset?_map, b.offset?_map, b.word_map, b.word_map]
  exact (extends_option "offset" b.offset?).draws_box g

theorem extends_boundUnder (role : String) (b : Bound Sketched) (s : Sketch) :
    Extends (fun id => boundUnder id role (b.map penned)) s
      (s.link role (Draw.bound (b.map sketched))) :=
  .link (fun g _ => draws_sketch_bound b g) role

theorem extends_frame (f : Frame Sketched) (s : Sketch) :
    Extends (fun id => frame id (f.map penned)) s
      (s.linkFirst "frame" (Draw.frame (f.map sketched))) :=
  .boxUnder (.seq (extends_boundUnder "start" f.start _)
    (.option (extends_boundUnder "end") f.stop))

theorem draws_sketch_window (w : Window Sketched) (g : Graph) :
    Draws (window (w.map penned)) (Draw.window (w.map sketched)) g := by
  refine Extends.draws_box (.seq (extends_children "partition" w.partition)
    (.seq (extends_children "order" w.order) ?_)) g
  obtain ⟨name, partition, order, frame⟩ := w
  cases frame with
  | none => exact .refl _
  | some f => exact extends_frame f _

theorem extends_windowUnder (w : Window Sketched) (s : Sketch) :
    Extends (fun id => windowUnder id (w.map penned)) s
      (s.link "window" (Draw.window (w.map sketched))) :=
  .link (fun g _ => draws_sketch_window w g) "window"

theorem draws_sketch_windowRef (w : WindowRef Sketched) (g : Graph) :
    Draws (windowRef (w.map penned)) (Draw.windowRef (w.map sketched)) g := by
  cases w with
  | inline w => exact draws_sketch_window w g
  | named name => exact draws_add _ _ g

theorem draws_sketch_join (j : Join Sketched) (g : Graph) :
    Draws (join (j.map penned)) (Draw.join (j.map sketched)) g :=
  Extends.draws_box (.seq (extends_child "right" j.right _) (extends_option "on" j.predicate)) g

theorem extends_sides (a : Assignment Sketched) :
    Extends (fun id => sides id (a.map penned)) (.leaf "Assignment" .lightgreen)
      (Draw.assignment (a.map sketched)) :=
  .seq (extends_child "left" a.target _) (extends_child "right" a.value _)

theorem extends_assign (a : Assignment Sketched) (s : Sketch) :
    Extends (fun id => assign id (a.map penned)) s
      (s.linkFirst "set" (Draw.assignment (a.map sketched))) := .boxUnder (extends_sides a)

theorem extends_group (role label item : String) (ns : List Sketched) (s : Sketch) :
    Extends (fun id => group id role label item (ns.map penned)) s
      (s.linkFirst role (Draw.group label item (ns.map sketched))) :=
  .boxUnder (extends_children item ns)

theorem extends_onConflict (c : OnConflict Sketched) (s : Sketch) :
    Extends (fun id => onConflict id (c.map penned)) s
      (s.linkFirst "on_conflict" (Draw.onConflict (c.map sketched))) := by
  obtain ⟨columns, action⟩ := c
  cases action with
  | doNothing => exact .boxUnder (.seq (extends_children "column" columns) (.refl _))
  | doUpdate assignments wheres =>
    exact .boxUnder (.seq (extends_children "column" columns)
      (.seq (.list extends_assign assignments) (extends_children "where" wheres)))

theorem extends_cteUnder (c : Cte Sketched) (s : Sketch) :
    Extends (fun id => cteUnder id (c.map penned)) s
      (s.linkFirst "cte" (Draw.cte (c.map sketched))) :=
  .boxUnder (extends_child "query" c.query _)

theorem extends_branch (b : Branch Sketched) (s : Sketch) :
    Extends (fun id => branch id (b.map penned)) s
      ((s.link "when" b.condition.val.sketch).link "then" b.result.val.sketch) :=
  .seq (extends_child "when" b.condition s) (extends_child "then" b.result _)

/-! ## 3. Statements -/

theorem draws_sketch_setOperation (s : SetOperation Sketched) (g : Graph) :
    Draws (setOperation (s.map penned)) (Draw.setOperation (s.map sketched)) g := by
  refine Extends.draws_box ?_ g
  refine .seq (extends_child "left" s.left _) ?_
  refine .seq (extends_child "right" s.right _) ?_
  refine .seq (extends_children "order" s.orders) ?_
  exact .seq (extends_option "limit" s.limit) (extends_option "offset" s.offset)

theorem draws_sketch_insert (s : Insert Sketched) (g : Graph) :
    Draws (insert (s.map penned)) (Draw.insert (s.map sketched)) g := by
  refine Extends.draws_box ?_ g
  refine .seq (extends_child "into" s.target _) ?_
  refine .seq (extends_children "column" s.columns) ?_
  refine .seq (.list (extends_group "values" "Row" "value") s.rows) ?_
  refine .seq (extends_option "select" s.select) ?_
  refine .seq ?_ (extends_children "returning" s.returning)
  obtain ⟨target, columns, rows, select, returning, onConflict⟩ := s
  cases onConflict with
  | none => exact .refl _
  | some c => exact extends_onConflict c _

theorem draws_sketch_update (s : Update Sketched) (g : Graph) :
    Draws (update (s.map penned)) (Draw.update (s.map sketched)) g := by
  refine Extends.draws_box ?_ g
  refine .seq (extends_child "table" s.target _) ?_
  refine .seq (.list extends_assign s.assignments) ?_
  exact .seq (extends_children "where" s.wheres) (extends_children "returning" s.returning)

theorem draws_sketch_delete (s : Delete Sketched) (g : Graph) :
    Draws (delete (s.map penned)) (Draw.delete (s.map sketched)) g := by
  refine Extends.draws_box ?_ g
  refine .seq (extends_child "from" s.target _) ?_
  exact .seq (extends_children "where" s.wheres) (extends_children "returning" s.returning)

end Pen

/-! ## 4. Notes -/

namespace Sketch

variable {label l : String}

/-- Links with other labels make no block. -/
theorem blocks_foldl_attach (hl : l ≠ label) (parent : Sketch) (time : LinkTime)
    (children : List Sketch) (start : Nat) :
    (children.foldl (fun p c => p.attach l time c) parent).blocks label start
      = parent.blocks label start := by
  induction children generalizing parent with
  | nil => rfl
  | cons c rest ih => rw [List.foldl_cons, ih, blocks, if_neg hl, List.append_nil]

theorem blocks_linkOption (hl : l ≠ label) (parent : Sketch) (child : Option Sketch)
    (start : Nat) :
    (parent.linkOption l child).blocks label start = parent.blocks label start := by
  cases child with
  | none => rfl
  | some c => exact blocks_foldl_attach hl parent .late [c] start

end Sketch

/-- The graph with notes of all WHERE items and joins of a sketch, if it was drawn first. -/
def Graph.drawNoting (first : Bool) (g : Graph) (s : Sketch) : Graph :=
  { g.draw s with
    whereBlocks := g.whereBlocks ++ if first then s.blocks "where" g.boxes.length else []
    joinBlocks := g.joinBlocks ++ if first then s.blocks "join" g.boxes.length else [] }

namespace Pen

/-- The pen draws what a sketch has grown by and notes its WHERE items and joins. -/
def Notes (first : Bool) (below : Nat → Pen Unit) (s s' : Sketch) : Prop :=
  ∀ g : Graph, (below g.boxes.length).run (g.drawNoting first s) = ((), g.drawNoting first s')

variable {first : Bool} {s s' s'' : Sketch}

theorem Notes.seq {below more : Nat → Pen Unit} (h : Notes first below s s')
    (h' : Notes first more s' s'') :
    Notes first (fun id => below id >>= fun _ => more id) s s'' := fun g => by
  have hrun : (below g.boxes.length >>= fun _ => more g.boxes.length).run (g.drawNoting first s)
      = (more g.boxes.length).run ((below g.boxes.length).run (g.drawNoting first s)).2 := rfl
  rw [hrun, h g]
  exact h' g

/-- What is noted does not change what is drawn. -/
theorem Extends.run_drawNoting {below : Nat → Pen Unit} (h : Extends below s s') (first : Bool)
    (g : Graph) : (below g.boxes.length).run (g.drawNoting first s)
      = ((), { g.drawNoting first s with
          boxes := (g.draw s').boxes
          edges := (g.draw s').edges }) :=
  h { g with
    whereBlocks := g.whereBlocks ++ if first then s.blocks "where" g.boxes.length else []
    joinBlocks := g.joinBlocks ++ if first then s.blocks "join" g.boxes.length else [] }

/-- Where a sketch grows by neither WHERE items nor joins, there is nothing to note. -/
theorem Notes.of_extends {below : Nat → Pen Unit} (h : Extends below s s')
    (hwhere : ∀ start, s'.blocks "where" start = s.blocks "where" start)
    (hjoin : ∀ start, s'.blocks "join" start = s.blocks "join" start) :
    Notes first below s s' := fun g => by
  rw [h.run_drawNoting]
  unfold Graph.drawNoting
  rw [hwhere, hjoin]
  rfl

theorem Notes.list {α β γ : Type} {f : α → β} {k : Nat → β → Pen Unit} {f' : α → γ}
    {draw : γ → Sketch} {role : String}
    (h : ∀ a s, Notes first (fun id => k id (f a)) s (s.link role (draw (f' a))))
    (items : List α) : Notes first (fun id => (items.map f).forM (k id)) s
      (s.linkAll role ((items.map f').map draw)) := by
  induction items generalizing s with
  | nil => exact fun g => rfl
  | cons a rest ih => exact (h a s).seq ih

/-- A link with a note behind it, if the SELECT was drawn first. -/
theorem Notes.link {c : Sketch} {m : Pen Nat} {role : String} {note : Nat → Pen Unit}
    (h : ∀ g : Graph, g.boxes ≠ [] → Draws m c g)
    (hnote : ∀ g : Graph, (note (g.boxes.length + s.size)).run
        { g.drawNoting true s with
          boxes := (g.draw (s.link role c)).boxes
          edges := (g.draw (s.link role c)).edges } = ((), g.drawNoting true (s.link role c))) :
    Notes first (fun id => do
      let start ← count
      Pen.link id role m
      if first then note start) s (s.link role c) := fun g => by
  have hlink := (Extends.link (s := s) h role).run_drawNoting first g
  have hstart : (g.drawNoting first s).boxes.length = g.boxes.length + s.size := by
    rw [← s.length_boxes]
    exact List.length_append
  have hrun : (do
        let start ← count
        Pen.link g.boxes.length role m
        if first then note start : Pen Unit).run (g.drawNoting first s)
      = (if first then note (g.drawNoting first s).boxes.length else pure ()).run
        ((Pen.link g.boxes.length role m).run (g.drawNoting first s)).2 := rfl
  rw [hrun, hlink, hstart]
  cases first with
  | false => rfl
  | true => exact hnote g

theorem notes_filtered (n : Sketched) (s : Sketch) :
    Notes first (fun id => filtered first id (penned n)) s (s.link "where" (sketched n).2) := by
  refine .link n.property fun g => ?_
  show ((), _) = ((), _)
  simp [Graph.drawNoting, Graph.draw, Sketch.link, Sketch.blocks, Sketch.boxes, Nat.add_assoc]

theorem notes_joined (j : Join Sketched) (s : Sketch) :
    Notes first (fun id => joined first id (j.map penned)) s
      (s.link "join" (Draw.join (j.map sketched))) := by
  refine .link (fun g _ => draws_sketch_join j g) fun g => ?_
  show ((), _) = ((), _)
  simp [Graph.drawNoting, Graph.draw, Sketch.link, Sketch.blocks, Sketch.boxes, Nat.add_assoc]

section Plain

variable {role : String} (hwhere : role ≠ "where") (hjoin : role ≠ "join")

include hwhere hjoin

theorem notes_children (ns : List Sketched) (s : Sketch) :
    Notes first (fun id => children id role (ns.map penned)) s
      (s.linkAll role (Draw.sketches (ns.map sketched))) :=
  .of_extends (extends_children role ns) (fun _ => Sketch.blocks_foldl_attach hwhere ..)
    fun _ => Sketch.blocks_foldl_attach hjoin ..

theorem notes_option (n : Option Sketched) (s : Sketch) :
    Notes first (fun id => (n.map penned).forM (child id role)) s
      (s.linkOption role ((n.map sketched).map (·.2))) :=
  .of_extends (extends_option role n) (fun _ => Sketch.blocks_linkOption hwhere ..)
    fun _ => Sketch.blocks_linkOption hjoin ..

/-- Clauses that are no items. -/
theorem notes_clauses {α β γ : Type} {f : α → β} {k : Nat → β → Pen Unit} {f' : α → γ}
    {draw : γ → Sketch} {time : LinkTime}
    (h : ∀ a s, Extends (fun id => k id (f a)) s (s.attach role time (draw (f' a))))
    (items : List α) (s : Sketch) : Notes first (fun id => (items.map f).forM (k id)) s
      (((items.map f').map draw).foldl (fun p c => p.attach role time c) s) :=
  .of_extends (.list h items) (fun _ => Sketch.blocks_foldl_attach hwhere ..)
    fun _ => Sketch.blocks_foldl_attach hjoin ..

end Plain

theorem notes_selectBelow (first : Bool) (s : Select Sketched) :
    Notes first (selectBelow first (s.map penned)) (.leaf "SelectCore" .lightgrey)
      (Draw.select (s.map sketched)) := by
  refine .seq (notes_clauses (by decide) (by decide) extends_cteUnder s.ctes _) ?_
  refine .seq (notes_children (by decide) (by decide) s.projections _) ?_
  refine .seq (notes_option (by decide) (by decide) s.source _) ?_
  refine .seq (.list notes_joined s.joins) ?_
  refine .seq (.list notes_filtered s.wheres) ?_
  refine .seq (notes_children (by decide) (by decide) s.groups _) ?_
  refine .seq (notes_children (by decide) (by decide) s.havings _) ?_
  refine .seq (notes_clauses (by decide) (by decide) extends_windowUnder s.windows _) ?_
  refine .seq (notes_children (by decide) (by decide) s.orders _) ?_
  refine .seq (notes_option (by decide) (by decide) s.limit _) ?_
  exact notes_option (by decide) (by decide) s.offset _

/-- **A SELECT is drawn as its sketch**, with notes if it is drawn first. -/
theorem run_select (s : Select Sketched) (g : Graph) : (select (s.map penned)).run g
    = (g.boxes.length, g.drawNoting g.boxes.isEmpty (Draw.select (s.map sketched))) := by
  have hnotes := notes_selectBelow g.boxes.isEmpty s g
  have hadd : (add "SelectCore" .lightgrey).run g
      = (g.boxes.length, g.drawNoting g.boxes.isEmpty (.leaf "SelectCore" .lightgrey)) := by
    show (_, _) = (_, _)
    simp [Graph.drawNoting, Graph.draw, Sketch.leaf, Sketch.boxes, Sketch.edges, Sketch.blocks]
  have hrun : (select (s.map penned)).run g
      = (((add "SelectCore" .lightgrey).run g).1,
          ((selectBelow g.boxes.isEmpty (s.map penned)
            ((add "SelectCore" .lightgrey).run g).1).run
              ((add "SelectCore" .lightgrey).run g).2).2) := rfl
  rw [hrun, hadd, hnotes]

/-! ## 5. Forms -/

theorem draws_sketch_one (label : String) (fill : Fill) (role : String) (n : Sketched) (g : Graph) :
    Draws (one label fill role (penned n)) (Draw.one label fill role (sketched n)) g :=
  (extends_child role n _).draws_box g

theorem draws_sketch_two (label : String) (fill : Fill) (left right : Sketched) (g : Graph) :
    Draws (two label fill (penned left) (penned right))
      (Draw.two label fill (sketched left) (sketched right)) g :=
  Extends.draws_box (.seq (extends_child "left" left _) (extends_child "right" right _)) g

theorem draws_sketch_choice (n : Option Sketched) (branches : List (Branch Sketched))
    (otherwise : Option Sketched) (g : Graph) :
    Draws (form (.choice (n.map penned) (branches.map (Branch.map penned)) (otherwise.map penned)))
      (Draw.form (.choice (n.map sketched) (branches.map (Branch.map sketched))
        (otherwise.map sketched))) g := by
  refine Extends.draws_box (.seq (extends_option "operand" n)
    (.seq ?_ (extends_option "else" otherwise))) g
  unfold Draw.branches
  rw [List.foldl_map]
  exact .foldl extends_branch branches _

/-- **Every form is drawn as its sketch**, if it is no SELECT that is drawn first. -/
theorem draws_sketch (f : Form Sketched) (g : Graph) (hfirst : g.boxes = [] → ∀ s, f ≠ .select s) :
    Draws (form (f.map penned)) (Draw.form (f.map sketched)) g := by
  cases f with
  | table name => exact draws_add _ _ g
  | tableAlias relation name => exact draws_sketch_one _ _ _ relation g
  | column relation name typeName => exact draws_add _ _ g
  | star relation =>
    cases relation with
    | none => exact draws_add _ _ g
    | some relation => exact draws_add _ _ g
  | literal v => exact draws_add _ _ g
  | bind v => exact draws_add _ _ g
  | cast v typeName => exact draws_add _ _ g
  | raw sql binds => exact draws_add _ _ g
  | comparison left op right => exact draws_sketch_two _ _ left right g
  | nullTest n op => exact draws_sketch_one _ _ _ n g
  | and left right => exact draws_sketch_two _ _ left right g
  | or left right => exact draws_sketch_two _ _ left right g
  | not n => exact draws_sketch_one _ _ _ n g
  | grouping n => exact draws_sketch_one _ _ _ n g
  | membership n values negated =>
    exact Extends.draws_box (.seq (extends_child "expr" n _) (extends_children "value" values)) g
  | between n low high negated =>
    exact Extends.draws_box (.seq (extends_child "expr" n _)
      (.seq (extends_child "low" low _) (extends_child "high" high _))) g
  | existence query negated => exact draws_sketch_one _ _ _ query g
  | arithmetic left op right => exact draws_sketch_two _ _ left right g
  | unary op n => exact draws_sketch_one _ _ _ n g
  | call name arguments distinct => exact (extends_children "arg" arguments).draws_box g
  | aggregate func argument distinct filter =>
    exact Extends.draws_box (.seq (extends_option "expr" argument)
      (extends_option "filter" filter)) g
  | extract field n => exact draws_sketch_one _ _ _ n g
  | ordering n direction nulls => exact draws_sketch_one _ _ _ n g
  | window w => exact draws_sketch_window w g
  | windowed n w =>
    exact Extends.draws_box (.seq (extends_child "expr" n _)
      (.link (fun g _ => draws_sketch_windowRef w g) "window")) g
  | labelled n name => exact draws_sketch_one _ _ _ n g
  | choice n branches otherwise => exact draws_sketch_choice n branches otherwise g
  | groupingSet kind columns sets =>
    exact Extends.draws_box (.seq (extends_children "column" columns)
      (.list (extends_group "set" "Set" "column") sets)) g
  | setOperation s => exact draws_sketch_setOperation s g
  | cte c => exact draws_sketch_one _ _ _ c.query g
  | assignment a => exact (extends_sides a).draws_box g
  | join j => exact draws_sketch_join j g
  | select s =>
    have hnone : g.boxes.isEmpty = false := by
      rw [Bool.eq_false_iff, Ne, List.isEmpty_iff]
      exact fun hnil => hfirst hnil s rfl
    have hrun := run_select s g
    rw [hnone] at hrun
    unfold Graph.drawNoting at hrun
    simp only [Bool.false_eq_true, if_false, List.append_nil] at hrun
    exact hrun
  | insert s => exact draws_sketch_insert s g
  | update s => exact draws_sketch_update s g
  | delete s => exact draws_sketch_delete s g

end Pen

/-! ## 6. Visits -/

/-- The pen of a node draws its sketch behind something else. -/
theorem Node.draws_sketch (n : Node) : ∀ g : Graph, g.boxes ≠ [] → n.pen.Draws n.sketch g := by
  induction n using Node.stored_induction with
  | step form =>
    intro g hne
    rw [pen_mk, sketch_mk, Form.map_map, Form.map_map]
    exact Pen.draws_sketch form g fun hnil => absurd hnil hne

/-- A node that is known to be drawn as its sketch. -/
def Pen.Sketched.of (n : Node) : Pen.Sketched := ⟨n, n.draws_sketch⟩

namespace Graph

open Pen (Sketched)

/-- The blocks of boxes below the links with a label, if the tree is a SELECT. -/
def creditable (n : Node) (label : String) : List (Nat × Nat) :=
  match n.form with
  | .select _ => n.sketch.blocks label 0
  | _ => []

theorem creditable_of_ne_select {form : Form Node} (h : ∀ s, form ≠ .select s) (label : String) :
    creditable ⟨form⟩ label = [] := by
  cases form with
  | select s => exact absurd rfl (h s)
  | _ => rfl

theorem visit_select (g : Graph) (s : Select Node) : g.visit ⟨.select s⟩
    = (g.boxes.length, g.drawNoting g.boxes.isEmpty (Node.mk (.select s)).sketch) := by
  have hrun := Pen.run_select (s.map Sketched.of) g
  rw [Select.map_map, Select.map_map] at hrun
  unfold visit
  rw [Node.pen_mk, Node.sketch_mk]
  exact hrun

theorem visit_of_ne_select (g : Graph) {form : Form Node} (h : ∀ s, form ≠ .select s) :
    g.visit ⟨form⟩ = (g.boxes.length, g.draw (Node.mk form).sketch) := by
  have hne : ∀ s, form.map Sketched.of ≠ .select s := by
    cases form with
    | select s => exact absurd rfl (h s)
    | _ => exact fun s hs => by cases hs
  have hrun := Pen.draws_sketch (form.map Sketched.of) g fun _ => hne
  rw [Form.map_map, Form.map_map] at hrun
  unfold visit
  rw [Node.pen_mk, Node.sketch_mk]
  exact hrun

/-- **A visit draws the sketch of the tree.** If the tree is a SELECT and nothing was drawn before,
    the blocks of its WHERE items and joins are noted. -/
theorem visit_eq (g : Graph) (n : Node) : g.visit n = (g.boxes.length,
    { g.draw n.sketch with
      whereBlocks := g.whereBlocks ++ if g.boxes.isEmpty then creditable n "where" else []
      joinBlocks := g.joinBlocks ++ if g.boxes.isEmpty then creditable n "join" else [] }) := by
  obtain ⟨form⟩ := n
  by_cases hform : ∃ s, form = .select s
  · obtain ⟨s, rfl⟩ := hform
    rw [visit_select]
    unfold drawNoting creditable
    cases hboxes : g.boxes with
    | nil => rfl
    | cons b rest => rfl
  · have hne : ∀ s, form ≠ .select s := fun s hs => hform ⟨s, hs⟩
    rw [visit_of_ne_select g hne, creditable_of_ne_select hne, creditable_of_ne_select hne,
      ite_self, List.append_nil, List.append_nil]
    rfl

theorem boxes_visit (g : Graph) (n : Node) : (g.visit n).2.boxes = g.boxes ++ n.sketch.boxes := by
  rw [visit_eq]
  rfl

theorem edges_visit (g : Graph) (n : Node) :
    (g.visit n).2.edges = g.edges ++ n.sketch.edges g.boxes.length := by
  rw [visit_eq]
  rfl

end Graph
end SqlTree
