import SqlTree.Drawing.Graph
import SqlTree.Proofs.Children

/-!
# Drawn trees

Whatever a pen draws for a tree, the graph grows by a tree. This file proves it along the drawing,
one rule for each thing a pen can do:

* `Below` -- a box is reached from another along links;
* `Spans` -- links make of a block of boxes a tree: they point from smaller to larger numbers in the
  block, every box but the first is the child of one of them, and all are reached from the first;
* `Graph.Grown`, `Graph.Live` -- a graph has grown by such a block, and a box of the block is one
  that more can hang under;
* `Pen.DrawsTree` -- a pen lets every graph grow by a tree and answers the number of its root;
* `Pen.Hangs` -- a pen hangs trees under a box, and nothing else; kept by what is drawn behind each
  other, for each item of a list or for an option;
* `Pen.draws_form` -- every form draws a tree if its children do, one lemma per clause;
* `Graph.visit_draws_tree` -- a visit lets the graph grow by a tree.
-/

namespace SqlTree

/-! ## 1. Links that make a tree -/

/-- A box is another one, or is reached from it along links. -/
inductive Below (links : List Edge) (i : Nat) : Nat → Prop where
  | here : Below links i i
  | down {e : Edge} (h : Below links i e.parent) (he : e ∈ links) : Below links i e.child

namespace Below

variable {links more : List Edge} {i j k : Nat}

theorem mono (hsub : links ⊆ more) (h : Below links i j) : Below more i j := by
  induction h with
  | here => exact .here
  | down _ he ih => exact ih.down (hsub he)

theorem trans (h : Below links i j) (h' : Below links j k) : Below links i k := by
  induction h' with
  | here => exact h
  | down _ he ih => exact ih.down he

end Below

/-- Links make of the boxes from `root` up to, but not including, `stop` a tree with that root. -/
structure Spans (root stop : Nat) (links : List Edge) : Prop where
  /-- There is one link less than there are boxes. -/
  count : root + links.length + 1 = stop
  /-- Links stay among the boxes and point to larger numbers. -/
  upward : ∀ e ∈ links, root ≤ e.parent ∧ e.parent < e.child ∧ e.child < stop
  /-- Every box but the root is the child of exactly one link. -/
  once : ∀ i, root < i → i < stop → (links.map Edge.child).count i = 1
  /-- Every box is reached from the root. -/
  connected : ∀ i, root ≤ i → i < stop → Below links root i

namespace Spans

variable {root mid stop : Nat} {links more all : List Edge}

/-- One box is a tree. -/
theorem single (root : Nat) : Spans root (root + 1) [] where
  count := rfl
  upward e he := by cases he
  once i hlow hhigh := by omega
  connected i hlow hhigh := by
    obtain rfl : i = root := by omega
    exact .here

theorem child_ne (h : Spans root stop links) {i : Nat} (hi : i ≤ root ∨ stop ≤ i) :
    i ∉ links.map Edge.child := by
  intro hmem
  obtain ⟨e, he, rfl⟩ := List.mem_map.mp hmem
  obtain ⟨hlow, hup, hhigh⟩ := h.upward e he
  omega

/-- **A tree hung up under a box of another one makes a tree of both**, in whatever order the new
    link is drawn. -/
theorem attach {parent : Nat} {label : String} (h : Spans root mid links) (hlow : root ≤ parent)
    (hhigh : parent < mid) (h' : Spans mid stop more)
    (hall : all.Perm (links ++ ⟨parent, mid, label⟩ :: more)) : Spans root stop all where
  count := by
    have hlength := hall.length_eq
    rw [List.length_append, List.length_cons] at hlength
    have hcount := h.count
    have hcount' := h'.count
    omega
  upward e he := by
    have hcount := h.count
    have hcount' := h'.count
    rcases List.mem_append.mp (hall.mem_iff.mp he) with he | he
    · obtain ⟨hlow, hup, hhigh⟩ := h.upward e he
      omega
    · rcases List.mem_cons.mp he with rfl | he
      · exact ⟨hlow, hhigh, (by show mid < stop; omega)⟩
      · obtain ⟨hlow, hup, hhigh⟩ := h'.upward e he
        omega
  once i hlow hhigh := by
    rw [(hall.map Edge.child).count_eq, List.map_append, List.map_cons, List.count_append]
    -- the box is below one of the two roots, or it is the second root itself
    rcases Nat.lt_trichotomy i mid with hi | rfl | hi
    · rw [h.once i hlow hi, List.count_cons_of_ne (by show mid ≠ i; omega),
        List.count_eq_zero.mpr (h'.child_ne (.inl (Nat.le_of_lt hi)))]
    · rw [List.count_eq_zero.mpr (h.child_ne (.inr (Nat.le_refl i))), List.count_cons_self,
        List.count_eq_zero.mpr (h'.child_ne (.inl (Nat.le_refl i)))]
    · rw [List.count_eq_zero.mpr (h.child_ne (.inr (Nat.le_of_lt hi))),
        List.count_cons_of_ne (by show mid ≠ i; omega), h'.once i hi hhigh]
  connected i hlow' hhigh' := by
    have hfirst : links ⊆ all := fun e he => hall.mem_iff.mpr (List.mem_append_left _ he)
    have hsecond : more ⊆ all := fun e he =>
      hall.mem_iff.mpr (List.mem_append_right _ (List.mem_cons_of_mem _ he))
    have hlink : ⟨parent, mid, label⟩ ∈ all :=
      hall.mem_iff.mpr (List.mem_append_right _ List.mem_cons_self)
    by_cases hi : i < mid
    · exact (h.connected i hlow' hi).mono hfirst
    · have hmid : Below all root mid := ((h.connected parent hlow hhigh).mono hfirst).down hlink
      exact hmid.trans ((h'.connected i (by omega) hhigh').mono hsecond)

theorem nodup (h : Spans root stop links) : (links.map Edge.child).Nodup := by
  refine List.nodup_iff_count.mpr fun i => ?_
  by_cases hi : root < i ∧ i < stop
  · exact Nat.le_of_eq (h.once i hi.1 hi.2)
  · rw [List.count_eq_zero.mpr (h.child_ne (by omega))]
    exact Nat.zero_le 1

theorem lt (h : Spans root stop links) : root < stop := by
  have hcount := h.count
  omega

end Spans

/-! ## 2. Graphs that grow -/

namespace Graph

/-- The graph has grown by a tree. What was drawn before is as it was. -/
structure Grown (before g : Graph) : Prop where
  boxes : before.boxes <+: g.boxes
  edges : ∃ links, g.edges = before.edges ++ links
    ∧ Spans before.boxes.length g.boxes.length links
  clusters : g.clusters = before.clusters

/-- The graph has grown by a tree, and the box is in it. -/
structure Live (before g : Graph) (parent : Nat) : Prop extends Grown before g where
  low : before.boxes.length ≤ parent
  high : parent < g.boxes.length

variable {before g g' : Graph} {parent : Nat}

/-- A box by itself is a tree. -/
theorem Live.root (b : Box) :
    Live before { before with boxes := before.boxes ++ [b] } before.boxes.length where
  boxes := List.prefix_append _ _
  edges := by
    refine ⟨[], (List.append_nil _).symm, ?_⟩
    rw [List.length_append]
    exact .single _
  clusters := rfl
  low := Nat.le_refl _
  high := by
    rw [List.length_append]
    exact Nat.lt_succ_self _

/-- **A link to the next tree makes it part of this one.** -/
theorem Live.link (h : Live before g parent) (hgrown : Grown g g') (role : String) :
    Live before { g' with edges := g'.edges ++ [⟨parent, g.boxes.length, role⟩] } parent where
  boxes := h.boxes.trans hgrown.boxes
  edges := by
    obtain ⟨links, hlinks, hspans⟩ := h.edges
    obtain ⟨more, hmore, hspans'⟩ := hgrown.edges
    refine ⟨links ++ (more ++ [⟨parent, g.boxes.length, role⟩]), ?_, ?_⟩
    · rw [hmore, hlinks, List.append_assoc, List.append_assoc]
    · exact hspans.attach h.low h.high hspans'
        ((List.perm_append_singleton _ _).append_left links)
  clusters := hgrown.clusters.trans h.clusters
  low := h.low
  high := Nat.lt_of_lt_of_le h.high hgrown.boxes.length_le

/-- A box that hangs under another one is live if that one is. -/
theorem Live.under (h : Live before g parent) (b : Box) (role : String) :
    Live before { g with boxes := g.boxes ++ [b],
                         edges := g.edges ++ [⟨parent, g.boxes.length, role⟩] }
      g.boxes.length where
  toGrown := (h.link (Live.root b).toGrown role).toGrown
  low := Nat.le_of_lt (Nat.lt_of_le_of_lt h.low h.high)
  high := (Live.root b).high

end Graph

/-! ## 3. What a pen can do -/

namespace Pen

open SqlTree.Graph (Grown Live)

/-- The pen lets every graph grow by a tree and answers the number of its root. -/
def DrawsTree (m : Pen Nat) : Prop := ∀ g, (m.run g).1 = g.boxes.length ∧ Grown g (m.run g).2

/-- The pen hangs trees under a box of the tree that is being drawn, and draws nothing else. -/
def Hangs {α : Type} (parent : Nat) (m : Pen α) : Prop :=
  ∀ before g, Live before g parent → Live before (m.run g).2 parent

theorem drawsTree_add (label : String) (fill : Fill) : DrawsTree (add label fill) := fun _ =>
  ⟨rfl, (Live.root _).toGrown⟩

/-- A box with trees under it is a tree. -/
theorem drawsTree_box {label : String} {fill : Fill} {below : Nat → Pen Unit}
    (h : ∀ id, Hangs id (below id)) : DrawsTree (box label fill below) := fun g =>
  ⟨rfl, (h g.boxes.length g _ (Live.root ⟨label, fill⟩)).toGrown⟩

variable {parent : Nat} {α β : Type}

theorem Hangs.pure (a : α) : Hangs parent (pure a : Pen α) := fun _ _ h => h

/-- What is drawn behind each other. -/
theorem Hangs.bind {m : Pen α} {k : α → Pen β} (hm : Hangs parent m)
    (hk : ∀ a, Hangs parent (k a)) : Hangs parent (m >>= k) := fun before g h =>
  hk _ before _ (hm before g h)

theorem Hangs.seq {m : Pen Unit} {k : Pen β} (hm : Hangs parent m) (hk : Hangs parent k) :
    Hangs parent (m >>= fun _ => k) := hm.bind fun _ => hk

/-- One drawing for each item of a list. -/
theorem Hangs.list {f : α → β} {k : β → Pen Unit} (h : ∀ a, Hangs parent (k (f a)))
    (items : List α) : Hangs parent ((items.map f).forM k) := by
  induction items with
  | nil => exact .pure _
  | cons a rest ih => exact (h a).seq ih

theorem Hangs.option {f : α → β} {k : β → Pen Unit} (h : ∀ a, Hangs parent (k (f a)))
    (item : Option α) : Hangs parent ((item.map f).forM k) := by
  cases item with
  | none => exact .pure _
  | some a => exact h a

theorem Hangs.link {m : Pen Nat} (h : DrawsTree m) (role : String) :
    Hangs parent (link parent role m) := fun before g hlive => by
  obtain ⟨hroot, hgrown⟩ := h g
  have hlinked := hlive.link hgrown role
  rw [← hroot] at hlinked
  exact hlinked

/-- A box that is linked at once, and trees under it. -/
theorem Hangs.boxUnder {role label : String} {fill : Fill} {below : Nat → Pen Unit}
    (h : ∀ id, Hangs id (below id)) : Hangs parent (boxUnder parent role label fill below) :=
  fun before g hlive => by
    have hunder := h _ before _ (hlive.under ⟨label, fill⟩ role)
    exact { hunder with
      low := hlive.low
      high := Nat.lt_trans hlive.high hunder.high }

theorem Hangs.count : Hangs parent count := fun _ _ h => h

theorem Hangs.noteWhere (start : Nat) : Hangs parent (noteWhere start) := fun _ _ h =>
  ⟨⟨h.boxes, h.edges, h.clusters⟩, h.low, h.high⟩

theorem Hangs.noteJoin (start : Nat) : Hangs parent (noteJoin start) := fun _ _ h =>
  ⟨⟨h.boxes, h.edges, h.clusters⟩, h.low, h.high⟩

/-! ## 4. Clauses -/

section Forms

variable {ν : Type} {pen : ν → Child} (h : ∀ a, DrawsTree (pen a).2)

include h

theorem hangs_child (role : String) (c : ν) : Hangs parent (child parent role (pen c)) :=
  .link (h c) role

theorem hangs_children (role : String) (cs : List ν) :
    Hangs parent (children parent role (cs.map pen)) := .list (hangs_child h role) cs

theorem hangs_option (role : String) (c : Option ν) :
    Hangs parent ((c.map pen).forM (child parent role)) := .option (hangs_child h role) c

theorem draws_bound (b : Bound ν) : DrawsTree (bound (b.map pen)) := by
  refine drawsTree_box fun id => ?_
  rw [b.offset?_map]
  exact hangs_option h "offset" b.offset?

theorem hangs_boundUnder (role : String) (b : Bound ν) :
    Hangs parent (boundUnder parent role (b.map pen)) := .link (draws_bound h b) role

theorem hangs_frame (f : Frame ν) : Hangs parent (frame parent (f.map pen)) := by
  refine .boxUnder fun id => ?_
  refine .seq (hangs_boundUnder h "start" f.start) ?_
  exact .option (hangs_boundUnder h "end") f.stop

theorem draws_window (w : Window ν) : DrawsTree (window (w.map pen)) := by
  refine drawsTree_box fun id => ?_
  refine .seq (hangs_children h "partition" w.partition) ?_
  refine .seq (hangs_children h "order" w.order) ?_
  exact .option (hangs_frame h) w.frame

theorem hangs_windowUnder (w : Window ν) : Hangs parent (windowUnder parent (w.map pen)) :=
  .link (draws_window h w) "window"

theorem draws_windowRef (w : WindowRef ν) : DrawsTree (windowRef (w.map pen)) := by
  cases w with
  | inline w => exact draws_window h w
  | named name => exact drawsTree_add _ _

theorem draws_join (j : Join ν) : DrawsTree (join (j.map pen)) := by
  refine drawsTree_box fun id => ?_
  refine .seq (hangs_child h "right" j.right) ?_
  exact hangs_option h "on" j.predicate

theorem hangs_sides (a : Assignment ν) : Hangs parent (sides parent (a.map pen)) :=
  .seq (hangs_child h "left" a.target) (hangs_child h "right" a.value)

theorem hangs_assign (a : Assignment ν) : Hangs parent (assign parent (a.map pen)) :=
  .boxUnder fun _ => hangs_sides h a

theorem hangs_group (role label item : String) (cs : List ν) :
    Hangs parent (group parent role label item (cs.map pen)) :=
  .boxUnder fun _ => hangs_children h item cs

theorem hangs_onConflict (c : OnConflict ν) : Hangs parent (onConflict parent (c.map pen)) := by
  refine .boxUnder fun id => ?_
  refine .seq (hangs_children h "column" c.columns) ?_
  obtain ⟨columns, action⟩ := c
  cases action with
  | doNothing => exact .pure _
  | doUpdate assignments wheres =>
    exact .seq (.list (hangs_assign h) assignments) (hangs_children h "where" wheres)

theorem hangs_cteUnder (c : Cte ν) : Hangs parent (cteUnder parent (c.map pen)) :=
  .boxUnder fun _ => hangs_child h "query" c.query

/-! ## 5. Statements and expressions -/

theorem hangs_joined (first : Bool) (j : Join ν) :
    Hangs parent (joined first parent (j.map pen)) := by
  refine .bind .count fun start => .seq (.link (draws_join h j) "join") ?_
  cases first with
  | true => exact .noteJoin start
  | false => exact .pure _

theorem hangs_filtered (first : Bool) (c : ν) :
    Hangs parent (filtered first parent (pen c)) := by
  refine .bind .count fun start => .seq (hangs_child h "where" c) ?_
  cases first with
  | true => exact .noteWhere start
  | false => exact .pure _

theorem hangs_selectBelow (first : Bool) (s : Select ν) :
    Hangs parent (selectBelow first (s.map pen) parent) := by
  refine .seq (.list (hangs_cteUnder h) s.ctes) ?_
  refine .seq (hangs_children h "projection" s.projections) ?_
  refine .seq (hangs_option h "from" s.source) ?_
  refine .seq (.list (hangs_joined h first) s.joins) ?_
  refine .seq (.list (hangs_filtered h first) s.wheres) ?_
  refine .seq (hangs_children h "group" s.groups) ?_
  refine .seq (hangs_children h "having" s.havings) ?_
  refine .seq (.list (hangs_windowUnder h) s.windows) ?_
  refine .seq (hangs_children h "order" s.orders) ?_
  exact .seq (hangs_option h "limit" s.limit) (hangs_option h "offset" s.offset)

theorem draws_select (s : Select ν) : DrawsTree (select (s.map pen)) := fun g => by
  have hrun : (select (s.map pen)).run g
      = (box "SelectCore" .lightgrey (selectBelow g.boxes.isEmpty (s.map pen))).run g := rfl
  rw [hrun]
  exact drawsTree_box (fun _ => hangs_selectBelow h g.boxes.isEmpty s) g

theorem draws_setOperation (s : SetOperation ν) : DrawsTree (setOperation (s.map pen)) := by
  refine drawsTree_box fun id => ?_
  refine .seq (hangs_child h "left" s.left) ?_
  refine .seq (hangs_child h "right" s.right) ?_
  refine .seq (hangs_children h "order" s.orders) ?_
  exact .seq (hangs_option h "limit" s.limit) (hangs_option h "offset" s.offset)

theorem draws_insert (s : Insert ν) : DrawsTree (insert (s.map pen)) := by
  refine drawsTree_box fun id => ?_
  refine .seq (hangs_child h "into" s.target) ?_
  refine .seq (hangs_children h "column" s.columns) ?_
  refine .seq (.list (hangs_group h "values" "Row" "value") s.rows) ?_
  refine .seq (hangs_option h "select" s.select) ?_
  refine .seq (.option (hangs_onConflict h) s.onConflict) ?_
  exact hangs_children h "returning" s.returning

theorem draws_update (s : Update ν) : DrawsTree (update (s.map pen)) := by
  refine drawsTree_box fun id => ?_
  refine .seq (hangs_child h "table" s.target) ?_
  refine .seq (.list (hangs_assign h) s.assignments) ?_
  exact .seq (hangs_children h "where" s.wheres) (hangs_children h "returning" s.returning)

theorem draws_delete (s : Delete ν) : DrawsTree (delete (s.map pen)) := by
  refine drawsTree_box fun id => ?_
  refine .seq (hangs_child h "from" s.target) ?_
  exact .seq (hangs_children h "where" s.wheres) (hangs_children h "returning" s.returning)

theorem draws_one (label : String) (fill : Fill) (role : String) (c : ν) :
    DrawsTree (one label fill role (pen c)) := drawsTree_box fun _ => hangs_child h role c

theorem draws_two (label : String) (fill : Fill) (left right : ν) :
    DrawsTree (two label fill (pen left) (pen right)) :=
  drawsTree_box fun _ => .seq (hangs_child h "left" left) (hangs_child h "right" right)

theorem hangs_branch (b : Branch ν) : Hangs parent (branch parent (b.map pen)) :=
  .seq (hangs_child h "when" b.condition) (hangs_child h "then" b.result)

/-- **Every form draws a tree if its children do.** -/
theorem draws_form (f : Form ν) : DrawsTree (form (f.map pen)) := by
  cases f with
  | table name => exact drawsTree_add _ _
  | tableAlias relation name => exact draws_one h _ _ _ relation
  | column relation name typeName => exact drawsTree_add _ _
  | star relation => exact drawsTree_add _ _
  | literal v => exact drawsTree_add _ _
  | bind v => exact drawsTree_add _ _
  | cast v typeName => exact drawsTree_add _ _
  | raw sql binds => exact drawsTree_add _ _
  | comparison left op right => exact draws_two h _ _ left right
  | nullTest c op => exact draws_one h _ _ _ c
  | and left right => exact draws_two h _ _ left right
  | or left right => exact draws_two h _ _ left right
  | not c => exact draws_one h _ _ _ c
  | grouping c => exact draws_one h _ _ _ c
  | membership c values negated =>
    exact drawsTree_box fun _ => .seq (hangs_child h "expr" c) (hangs_children h "value" values)
  | between c low high negated =>
    exact drawsTree_box fun _ =>
      .seq (hangs_child h "expr" c) (.seq (hangs_child h "low" low) (hangs_child h "high" high))
  | existence query negated => exact draws_one h _ _ _ query
  | arithmetic left op right => exact draws_two h _ _ left right
  | unary op c => exact draws_one h _ _ _ c
  | call name arguments distinct => exact drawsTree_box fun _ => hangs_children h "arg" arguments
  | aggregate func argument distinct filter =>
    exact drawsTree_box fun _ =>
      .seq (hangs_option h "expr" argument) (hangs_option h "filter" filter)
  | extract field c => exact draws_one h _ _ _ c
  | ordering c direction nulls => exact draws_one h _ _ _ c
  | window w => exact draws_window h w
  | windowed c w =>
    exact drawsTree_box fun _ =>
      .seq (hangs_child h "expr" c) (.link (draws_windowRef h w) "window")
  | labelled c name => exact draws_one h _ _ _ c
  | choice c branches otherwise =>
    refine drawsTree_box fun id => .seq (hangs_option h "operand" c) ?_
    exact .seq (.list (hangs_branch h) branches) (hangs_option h "else" otherwise)
  | groupingSet kind columns sets =>
    refine drawsTree_box fun id => .seq (hangs_children h "column" columns) ?_
    exact .list (hangs_group h "set" "Set" "column") sets
  | setOperation s => exact draws_setOperation h s
  | cte c => exact draws_one h _ _ _ c.query
  | assignment a => exact drawsTree_box fun _ => hangs_sides h a
  | join j => exact draws_join h j
  | select s => exact draws_select h s
  | insert s => exact draws_insert h s
  | update s => exact draws_update h s
  | delete s => exact draws_delete h s

end Forms
end Pen

/-! ## 6. Trees -/

theorem Node.pen_mk (form : Form Node) :
    (Node.mk form).pen = Pen.form (form.map fun n => (n, n.pen)) := fold_mk _ form

/-- **Every tree is drawn as a tree.** -/
theorem Node.draws_pen (n : Node) : n.pen.DrawsTree := by
  induction n using Node.stored_induction with
  | step form =>
    rw [pen_mk, Form.map_map]
    exact Pen.draws_form Subtype.property form

namespace Graph

/-- The graphs that drawing leads to: by visits one after the other, or by drawing a single tree
    with credits. -/
inductive Reached : Graph → Prop where
  | fresh : Reached {}
  | visit {g : Graph} (h : Reached g) (n : Node) : Reached (g.visit n).2
  | attributed (n : Node) (attributions : List Attribution) : Reached (ofAttributed n attributions)

/-- Links join drawn boxes, from a smaller to a larger number, and no two of them end in one box. -/
structure Forest (g : Graph) : Prop where
  drawn : ∀ e ∈ g.edges, e.parent < e.child ∧ e.child < g.boxes.length
  nodup : (g.edges.map Edge.child).Nodup

/-- **A graph that grows by a tree stays a forest.** -/
theorem Grown.forest {before g : Graph} (h : Grown before g) (hbefore : before.Forest) :
    g.Forest := by
  obtain ⟨links, hlinks, hspans⟩ := h.edges
  have hlength := h.boxes.length_le
  constructor
  · intro e he
    rw [hlinks] at he
    rcases List.mem_append.mp he with he | he
    · obtain ⟨hup, hhigh⟩ := hbefore.drawn e he
      omega
    · exact (hspans.upward e he).2
  · rw [hlinks, List.map_append]
    refine List.nodup_append.mpr ⟨hbefore.nodup, hspans.nodup, fun i hi j hj => ?_⟩
    -- earlier links end in earlier boxes
    obtain ⟨e, he, rfl⟩ := List.mem_map.mp hi
    obtain ⟨e', he', rfl⟩ := List.mem_map.mp hj
    have hhigh := (hbefore.drawn e he).2
    have hlow := hspans.upward e' he'
    omega

/-- Credits change neither boxes nor links. -/
theorem credit_eq (g : Graph) (a : Attribution) :
    (g.credit a).boxes = g.boxes ∧ (g.credit a).edges = g.edges := by
  unfold credit
  dsimp only
  split <;> exact ⟨rfl, rfl⟩

theorem foldl_credit_eq (attributions : List Attribution) (g : Graph) :
    (attributions.foldl credit g).boxes = g.boxes
      ∧ (attributions.foldl credit g).edges = g.edges := by
  induction attributions generalizing g with
  | nil => exact ⟨rfl, rfl⟩
  | cons a rest ih =>
    obtain ⟨hboxes, hedges⟩ := ih (g.credit a)
    obtain ⟨hboxes', hedges'⟩ := g.credit_eq a
    exact ⟨hboxes.trans hboxes', hedges.trans hedges'⟩

/-- **Every graph that drawing leads to is a forest.** -/
theorem Reached.forest {g : Graph} (h : g.Reached) : g.Forest := by
  have hfresh : ({} : Graph).Forest := ⟨(fun e he => by cases he), List.nodup_nil⟩
  induction h with
  | fresh => exact hfresh
  | visit _ n ih => exact (n.draws_pen _).2.forest ih
  | attributed n attributions =>
    obtain ⟨hboxes, hedges⟩ := foldl_credit_eq attributions (ofNode n)
    have hone : (ofNode n).Forest := (n.draws_pen _).2.forest hfresh
    refine ⟨fun e he => ?_, ?_⟩
    · rw [ofAttributed, hedges] at he
      rw [ofAttributed, hboxes]
      exact hone.drawn e he
    · rw [ofAttributed, hedges]
      exact hone.nodup

/-- **A visit draws a tree.** Its answer is the number of the first new box. Everything drawn before
    stays where it is; behind it come one or more boxes and the links that span them: one link less
    than boxes, each from a smaller to a larger new number, and each new box but the first the child
    of one of them. In every graph that drawing leads to, links join drawn boxes. -/
theorem visit_draws_tree :
    (∀ (g : Graph) (n : Node), ∃ boxes links, (g.visit n).1 = g.boxes.length
        ∧ (g.visit n).2.boxes = g.boxes ++ boxes
        ∧ (g.visit n).2.edges = g.edges ++ links
        ∧ (g.visit n).2.clusters = g.clusters
        ∧ boxes ≠ []
        ∧ Spans g.boxes.length (g.boxes.length + boxes.length) links)
      ∧ ∀ g : Graph, g.Reached → ∀ e ∈ g.edges,
        e.parent < g.boxes.length ∧ e.child < g.boxes.length := by
  refine ⟨fun g n => ?_, fun g h e he => ?_⟩
  · obtain ⟨hroot, hgrown⟩ := n.draws_pen g
    obtain ⟨boxes, hboxes⟩ := hgrown.boxes
    obtain ⟨links, hlinks, hspans⟩ := hgrown.edges
    rw [← hboxes, List.length_append] at hspans
    refine ⟨boxes, links, hroot, hboxes.symm, hlinks, hgrown.clusters, fun hnil => ?_, hspans⟩
    have hlt := hspans.lt
    rw [hnil] at hlt
    exact Nat.lt_irrefl _ hlt
  · obtain ⟨hup, hhigh⟩ := h.forest.drawn e he
    omega

/-- A running total over the rows up to the current one. -/
def runningTotal : Node :=
  ⟨.windowed ⟨.column ⟨.table "t"⟩ "x" none⟩
    (.inline { order := [⟨.column ⟨.table "t"⟩ "day" none⟩],
               frame := some ⟨.rows, .preceding ⟨.literal (.int 6)⟩, some .currentRow⟩ })⟩

/-- The running total behind a table that was drawn before: eight boxes, of which the frame and its
    bounds are linked among themselves. -/
theorem visit_draws_tree_runningTotal :
    ((({} : Graph).visit ⟨.table "t"⟩).2.visit runningTotal).2.Reached
      ∧ ((({} : Graph).visit ⟨.table "t"⟩).2.visit runningTotal).2.edges
        = [⟨1, 2, "expr"⟩, ⟨3, 4, "order"⟩, ⟨3, 5, "frame"⟩, ⟨6, 7, "offset"⟩, ⟨5, 6, "start"⟩,
          ⟨5, 8, "end"⟩, ⟨1, 3, "window"⟩]
      ∧ ∀ e ∈ ((({} : Graph).visit ⟨.table "t"⟩).2.visit runningTotal).2.edges,
        e.parent < 9 ∧ e.child < 9 := by
  have hreached : ((({} : Graph).visit ⟨.table "t"⟩).2.visit runningTotal).2.Reached :=
    (Reached.fresh.visit _).visit _
  exact ⟨hreached, rfl, visit_draws_tree.2 _ hreached⟩

end Graph
end SqlTree
