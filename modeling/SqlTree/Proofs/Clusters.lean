import Mathlib.Data.List.Flatten
import Mathlib.Data.List.Nodup
import Mathlib.Data.List.Perm.Basic
import SqlTree.Draft
import SqlTree.Proofs.AttributedRuns
import SqlTree.Proofs.SketchDrawing

/-!
# What clusters hold

A SELECT is drawn with a cluster for what each transformer added. This file says which boxes are in
which cluster, for any transformers that only append:

* `Sketch.Limb`, `Sketch.limbs` -- the links of the root of a sketch with what they lead to; the
  limbs divide all boxes but the root (`flatMap_span_limbs`), and no link leads from one into
  another (`Limb.Hangs`);
* `Graph.Shows` -- a subtree of a graph is the drawing of a node;
* `Graph.Noted.foldl_credit` -- credits leave a cluster each, unless they are for no box;
* `Select.limbs_perm`, `Select.nodup_behind` -- the limbs behind the former ones, the former ones
  and those of other clauses are all limbs, and share no box;
* `Pipeline.Appending.flatMap_credited_perm` -- a run of appending changes is credited with the
  limbs behind the former ones;
* `Draft.graph_clusters` -- one cluster for each change that adds something, holding the boxes below
  what it added and no others.
-/

namespace SqlTree

/-! ## 1. Limbs of a sketch -/

namespace Sketch

/-- A link of the root with the sketch that it leads to. -/
structure Limb where
  edge : Edge
  sketch : Sketch

/-- The numbers of the boxes of a limb. -/
def Limb.span (l : Limb) : List Nat := List.range' l.edge.child l.sketch.size

theorem Limb.mem_span {l : Limb} {i : Nat} :
    i ∈ l.span ↔ l.edge.child ≤ i ∧ i < l.edge.child + l.sketch.size := List.mem_range'_1

theorem Limb.span_ne_nil (l : Limb) : l.span ≠ [] := by
  have hpos := l.sketch.size_pos
  unfold span
  rw [Ne, List.range'_eq_nil_iff]
  omega

/-- The limbs of a sketch whose root has the number `start`. -/
def limbs (start : Nat) : Sketch → List Limb
  | .box _ => []
  | .attach parent label _ child =>
    parent.limbs start ++ [⟨⟨start, start + parent.size, label⟩, child⟩]

/-- **The limbs of a sketch divide its boxes** behind the root. -/
theorem flatMap_span_limbs (s : Sketch) (start : Nat) :
    (s.limbs start).flatMap Limb.span = List.range' (start + 1) (s.size - 1) := by
  induction s with
  | box b => rfl
  | attach parent label time child ihp _ =>
    have hpos := parent.size_pos
    rw [limbs, List.flatMap_append, ihp, List.flatMap_singleton]
    show List.range' (start + 1) (parent.size - 1) ++ List.range' (start + parent.size) child.size
      = List.range' (start + 1) (parent.size + child.size - 1)
    have hfirst : start + parent.size = start + 1 + (parent.size - 1) := by omega
    have hsize : parent.size + child.size - 1 = parent.size - 1 + child.size := by omega
    rw [hfirst, hsize, List.range'_append_1]

theorem nodup_limbs (s : Sketch) (start : Nat) : ((s.limbs start).flatMap Limb.span).Nodup := by
  rw [flatMap_span_limbs]
  exact List.nodup_range'

theorem limb_bounds {s : Sketch} {start : Nat} {l : Limb} (hl : l ∈ s.limbs start) :
    start < l.edge.child ∧ l.edge.child + l.sketch.size ≤ start + s.size := by
  have hspan : ∀ i ∈ l.span, start + 1 ≤ i ∧ i < start + 1 + (s.size - 1) := fun i hi => by
    rw [← List.mem_range'_1, ← s.flatMap_span_limbs start]
    exact List.mem_flatMap.mpr ⟨l, hl, hi⟩
  have hpos := l.sketch.size_pos
  have hfirst := hspan l.edge.child (Limb.mem_span.mpr (by omega))
  have hlast := hspan (l.edge.child + l.sketch.size - 1) (Limb.mem_span.mpr (by omega))
  omega

/-- A limb hangs in a sketch as it was drawn by itself, and no link leads out of it. -/
structure Limb.Hangs (l : Limb) (s : Sketch) (start : Nat) : Prop where
  boxes : l.sketch.boxes <+: s.boxes.drop (l.edge.child - start)
  links : l.sketch.edges l.edge.child <:+: s.edges start
  closed : ∀ e ∈ s.edges start, e.parent ∈ l.span → e.child ∈ l.span

theorem infix_edges_attach (start : Nat) (parent : Sketch) (label : String) (time : LinkTime)
    (child : Sketch) :
    child.edges (start + parent.size) <:+: (attach parent label time child).edges start := by
  cases time with
  | early => exact ⟨parent.edges start ++ [_], [], by rw [List.append_nil, List.append_assoc]; rfl⟩
  | late => exact ⟨parent.edges start, [_], List.append_assoc _ _ _⟩

theorem mem_edges_attach {start : Nat} {parent : Sketch} {label : String} {time : LinkTime}
    {child : Sketch} {e : Edge} :
    e ∈ (attach parent label time child).edges start ↔ e ∈ parent.edges start
      ∨ e = ⟨start, start + parent.size, label⟩ ∨ e ∈ child.edges (start + parent.size) := by
  rw [(edges_attach start parent label time child).mem_iff, List.mem_append, List.mem_cons]

/-- **Limbs hang.** -/
theorem limbs_hang (s : Sketch) (start : Nat) : ∀ l ∈ s.limbs start, l.Hangs s start := by
  induction s with
  | box b => exact fun l hl => by cases hl
  | attach parent label time child ihp _ =>
    have hparent := parent.spans start
    have hchild := child.spans (start + parent.size)
    have hpos := parent.size_pos
    refine fun l hl => (List.mem_append.mp hl).elim (fun hl => ?former) fun hl => ?new
    case former =>
      obtain ⟨hboxes, hlinks, hclosed⟩ := ihp l hl
      obtain ⟨habove, hhigh⟩ := limb_bounds hl
      refine ⟨?_, hlinks.trans (List.prefix_append _ _).isInfix, fun e he hin => ?_⟩
      · show l.sketch.boxes <+: (parent.boxes ++ child.boxes).drop (l.edge.child - start)
        rw [List.drop_append_of_le_length (by rw [length_boxes]; omega)]
        exact hboxes.trans (List.prefix_append _ _)
      · rcases mem_edges_attach.mp he with he | rfl | he
        · exact hclosed e he hin
        · -- the new link starts at the root, and links of the new child start behind all others
          have hin := (Limb.mem_span.mp hin).1
          dsimp only at hin
          omega
        · have hin := (Limb.mem_span.mp hin).2
          have hlow := (hchild.upward e he).1
          omega
    case new =>
      obtain rfl := List.mem_singleton.mp hl
      refine ⟨?_, infix_edges_attach .., ?_⟩
      · have hdrop : (parent.boxes ++ child.boxes).drop (start + parent.size - start)
            = child.boxes := by
          rw [Nat.add_sub_cancel_left, ← parent.length_boxes, List.drop_left]
        exact ⟨[], (List.append_nil _).trans hdrop.symm⟩
      · intro e he hin
        rw [Limb.mem_span] at hin ⊢
        dsimp only at hin ⊢
        rcases mem_edges_attach.mp he with he | rfl | he
        · obtain ⟨-, hup, hhigh⟩ := hparent.upward e he
          omega
        · dsimp only at hin
          omega
        · obtain ⟨hlow, hup, hhigh⟩ := hchild.upward e he
          omega

/-- **What is below a limb is the limb.** -/
theorem Limb.Hangs.below_iff {l : Limb} {s : Sketch} {start i : Nat} (h : l.Hangs s start) :
    Below (s.edges start) l.edge.child i ↔ i ∈ l.span := by
  have hpos := l.sketch.size_pos
  constructor
  · intro hbelow
    induction hbelow with
    | here => exact Limb.mem_span.mpr (by omega)
    | down _ he ih => exact h.closed _ he ih
  · intro hi
    obtain ⟨hlow, hhigh⟩ := Limb.mem_span.mp hi
    exact ((l.sketch.spans l.edge.child).connected i hlow hhigh).mono h.links.subset

/-- The links of the root lead to the limbs, in order. -/
theorem filter_edges (s : Sketch) (start : Nat) :
    (s.edges start).filter (·.parent = start) = (s.limbs start).map Limb.edge := by
  induction s with
  | box b => rfl
  | attach parent label time child ihp _ =>
    have hpos := parent.size_pos
    have hchild : (child.edges (start + parent.size)).filter (·.parent = start) = [] := by
      refine List.filter_eq_nil_iff.mpr fun e he => ?_
      have hlow := ((child.spans (start + parent.size)).upward e he).1
      rw [decide_eq_true_iff]
      omega
    -- the new link is the only one behind those of the parent, wherever it stands
    have hlink (behind : List Edge) :
        (⟨start, start + parent.size, label⟩ :: behind).filter (·.parent = start)
          = ⟨start, start + parent.size, label⟩ :: behind.filter (·.parent = start) :=
      List.filter_cons_of_pos (decide_eq_true rfl)
    rw [limbs, List.map_append, ← ihp]
    cases time with
    | early =>
      show List.filter _ (parent.edges start ++ _ :: child.edges _) = _
      rw [List.filter_append, hlink, hchild]
      rfl
    | late =>
      show List.filter _ (parent.edges start ++ (child.edges _ ++ [_])) = _
      rw [List.filter_append, List.filter_append, hlink, hchild]
      rfl

/-! ## 2. What hangs under a label -/

/-- The sketches that the links of the root with a label lead to. -/
def under (label : String) : Sketch → List Sketch
  | .box _ => []
  | .attach parent l _ child => parent.under label ++ if l = label then [child] else []

/-- The limbs with a label. -/
def limbsAt (label : String) (start : Nat) (s : Sketch) : List Limb :=
  (s.limbs start).filter (·.edge.label = label)

theorem limbsAt_attach (label l : String) (start : Nat) (parent : Sketch) (time : LinkTime)
    (child : Sketch) :
    (attach parent l time child).limbsAt label start = parent.limbsAt label start
      ++ if l = label then [⟨⟨start, start + parent.size, l⟩, child⟩] else [] := by
  unfold limbsAt
  rw [limbs, List.filter_append, List.filter_singleton]
  by_cases h : l = label
  · rw [if_pos h, decide_eq_true h]
    rfl
  · rw [if_neg h, decide_eq_false h]
    rfl

theorem map_sketch_limbsAt (label : String) (start : Nat) (s : Sketch) :
    (s.limbsAt label start).map Limb.sketch = s.under label := by
  induction s with
  | box b => rfl
  | attach parent l time child ihp _ =>
    rw [limbsAt_attach, under, List.map_append, ihp]
    split <;> rfl

theorem map_span_limbsAt (label : String) (start : Nat) (s : Sketch) :
    (s.limbsAt label start).map (fun l => (l.edge.child, l.edge.child + l.sketch.size))
      = s.blocks label start := by
  induction s with
  | box b => rfl
  | attach parent l time child ihp _ =>
    rw [limbsAt_attach, blocks, List.map_append, ihp]
    split <;> rfl

section Under

variable (label l : String) (parent : Sketch)

@[simp] theorem under_leaf (text : String) (fill : Fill) : (leaf text fill).under label = [] := rfl

@[simp] theorem under_linkOption (child : Option Sketch) :
    (parent.linkOption l child).under label
      = parent.under label ++ if l = label then child.toList else [] := by
  cases child with
  | none => rw [linkOption, Option.toList_none, ite_self, List.append_nil]
  | some c => rfl

theorem under_foldl_attach (time : LinkTime) (children : List Sketch) :
    (children.foldl (fun p c => p.attach l time c) parent).under label
      = parent.under label ++ if l = label then children else [] := by
  induction children generalizing parent with
  | nil => rw [List.foldl_nil, ite_self, List.append_nil]
  | cons c rest ih =>
    rw [List.foldl_cons, ih, under]
    by_cases h : l = label
    · rw [if_pos h, if_pos h, if_pos h, List.append_assoc]
      rfl
    · rw [if_neg h, if_neg h, if_neg h, List.append_nil]

@[simp] theorem under_linkAll (children : List Sketch) :
    (parent.linkAll l children).under label
      = parent.under label ++ if l = label then children else [] :=
  under_foldl_attach label l parent .late children

@[simp] theorem under_linkAllFirst (children : List Sketch) :
    (parent.linkAllFirst l children).under label
      = parent.under label ++ if l = label then children else [] :=
  under_foldl_attach label l parent .early children

end Under
end Sketch

/-! ## 3. WHERE items and joins in the drawing of a SELECT -/

namespace Draw

theorem under_where_select (s : Select Child) : (select s).under "where" = sketches s.wheres := by
  simp [select]

theorem under_join_select (s : Select Child) : (select s).under "join" = s.joins.map join := by
  simp [select]

end Draw

namespace Select

open Sketch (Limb)

/-- The limbs of the drawing of a SELECT that have a label. -/
def limbs (s : Select Node) (label : String) : List Limb :=
  (Node.mk (.select s)).sketch.limbsAt label 0

/-- The items of a list of a SELECT are drawn under a label, each as a node. -/
def DrawnUnder {α : Type} (items : Select Node → List α) (node : α → Node) (label : String) :
    Prop :=
  ∀ s, (s.limbs label).map Limb.sketch = (items s).map fun a => (node a).sketch

theorem wheres_drawn : DrawnUnder wheres id "where" := fun s => by
  unfold limbs
  rw [Sketch.map_sketch_limbsAt, Node.sketch_mk]
  show (Draw.select _).under "where" = _
  rw [Draw.under_where_select]
  exact List.map_map

theorem joins_drawn : DrawnUnder joins (fun j => ⟨.join j⟩) "join" := fun s => by
  unfold limbs
  rw [Sketch.map_sketch_limbsAt, Node.sketch_mk]
  show (Draw.select _).under "join" = _
  rw [Draw.under_join_select]
  show (s.joins.map _).map Draw.join = _
  rw [List.map_map]
  exact List.map_congr_left fun j _ => (Node.sketch_mk (.join j)).symm

end Select

/-! ## 4. Subtrees of a graph -/

namespace Graph

open Sketch (Limb)

/-- The graph draws a tree, whatever its clusters are. -/
structure Draws (g : Graph) (n : Node) : Prop where
  boxes : g.boxes = n.sketch.boxes
  edges : g.edges = n.sketch.edges 0

theorem draws_ofAttributed (n : Node) (attributions : List Attribution) :
    (ofAttributed n attributions).Draws n := by
  obtain ⟨hboxes, hedges⟩ := foldl_credit_eq attributions (ofNode n)
  exact ⟨hboxes.trans (boxes_visit {} n), hedges.trans (edges_visit {} n)⟩

/-- The boxes that links with a label lead to from the first box. -/
def under (g : Graph) (label : String) : List Nat :=
  ((g.edges.filter (·.parent = 0)).filter (·.label = label)).map Edge.child

/-- The subtree below a box is the drawing of a node. -/
structure Shows (g : Graph) (n : Node) (root : Nat) : Prop where
  boxes : n.sketch.boxes <+: g.boxes.drop root
  links : n.sketch.edges root <:+: g.edges
  below : ∀ i, Below g.edges root i ↔ root ≤ i ∧ i < root + n.sketch.size

variable {g : Graph} {s : Select Node} {label : String}

theorem Draws.under_eq (h : g.Draws ⟨.select s⟩) (label : String) :
    g.under label = (s.limbs label).map (·.edge.child) := by
  unfold under Select.limbs Sketch.limbsAt
  rw [h.edges, Sketch.filter_edges, List.filter_map, List.map_map]
  rfl

/-- A limb is shown where its link leads. -/
theorem Draws.shows (h : g.Draws ⟨.select s⟩) {l : Limb} {n : Node} (hl : l ∈ s.limbs label)
    (hn : l.sketch = n.sketch) : g.Shows n l.edge.child := by
  have hhangs : l.Hangs (Node.mk (.select s)).sketch 0 :=
    Sketch.limbs_hang _ 0 l (List.mem_filter.mp hl).1
  refine ⟨?_, ?_, fun i => ?_⟩
  · rw [h.boxes, ← hn]
    exact hhangs.boxes
  · rw [h.edges, ← hn]
    exact hhangs.links
  · rw [h.edges, ← hn, hhangs.below_iff, Limb.mem_span]

/-- **Items are shown where the links with their label lead.** -/
theorem Draws.forall₂_shows {α : Type} {items : Select Node → List α} {node : α → Node}
    (h : g.Draws ⟨.select s⟩) (hitems : Select.DrawnUnder items node label) :
    List.Forall₂ (fun a root => g.Shows (node a) root) (items s) (g.under label) := by
  have hsketch :
      List.Forall₂ (fun l a => l.sketch = (node a).sketch) (s.limbs label) (items s) := by
    have heq := hitems s
    rw [← List.forall₂_eq_eq_eq, List.forall₂_map_left_iff, List.forall₂_map_right_iff] at heq
    exact heq
  have hlimbs := (List.forall₂_and_left (s.limbs label) (items s)).mpr
    ⟨fun l (hl : l ∈ s.limbs label) => hl, hsketch⟩
  rw [h.under_eq, List.forall₂_map_right_iff]
  exact List.Forall₂.flip (hlimbs.imp fun l a ⟨hl, hn⟩ => h.shows hl hn)

/-! ## 5. Credits -/

/-- The boxes that an attribution of a tree credits. -/
def credited (n : Node) (a : Attribution) : List Nat :=
  boxesOf (a.wheres.slice (creditable n "where")) ++ boxesOf (a.joins.slice (creditable n "join"))

/-- The graph has noted the blocks of a tree that can be credited. -/
structure Noted (g : Graph) (n : Node) : Prop where
  wheres : g.whereBlocks = creditable n "where"
  joins : g.joinBlocks = creditable n "join"

theorem noted_ofNode (n : Node) : (ofNode n).Noted n := by
  unfold ofNode
  rw [visit_eq]
  exact ⟨List.nil_append _, List.nil_append _⟩

/-- Credits leave the notes as they are. -/
theorem Noted.credit {g : Graph} {n : Node} (h : g.Noted n) (a : Attribution) :
    (g.credit a).Noted n := by
  unfold Graph.credit
  dsimp only
  split
  · exact h
  · exact ⟨h.wheres, h.joins⟩

theorem Noted.credit_clusters {g : Graph} {n : Node} (h : g.Noted n) (a : Attribution) :
    (g.credit a).clusters = g.clusters
      ++ if (credited n a).isEmpty then [] else [⟨a.name, g.nextColor, credited n a⟩] := by
  have hmembers : boxesOf (a.wheres.slice g.whereBlocks) ++ boxesOf (a.joins.slice g.joinBlocks)
      = credited n a := by
    rw [h.wheres, h.joins]
    rfl
  unfold Graph.credit
  rw [hmembers]
  dsimp only
  split
  · rw [List.append_nil]
  · rfl

/-- **Credits leave a cluster each**, unless they are for no box. -/
theorem Noted.foldl_credit {g : Graph} {n : Node} (h : g.Noted n)
    (attributions : List Attribution) :
    ∃ new, (attributions.foldl Graph.credit g).clusters = g.clusters ++ new
      ∧ new.flatMap Cluster.members = attributions.flatMap (credited n)
      ∧ List.Forall₂ (fun a c => c.label = a.name ∧ c.members = credited n a)
        (attributions.filter fun a => !(credited n a).isEmpty) new := by
  induction attributions generalizing g with
  | nil => exact ⟨[], (List.append_nil _).symm, rfl, .nil⟩
  | cons a rest ih =>
    obtain ⟨new, hclusters, hmembers, hnew⟩ := ih (h.credit a)
    rw [h.credit_clusters] at hclusters
    rw [List.foldl_cons, List.flatMap_cons, ← hmembers]
    by_cases hempty : (credited n a).isEmpty
    · rw [if_pos hempty, List.append_nil] at hclusters
      rw [List.filter_cons_of_neg (by rw [hempty]; decide), List.isEmpty_iff.mp hempty]
      exact ⟨new, hclusters, rfl, hnew⟩
    · rw [if_neg hempty, List.append_assoc] at hclusters
      rw [List.filter_cons_of_pos (by simpa using hempty)]
      exact ⟨_ :: new, hclusters, rfl, .cons ⟨rfl, rfl⟩ hnew⟩

end Graph

theorem Stretch.slice_map {α β : Type} (stretch : Stretch) (f : α → β) (items : List α) :
    stretch.slice (items.map f) = (stretch.slice items).map f := by
  unfold slice
  rw [List.map_take, List.map_drop]

namespace Select

open Sketch (Limb)

/-- The limbs that an attribution of a SELECT credits. -/
def credited (s : Select Node) (a : Attribution) : List Limb :=
  a.wheres.slice (s.limbs "where") ++ a.joins.slice (s.limbs "join")

theorem boxesOf_slice (s : Select Node) (label : String) (stretch : Stretch) :
    Graph.boxesOf (stretch.slice (Graph.creditable ⟨.select s⟩ label))
      = (stretch.slice (s.limbs label)).flatMap Limb.span := by
  show Graph.boxesOf (stretch.slice ((Node.mk (.select s)).sketch.blocks label 0)) = _
  rw [← Sketch.map_span_limbsAt, Stretch.slice_map]
  unfold Graph.boxesOf
  rw [List.flatMap_map]
  refine List.flatMap_congr fun l _ => ?_
  show List.range' _ (_ + _ - _) = _
  rw [Nat.add_sub_cancel_left]
  rfl

theorem credited_eq (s : Select Node) (a : Attribution) :
    Graph.credited ⟨.select s⟩ a = (s.credited a).flatMap Limb.span := by
  unfold Graph.credited credited
  rw [boxesOf_slice, boxesOf_slice, List.flatMap_append]

theorem credited_subset (s : Select Node) (a : Attribution) :
    s.credited a ⊆ (Node.mk (.select s)).sketch.limbs 0 := by
  have hslice (stretch : Stretch) (label : String) :
      stretch.slice (s.limbs label) ⊆ (Node.mk (.select s)).sketch.limbs 0 :=
    ((List.take_sublist _ _).trans ((List.drop_sublist _ _).trans List.filter_sublist)).subset
  exact List.append_subset.mpr ⟨hslice _ _, hslice _ _⟩

/-- The limbs of the WHERE items and joins of a SELECT behind those of a former one. -/
def behind (last s : Select Node) : List Limb :=
  (last.limbs "where").drop s.wheres.length ++ (last.limbs "join").drop s.joins.length

/-- The limbs of the former WHERE items and joins. -/
def former (last s : Select Node) : List Limb :=
  (last.limbs "where").take s.wheres.length ++ (last.limbs "join").take s.joins.length

/-- The limbs of all other clauses. -/
def others (last : Select Node) : List Limb :=
  (Node.mk (.select last)).sketch.limbs 0
    |>.filter (fun l => !decide (l.edge.label = "where"))
    |>.filter (fun l => !decide (l.edge.label = "join"))

theorem limbs_perm_label (last : Select Node) :
    ((Node.mk (.select last)).sketch.limbs 0).Perm
      (last.limbs "where" ++ (last.limbs "join" ++ last.others)) := by
  have hwhere := List.filter_append_perm (fun l : Limb => decide (l.edge.label = "where"))
    ((Node.mk (.select last)).sketch.limbs 0)
  have hrest := List.filter_append_perm (fun l : Limb => decide (l.edge.label = "join"))
    (((Node.mk (.select last)).sketch.limbs 0).filter fun l => !decide (l.edge.label = "where"))
  -- a link with the one label does not have the other
  have hjoin : (((Node.mk (.select last)).sketch.limbs 0).filter
      fun l => !decide (l.edge.label = "where")).filter (fun l => decide (l.edge.label = "join"))
        = last.limbs "join" := by
    rw [List.filter_filter]
    refine List.filter_congr fun l _ => ?_
    by_cases hl : l.edge.label = "join"
    · rw [hl]
      rfl
    · rw [decide_eq_false hl, Bool.false_and]
  rw [hjoin] at hrest
  exact hwhere.symm.trans (hrest.symm.append_left _)

/-- **All limbs** are behind the former ones, former ones, or limbs of other clauses. -/
theorem limbs_perm (last s : Select Node) :
    ((Node.mk (.select last)).sketch.limbs 0).Perm
      (last.behind s ++ (last.former s ++ last.others)) := by
  have hcut (items : List Limb) (k : Nat) : items.Perm (items.drop k ++ items.take k) :=
    (List.Perm.of_eq (List.take_append_drop k items).symm).trans List.perm_append_comm
  refine last.limbs_perm_label.trans ?_
  refine ((hcut _ s.wheres.length).append ((hcut _ s.joins.length).append_right _)).trans ?_
  unfold behind former
  rw [List.append_assoc, List.append_assoc, List.append_assoc, List.append_assoc]
  exact (List.perm_append_comm_assoc _ _ _).append_left _

/-- **No box is both behind the former limbs and elsewhere**, nor there twice. -/
theorem nodup_behind (last s : Select Node) :
    ((last.behind s).flatMap Limb.span).Nodup
      ∧ ∀ i ∈ (last.behind s).flatMap Limb.span,
        i ∉ (last.former s ++ last.others).flatMap Limb.span := by
  have hall := ((last.limbs_perm s).flatMap_right Limb.span).nodup_iff.mp
    ((Node.mk (.select last)).sketch.nodup_limbs 0)
  rw [List.flatMap_append] at hall
  obtain ⟨hbehind, -, hapart⟩ := List.nodup_append.mp hall
  exact ⟨hbehind, fun i hi hi' => hapart i hi i hi' rfl⟩

end Select

/-! ## 6. What a run is credited with -/

/-- The change appends at least one WHERE item or join. -/
def Change.Adds (c : Change) : Prop :=
  c.before.wheres.length < c.after.wheres.length ∨ c.before.joins.length < c.after.joins.length

instance (c : Change) : Decidable c.Adds := inferInstanceAs (Decidable (_ ∨ _))

namespace Graph

/-- What a change appended to a list is shown where links with a label lead. -/
def ShowsNew {α : Type} (g : Graph) (items : Select Node → List α) (node : α → Node)
    (label : String) (c : Change) : Prop :=
  ∃ new, items c.after = items c.before ++ new
    ∧ List.Forall₂ (fun a root => g.Shows (node a) root) new
      ((c.stretch items).slice (g.under label))

/-- The boxes at which what a change appended is shown. -/
def appended (g : Graph) (c : Change) : List Nat :=
  (c.stretch Select.wheres).slice (g.under "where")
    ++ (c.stretch Select.joins).slice (g.under "join")

/-- A cluster holds the boxes of what a change appended, each once, under the name of the
    transformer. -/
structure Credits (g : Graph) (c : Change) (cluster : Cluster) : Prop where
  label : cluster.label = c.transformer.name
  wheres : g.ShowsNew Select.wheres id "where" c
  joins : g.ShowsNew Select.joins (fun j => ⟨.join j⟩) "join" c
  nodup : cluster.members.Nodup
  members : ∀ i, i ∈ cluster.members ↔ ∃ root ∈ g.appended c, Below g.edges root i

end Graph

namespace Pipeline

open Sketch (Limb)

section Items

variable {α : Type} {items : Select Node → List α} {node : α → Node} {label : String}
  {s last : Select Node} {changes : List Change} {g : Graph}

theorem Run.showsNew (h : Run s changes last) (hc : ∀ c ∈ changes, c.Grows items)
    (hitems : Select.DrawnUnder items node label) (hg : g.Draws ⟨.select last⟩) :
    ∀ c ∈ changes, g.ShowsNew items node label c := fun c hmem =>
  ⟨_, h.slice hc c hmem,
    List.forall₂_take _ (List.forall₂_drop _ (hg.forall₂_shows hitems))⟩

/-- A change is credited with limbs under a label exactly if it appends to the list. -/
theorem Run.slice_limbs_eq_nil_iff (h : Run s changes last) (hc : ∀ c ∈ changes, c.Grows items)
    (hitems : Select.DrawnUnder items node label) :
    ∀ c ∈ changes, (c.stretch items).slice (last.limbs label) = []
      ↔ ¬ (items c.before).length < (items c.after).length := fun c hmem => by
  have hslice := congrArg List.length (h.slice hc c hmem)
  have hlimbs := congrArg List.length (congrArg (c.stretch items).slice (hitems last))
  rw [Stretch.slice_map, Stretch.slice_map, List.length_map, List.length_map] at hlimbs
  rw [List.length_append, ← hlimbs] at hslice
  rw [← List.length_eq_zero_iff]
  omega

/-- **The credits of appending changes are the limbs behind the former ones.** -/
theorem Run.flatMap_slice_limbs (h : Run s changes last) (hc : ∀ c ∈ changes, c.Grows items)
    (hitems : Select.DrawnUnder items node label) :
    (changes.flatMap fun c => (c.stretch items).slice (last.limbs label))
      = (last.limbs label).drop (items s).length := by
  have hlength : (items last).length = (last.limbs label).length := by
    rw [← List.length_map fun a => (node a).sketch, ← hitems last, List.length_map]
  have htile := h.tile hc
  rw [hlength] at htile
  rw [← htile.flatMap_slice, List.flatMap_map]

end Items

/-- A run of changes that only append WHERE items and joins. -/
structure Appending (s : Select Node) (changes : List Change) (last : Select Node) : Prop where
  run : Run s changes last
  wheres : ∀ c ∈ changes, c.Grows Select.wheres
  joins : ∀ c ∈ changes, c.Grows Select.joins

namespace Appending

variable {s last : Select Node} {changes : List Change}

theorem credited_isEmpty_iff (h : Appending s changes last) :
    ∀ c ∈ changes, (Graph.credited ⟨.select last⟩ c.credit).isEmpty ↔ ¬ c.Adds := fun c hmem => by
  have hwheres := h.run.slice_limbs_eq_nil_iff h.wheres Select.wheres_drawn c hmem
  have hjoins := h.run.slice_limbs_eq_nil_iff h.joins Select.joins_drawn c hmem
  have hspan : (Graph.credited ⟨.select last⟩ c.credit).isEmpty ↔ last.credited c.credit = [] := by
    rw [List.isEmpty_iff, Select.credited_eq, List.flatMap_eq_nil_iff]
    exact ⟨fun hall => List.eq_nil_iff_forall_not_mem.mpr fun l hl => l.span_ne_nil (hall l hl),
      fun hnil l hl => by rw [hnil] at hl; cases hl⟩
  rw [hspan, Change.Adds, not_or, ← hwheres, ← hjoins]
  exact List.append_eq_nil_iff

/-- **What a run is credited with is all boxes behind the former ones.** -/
theorem flatMap_credited_perm (h : Appending s changes last) :
    (changes.flatMap fun c => Graph.credited ⟨.select last⟩ c.credit).Perm
      ((last.behind s).flatMap Limb.span) := by
  have hwheres := h.run.flatMap_slice_limbs h.wheres Select.wheres_drawn
  have hjoins := h.run.flatMap_slice_limbs h.joins Select.joins_drawn
  have hlimbs : (changes.flatMap fun c => last.credited c.credit).Perm (last.behind s) := by
    unfold Select.behind
    rw [← hwheres, ← hjoins]
    exact (List.flatMap_append_perm changes _ _).symm
  have hspans : (changes.flatMap fun c => Graph.credited ⟨.select last⟩ c.credit)
      = (changes.flatMap fun c => last.credited c.credit).flatMap Limb.span := by
    rw [List.flatMap_assoc]
    exact List.flatMap_congr fun c _ => last.credited_eq c.credit
  rw [hspans]
  exact hlimbs.flatMap_right Limb.span

end Appending
end Pipeline

/-! ## 7. The clusters of a drawn SELECT -/

namespace Graph

open Sketch (Limb)

/-- The clusters of a graph account for a run that began with a SELECT: for what the run appended
    and for nothing else. -/
structure Accounts (g : Graph) (s : Select Node) (changes : List Change) : Prop where
  /-- There is one cluster for each change that adds something, in the order of the changes. -/
  clusters : List.Forall₂ g.Credits (changes.filter (·.Adds)) g.clusters
  disjoint : g.clusters.Pairwise fun a b => List.Disjoint a.members b.members
  drawn : ∀ cluster ∈ g.clusters, ∀ i ∈ cluster.members, 0 < i ∧ i < g.boxes.length
  /-- The items that the SELECT had before come first, ... -/
  wheres : List.Forall₂ g.Shows s.wheres ((g.under "where").take s.wheres.length)
  joins : List.Forall₂ (fun j => g.Shows ⟨.join j⟩) s.joins ((g.under "join").take s.joins.length)
  /-- ... and no box below them is in a cluster, ... -/
  former : ∀ root ∈ (g.under "where").take s.wheres.length ++ (g.under "join").take s.joins.length,
    ∀ i, Below g.edges root i → ∀ cluster ∈ g.clusters, i ∉ cluster.members
  /-- ... and no box below any other clause. -/
  others : ∀ e ∈ g.edges, e.parent = 0 → e.label ≠ "where" → e.label ≠ "join" →
    ∀ i, Below g.edges e.child i → ∀ cluster ∈ g.clusters, i ∉ cluster.members

variable {g : Graph} {s last : Select Node} {changes : List Change}

/-- What is below some of the limbs is in their spans. -/
theorem Draws.mem_flatMap_span (hg : g.Draws ⟨.select last⟩) {limbs : List Limb}
    (hlimbs : limbs ⊆ (Node.mk (.select last)).sketch.limbs 0) {i : Nat} :
    i ∈ limbs.flatMap Limb.span
      ↔ ∃ root ∈ limbs.map (·.edge.child), Below g.edges root i := by
  have hbelow : ∀ l ∈ limbs, Below g.edges l.edge.child i ↔ i ∈ l.span := fun l hl => by
    rw [hg.edges]
    exact (Sketch.limbs_hang _ 0 l (hlimbs hl)).below_iff
  rw [List.mem_flatMap]
  constructor
  · rintro ⟨l, hl, hi⟩
    exact ⟨_, List.mem_map_of_mem hl, (hbelow l hl).mpr hi⟩
  · rintro ⟨root, hroot, hi⟩
    obtain ⟨l, hl, rfl⟩ := List.mem_map.mp hroot
    exact ⟨l, hl, (hbelow l hl).mp hi⟩

theorem Draws.appended_eq (hg : g.Draws ⟨.select last⟩) (c : Change) :
    g.appended c = (last.credited c.credit).map (·.edge.child) := by
  unfold appended Select.credited
  rw [hg.under_eq, hg.under_eq, Stretch.slice_map, Stretch.slice_map, List.map_append]
  rfl

/-- **A cluster with the credits of a change holds the boxes of what it appended.** -/
theorem Draws.credits (hg : g.Draws ⟨.select last⟩) (h : Pipeline.Appending s changes last)
    {c : Change} (hmem : c ∈ changes) {cluster : Cluster}
    (hlabel : cluster.label = c.transformer.name)
    (hmembers : cluster.members = credited ⟨.select last⟩ c.credit) : g.Credits c cluster where
  label := hlabel
  wheres := h.run.showsNew h.wheres Select.wheres_drawn hg c hmem
  joins := h.run.showsNew h.joins Select.joins_drawn hg c hmem
  nodup := by
    have hall := (h.flatMap_credited_perm).nodup_iff.mpr (last.nodup_behind s).1
    rw [hmembers]
    exact (List.nodup_flatMap.mp hall).1 c hmem
  members i := by
    rw [hmembers, last.credited_eq, hg.appended_eq]
    exact hg.mem_flatMap_span (last.credited_subset c.credit)

theorem filter_map_credit (h : Pipeline.Appending s changes last) :
    (changes.map Change.credit).filter (fun a => !(credited ⟨.select last⟩ a).isEmpty)
      = (changes.filter (·.Adds)).map Change.credit := by
  rw [List.filter_map]
  refine congrArg _ (List.filter_congr fun c hmem => ?_)
  have hempty := h.credited_isEmpty_iff c hmem
  rw [Bool.eq_iff_iff, decide_eq_true_iff, Function.comp_apply, Bool.not_eq_true', ← not_iff_not,
    ← hempty, Bool.not_eq_false]

theorem Draws.under_former (hg : g.Draws ⟨.select last⟩) (s : Select Node) :
    (g.under "where").take s.wheres.length ++ (g.under "join").take s.joins.length
      = (last.former s).map (·.edge.child) := by
  unfold Select.former
  rw [hg.under_eq, hg.under_eq, List.map_append, List.map_take, List.map_take]

/-- A link of the root with neither label leads to a limb of another clause. -/
theorem Draws.exists_other (hg : g.Draws ⟨.select last⟩) {e : Edge} (he : e ∈ g.edges)
    (hroot : e.parent = 0) (hwhere : e.label ≠ "where") (hjoin : e.label ≠ "join") :
    ∃ l ∈ last.others, l.edge = e := by
  have hlimb : e ∈ ((Node.mk (.select last)).sketch.limbs 0).map Limb.edge := by
    rw [← Sketch.filter_edges, ← hg.edges]
    exact List.mem_filter.mpr ⟨he, decide_eq_true hroot⟩
  obtain ⟨l, hl, rfl⟩ := List.mem_map.mp hlimb
  refine ⟨l, List.mem_filter.mpr ⟨List.mem_filter.mpr ⟨hl, ?_⟩, ?_⟩, rfl⟩
  · rw [decide_eq_false hwhere]
    rfl
  · rw [decide_eq_false hjoin]
    rfl

/-- **A run leaves one cluster for each change that adds something**, and together the clusters
    hold all boxes behind the former ones. -/
theorem clusters_ofAttributed (h : Pipeline.Appending s changes last)
    (hg : g = ofAttributed ⟨.select last⟩ (changes.map Change.credit)) :
    List.Forall₂ g.Credits (changes.filter (·.Adds)) g.clusters
      ∧ (g.clusters.flatMap Cluster.members).Perm ((last.behind s).flatMap Limb.span) := by
  obtain ⟨new, hnew, hmembers, hclusters⟩ :=
    (noted_ofNode ⟨.select last⟩).foldl_credit (changes.map Change.credit)
  have hdraws : g.Draws ⟨.select last⟩ := hg ▸ draws_ofAttributed _ _
  have hnone : (ofNode ⟨.select last⟩).clusters = [] := (Node.draws_pen _ _).2.clusters
  obtain rfl : g.clusters = new := by
    rw [hg, ofAttributed, hnew, hnone, List.nil_append]
  constructor
  · rw [filter_map_credit h, List.forall₂_map_left_iff] at hclusters
    have hboth := (List.forall₂_and_left _ _).mpr
      ⟨fun c hmem => (List.mem_filter.mp hmem).1, hclusters⟩
    exact hboth.imp fun c cluster hc => hdraws.credits h hc.1 hc.2.1 hc.2.2
  · rw [hmembers, List.flatMap_map]
    exact h.flatMap_credited_perm

/-- A box below any other limb is in no cluster. -/
theorem Draws.not_mem_of_below (hg : g.Draws ⟨.select last⟩)
    (hperm : (g.clusters.flatMap Cluster.members).Perm ((last.behind s).flatMap Limb.span))
    {root i : Nat} (hroot : root ∈ (last.former s ++ last.others).map (·.edge.child))
    (hbelow : Below g.edges root i) : ∀ cluster ∈ g.clusters, i ∉ cluster.members := by
  intro cluster hcluster hi
  have hbehind := hperm.mem_iff.mp (List.mem_flatMap.mpr ⟨cluster, hcluster, hi⟩)
  have helse := (List.append_subset.mp (last.limbs_perm s).symm.subset).2
  exact (last.nodup_behind s).2 i hbehind
    ((hg.mem_flatMap_span helse).mpr ⟨root, hroot, hbelow⟩)

/-- **The credits of a run account for it.** -/
theorem accounts (h : Pipeline.Appending s changes last)
    (hg : g = ofAttributed ⟨.select last⟩ (changes.map Change.credit)) :
    g.Accounts s changes := by
  obtain ⟨hclusters, hperm⟩ := clusters_ofAttributed h hg
  have hdraws : g.Draws ⟨.select last⟩ := hg ▸ draws_ofAttributed _ _
  refine ⟨hclusters, ?disjoint, ?drawn, ?wheres, ?joins, ?former, ?others⟩
  case disjoint => exact (List.nodup_flatMap.mp (hperm.nodup_iff.mpr (last.nodup_behind s).1)).2
  case drawn =>
    intro cluster hcluster i hi
    have hbehind := hperm.mem_iff.mp (List.mem_flatMap.mpr ⟨cluster, hcluster, hi⟩)
    obtain ⟨l, hl, hil⟩ := List.mem_flatMap.mp hbehind
    obtain ⟨hlow, hhigh⟩ := Sketch.limb_bounds
      ((last.limbs_perm s).symm.subset (List.mem_append_left _ hl))
    rw [Limb.mem_span] at hil
    rw [hdraws.boxes, Sketch.length_boxes]
    omega
  case wheres =>
    have hshown := List.forall₂_take s.wheres.length (hdraws.forall₂_shows Select.wheres_drawn)
    rw [← List.prefix_iff_eq_take.mp (h.run.keeps h.wheres)] at hshown
    exact hshown
  case joins =>
    have hshown := List.forall₂_take s.joins.length (hdraws.forall₂_shows Select.joins_drawn)
    rw [← List.prefix_iff_eq_take.mp (h.run.keeps h.joins)] at hshown
    exact hshown
  case former =>
    intro root hroot i hbelow
    rw [hdraws.under_former] at hroot
    exact hdraws.not_mem_of_below hperm
      (List.map_subset _ (List.subset_append_left _ _) hroot) hbelow
  case others =>
    intro e he hroot hwhere hjoin i hbelow
    obtain ⟨l, hl, rfl⟩ := hdraws.exists_other he hroot hwhere hjoin
    exact hdraws.not_mem_of_below hperm
      (List.mem_map_of_mem (List.mem_append_right _ hl)) hbelow

end Graph

namespace Draft

/-- **Clusters credit what transformers added.** For every SELECT and all transformers that let it
    pass and only append WHERE items and joins, the graph draws the SELECT as they left it. Each of
    them that appended anything has a cluster with its name, in their order, and the others have
    none. The cluster holds the boxes of what the transformer appended, each once. No two clusters
    share a box, and no box of the SELECT as it was before is in any of them: not its own, none
    below its own WHERE items and joins, and none below any other clause. -/
theorem graph_clusters (d : Draft (Select Node)) (last : Select Node)
    (hlast : d.pipeline.apply d.statement = .ok last) (happends : ∀ t ∈ d.pipeline, t.Appends) :
    ∃ g changes, d.graph = .ok g ∧ g.Draws ⟨.select last⟩
      ∧ Pipeline.Run d.statement changes last ∧ changes.map (·.transformer) = d.pipeline
      ∧ g.Accounts d.statement changes := by
  obtain ⟨credits, hcredits⟩ := Pipeline.exists_applyAttributed_iff.mpr hlast
  obtain ⟨changes, hrun, hp, rfl⟩ := Pipeline.applyAttributed_eq_ok_iff.mp hcredits
  have hgrows := hrun.grows fun c hmem => happends c.transformer (hp ▸ List.mem_map_of_mem hmem)
  have hrun' : Pipeline.Appending d.statement changes last :=
    ⟨hrun, fun c hmem => (hgrows c hmem).1, fun c hmem => (hgrows c hmem).2⟩
  refine ⟨_, changes, ?_, Graph.draws_ofAttributed _ _, hrun, hp, Graph.accounts hrun' rfl⟩
  unfold graph
  rw [hcredits]
  rfl

/-- Users with an open order, which pass through a transformer that joins orders, one that does
    nothing and a soft deletion. -/
def busyUsers : Draft (Select Node) where
  statement :=
    { source := some ⟨.table "users"⟩
      wheres := [⟨.existence ⟨.select
        { source := some ⟨.table "orders"⟩, wheres := [⟨.raw "open" []⟩] }⟩ false⟩] }
  pipeline := [Pipeline.joiningOrders, {}, SoftDelete.transformer {}]

/-- The join has two boxes and the predicates of the soft deletion four; none of the boxes from four
    to seven, which show the caller's condition, is in a cluster. -/
theorem graph_clusters_busyUsers :
    (∃ last, busyUsers.pipeline.apply busyUsers.statement = .ok last)
      ∧ (∀ t ∈ busyUsers.pipeline, t.Appends)
      ∧ ∃ g changes, busyUsers.graph = .ok g ∧ g.Accounts busyUsers.statement changes
        ∧ (g.under "where").take 1 = [4] ∧ Below g.edges 4 7
        ∧ g.clusters = [⟨"orders", "red", [2, 3]⟩, ⟨"soft_delete", "blue", [8, 9, 10, 11]⟩] := by
  have happends : ∀ t ∈ busyUsers.pipeline, t.Appends := by
    refine List.forall_mem_cons.mpr ⟨fun s s' h => ?_, List.forall_mem_cons.mpr
      ⟨fun s s' h => ?_, List.forall_mem_singleton.mpr (Guard.appends_transformer _ _)⟩⟩
    · obtain rfl := Except.ok.inj h
      exact ⟨List.prefix_rfl, List.prefix_append _ _⟩
    · obtain rfl := Except.ok.inj h
      exact ⟨List.prefix_rfl, List.prefix_rfl⟩
  have hlast : ∃ last, busyUsers.pipeline.apply busyUsers.statement = .ok last := ⟨_, rfl⟩
  obtain ⟨last, hlast⟩ := hlast
  obtain ⟨g, changes, hgraph, -, -, -, haccounts⟩ := graph_clusters busyUsers last hlast happends
  have hdrawn : ∃ g, busyUsers.graph = .ok g ∧ (g.under "where").take 1 = [4]
      ∧ ⟨4, 5, "subquery"⟩ ∈ g.edges ∧ ⟨5, 7, "where"⟩ ∈ g.edges
      ∧ g.clusters = [⟨"orders", "red", [2, 3]⟩, ⟨"soft_delete", "blue", [8, 9, 10, 11]⟩] :=
    ⟨_, rfl, by decide +kernel⟩
  obtain ⟨g', hgraph', hown, hquery, hopen, hclusters⟩ := hdrawn
  obtain rfl := Except.ok.inj (hgraph.symm.trans hgraph')
  exact ⟨⟨last, hlast⟩, happends, g, changes, hgraph, haccounts, hown,
    (Below.here.down hquery).down hopen, hclusters⟩

end Draft
end SqlTree
