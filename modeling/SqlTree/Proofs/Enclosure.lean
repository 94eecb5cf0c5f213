import SqlTree.Proofs.Building

/-!
# Where an OR stands in a tree

An OR that stands beside an AND takes it apart, so the functions that build nodes put every OR in
parentheses. This file says what that means for a tree, and that no sequence of them misses it:

* `Node.EnclosesOrs` -- each OR of a tree is reached from a node in parentheses through ORs only;
* `Node.enclosesOrs_iff` -- the same, seen from each node and its children;
* `Node.lasting_enclosesOrs` -- so it outlasts each way in which calls put nodes together;
* `Node.Built`, `Node.Built.enclosesOrs` -- what any number of calls builds encloses its ORs.
-/

namespace SqlTree

/-! ## 1. ORs and what may hold them -/

namespace Node

/-- `n` stands in a tree below the nodes `above`, the nearest of them first. -/
inductive Below (t : Node) : List Node → Node → Prop where
  | top : Below t [] t
  | child {above : List Node} {n c : Node} (h : Below t above n) (hc : c ∈ n.form.children) :
    Below t (n :: above) c

/-- Upwards from here, and through ORs only, there is a node in parentheses. -/
def Enclosed (above : List Node) : Prop :=
  ∃ ors group rest, above = ors ++ group :: rest
    ∧ (∀ n ∈ ors, n.form.isOr = true) ∧ group.form.isGrouping = true

/-- Each OR of a tree is reached from a node in parentheses through ORs only. -/
def EnclosesOrs (t : Node) : Prop :=
  ∀ above n, t.Below above n → n.form.isOr = true → Enclosed above

/-- Below a node, ORs are children of ORs and of nodes in parentheses only. The node itself may be
    one. -/
def HoldsOrs (t : Node) : Prop :=
  ∀ n ∈ t.parts, ∀ c ∈ n.form.children, c.form.isOr = true → n.form.holdsOrs = true

/-! ## 2. ORs, seen from each node -/

variable {t n c : Node} {above : List Node} {form : Form Node}

theorem mem_parts_of_child (hn : n ∈ t.parts) (hc : c ∈ n.form.children) : c ∈ t.parts := by
  obtain ⟨form⟩ := n
  refine parts_subset hn ?_
  rw [parts_mk]
  exact List.mem_cons_of_mem _ (List.mem_flatMap.mpr ⟨c, hc, List.mem_cons_self⟩)

theorem Below.mem_parts (h : t.Below above n) : n ∈ t.parts := by
  induction h with
  | top => exact List.mem_cons_self
  | child h hc ih => exact mem_parts_of_child ih hc

/-- What stands in a child stands in the tree, one node further down. -/
theorem Below.under (hc : c ∈ t.form.children) (h : c.Below above n) :
    t.Below (above ++ [t]) n := by
  induction h with
  | top => exact .child .top hc
  | child h hd ih => exact .child ih hd

theorem exists_below_of_mem_parts (hn : n ∈ t.parts) : ∃ above, t.Below above n := by
  induction t using children_induction with
  | step form ih =>
    rw [parts_mk] at hn
    rcases List.mem_cons.mp hn with rfl | hn
    · exact ⟨[], .top⟩
    · obtain ⟨c, hc, hn⟩ := List.mem_flatMap.mp hn
      obtain ⟨above, h⟩ := ih c hc hn
      exact ⟨above ++ [⟨form⟩], h.under hc⟩

/-- **A tree encloses its ORs exactly if it is none and only what may hold ORs does so.** -/
theorem enclosesOrs_iff : t.EnclosesOrs ↔ t.form.isOr = false ∧ t.HoldsOrs := by
  refine ⟨fun h => ⟨?_, fun n hn c hc hor => ?_⟩, fun ⟨htop, h⟩ above n hbelow => ?_⟩
  · by_contra hor
    obtain ⟨ors, group, rest, hsplit, -⟩ := h [] t .top (eq_true_of_ne_false hor)
    cases ors <;> cases hsplit
  · obtain ⟨above, hbelow⟩ := exists_below_of_mem_parts hn
    obtain ⟨ors, group, rest, hsplit, hors, hgroup⟩ := h (n :: above) c (.child hbelow hc) hor
    refine Bool.or_eq_true_iff.mpr ?_
    cases ors with
    | nil =>
      obtain ⟨rfl, -⟩ := List.cons.inj hsplit
      exact .inl hgroup
    | cons o ors =>
      obtain ⟨rfl, -⟩ := List.cons.inj hsplit
      exact .inr (hors n List.mem_cons_self)
  · -- on the way down to an OR, all that is passed since the last parentheses is an OR itself
    induction hbelow with
    | top =>
      intro hor
      rw [htop] at hor
      cases hor
    | child hbelow hc ih =>
      rename_i above n c
      intro hor
      rcases Bool.or_eq_true_iff.mp (h n hbelow.mem_parts c hc hor) with hgroup | hn
      · exact ⟨[], n, above, rfl, fun o ho => (List.not_mem_nil ho).elim, hgroup⟩
      · obtain ⟨ors, group, rest, rfl, hors, hgroup⟩ := ih hn
        exact ⟨n :: ors, group, rest, rfl, List.forall_mem_cons.mpr ⟨hn, hors⟩, hgroup⟩

theorem holdsOrs_mk : (Node.mk form).HoldsOrs
    ↔ ∀ c ∈ form.children, c.HoldsOrs ∧ (c.form.isOr = true → form.holdsOrs = true) := by
  unfold HoldsOrs
  rw [parts_mk]
  simp only [List.forall_mem_cons, List.forall_mem_flatMap]
  exact ⟨fun ⟨htop, hbelow⟩ c hc => ⟨hbelow c hc, htop c hc⟩,
    fun h => ⟨fun c hc => (h c hc).2, fun c hc => (h c hc).1⟩⟩

/-- A tree without ORs encloses them. -/
theorem enclosesOrs_of_forall (h : ∀ n ∈ t.parts, n.form.isOr = false) : t.EnclosesOrs := by
  intro above n hbelow hor
  rw [h n hbelow.mem_parts] at hor
  cases hor

/-- A form that is no OR encloses the ORs of its children if these do. -/
theorem enclosesOrs_of_children (hform : form.isOr = false)
    (h : ∀ c ∈ form.children, c.EnclosesOrs) : (Node.mk form).EnclosesOrs := by
  refine enclosesOrs_iff.mpr ⟨hform, holdsOrs_mk.mpr fun c hc => ?_⟩
  obtain ⟨hor, hholds⟩ := enclosesOrs_iff.mp (h c hc)
  refine ⟨hholds, fun hc' => ?_⟩
  rw [hor] at hc'
  cases hc'

/-- Parentheses enclose what is in them. -/
theorem enclosesOrs_grouping (h : n.HoldsOrs) : (Node.grouping n).EnclosesOrs :=
  enclosesOrs_iff.mpr ⟨rfl, holdsOrs_mk.mpr (List.forall_mem_singleton.mpr ⟨h, fun _ => rfl⟩)⟩

theorem HoldsOrs.of_mem_parts (h : t.HoldsOrs) (hn : n ∈ t.parts) : n.HoldsOrs :=
  fun m hm => h m (parts_subset hn hm)

theorem EnclosesOrs.holdsOrs (h : t.EnclosesOrs) : t.HoldsOrs := (enclosesOrs_iff.mp h).2

/-- The children of a form that may not hold ORs enclose theirs, too. -/
theorem EnclosesOrs.children (h : (Node.mk form).EnclosesOrs) (hform : form.holdsOrs = false) :
    ∀ c ∈ form.children, c.EnclosesOrs := by
  intro c hc
  obtain ⟨hholds, hor⟩ := holdsOrs_mk.mp h.holdsOrs c hc
  refine enclosesOrs_iff.mpr ⟨?_, hholds⟩
  by_contra hc'
  rw [hor (eq_true_of_ne_false hc')] at hform
  cases hform

/-! ## 3. Calls and sequences of calls -/

/-- Alternatives of trees that enclose their ORs are one OR after the other, in parentheses. -/
theorem enclosesOrs_anyOf {items : List Node} (h : anyOf items = some n)
    (hitems : Each EnclosesOrs items) : n.EnclosesOrs := by
  cases items with
  | nil => cases h
  | cons first rest =>
    obtain rfl := Option.some.inj h
    obtain ⟨hfirst, hrest⟩ := each_cons.mp hitems
    have hor : ∀ l : Node, l.HoldsOrs → ∀ r ∈ rest, (Node.mk (.or l r)).HoldsOrs := by
      intro l hl r hr
      refine holdsOrs_mk.mpr fun c hc => ⟨?_, fun _ => rfl⟩
      rcases List.mem_pair.mp hc with rfl | rfl
      · exact hl
      · exact (hrest _ hr).holdsOrs
    exact enclosesOrs_grouping (List.foldlRecOn rest _ hfirst.holdsOrs hor)

/-- **Calls keep ORs enclosed**, in each way in which they put nodes together. -/
theorem lasting_enclosesOrs : Lasting EnclosesOrs where
  layer hor _ hchildren := enclosesOrs_of_children hor hchildren
  cast h := by
    obtain ⟨_, _, h⟩ := exists_of_bind_eq_ok h
    obtain rfl := Except.ok.inj h
    exact enclosesOrs_of_children rfl each_nil
  call h hl := by
    obtain ⟨_, _, h⟩ := exists_of_bind_eq_ok h
    obtain rfl := Except.ok.inj h
    exact enclosesOrs_of_children rfl hl
  calledAgain h := enclosesOrs_of_children rfl (h.children rfl)
  anyOf := enclosesOrs_anyOf
  under hform h := h.children hform

/-- What any number of calls builds from nodes without OR. -/
inductive Built : Node → Prop where
  | start {n : Node} (h : ∀ m ∈ n.parts, m.form.isOr = false) : Built n
  | call {given : List Node} {n : Node} (h : Makes given n) (hgiven : ∀ m ∈ given, Built m) :
    Built n

/-- **What is built from nodes without ORs encloses its ORs.** -/
theorem Built.enclosesOrs (h : Built n) : n.EnclosesOrs := by
  induction h with
  | start h => exact enclosesOrs_of_forall h
  | call h _ ih =>
    refine lasting_enclosesOrs.makes h ih fun form hn hor hchildren => ?_
    rw [hn]
    exact enclosesOrs_of_children hor hchildren

end Node
end SqlTree
