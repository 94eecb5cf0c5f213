import SqlTree.Proofs.Children

/-!
# The nodes that a text is made of

Not every child of a form reaches its text: the operand of an empty membership, the predicate of
a verbatim join, the rows of an INSERT that has a query, the sets of a cube, the columns of
grouping sets and the relation of a column or star are left out. This file fixes, apart from any
text, which children are written and in which order:

* `Form.written` -- the children of a form that are written, in the order of the text;
* `Node.visited` -- a node and, in the same order, everything written below it;
* `Node.written_induction` -- what follows for a node from its written children holds of every
  node.
-/

namespace SqlTree

variable {ν μ : Type}

/-! ## 1. The children that are written -/

/-- A verbatim join is only its right side. -/
def Join.written (j : Join ν) : List ν :=
  match j.kind with
  | .verbatim => [j.right]
  | _ => j.children

def Select.written (s : Select ν) : List ν :=
  s.ctes.map (·.query) ++ s.distinctOn ++ s.projections ++ s.source.toList
    ++ s.joins.flatMap Join.written ++ s.wheres ++ s.groups ++ s.havings
    ++ s.windows.flatMap Window.children ++ s.orders ++ s.limit.toList ++ s.offset.toList

/-- Where the rows of an INSERT come from. A query leaves the rows that are listed out. -/
def Insert.writtenSource (s : Insert ν) : List ν :=
  match s.select with
  | some query => [query]
  | none => s.rows.flatten

def Insert.written (s : Insert ν) : List ν :=
  s.target :: (s.columns ++ s.writtenSource ++ s.onConflict.toList.flatMap OnConflict.children
    ++ s.returning)

/-- The children of a form that are written, in the order of the text. -/
def Form.written : Form ν → List ν
  | .column _ _ _ => []
  | .star _ => []
  | .membership operand values _ => if values.isEmpty then [] else operand :: values
  | .groupingSet .groupingSets _ sets => sets.flatten
  | .groupingSet _ columns _ => columns
  | .join j => j.written
  | .select s => s.written
  | .insert s => s.written
  | form => form.children

/-! ## 2. A function applied to every child -/

section Map

variable (f : ν → μ)

@[simp] theorem Join.written_map (j : Join ν) : (j.map f).written = j.written.map f := by
  obtain ⟨kind, right, predicate, lateral⟩ := j
  cases kind <;> cases predicate <;> rfl

@[simp] theorem Select.written_map (s : Select ν) : (s.map f).written = s.written.map f := by
  simp [written, map, Option.toList_map, List.map_flatMap, List.flatMap_map, Cte.map,
    Function.comp_def]

@[simp] theorem Insert.written_map (s : Insert ν) : (s.map f).written = s.written.map f := by
  obtain ⟨target, columns, rows, select, returning, onConflict⟩ := s
  cases select <;> cases onConflict <;> simp [written, writtenSource, map]

/-- The written children of a form whose children were changed are the changed ones. -/
@[simp] theorem Form.written_map (form : Form ν) : (form.map f).written = form.written.map f := by
  cases form with
  | column relation name typeName => rfl
  | star relation => rfl
  | membership operand values negated => cases values <;> rfl
  | groupingSet kind columns sets => cases kind <;> simp [written, map]
  | join j => exact j.written_map f
  | select s => exact s.written_map f
  | insert s => exact s.written_map f
  | aggregate func argument distinct filter =>
    exact children_map f (.aggregate func argument distinct filter)
  | choice operand branches otherwise => exact children_map f (.choice operand branches otherwise)
  | _ => simp [written, children, map, Cte.map]

end Map

theorem Join.written_subset (j : Join ν) : j.written ⊆ j.children := by
  intro n hn
  obtain ⟨kind, right, predicate, lateral⟩ := j
  cases kind with
  | verbatim => exact List.mem_cons.mpr (.inl (List.mem_singleton.mp hn))
  | _ => exact hn

theorem Insert.writtenSource_subset (s : Insert ν) :
    s.writtenSource ⊆ s.rows.flatten ++ s.select.toList := by
  intro n hn
  unfold writtenSource at hn
  cases hs : s.select with
  | none =>
    rw [hs] at hn
    exact List.mem_append_left _ hn
  | some query =>
    rw [hs] at hn
    exact List.mem_append_right _ hn

/-- **Only children are written.** -/
theorem Form.written_subset (form : Form ν) : form.written ⊆ form.children := by
  intro n hn
  cases form with
  | column relation name typeName => cases hn
  | star relation => cases hn
  | membership operand values negated =>
    cases values with
    | nil => cases hn
    | cons v rest => exact hn
  | groupingSet kind columns sets =>
    cases kind with
    | groupingSets => exact List.mem_append_right _ hn
    | _ => exact List.mem_append_left _ hn
  | join j => exact j.written_subset hn
  | select s =>
    simp only [written, children, Select.written, Select.children, List.mem_append,
      List.mem_flatMap] at hn ⊢
    grind [Join.written_subset]
  | insert s =>
    have hsource := s.writtenSource_subset (a := n)
    simp only [written, children, Insert.written, Insert.children, List.mem_cons,
      List.mem_append] at hn hsource ⊢
    tauto
  | _ => exact hn

namespace Node

/-! ## 3. Everything that is written of a tree -/

/-- The nodes below a node that are written, in the order of the text. -/
def writtenBelow : Node → List Node :=
  fold fun form => form.written.flatMap fun c => c.1 :: c.2

/-- A node and everything below it that is written, in the order of the text. -/
def visited (n : Node) : List Node := n :: n.writtenBelow

theorem visited_mk (form : Form Node) :
    (Node.mk form).visited = ⟨form⟩ :: form.written.flatMap visited := by
  unfold visited writtenBelow
  rw [fold_mk, Form.written_map, List.flatMap_map]

/-- **Induction over what is written**: a property that a node has once its written children have
    it holds of every node. -/
theorem written_induction {p : Node → Prop}
    (step : ∀ form : Form Node, (∀ c ∈ form.written, p c) → p ⟨form⟩) (n : Node) : p n :=
  children_induction (fun form ih => step form fun c hc => ih c (form.written_subset hc)) n

/-- Only nodes of the tree are visited. -/
theorem visited_subset (n : Node) : n.visited ⊆ n.parts := by
  induction n using children_induction with
  | step form ih =>
    intro m hm
    rw [visited_mk] at hm
    rw [parts_mk]
    rcases List.mem_cons.mp hm with rfl | hm
    · exact List.mem_cons_self
    · obtain ⟨c, hc, hm⟩ := List.mem_flatMap.mp hm
      have hc' := form.written_subset hc
      exact List.mem_cons_of_mem _ (List.mem_flatMap.mpr ⟨c, hc', ih c hc' hm⟩)

/-- What is visited below a visited node is visited in the tree. -/
theorem visited_subset_visited {n t : Node} (hn : n ∈ t.visited) : n.visited ⊆ t.visited := by
  induction t using written_induction with
  | step form ih =>
    intro m hm
    rw [visited_mk] at hn ⊢
    rcases List.mem_cons.mp hn with rfl | hn
    · rwa [visited_mk] at hm
    · obtain ⟨c, hc, hn⟩ := List.mem_flatMap.mp hn
      exact List.mem_cons_of_mem _ (List.mem_flatMap.mpr ⟨c, hc, ih c hc hn hm⟩)

end Node
end SqlTree
