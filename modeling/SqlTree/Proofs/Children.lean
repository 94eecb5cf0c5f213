import Mathlib.Data.List.Basic
import SqlTree.Node

/-!
# The children of a form

A form stores its children in lists, options and records. This file gives the children as one
list, so that a proof about a tree never looks at how a form stores them:

* `Form.children` -- every child of a form, with one function of the same name for each clause;
* `Form.map_congr`, `Form.map_map` -- functions that agree on the children change a form alike,
  and two functions after each other are one;
* `Form.exists_map_val` -- children that all have a property may be stored together with it;
* `Node.children_induction`, `Node.stored_induction` -- what follows for a node from its children
  holds of every node.
-/

namespace SqlTree

variable {ν μ κ : Type}

/-! ## 1. Children of clauses -/

def Bound.children (b : Bound ν) : List ν := b.offset?.toList

def Frame.children (frame : Frame ν) : List ν :=
  frame.start.children ++ frame.stop.toList.flatMap Bound.children

def Window.children (w : Window ν) : List ν :=
  w.partition ++ w.order ++ w.frame.toList.flatMap Frame.children

/-- A window that is only named is a child of someone else. -/
def WindowRef.children : WindowRef ν → List ν
  | .inline w => w.children
  | .named _ => []

def Branch.children (b : Branch ν) : List ν := [b.condition, b.result]

def Assignment.children (a : Assignment ν) : List ν := [a.target, a.value]

def Join.children (j : Join ν) : List ν := j.right :: j.predicate.toList

def ConflictAction.children : ConflictAction ν → List ν
  | .doNothing => []
  | .doUpdate assignments wheres => assignments.flatMap Assignment.children ++ wheres

def OnConflict.children (c : OnConflict ν) : List ν := c.columns ++ c.action.children

def SetOperation.children (s : SetOperation ν) : List ν :=
  s.left :: s.right :: (s.orders ++ s.limit.toList ++ s.offset.toList)

/-- The named queries come first, and what the rows are distinct on before the projections. -/
def Select.children (s : Select ν) : List ν :=
  s.ctes.map (·.query) ++ s.distinctOn ++ s.projections ++ s.source.toList
    ++ s.joins.flatMap Join.children ++ s.wheres ++ s.groups ++ s.havings
    ++ s.windows.flatMap Window.children ++ s.orders ++ s.limit.toList ++ s.offset.toList

def Insert.children (s : Insert ν) : List ν :=
  s.target :: (s.columns ++ s.rows.flatten ++ s.select.toList
    ++ s.onConflict.toList.flatMap OnConflict.children ++ s.returning)

def Update.children (s : Update ν) : List ν :=
  s.target :: (s.assignments.flatMap Assignment.children ++ s.wheres ++ s.returning)

def Delete.children (s : Delete ν) : List ν := s.target :: (s.wheres ++ s.returning)

/-- Every child of a form. -/
def Form.children : Form ν → List ν
  | .table _ => []
  | .tableAlias relation _ => [relation]
  | .column relation _ _ => [relation]
  | .star relation => relation.toList
  | .literal _ => []
  | .bind _ => []
  | .cast _ _ => []
  | .raw _ _ => []
  | .comparison left _ right => [left, right]
  | .nullTest operand _ => [operand]
  | .and left right => [left, right]
  | .or left right => [left, right]
  | .not operand => [operand]
  | .grouping operand => [operand]
  | .membership operand values _ => operand :: values
  | .between operand low high _ => [operand, low, high]
  | .existence query _ => [query]
  | .arithmetic left _ right => [left, right]
  | .unary _ operand => [operand]
  | .call _ arguments _ => arguments
  | .aggregate _ argument _ filter => argument.toList ++ filter.toList
  | .extract _ operand => [operand]
  | .ordering operand _ _ => [operand]
  | .window definition => definition.children
  | .windowed operand w => operand :: w.children
  | .labelled operand _ => [operand]
  | .choice operand branches otherwise =>
    operand.toList ++ branches.flatMap Branch.children ++ otherwise.toList
  | .groupingSet _ columns sets => columns ++ sets.flatten
  | .setOperation s => s.children
  | .cte c => [c.query]
  | .assignment a => a.children
  | .join j => j.children
  | .select s => s.children
  | .insert s => s.children
  | .update s => s.children
  | .delete s => s.children

/-! ## 2. Two functions after each other -/

section MapMap

variable (f : ν → μ) (g : μ → κ)

@[simp] theorem Bound.map_map (b : Bound ν) : (b.map f).map g = b.map fun n => g (f n) := by
  cases b <;> rfl

@[simp] theorem Frame.map_map (frame : Frame ν) :
    (frame.map f).map g = frame.map fun n => g (f n) := by
  simp [map, Function.comp_def]

@[simp] theorem Window.map_map (w : Window ν) : (w.map f).map g = w.map fun n => g (f n) := by
  simp [map, Function.comp_def]

@[simp] theorem WindowRef.map_map (w : WindowRef ν) :
    (w.map f).map g = w.map fun n => g (f n) := by
  cases w <;> simp [map]

@[simp] theorem Branch.map_map (b : Branch ν) : (b.map f).map g = b.map fun n => g (f n) := rfl

@[simp] theorem Assignment.map_map (a : Assignment ν) :
    (a.map f).map g = a.map fun n => g (f n) := rfl

@[simp] theorem Join.map_map (j : Join ν) : (j.map f).map g = j.map fun n => g (f n) := by
  simp [map, Function.comp_def]

@[simp] theorem Cte.map_map (c : Cte ν) : (c.map f).map g = c.map fun n => g (f n) := rfl

@[simp] theorem OnConflict.map_map (c : OnConflict ν) :
    (c.map f).map g = c.map fun n => g (f n) := by
  obtain ⟨columns, action⟩ := c
  cases action <;> simp [map, ConflictAction.map, Function.comp_def]

@[simp] theorem SetOperation.map_map (s : SetOperation ν) :
    (s.map f).map g = s.map fun n => g (f n) := by
  simp [map, Function.comp_def]

@[simp] theorem Select.map_map (s : Select ν) : (s.map f).map g = s.map fun n => g (f n) := by
  simp [map, Function.comp_def]

@[simp] theorem Insert.map_map (s : Insert ν) : (s.map f).map g = s.map fun n => g (f n) := by
  simp [map, Function.comp_def]

@[simp] theorem Update.map_map (s : Update ν) : (s.map f).map g = s.map fun n => g (f n) := by
  simp [map, Function.comp_def]

@[simp] theorem Delete.map_map (s : Delete ν) : (s.map f).map g = s.map fun n => g (f n) := by
  simp [map, Function.comp_def]

/-- **A form changed twice is changed once by both functions.** -/
@[simp] theorem Form.map_map (form : Form ν) : (form.map f).map g = form.map fun n => g (f n) := by
  cases form <;> simp [map, Function.comp_def]

end MapMap
/-! ## 3. The children of a changed form -/

section ChildrenMap

variable (f : ν → μ)

theorem Bound.offset?_map (b : Bound ν) : (b.map f).offset? = b.offset?.map f := by
  cases b <;> rfl

theorem Bound.word_map (b : Bound ν) : (b.map f).word = b.word := by cases b <;> rfl

@[simp] theorem Bound.children_map (b : Bound ν) : (b.map f).children = b.children.map f := by
  cases b <;> rfl

@[simp] theorem Frame.children_map (frame : Frame ν) :
    (frame.map f).children = frame.children.map f := by
  obtain ⟨unit, start, stop⟩ := frame
  cases stop <;> simp [children, map]

@[simp] theorem Window.children_map (w : Window ν) : (w.map f).children = w.children.map f := by
  obtain ⟨name, partition, order, frame⟩ := w
  cases frame <;> simp [children, map]

@[simp] theorem WindowRef.children_map (w : WindowRef ν) :
    (w.map f).children = w.children.map f := by
  cases w with
  | inline w => exact w.children_map f
  | named name => rfl

@[simp] theorem Branch.children_map (b : Branch ν) : (b.map f).children = b.children.map f := rfl

@[simp] theorem Assignment.children_map (a : Assignment ν) :
    (a.map f).children = a.children.map f := rfl

@[simp] theorem Join.children_map (j : Join ν) : (j.map f).children = j.children.map f := by
  simp [children, map, Option.toList_map]

@[simp] theorem OnConflict.children_map (c : OnConflict ν) :
    (c.map f).children = c.children.map f := by
  obtain ⟨columns, action⟩ := c
  cases action <;>
    simp [children, map, ConflictAction.children, ConflictAction.map, List.map_flatMap,
      List.flatMap_map]

@[simp] theorem SetOperation.children_map (s : SetOperation ν) :
    (s.map f).children = s.children.map f := by
  simp [children, map, Option.toList_map]

@[simp] theorem Select.children_map (s : Select ν) : (s.map f).children = s.children.map f := by
  simp [children, map, Option.toList_map, List.map_flatMap, List.flatMap_map, Cte.map,
    Function.comp_def]

@[simp] theorem Insert.children_map (s : Insert ν) : (s.map f).children = s.children.map f := by
  obtain ⟨target, columns, rows, select, returning, onConflict⟩ := s
  cases select <;> cases onConflict <;> simp [children, map]

@[simp] theorem Update.children_map (s : Update ν) : (s.map f).children = s.children.map f := by
  simp [children, map, List.map_flatMap, List.flatMap_map]

@[simp] theorem Delete.children_map (s : Delete ν) : (s.map f).children = s.children.map f := by
  simp [children, map]

/-- **The children of a changed form are its changed children.** -/
@[simp] theorem Form.children_map (form : Form ν) :
    (form.map f).children = form.children.map f := by
  cases form with
  | star relation => cases relation <;> rfl
  | aggregate func argument distinct filter => cases argument <;> cases filter <;> rfl
  | choice operand branches otherwise =>
    simp [children, map, Option.toList_map, List.map_flatMap, List.flatMap_map]
  | _ => simp [children, map, Cte.map]

end ChildrenMap

/-! ## 4. Functions that agree on the children -/

section Congruence

variable {f g : ν → μ}

theorem option_map_congr {o : Option ν} (h : ∀ n ∈ o.toList, f n = g n) : o.map f = o.map g := by
  cases o with
  | none => rfl
  | some n => exact congrArg some (h n List.mem_cons_self)

theorem Bound.map_congr {b : Bound ν} (h : ∀ n ∈ b.children, f n = g n) : b.map f = b.map g := by
  cases b with
  | preceding n => exact congrArg Bound.preceding (h n List.mem_cons_self)
  | following n => exact congrArg Bound.following (h n List.mem_cons_self)
  | _ => rfl

theorem Frame.map_congr {frame : Frame ν} (h : ∀ n ∈ frame.children, f n = g n) :
    frame.map f = frame.map g := by
  obtain ⟨unit, start, stop⟩ := frame
  have hstart : start.map f = start.map g :=
    Bound.map_congr fun n hn => h n (List.mem_append_left _ hn)
  have hstop : stop.map (Bound.map f) = stop.map (Bound.map g) :=
    option_map_congr fun b hb => Bound.map_congr fun n hn =>
      h n (List.mem_append_right _ (List.mem_flatMap.mpr ⟨b, hb, hn⟩))
  simp only [map, hstart, hstop]

theorem Window.map_congr {w : Window ν} (h : ∀ n ∈ w.children, f n = g n) :
    w.map f = w.map g := by
  simp only [children, List.mem_append, List.mem_flatMap] at h
  have hframe : w.frame.map (Frame.map f) = w.frame.map (Frame.map g) :=
    option_map_congr fun frame hf => Frame.map_congr fun n hn => h n (.inr ⟨frame, hf, hn⟩)
  simp only [map, hframe]
  congr 1
  · exact List.map_congr_left fun n hn => h n (.inl (.inl hn))
  · exact List.map_congr_left fun n hn => h n (.inl (.inr hn))

theorem WindowRef.map_congr {w : WindowRef ν} (h : ∀ n ∈ w.children, f n = g n) :
    w.map f = w.map g := by
  cases w with
  | inline w => exact congrArg WindowRef.inline (Window.map_congr h)
  | named name => rfl

theorem Branch.map_congr {b : Branch ν} (h : ∀ n ∈ b.children, f n = g n) :
    b.map f = b.map g := by
  simp_all [children, map]

theorem Assignment.map_congr {a : Assignment ν} (h : ∀ n ∈ a.children, f n = g n) :
    a.map f = a.map g := by
  simp_all [children, map]

theorem Join.map_congr {j : Join ν} (h : ∀ n ∈ j.children, f n = g n) : j.map f = j.map g := by
  have hp : j.predicate.map f = j.predicate.map g :=
    option_map_congr fun n hn => h n (List.mem_cons_of_mem _ hn)
  simp only [map, hp, h j.right List.mem_cons_self]

theorem OnConflict.map_congr {c : OnConflict ν} (h : ∀ n ∈ c.children, f n = g n) :
    c.map f = c.map g := by
  obtain ⟨columns, action⟩ := c
  have hcols : columns.map f = columns.map g :=
    List.map_congr_left fun n hn => h n (List.mem_append_left _ hn)
  have haction : action.map f = action.map g := by
    have h' : ∀ n ∈ action.children, f n = g n := fun n hn => h n (List.mem_append_right _ hn)
    cases action with
    | doNothing => rfl
    | doUpdate assignments wheres =>
      simp only [ConflictAction.children, List.mem_append, List.mem_flatMap] at h'
      simp only [ConflictAction.map]
      congr 1
      · exact List.map_congr_left fun a ha =>
          Assignment.map_congr fun n hn => h' n (.inl ⟨a, ha, hn⟩)
      · exact List.map_congr_left fun n hn => h' n (.inr hn)
  simp only [map, hcols, haction]

theorem SetOperation.map_congr {s : SetOperation ν} (h : ∀ n ∈ s.children, f n = g n) :
    s.map f = s.map g := by
  simp only [children, List.mem_cons, List.mem_append] at h
  simp only [map]
  congr 1
  · exact h _ (.inl rfl)
  · exact h _ (.inr (.inl rfl))
  · exact List.map_congr_left fun n hn => h n (.inr (.inr (.inl (.inl hn))))
  · exact option_map_congr fun n hn => h n (.inr (.inr (.inl (.inr hn))))
  · exact option_map_congr fun n hn => h n (.inr (.inr (.inr hn)))

theorem Select.map_congr {s : Select ν} (h : ∀ n ∈ s.children, f n = g n) :
    s.map f = s.map g := by
  simp only [children, List.forall_mem_append, List.forall_mem_flatMap, List.forall_mem_map] at h
  obtain ⟨⟨⟨⟨⟨⟨⟨⟨⟨⟨⟨ctes, distinctOn⟩, projections⟩, source⟩, joins⟩, wheres⟩, groups⟩, havings⟩,
    windows⟩, orders⟩, limit⟩, offset⟩ := h
  simp only [map]
  congr 1
  · exact option_map_congr source
  · exact List.map_congr_left projections
  · exact List.map_congr_left wheres
  · exact List.map_congr_left fun j hj => Join.map_congr (joins j hj)
  · exact List.map_congr_left groups
  · exact List.map_congr_left havings
  · exact List.map_congr_left fun w hw => Window.map_congr (windows w hw)
  · exact List.map_congr_left orders
  · exact option_map_congr limit
  · exact option_map_congr offset
  · exact List.map_congr_left distinctOn
  · exact List.map_congr_left fun c hc => by simp only [Cte.map, ctes c hc]

theorem Insert.map_congr {s : Insert ν} (h : ∀ n ∈ s.children, f n = g n) :
    s.map f = s.map g := by
  simp only [children, List.forall_mem_cons, List.forall_mem_append, List.forall_mem_flatMap,
    List.forall_mem_flatten] at h
  obtain ⟨target, ⟨⟨⟨columns, rows⟩, select⟩, onConflict⟩, returning⟩ := h
  simp only [map]
  congr 1
  · exact List.map_congr_left columns
  · exact List.map_congr_left fun row hrow => List.map_congr_left (rows row hrow)
  · exact option_map_congr select
  · exact List.map_congr_left returning
  · exact option_map_congr fun c hc => OnConflict.map_congr (onConflict c hc)

theorem Update.map_congr {s : Update ν} (h : ∀ n ∈ s.children, f n = g n) :
    s.map f = s.map g := by
  simp only [children, List.forall_mem_cons, List.forall_mem_append, List.forall_mem_flatMap] at h
  obtain ⟨target, ⟨assignments, wheres⟩, returning⟩ := h
  simp only [map]
  congr 1
  · exact List.map_congr_left fun a ha => Assignment.map_congr (assignments a ha)
  · exact List.map_congr_left wheres
  · exact List.map_congr_left returning

theorem Delete.map_congr {s : Delete ν} (h : ∀ n ∈ s.children, f n = g n) :
    s.map f = s.map g := by
  simp only [children, List.forall_mem_cons, List.forall_mem_append] at h
  obtain ⟨target, wheres, returning⟩ := h
  simp only [map]
  congr 1
  · exact List.map_congr_left wheres
  · exact List.map_congr_left returning

/-- **Functions that agree on the children of a form change it alike.** -/
theorem Form.map_congr {form : Form ν} (h : ∀ n ∈ form.children, f n = g n) :
    form.map f = form.map g := by
  cases form with
  | star relation => exact congrArg Form.star (option_map_congr h)
  | membership operand values negated =>
    simp only [children, List.forall_mem_cons] at h
    simp only [map, h.1, List.map_congr_left h.2]
  | call name arguments distinct =>
    have ha : arguments.map f = arguments.map g := List.map_congr_left h
    simp only [map, ha]
  | aggregate func argument distinct filter =>
    simp only [children, List.forall_mem_append] at h
    simp only [map, option_map_congr h.1, option_map_congr h.2]
  | window w => exact congrArg Form.window (Window.map_congr h)
  | windowed operand w =>
    simp only [children, List.forall_mem_cons] at h
    simp only [map, h.1, WindowRef.map_congr h.2]
  | choice operand branches otherwise =>
    simp only [children, List.forall_mem_append, List.forall_mem_flatMap] at h
    have hb : branches.map (Branch.map f) = branches.map (Branch.map g) :=
      List.map_congr_left fun b hb => Branch.map_congr (h.1.2 b hb)
    simp only [map, option_map_congr h.1.1, hb, option_map_congr h.2]
  | groupingSet kind columns sets =>
    simp only [children, List.forall_mem_append, List.forall_mem_flatten] at h
    have hs : sets.map (List.map f) = sets.map (List.map g) :=
      List.map_congr_left fun set hset => List.map_congr_left (h.2 set hset)
    simp only [map, List.map_congr_left h.1, hs]
  | setOperation s => exact congrArg Form.setOperation (SetOperation.map_congr h)
  | cte c => simp_all [children, map, Cte.map]
  | assignment a => exact congrArg Form.assignment (Assignment.map_congr h)
  | join j => exact congrArg Form.join (Join.map_congr h)
  | select s => exact congrArg Form.select (Select.map_congr h)
  | insert s => exact congrArg Form.insert (Insert.map_congr h)
  | update s => exact congrArg Form.update (Update.map_congr h)
  | delete s => exact congrArg Form.delete (Delete.map_congr h)
  | _ => simp_all [children, map]

end Congruence

/-! ## 5. Children stored with what is known of them -/

section MapId

@[simp] theorem Bound.map_id : Bound.map (fun n : ν => n) = id := by
  funext b
  cases b <;> rfl

@[simp] theorem Frame.map_id : Frame.map (fun n : ν => n) = id := by
  funext frame
  simp [map]

@[simp] theorem Window.map_id : Window.map (fun n : ν => n) = id := by
  funext w
  simp [map]

@[simp] theorem WindowRef.map_id (w : WindowRef ν) : w.map (fun n => n) = w := by
  cases w <;> simp [map]

@[simp] theorem Branch.map_id : Branch.map (fun n : ν => n) = id := rfl

@[simp] theorem Assignment.map_id : Assignment.map (fun n : ν => n) = id := rfl

@[simp] theorem Join.map_id : Join.map (fun n : ν => n) = id := by
  funext j
  simp [map]

@[simp] theorem Cte.map_id : Cte.map (fun n : ν => n) = id := rfl

@[simp] theorem OnConflict.map_id : OnConflict.map (fun n : ν => n) = id := by
  funext ⟨columns, action⟩
  cases action <;> simp [map, ConflictAction.map]

@[simp] theorem Form.map_id (form : Form ν) : form.map (fun n => n) = form := by
  cases form with
  | setOperation s => simp [map, SetOperation.map]
  | select s => simp [map, Select.map]
  | insert s => simp [map, Insert.map]
  | update s => simp [map, Update.map]
  | delete s => simp [map, Delete.map]
  | _ => simp [map]

/-- Children that all have a property may be stored together with it. -/
theorem Form.exists_map_val {p : ν → Prop} (d : {n // p n}) {form : Form ν}
    (h : ∀ c ∈ form.children, p c) : ∃ form' : Form {n // p n}, form'.map Subtype.val = form := by
  classical
  refine ⟨form.map fun n => if hn : p n then ⟨n, hn⟩ else d, ?_⟩
  rw [map_map]
  refine (map_congr fun c hc => ?_).trans form.map_id
  rw [dif_pos (h c hc)]

end MapId

namespace Node

/-! ## 6. All nodes of a tree -/

/-- The nodes below a node. -/
def partsBelow : Node → List Node :=
  fold fun form => form.children.flatMap fun c => c.1 :: c.2

/-- A node and all nodes below it, each parent before its children. -/
def parts (n : Node) : List Node := n :: n.partsBelow

theorem parts_mk (form : Form Node) :
    (Node.mk form).parts = ⟨form⟩ :: form.children.flatMap parts := by
  unfold parts partsBelow
  rw [fold_mk, Form.children_map, List.flatMap_map]

theorem parts_length_lt {form : Form Node} {c : Node} (hc : c ∈ form.children) :
    c.parts.length < (Node.mk form).parts.length := by
  rw [parts_mk, List.length_cons]
  have hs : c.parts.Sublist (form.children.flatMap parts) :=
    List.sublist_flatten_of_mem (List.mem_map_of_mem hc)
  exact Nat.lt_succ_of_le hs.length_le

/-- **Induction over a tree**: a property that a node has once its children have it holds of every
    node. -/
theorem children_induction {p : Node → Prop}
    (step : ∀ form : Form Node, (∀ c ∈ form.children, p c) → p ⟨form⟩) (n : Node) : p n := by
  induction hk : n.parts.length using Nat.strongRecOn generalizing n with
  | ind k ih =>
    obtain ⟨form⟩ := n
    refine step form fun c hc => ih c.parts.length ?_ c rfl
    rw [← hk]
    exact parts_length_lt hc

/-- **Induction over a tree**, the children of a form being stored with what is known of them. -/
theorem stored_induction {p : Node → Prop}
    (step : ∀ form : Form { n // p n }, p ⟨form.map Subtype.val⟩) (n : Node) : p n := by
  induction n using children_induction with
  | step form ih =>
    obtain ⟨form, rfl⟩ := Form.exists_map_val ⟨_, step (.table "")⟩ ih
    exact step form

/-- What is part of a part is part of the tree. -/
theorem parts_subset {n t : Node} (hn : n ∈ t.parts) : n.parts ⊆ t.parts := by
  induction t using children_induction with
  | step form ih =>
    intro m hm
    rw [parts_mk] at hn ⊢
    rcases List.mem_cons.mp hn with rfl | hn
    · rwa [parts_mk] at hm
    · obtain ⟨c, hc, hn⟩ := List.mem_flatMap.mp hn
      exact List.mem_cons_of_mem _ (List.mem_flatMap.mpr ⟨c, hc, ih c hc hn hm⟩)

end Node
end SqlTree
