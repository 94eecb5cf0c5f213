import SqlTree.Node.Relation
import SqlTree.Proofs.Visited

/-!
# Where a query is written without parentheses

A text puts a query in parentheses in two ways. In some places it looks at the child and adds them
(`Render.operand`); in others they belong to the construct. A third kind of place writes whatever
stands there as it is. This file says which child of a form stands in which kind of place:

* `Form.place` -- changes the children for which a construct answers itself by one function and
  all others by another;
* `Form.bare` -- the children that are written as they are;
* `Node.bracketed` -- a tree with explicit parentheses around every query that stands where an
  expression may stand;
* `Node.bareQueries` -- the queries of a tree that are written without any.
-/

namespace SqlTree

variable {ν μ κ : Type}

/-! ## 1. Constructs that answer for a child -/

/-- Both queries stand in the parentheses of the operation. -/
def SetOperation.place (expr own : ν → μ) (s : SetOperation ν) : SetOperation μ :=
  { s.map expr with left := own s.left, right := own s.right }

def Select.place (expr own : ν → μ) (s : Select ν) : Select μ :=
  { s.map expr with ctes := s.ctes.map (Cte.map own) }

/-- The query of an INSERT takes the place of its rows, which needs no parentheses. -/
def Insert.place (expr own : ν → μ) (s : Insert ν) : Insert μ :=
  { s.map expr with select := s.select.map own }

/-- `own` applied to the children for which the construct itself writes parentheses, or needs
    none, and `expr` to those that stand where an expression may stand. -/
def Form.place (expr own : ν → μ) : Form ν → Form μ
  | .not operand => .not (own operand)
  | .grouping operand => .grouping (own operand)
  | .existence query negated => .existence (own query) negated
  | .membership operand [single] negated => .membership (expr operand) [own single] negated
  | .setOperation s => .setOperation (s.place expr own)
  | .cte c => .cte (c.map own)
  | .select s => .select (s.place expr own)
  | .insert s => .insert (s.place expr own)
  | form => form.map expr

/-! ## 2. Children written as they are -/

/-- A verbatim join is its right side; the right side of any other is an operand. -/
def Join.bare (j : Join ν) : List ν :=
  match j.kind with
  | .verbatim => [j.right]
  | _ => j.predicate.toList

def ConflictAction.bare : ConflictAction ν → List ν
  | .doNothing => []
  | .doUpdate assignments wheres => assignments.map (·.target) ++ wheres

def OnConflict.bare (c : OnConflict ν) : List ν := c.columns ++ c.action.bare

def SetOperation.bare (s : SetOperation ν) : List ν :=
  s.orders ++ s.limit.toList ++ s.offset.toList

/-- All of a SELECT but its source, its named queries and the relations it joins. -/
def Select.bare (s : Select ν) : List ν :=
  s.distinctOn ++ s.projections ++ s.joins.flatMap Join.bare ++ s.wheres ++ s.groups ++ s.havings
    ++ s.windows.flatMap Window.children ++ s.orders ++ s.limit.toList ++ s.offset.toList

def Insert.bare (s : Insert ν) : List ν :=
  s.target :: (s.columns ++ s.onConflict.toList.flatMap OnConflict.bare ++ s.returning)

def Update.bare (s : Update ν) : List ν :=
  s.target :: (s.assignments.map (·.target) ++ s.wheres ++ s.returning)

/-- The children of a form that are written where an expression may stand, as they are. -/
def Form.bare : Form ν → List ν
  | .and left right => [left, right]
  | .or left right => [left, right]
  | .call _ arguments _ => arguments
  | .aggregate _ argument _ filter => argument.toList ++ filter.toList
  | .extract _ operand => [operand]
  | .window definition => definition.children
  | .windowed operand w => operand :: w.children
  | .groupingSet .groupingSets _ sets => sets.flatten
  | .groupingSet _ columns _ => columns
  | .setOperation s => s.bare
  | .assignment a => [a.target]
  | .join j => j.bare
  | .select s => s.bare
  | .insert s => s.bare
  | .update s => s.bare
  | .delete s => s.children
  | _ => []

/-! ## 3. Functions applied to the children -/

section Place

variable (f : κ → ν) (expr own : ν → μ) (g : μ → κ)

/-- The children may be changed before they are placed. -/
theorem Form.place_map (form : Form κ) : (form.map f).place expr own
    = form.place (fun n => expr (f n)) (fun n => own (f n)) := by
  cases form with
  | membership operand values negated =>
    rcases values with _ | ⟨single, _ | ⟨next, rest⟩⟩ <;> simp [place, map]
  | setOperation s => simp [place, map, SetOperation.place, SetOperation.map, Function.comp_def]
  | select s => simp [place, map, Select.place, Select.map, Function.comp_def]
  | insert s => simp [place, map, Insert.place, Insert.map, Function.comp_def]
  | _ => simp [place, map, Function.comp_def]

/-- Or after it. -/
theorem Form.map_place (form : Form ν) : (form.place expr own).map g
    = form.place (fun n => g (expr n)) (fun n => g (own n)) := by
  cases form with
  | membership operand values negated =>
    rcases values with _ | ⟨single, _ | ⟨next, rest⟩⟩ <;> simp [place, map]
  | setOperation s => simp [place, map, SetOperation.place, SetOperation.map, Function.comp_def]
  | select s => simp [place, map, Select.place, Select.map, Function.comp_def]
  | insert s => simp [place, map, Insert.place, Insert.map, Function.comp_def]
  | _ => simp [place, map, Function.comp_def]

end Place

section Map

variable (f : ν → μ)

@[simp] theorem Join.bare_map (j : Join ν) : (j.map f).bare = j.bare.map f := by
  obtain ⟨kind, right, predicate, lateral⟩ := j
  cases kind <;> cases predicate <;> rfl

@[simp] theorem OnConflict.bare_map (c : OnConflict ν) : (c.map f).bare = c.bare.map f := by
  obtain ⟨columns, action⟩ := c
  cases action <;>
    simp [bare, map, ConflictAction.bare, ConflictAction.map, Assignment.map, Function.comp_def]

/-- The bare children of a form whose children were changed are the changed ones. -/
@[simp] theorem Form.bare_map (form : Form ν) : (form.map f).bare = form.bare.map f := by
  cases form with
  | groupingSet kind columns sets => cases kind <;> simp [bare, map]
  | setOperation s => simp [bare, map, SetOperation.bare, SetOperation.map, Option.toList_map]
  | select s =>
    simp [bare, map, Select.bare, Select.map, Option.toList_map, List.map_flatMap,
      List.flatMap_map]
  | insert s =>
    simp [bare, map, Insert.bare, Insert.map, Option.toList_map, List.map_flatMap,
      List.flatMap_map]
  | update s => simp [bare, map, Update.bare, Update.map, Assignment.map, Function.comp_def]
  | aggregate func argument distinct filter => simp [bare, map, Option.toList_map]
  | _ => simp [bare, map, Assignment.map]

end Map

/-! ## 4. Trees -/

namespace Node

/-- A tree with explicit parentheses around every query below it that stands where an expression
    may stand. -/
def bracketed : Node → Node :=
  fold fun form => ⟨form.place (fun c => if c.1.isQuery then ⟨.grouping c.2⟩ else c.2) (·.2)⟩

/-- The same for a tree that stands in such a place itself. -/
def inBrackets (n : Node) : Node := if n.isQuery then ⟨.grouping n.bracketed⟩ else n.bracketed

theorem bracketed_mk (form : Form Node) :
    (Node.mk form).bracketed = ⟨form.place inBrackets bracketed⟩ := by
  unfold bracketed
  rw [fold_mk, Form.place_map]
  rfl

/-- The queries of a tree that are written where an expression may stand, and as they are. -/
def bareQueries (n : Node) : List Node :=
  n.visited.flatMap fun m => m.form.bare.filter isQuery

theorem bareQueries_mk (form : Form Node) : (Node.mk form).bareQueries
    = form.bare.filter isQuery ++ form.written.flatMap bareQueries := by
  unfold bareQueries
  rw [visited_mk, List.flatMap_cons, List.flatMap_assoc]
  rfl

end Node
end SqlTree
