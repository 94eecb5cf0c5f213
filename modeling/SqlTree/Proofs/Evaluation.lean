import SqlTree.Node.Relation
import SqlTree.Proofs.Children
import SqlTree.Proofs.Precedence
import SqlTree.Value.Document

/-!
# The value of an expression

What an expression of a statement is worth in a row, in the three-valued logic of SQL. Null, the
truth values and the connectives are fixed here; what a database system adds of its own is an
`Engine`, over which everything is stated:

* `Truth.ofBool`, `Truth.not`, `Truth.any` -- the rest of three-valued logic;
* `Engine` -- the values of a system, any equality on them, and the operators that this file leaves
  open;
* `Binding` -- the relations in scope, each with one of its records;
* `Engine.eval` -- the value of an expression, and `Engine.truth`, which reads it as a predicate;
* `Engine.Standalone.eval_congr` -- an expression without a subquery has one value in all databases.
-/

namespace SqlTree

/-! ## 1. Three-valued logic -/

namespace Truth

/-- The truth of something that is never unknown. -/
def ofBool (b : Bool) : Truth := if b then .yes else .no

def not : Truth → Truth
  | .no => .yes
  | .unknown => .unknown
  | .yes => .no

/-- Some of several conditions. -/
def any : List Truth → Truth
  | [] => .no
  | a :: rest => a.or (any rest)

@[simp] theorem or_no (a : Truth) : a.or .no = a := by cases a <;> rfl

@[simp] theorem ofBool_eq_yes {b : Bool} : ofBool b = .yes ↔ b = true := by
  cases b with
  | false => exact ⟨(fun h => by cases h), fun h => by cases h⟩
  | true => exact ⟨fun _ => rfl, fun _ => rfl⟩

theorem and_eq_yes_iff {a b : Truth} : a.and b = .yes ↔ a = .yes ∧ b = .yes := by
  refine ⟨and_eq_yes, fun h => ?_⟩
  obtain ⟨rfl, rfl⟩ := h
  rfl

/-- **All of several conditions hold when each of them does.** -/
theorem all_eq_yes_iff {l : List Truth} : all l = .yes ↔ ∀ a ∈ l, a = .yes := by
  induction l with
  | nil => exact ⟨fun _ a ha => (by cases ha), fun _ => rfl⟩
  | cons a rest ih =>
    rw [List.forall_mem_cons, ← ih]
    exact and_eq_yes_iff

/-- Conditions joined by AND from the left are all of them. -/
theorem foldl_and (l : List Truth) (a : Truth) : l.foldl and a = a.and (all l) := by
  induction l generalizing a with
  | nil => exact (and_yes a).symm
  | cons b rest ih => rw [List.foldl_cons, ih, and_assoc, all]

/-- Conditions joined by OR from the left are any of them. -/
theorem foldl_or (l : List Truth) (a : Truth) : l.foldl or a = a.or (any l) := by
  induction l generalizing a with
  | nil => exact (or_no a).symm
  | cons b rest ih => rw [List.foldl_cons, ih, or_assoc, any]

end Truth

/-! ## 2. Databases -/

variable {δ : Type}

/-- A record of a table: the value of each column, or null. -/
abbrev Record (δ : Type) := String → Option δ

/-- The records of each table, in order. -/
abbrev Database (δ : Type) := String → List (Record δ)

/-- A row: the relations in scope, each with one of its records. -/
abbrev Binding (δ : Type) := List (Node × Record δ)

/-- The record that a row has for a relation. It is found by the name of the relation. -/
def Binding.record? (row : Binding δ) (relation : Node) : Option (Record δ) :=
  (row.find? fun entry => entry.1.relationName? == relation.relationName?).map (·.2)

/-- What a database system decides: its values and their equality, the texts it reads itself, and
    every operator that three-valued logic says nothing about. -/
structure Engine (δ : Type) where
  /-- The value that a JSON value other than null stands for. -/
  datum : Json → δ
  equal : δ → δ → Bool
  /-- The truth values among all values. -/
  bool : Bool → δ
  /-- Whether a value counts as true. -/
  holds : δ → Bool
  holds_bool : ∀ b, holds (bool b) = b
  /-- The value of SQL text with its parameters. -/
  raw : String → List Value → Database δ → Binding δ → Option δ
  raw_true : ∀ db row, raw "1=1" [] db row = some (bool true)
  raw_false : ∀ db row, raw "1=0" [] db row = some (bool false)
  /-- A column of a relation that is not in scope, given the relation's name. -/
  outer : Option String → String → Option δ
  /-- An expression that is a subquery or has one right below it. -/
  nested : Node → Database δ → Binding δ → Option δ
  /-- Every other operator, from the values of its operands. -/
  operator : Form (Option δ) → Option δ
  /-- The records of a relation that is not over a base table. -/
  derived : Node → Database δ → List (Record δ)
  /-- Rows joined otherwise than by INNER or CROSS. -/
  outerJoin : Join Node → Database δ → List (Binding δ) → List (Binding δ)

namespace Engine

variable (E : Engine δ)

/-- The value of a JSON value. -/
def json : Json → Option δ
  | .null => none
  | j => some (E.datum j)

/-- The value of a constant is that of its JSON value. -/
def constant (v : Value) : Option δ := E.json v.toJson

/-- A predicate as a value: what is unknown is null. -/
def ofTruth : Truth → Option δ
  | .no => some (E.bool false)
  | .unknown => none
  | .yes => some (E.bool true)

/-- A value as a predicate: null is unknown. -/
def truth : Option δ → Truth
  | none => .unknown
  | some d => .ofBool (E.holds d)

@[simp] theorem truth_ofTruth (t : Truth) : E.truth (E.ofTruth t) = t := by
  cases t with
  | unknown => rfl
  | no => exact congrArg Truth.ofBool (E.holds_bool false)
  | yes => exact congrArg Truth.ofBool (E.holds_bool true)

/-- Equality, which nothing decides for null. -/
def same : Option δ → Option δ → Truth
  | some a, some b => .ofBool (E.equal a b)
  | _, _ => .unknown

/-! ## 3. Expressions -/

/-- A negated test, if it is negated. -/
def signed (negated : Bool) (t : Truth) : Truth := if negated then t.not else t

/-- Membership in a list. -/
def among (operand : Option δ) (values : List (Option δ)) : Truth :=
  Truth.any (values.map (E.same operand))

/-- The value of an expression from its operands and their values. -/
def step (db : Database δ) (row : Binding δ) : Form (Node × Option δ) → Option δ
  | .column relation name _ =>
    match row.record? relation.1 with
    | some record => record name
    | none => E.outer relation.1.relationName? name
  | .literal v => E.constant v
  | .bind v => E.constant v
  | .raw sql binds => E.raw sql binds db row
  | .comparison left .eq right => E.ofTruth (E.same left.2 right.2)
  | .comparison left .notEq right => E.ofTruth (E.same left.2 right.2).not
  | .nullTest operand .isNull => E.ofTruth (.ofBool operand.2.isNone)
  | .nullTest operand .isNotNull => E.ofTruth (.ofBool operand.2.isSome)
  | .and left right => E.ofTruth ((E.truth left.2).and (E.truth right.2))
  | .or left right => E.ofTruth ((E.truth left.2).or (E.truth right.2))
  | .not operand => E.ofTruth (E.truth operand.2).not
  | .grouping operand => operand.2
  | .membership operand values negated =>
    if values.any fun v => v.1.isQuery then
      E.nested ⟨.membership operand.1 (values.map (·.1)) negated⟩ db row
    else E.ofTruth (signed negated (E.among operand.2 (values.map (·.2))))
  | .existence query negated => E.nested ⟨.existence query.1 negated⟩ db row
  | .select s => E.nested ⟨.select (s.map (·.1))⟩ db row
  | .setOperation s => E.nested ⟨.setOperation (s.map (·.1))⟩ db row
  | form => E.operator (form.map (·.2))

/-- The value of an expression in a row. -/
def eval (db : Database δ) (n : Node) (row : Binding δ) : Option δ := n.fold (E.step db row)

theorem eval_mk (db : Database δ) (form : Form Node) (row : Binding δ) :
    E.eval db ⟨form⟩ row = E.step db row (form.map fun n => (n, E.eval db n row)) :=
  Node.fold_mk _ form

/-- An expression as a predicate. -/
def test (db : Database δ) (n : Node) (row : Binding δ) : Truth := E.truth (E.eval db n row)

/-! Predicates and connectives. -/

section Predicates

variable (db : Database δ) (row : Binding δ) (left right operand : Node)

theorem eval_column {relation : Node} {record : Record δ} (h : row.record? relation = some record)
    (name : String) (typeName : Option String) :
    E.eval db ⟨.column relation name typeName⟩ row = record name := by
  rw [eval_mk]
  show (match row.record? relation with
    | some record => record name
    | none => E.outer relation.relationName? name) = _
  rw [h]

@[simp] theorem eval_literal (v : Value) : E.eval db ⟨.literal v⟩ row = E.constant v := eval_mk ..

@[simp] theorem eval_bind (v : Value) : E.eval db ⟨.bind v⟩ row = E.constant v := eval_mk ..

@[simp] theorem eval_raw (sql : String) (binds : List Value) :
    E.eval db ⟨.raw sql binds⟩ row = E.raw sql binds db row := eval_mk ..

@[simp] theorem test_equal : E.test db ⟨.comparison left .eq right⟩ row
    = E.same (E.eval db left row) (E.eval db right row) := by
  rw [test, eval_mk]
  exact E.truth_ofTruth _

@[simp] theorem test_notEqual : E.test db ⟨.comparison left .notEq right⟩ row
    = (E.same (E.eval db left row) (E.eval db right row)).not := by
  rw [test, eval_mk]
  exact E.truth_ofTruth _

@[simp] theorem test_isNull :
    E.test db ⟨.nullTest operand .isNull⟩ row = .ofBool (E.eval db operand row).isNone := by
  rw [test, eval_mk]
  exact E.truth_ofTruth _

@[simp] theorem test_isNotNull :
    E.test db ⟨.nullTest operand .isNotNull⟩ row = .ofBool (E.eval db operand row).isSome := by
  rw [test, eval_mk]
  exact E.truth_ofTruth _

@[simp] theorem test_and :
    E.test db ⟨.and left right⟩ row = (E.test db left row).and (E.test db right row) := by
  rw [test, eval_mk]
  exact E.truth_ofTruth _

@[simp] theorem test_or :
    E.test db ⟨.or left right⟩ row = (E.test db left row).or (E.test db right row) := by
  rw [test, eval_mk]
  exact E.truth_ofTruth _

@[simp] theorem test_not : E.test db ⟨.not operand⟩ row = (E.test db operand row).not := by
  rw [test, eval_mk]
  exact E.truth_ofTruth _

@[simp] theorem test_grouping : E.test db ⟨.grouping operand⟩ row = E.test db operand row := by
  rw [test, eval_mk]
  rfl

/-- A list without a query is compared item by item. -/
theorem test_membership {values : List Node} (h : values.any Node.isQuery = false)
    (negated : Bool) : E.test db ⟨.membership operand values negated⟩ row
      = signed negated (E.among (E.eval db operand row) (values.map fun v => E.eval db v row)) := by
  rw [test, eval_mk]
  simp only [Form.map, step, List.any_map, List.map_map, Function.comp_def] at h ⊢
  rw [if_neg (by rw [h]; exact Bool.false_ne_true)]
  exact E.truth_ofTruth _

end Predicates
end Engine

/-! ## 4. Expressions without subqueries -/

/-- A query, or a test of one. -/
def Node.isSubquery (n : Node) : Bool :=
  match n.form with
  | .existence _ _ => true
  | _ => n.isQuery

/-- An expression has no subquery: none in its tree, and its verbatim texts read no table. -/
def Engine.Standalone (E : Engine δ) (n : Node) : Prop :=
  ∀ m ∈ n.parts, m.isSubquery = false
    ∧ ∀ sql binds, m.form = .raw sql binds →
      ∀ db db' row, E.raw sql binds db row = E.raw sql binds db' row

namespace Engine

variable {E : Engine δ}

theorem Standalone.child {form : Form Node} (h : E.Standalone ⟨form⟩) {c : Node}
    (hc : c ∈ form.children) : E.Standalone c := by
  intro m hm
  refine h m ?_
  rw [Node.parts_mk]
  exact List.mem_cons_of_mem _ (List.mem_flatMap.mpr ⟨c, hc, hm⟩)

theorem Standalone.self {form : Form Node} (h : E.Standalone ⟨form⟩) :
    (Node.mk form).isSubquery = false
      ∧ ∀ sql binds, form = .raw sql binds →
        ∀ db db' row, E.raw sql binds db row = E.raw sql binds db' row :=
  h ⟨form⟩ List.mem_cons_self

/-- Without a query among the values, nothing in a membership is nested. -/
theorem Standalone.values {operand : Node} {values : List Node} {negated : Bool}
    (h : E.Standalone ⟨.membership operand values negated⟩) :
    values.any Node.isQuery = false := by
  rw [List.any_eq_false]
  intro v hv hquery
  have hself := (h.child (List.mem_cons_of_mem _ hv) v List.mem_cons_self).1
  obtain ⟨form⟩ := v
  cases form with
  | select s => cases hself
  | setOperation s => cases hself
  | _ => cases hquery

/-- **An expression without a subquery has one value in all databases.** -/
theorem Standalone.eval_congr {n : Node} (h : E.Standalone n) (db db' : Database δ)
    (row : Binding δ) : E.eval db n row = E.eval db' n row := by
  induction n using Node.children_induction with
  | step form ih =>
    have hoperands : form.map (fun n => (n, E.eval db n row))
        = form.map fun n => (n, E.eval db' n row) :=
      Form.map_congr fun c hc => congrArg _ (ih c hc (h.child hc))
    rw [eval_mk, eval_mk, hoperands]
    cases form with
    | raw sql binds => exact h.self.2 sql binds rfl db db' row
    | membership operand values negated =>
      have hvalues := h.values
      simp only [Form.map, step, List.any_map, Function.comp_def] at hvalues ⊢
      rw [if_neg (by rw [hvalues]; exact Bool.false_ne_true),
        if_neg (by rw [hvalues]; exact Bool.false_ne_true)]
    | existence query negated => cases h.self.1
    | select s => cases h.self.1
    | setOperation s => cases h.self.1
    | comparison left op right => cases op <;> rfl
    | nullTest operand op => cases op <;> rfl
    | _ => rfl

theorem Standalone.test_congr {n : Node} (h : E.Standalone n) (db db' : Database δ)
    (row : Binding δ) : E.test db n row = E.test db' n row :=
  congrArg E.truth (h.eval_congr db db' row)

/-- A system whose values are JSON values, with no operators of its own. -/
def ofJson : Engine Json where
  datum := id
  equal := Json.same
  bool := .bool
  holds j := j.same (.bool true)
  holds_bool b := by cases b <;> rfl
  raw sql _ _ _ :=
    if sql = "1=1" then some (.bool true) else if sql = "1=0" then some (.bool false) else none
  raw_true _ _ := rfl
  raw_false _ _ := rfl
  outer _ _ := none
  nested _ _ _ := none
  operator _ := none
  derived _ _ := []
  outerJoin _ _ rows := rows

end Engine
end SqlTree
