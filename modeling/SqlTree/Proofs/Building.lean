import SqlTree.Node.Predicate
import SqlTree.Proofs.Answers
import SqlTree.Proofs.Children
import SqlTree.Statement.Build

/-!
# What calls build

Nodes are built by calling functions, one on the answers of others. This file lists the functions
and says once what it takes for a property of trees to survive all of them:

* `Select.Step` and its like -- one step in building a statement;
* `Node.Makes` -- one call of a function that builds nodes;
* `Node.Lasting` -- a property of trees that outlasts each way in which calls put nodes together;
* `Node.Lasting.makes` -- so every call keeps it.
-/

namespace SqlTree

/-! ## 1. ORs and the nodes with names -/

namespace Form

variable {ν μ : Type}

/-- Either of two predicates, without parentheses. -/
def isOr : Form ν → Bool
  | .or _ _ => true
  | _ => false

def isGrouping : Form ν → Bool
  | .grouping _ => true
  | _ => false

/-- A form whose children may be ORs. -/
def holdsOrs (form : Form ν) : Bool := form.isGrouping || form.isOr

/-- A form that writes a name bare: a call or a cast. -/
def isNamed : Form ν → Bool
  | .call _ _ _ => true
  | .cast _ _ => true
  | _ => false

end Form

/-! ## 2. Steps and calls -/

/-- One step in building a SELECT, with the nodes it adds. -/
inductive Select.Step (s : Select Node) : List Node → Select Node → Prop where
  | fromSource (n : Node) : Step s [n] (s.fromSource n)
  | project (l : List Node) : Step s l (s.project l)
  | restrict (n : Node) : Step s [n] (s.restrict n)
  | restrictAll (l : List (Option Node)) : Step s (l.filterMap id) (s.restrictAll l)
  | addJoin (j : Join Node) : Step s j.children (s.addJoin j)
  | joinOn (kind : JoinKind) (n p : Node) : Step s [n, p] (s.joinOn kind n p)
  | lateralJoinOn (kind : JoinKind) (n p : Node) : Step s [n, p] (s.lateralJoinOn kind n p)
  | crossJoin (n : Node) : Step s [n] (s.crossJoin n)
  | groupBy (l : List Node) : Step s l (s.groupBy l)
  | restrictGroups (n : Node) : Step s [n] (s.restrictGroups n)
  | orderBy (l : List Node) : Step s l (s.orderBy l)
  | addWindow (w : Window Node) : Step s w.children (s.addWindow w)
  | addHint (hint : String) : Step s [] (s.addHint hint)
  | withComment (text : String) : Step s [] (s.withComment text)
  | addCte (c : Cte Node) : Step s [c.query] (s.addCte c)
  | withDistinct (distinct : Bool) : Step s [] (s.withDistinct distinct)
  | distinctBy (l : List Node) : Step s l (s.distinctBy l)
  | limitTo (n : UInt64) : Step s [rowCount n] (s.limitTo n)
  | skipping (n : UInt64) : Step s [rowCount n] (s.skipping n)
  | lockedFor (mode : LockMode) : Step s [] (s.lockedFor mode)
  | withSkipLocked : Step s [] s.withSkipLocked

inductive SetOperation.Step (s : SetOperation Node) : List Node → SetOperation Node → Prop where
  | orderBy (l : List Node) : Step s l (s.orderBy l)
  | limitTo (n : UInt64) : Step s [rowCount n] (s.limitTo n)
  | skipping (n : UInt64) : Step s [rowCount n] (s.skipping n)

inductive Insert.Step (s : Insert Node) : List Node → Insert Node → Prop where
  | addColumns (l : List Node) : Step s l (s.addColumns l)
  | addRow (l : List Node) : Step s l (s.addRow l)
  | ofQuery (n : Node) : Step s [n] (s.ofQuery n)
  | addReturning (l : List Node) : Step s l (s.addReturning l)
  | onConflictDo (l : List Node) (action : ConflictAction Node) :
    Step s (l ++ action.children) (s.onConflictDo l action)
  | orIgnore (l : List Node) : Step s l (s.orIgnore l)
  | orUpdate (l : List Node) (assignments : List (Assignment Node)) (ws : List Node) :
    Step s (l ++ assignments.flatMap Assignment.children ++ ws) (s.orUpdate l assignments ws)

inductive Update.Step (s : Update Node) : List Node → Update Node → Prop where
  | assign (target value : Node) : Step s [target, value] (s.assign target value)
  | restrictAll (l : List (Option Node)) : Step s (l.filterMap id) (s.restrictAll l)
  | restrict (n : Node) : Step s [n] (s.restrict n)
  | addReturning (l : List Node) : Step s l (s.addReturning l)

inductive Delete.Step (s : Delete Node) : List Node → Delete Node → Prop where
  | restrictAll (l : List (Option Node)) : Step s (l.filterMap id) (s.restrictAll l)
  | restrict (n : Node) : Step s [n] (s.restrict n)
  | addReturning (l : List Node) : Step s l (s.addReturning l)

namespace Node

/-- One call of a function that builds nodes: from the nodes it is given to the one it answers. A
    statement under construction is given as the node that it would be. Any form but an OR may also
    be put around its children directly, as it is for CASE, assignments and the roots of
    statements. -/
inductive Makes : List Node → Node → Prop where
  | form {form : Form Node} (h : form.isOr = false) : Makes form.children ⟨form⟩
  -- values, relations and columns
  | literal (v : Value) : Makes [] (.literal v)
  | null : Makes [] .null
  | bind (v : Value) : Makes [] (.bind v)
  | cast {v : Value} {typeName : String} {n : Node} (h : Node.cast v typeName = .ok n) : Makes [] n
  | raw (sql : String) (binds : List Value) : Makes [] (.raw sql binds)
  | table (name : String) : Makes [] (.table name)
  | aliased (n : Node) (name : String) : Makes [n] (n.aliased name)
  | columnOf (n : Node) (name : String) : Makes [n] (n.columnOf name)
  | typedColumnOf {n m : Node} {name typeName : String}
    (h : n.typedColumnOf name typeName = .ok m) : Makes [n] m
  | attr {n m : Node} {name : String} (h : n.attr name = .ok m) : Makes [n] m
  | typedAttr {n m : Node} {name typeName : String} (h : n.typedAttr name typeName = .ok m) :
    Makes [n] m
  | star : Makes [] .star
  | allColumns (n : Node) : Makes [n] n.allColumns
  -- functions and what is put around expressions
  | call {name : String} {l : List Node} {distinct : Bool} {n : Node}
    (h : Node.call name l distinct = .ok n) : Makes l n
  | aggregate {func : AggregateFunc} {argument : Option Node} {distinct : Bool} {n : Node}
    (h : Node.aggregate func argument distinct = .ok n) : Makes argument.toList n
  | countStar : Makes [] countStar
  | extract (field : DateField) (n : Node) : Makes [n] (.extract field n)
  | distinct {n m : Node} (h : n.distinct = .ok m) : Makes [n] m
  | filter {n p m : Node} (h : n.filter p = .ok m) : Makes [n, p] m
  | grouping (n : Node) : Makes [n] (.grouping n)
  | existence (n : Node) (negated : Bool) : Makes [n] (n.existence negated)
  | windowed (n : Node) (w : WindowRef Node) : Makes (n :: w.children) (n.windowed w)
  | labelled (n : Node) (name : String) : Makes [n] (n.labelled name)
  | groupingColumns (kind : GroupingKind) (l : List Node) : Makes l (groupingColumns kind l)
  | groupingSets (sets : List (List Node)) : Makes sets.flatten (groupingSets sets)
  | asc (n : Node) : Makes [n] n.asc
  | desc (n : Node) : Makes [n] n.desc
  | placeNulls (n : Node) (nulls : NullPlacement) : Makes [n] (n.placeNulls nulls)
  -- predicates and arithmetic
  | compare {l r n : Node} {op : ComparisonOp} (h : l.compare op r = .ok n) : Makes [l, r] n
  | inList {n m : Node} {l : List Node} {negated : Bool} (h : n.inList l negated = .ok m) :
    Makes (n :: l) m
  | between {n low high m : Node} {negated : Bool} (h : n.between low high negated = .ok m) :
    Makes [n, low, high] m
  | isNull (n : Node) : Makes [n] n.isNull
  | isNotNull (n : Node) : Makes [n] n.isNotNull
  | conjoin (l r : Node) : Makes [l, r] (l.conjoin r)
  | disjoin (l r : Node) : Makes [l, r] (l.disjoin r)
  | negate (n : Node) : Makes [n] n.negate
  | anyOf {l : List Node} {n : Node} (h : anyOf l = some n) : Makes l n
  | allOf {l : List Node} {n : Node} (h : allOf l = some n) : Makes l n
  | compareAny {n m : Node} {op : ComparisonOp} {l : List Node}
    (h : n.compareAny op l = .ok (some m)) : Makes (n :: l) m
  | compareAll {n m : Node} {op : ComparisonOp} {l : List Node}
    (h : n.compareAll op l = .ok (some m)) : Makes (n :: l) m
  | inAny {n m : Node} {lists : List (List Node)} (h : n.inAny lists = .ok (some m)) :
    Makes (n :: lists.flatten) m
  | inAll {n m : Node} {lists : List (List Node)} (h : n.inAll lists = .ok (some m)) :
    Makes (n :: lists.flatten) m
  | arithmetic (l : Node) (op : ArithmeticOp) (r : Node) : Makes [l, r] (l.arithmetic op r)
  | bitwiseNot (n : Node) : Makes [n] n.bitwiseNot
  -- statements
  | ofSource (n : Node) : Makes [n] ⟨.select (.ofSource n)⟩
  | select {s s' : Select Node} {new : List Node} (h : s.Step new s') :
    Makes (⟨.select s⟩ :: new) ⟨.select s'⟩
  | named (s : Select Node) (name : String) : Makes [⟨.select s⟩] (s.named name)
  | combine (s : Select Node) (op : SetOp) (n : Node) :
    Makes [⟨.select s⟩, n] ⟨.setOperation (s.combine op n)⟩
  | setOperation {s s' : SetOperation Node} {new : List Node} (h : s.Step new s') :
    Makes (⟨.setOperation s⟩ :: new) ⟨.setOperation s'⟩
  | insert {s s' : Insert Node} {new : List Node} (h : s.Step new s') :
    Makes (⟨.insert s⟩ :: new) ⟨.insert s'⟩
  | update {s s' : Update Node} {new : List Node} (h : s.Step new s') :
    Makes (⟨.update s⟩ :: new) ⟨.update s'⟩
  | delete {s s' : Delete Node} {new : List Node} (h : s.Step new s') :
    Makes (⟨.delete s⟩ :: new) ⟨.delete s'⟩

end Node

/-! ## 3. What a step in building a statement keeps -/

namespace Node

/-- All of these trees have a property. -/
def Each (P : Node → Prop) (l : List Node) : Prop := ∀ n ∈ l, P n

section Lists

variable {P : Node → Prop} {l l' : List Node} {n : Node}

@[simp] theorem each_nil : Each P [] := List.forall_mem_nil _

@[simp] theorem each_cons : Each P (n :: l) ↔ P n ∧ Each P l := List.forall_mem_cons

@[simp] theorem each_append : Each P (l ++ l') ↔ Each P l ∧ Each P l' := List.forall_mem_append

end Lists
end Node

open Node

section Steps

variable {P : Node → Prop} {new : List Node}

theorem Select.Step.each {s s' : Select Node} (h : s.Step new s') (hs : Each P s.children)
    (hnew : Each P new) : Each P s'.children := by
  cases h <;>
    simp_all [Select.children, Select.fromSource, Select.project, Select.restrict,
      Select.restrictAll, Select.addJoin, Select.joinOn, Select.lateralJoinOn, Select.crossJoin,
      Select.groupBy, Select.restrictGroups, Select.orderBy, Select.addWindow, Select.addHint,
      Select.withComment, Select.addCte, Select.withDistinct, Select.distinctBy, Select.limitTo,
      Select.skipping, Select.lockedFor, Select.withSkipLocked, Join.children]

theorem SetOperation.Step.each {s s' : SetOperation Node} (h : s.Step new s')
    (hs : Each P s.children) (hnew : Each P new) : Each P s'.children := by
  cases h <;>
    simp_all [SetOperation.children, SetOperation.orderBy, SetOperation.limitTo,
      SetOperation.skipping]

theorem Insert.Step.each {s s' : Insert Node} (h : s.Step new s') (hs : Each P s.children)
    (hnew : Each P new) : Each P s'.children := by
  cases h with
  | orUpdate l assignments ws =>
    unfold Insert.orUpdate
    split <;>
      simp_all [Insert.children, Insert.orIgnore, Insert.onConflictDo, OnConflict.children,
        ConflictAction.children]
  | _ =>
    simp_all [Insert.children, Insert.addColumns, Insert.addRow, Insert.ofQuery,
      Insert.addReturning, Insert.orIgnore, Insert.onConflictDo, OnConflict.children,
      ConflictAction.children]

theorem Update.Step.each {s s' : Update Node} (h : s.Step new s') (hs : Each P s.children)
    (hnew : Each P new) : Each P s'.children := by
  cases h <;>
    simp_all [Update.children, Update.assign, Update.restrictAll, Update.restrict,
      Update.addReturning, Assignment.children]

theorem Delete.Step.each {s s' : Delete Node} (h : s.Step new s') (hs : Each P s.children)
    (hnew : Each P new) : Each P s'.children := by
  cases h <;> simp_all [Delete.children, Delete.restrictAll, Delete.restrict, Delete.addReturning]

end Steps

/-! ## 4. What a call keeps -/

namespace Node

/-- What it takes for a property of trees to outlast every call: it comes with checked names and
    with layers around trees that have it, parentheses around alternatives among them, and where a
    call takes a tree apart, it goes over to the children. -/
structure Lasting (P : Node → Prop) : Prop where
  layer {form : Form Node} :
    form.isOr = false → form.isNamed = false → Each P form.children → P ⟨form⟩
  cast {v : Value} {typeName : String} {n : Node} : Node.cast v typeName = .ok n → P n
  call {name : String} {l : List Node} {distinct : Bool} {n : Node} :
    Node.call name l distinct = .ok n → Each P l → P n
  calledAgain {name : String} {l : List Node} {distinct : Bool} :
    P ⟨.call name l distinct⟩ → P ⟨.call name l true⟩
  anyOf {l : List Node} {n : Node} : anyOf l = some n → Each P l → P n
  under {form : Form Node} : form.holdsOrs = false → P ⟨form⟩ → Each P form.children

variable {P : Node → Prop} {n m l r : Node} {name typeName : String} {items : List Node}

theorem eq_of_typedColumnOf_eq_ok (h : n.typedColumnOf name typeName = .ok m) :
    m = ⟨.column n name (some typeName)⟩ := by
  obtain ⟨_, _, h⟩ := exists_of_bind_eq_ok h
  exact (Except.ok.inj h).symm

namespace Lasting

variable (k : Lasting P)

include k

/-- A constant beside a typed column becomes a cast. -/
theorem coerce (h : n.coerce m = .ok r) (hm : P m) : P r := by
  unfold Node.coerce at h
  split at h
  · exact Except.ok.inj h ▸ hm
  · exact k.cast h
  · exact Except.ok.inj h ▸ hm

theorem compare {op : ComparisonOp} (h : l.compare op r = .ok n) (hl : P l) (hr : P r) : P n := by
  obtain ⟨r', hr', h⟩ := exists_of_bind_eq_ok h
  obtain rfl := Except.ok.inj h
  exact k.layer rfl rfl (by simp [Form.children, hl, k.coerce hr' hr])

theorem inList {negated : Bool} (h : n.inList items negated = .ok m) (hn : P n)
    (hitems : Each P items) : P m := by
  obtain ⟨values, hvalues, h⟩ := exists_of_bind_eq_ok h
  obtain rfl := Except.ok.inj h
  have hall : Each P values :=
    forall_of_mapM_eq_ok hvalues fun a ha b hb => k.coerce hb (hitems a ha)
  exact k.layer rfl rfl (each_cons.mpr ⟨hn, hall⟩)

theorem between {low high : Node} {negated : Bool} (h : n.between low high negated = .ok m)
    (hn : P n) (hlow : P low) (hhigh : P high) : P m := by
  obtain ⟨low', hlow', h⟩ := exists_of_bind_eq_ok h
  obtain ⟨high', hhigh', h⟩ := exists_of_bind_eq_ok h
  obtain rfl := Except.ok.inj h
  exact k.layer rfl rfl (by simp [Form.children, hn, k.coerce hlow' hlow, k.coerce hhigh' hhigh])

/-- The comparisons of one tree with each of several. -/
theorem compareEach {op : ComparisonOp} {ps : List Node} (hn : P n)
    (h : items.mapM (n.compare op) = .ok ps) (hitems : Each P items) : Each P ps :=
  forall_of_mapM_eq_ok h fun a ha _ hb => k.compare hb hn (hitems a ha)

/-- The memberships of one tree in each of several lists. -/
theorem inEach {lists : List (List Node)} {ps : List Node} (hn : P n)
    (h : lists.mapM (fun l => n.inList l) = .ok ps) (hlists : Each P lists.flatten) : Each P ps :=
  forall_of_mapM_eq_ok h fun l hl _ hb =>
    k.inList hb hn fun c hc => hlists c (List.mem_flatten.mpr ⟨l, hl, hc⟩)

theorem allOf (h : allOf items = some n) (hitems : Each P items) : P n := by
  cases items with
  | nil => cases h
  | cons first rest =>
    obtain rfl := Option.some.inj h
    obtain ⟨hfirst, hrest⟩ := each_cons.mp hitems
    have hall : P (rest.foldl (fun l r => ⟨.and l r⟩) first) :=
      List.foldlRecOn rest _ hfirst fun l hl r hr =>
        k.layer rfl rfl (by simp [Form.children, hl, hrest r hr])
    exact k.layer rfl rfl (List.forall_mem_singleton.mpr hall)

/-- The same call over distinct arguments. -/
theorem distinct (h : n.distinct = .ok m) (hn : P n) : P m := by
  obtain ⟨form⟩ := n
  cases form with
  | aggregate func argument distinct filter =>
    obtain rfl := Except.ok.inj h
    have hchildren := k.under rfl hn
    exact k.layer rfl rfl hchildren
  | call name arguments distinct =>
    obtain rfl := Except.ok.inj h
    exact k.calledAgain hn
  | _ => cases h

theorem filter {p : Node} (h : n.filter p = .ok m) (hn : P n) (hp : P p) : P m := by
  obtain ⟨form⟩ := n
  cases form with
  | aggregate func argument distinct filter =>
    obtain rfl := Except.ok.inj h
    obtain ⟨hargument, -⟩ := each_append.mp (k.under rfl hn)
    exact k.layer rfl rfl (each_append.mpr ⟨hargument, by simp [hp]⟩)
  | _ => cases h

theorem placeNulls (nulls : NullPlacement) (hn : P n) : P (n.placeNulls nulls) := by
  obtain ⟨form⟩ := n
  cases form with
  | ordering operand direction nulls =>
    have hchildren := k.under rfl hn
    exact k.layer rfl rfl hchildren
  | _ => exact k.layer rfl rfl (List.forall_mem_singleton.mpr hn)

/-- **A call keeps a lasting property**, if putting a form around its children directly does. -/
theorem makes {given : List Node} (h : Makes given n) (hgiven : Each P given)
    (hdirect : ∀ form : Form Node, n = ⟨form⟩ → form.isOr = false → Each P form.children → P n) :
    P n := by
  cases h with
  | form hform => exact hdirect _ rfl hform hgiven
  | cast h => exact k.cast h
  | typedColumnOf h =>
    rw [eq_of_typedColumnOf_eq_ok h]
    exact k.layer rfl rfl hgiven
  | attr h =>
    obtain ⟨_, _, h⟩ := exists_of_bind_eq_ok h
    obtain rfl := Except.ok.inj h
    exact k.layer rfl rfl hgiven
  | typedAttr h =>
    obtain ⟨_, _, h⟩ := exists_of_bind_eq_ok h
    rw [eq_of_typedColumnOf_eq_ok h]
    exact k.layer rfl rfl hgiven
  | call h => exact k.call h hgiven
  | aggregate h =>
    unfold Node.aggregate at h
    split at h
    · obtain rfl := Except.ok.inj h
      exact k.layer rfl rfl (each_append.mpr ⟨hgiven, each_nil⟩)
    · cases h
  | distinct h => exact k.distinct h (hgiven _ List.mem_cons_self)
  | filter h =>
    simp only [each_cons] at hgiven
    exact k.filter h hgiven.1 hgiven.2.1
  | groupingColumns kind l => exact k.layer rfl rfl (each_append.mpr ⟨hgiven, each_nil⟩)
  | placeNulls n nulls => exact k.placeNulls nulls (hgiven _ List.mem_cons_self)
  | compare h =>
    simp only [each_cons] at hgiven
    exact k.compare h hgiven.1 hgiven.2.1
  | inList h =>
    obtain ⟨hn, hl⟩ := each_cons.mp hgiven
    exact k.inList h hn hl
  | between h =>
    simp only [each_cons] at hgiven
    exact k.between h hgiven.1 hgiven.2.1 hgiven.2.2.1
  | disjoin l r => exact k.anyOf rfl hgiven
  | anyOf h => exact k.anyOf h hgiven
  | allOf h => exact k.allOf h hgiven
  | compareAny h =>
    obtain ⟨hn, hl⟩ := each_cons.mp hgiven
    obtain ⟨items, hitems, h⟩ := exists_of_bind_eq_ok h
    exact k.anyOf (Except.ok.inj h) (k.compareEach hn hitems hl)
  | compareAll h =>
    obtain ⟨hn, hl⟩ := each_cons.mp hgiven
    obtain ⟨items, hitems, h⟩ := exists_of_bind_eq_ok h
    exact k.allOf (Except.ok.inj h) (k.compareEach hn hitems hl)
  | inAny h =>
    obtain ⟨hn, hl⟩ := each_cons.mp hgiven
    obtain ⟨items, hitems, h⟩ := exists_of_bind_eq_ok h
    exact k.anyOf (Except.ok.inj h) (k.inEach hn hitems hl)
  | inAll h =>
    obtain ⟨hn, hl⟩ := each_cons.mp hgiven
    obtain ⟨items, hitems, h⟩ := exists_of_bind_eq_ok h
    exact k.allOf (Except.ok.inj h) (k.inEach hn hitems hl)
  | select h =>
    obtain ⟨hs, hnew⟩ := each_cons.mp hgiven
    exact k.layer rfl rfl (h.each (k.under rfl hs) hnew)
  | setOperation h =>
    obtain ⟨hs, hnew⟩ := each_cons.mp hgiven
    exact k.layer rfl rfl (h.each (k.under rfl hs) hnew)
  | insert h =>
    obtain ⟨hs, hnew⟩ := each_cons.mp hgiven
    exact k.layer rfl rfl (h.each (k.under rfl hs) hnew)
  | update h =>
    obtain ⟨hs, hnew⟩ := each_cons.mp hgiven
    exact k.layer rfl rfl (h.each (k.under rfl hs) hnew)
  | delete h =>
    obtain ⟨hs, hnew⟩ := each_cons.mp hgiven
    exact k.layer rfl rfl (h.each (k.under rfl hs) hnew)
  | _ => exact k.layer rfl rfl hgiven

end Lasting
end Node
end SqlTree
