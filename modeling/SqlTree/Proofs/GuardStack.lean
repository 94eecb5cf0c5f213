import SqlTree.Guard.AccessPolicy
import SqlTree.Guard.SoftDelete
import SqlTree.Guard.TenantScope
import SqlTree.Proofs.WhereClause

/-!
# Stacks of guards

Soft deletion, tenants and access policies may stand behind each other in any number and order.
This file says what all of them together do to a statement:

* `Node.Concerns` -- a predicate names the columns of one relation only, under its alias;
* `Condition.confined_predicate` -- the predicates of a policy concern their relation, and no rule
  of the tree is broken by making them;
* `Plugin.answer` -- what a member of the stack says about one relation, and `Plugin.guard_eq`;
* `Settles` -- answers in order come to predicates, or to the first failure among them;
* `Guarded.settles_apply` -- a stack settles its answers, member by member and in each of them
  relation by relation, and none of its members changes what the next one is asked about;
* `Pipeline.apply_plugins` -- the same for SELECT, UPDATE and DELETE.
-/

namespace SqlTree

/-! ## 1. Relations and their columns -/

namespace Node

theorem tableName?_mk (form : Form Node) :
    (mk form).tableName? = match form with
      | .table name => some name
      | .tableAlias relation _ => relation.tableName?
      | _ => none := by
  unfold tableName?
  rw [fold_mk]
  cases form <;> rfl

/-- **What has a table is a relation, and so is everything below it.** -/
theorem isRelation_of_mem_parts (n : Node) :
    ∀ {table : String}, n.tableName? = some table → ∀ m ∈ n.parts, m.isRelation = true := by
  induction n using children_induction with
  | _ form ih =>
    intro table h m hm
    rw [tableName?_mk] at h
    rw [parts_mk] at hm
    cases form with
    | table name =>
      rw [List.mem_singleton.mp hm]
      rfl
    | tableAlias relation name =>
      rcases List.mem_cons.mp hm with rfl | hm
      · rfl
      · obtain ⟨c, hc, hmc⟩ := List.mem_flatMap.mp hm
        rw [List.mem_singleton.mp hc] at hmc
        exact ih relation List.mem_cons_self h m hmc
    | _ => cases h

theorem isRelation_of_tableName? {n : Node} {table : String} (h : n.tableName? = some table) :
    n.isRelation = true := n.isRelation_of_mem_parts h n List.mem_cons_self

/-- A column of a relation can always be named. -/
theorem attr_of_tableName? {n : Node} {table : String} (h : n.tableName? = some table)
    (column : String) : n.attr column = .ok (n.columnOf column) := by
  unfold attr checkRelation
  rw [if_pos (isRelation_of_tableName? h)]
  rfl

/-- All columns in a predicate are columns of one relation, written under its name. -/
def Concerns (relation predicate : Node) : Prop :=
  ∀ n ∈ predicate.parts, ∀ r name typeName, n.form = .column r name typeName → r = relation

theorem concerns_mk {relation : Node} {form : Form Node}
    (hself : ∀ r name typeName, form = .column r name typeName → r = relation)
    (h : ∀ c ∈ form.children, relation.Concerns c) : relation.Concerns ⟨form⟩ := by
  intro n hn
  rw [parts_mk] at hn
  rcases List.mem_cons.mp hn with rfl | hn
  · exact hself
  · obtain ⟨c, hc, hnc⟩ := List.mem_flatMap.mp hn
    exact h c hc n hnc

section Concerns

variable {relation left right operand : Node} {table : String}

theorem concerns_columnOf (h : relation.tableName? = some table) (column : String) :
    relation.Concerns (relation.columnOf column) := by
  refine concerns_mk (fun r name typeName hform => ?_) fun c hc => ?_
  · cases hform
    rfl
  · -- The relation itself is made of relations, so no column stands in it.
    rw [List.mem_singleton.mp hc]
    intro n hn r name typeName hform
    have hrelation := relation.isRelation_of_mem_parts h n hn
    rw [isRelation, hform] at hrelation
    cases hrelation

theorem concerns_literal (relation : Node) (v : Value) : relation.Concerns ⟨.literal v⟩ :=
  concerns_mk (fun _ _ _ hform => by cases hform) fun _ hc => by cases hc

theorem concerns_bind (relation : Node) (v : Value) : relation.Concerns ⟨.bind v⟩ :=
  concerns_mk (fun _ _ _ hform => by cases hform) fun _ hc => by cases hc

theorem concerns_raw (relation : Node) (sql : String) (binds : List Value) :
    relation.Concerns ⟨.raw sql binds⟩ :=
  concerns_mk (fun _ _ _ hform => by cases hform) fun _ hc => by cases hc

theorem concerns_nullTest (h : relation.Concerns operand) (op : NullTest) :
    relation.Concerns ⟨.nullTest operand op⟩ :=
  concerns_mk (fun _ _ _ hform => by cases hform) (List.forall_mem_singleton.mpr h)

theorem concerns_comparison (hl : relation.Concerns left) (op : ComparisonOp)
    (hr : relation.Concerns right) : relation.Concerns ⟨.comparison left op right⟩ :=
  concerns_mk (fun _ _ _ hform => by cases hform)
    (List.forall_mem_cons.mpr ⟨hl, List.forall_mem_singleton.mpr hr⟩)

theorem concerns_membership (h : relation.Concerns operand) {values : List Node}
    (hvalues : ∀ v ∈ values, relation.Concerns v) (negated : Bool) :
    relation.Concerns ⟨.membership operand values negated⟩ :=
  concerns_mk (fun _ _ _ hform => by cases hform) (List.forall_mem_cons.mpr ⟨h, hvalues⟩)

theorem concerns_negate (h : relation.Concerns operand) : relation.Concerns operand.negate :=
  concerns_mk (fun _ _ _ hform => by cases hform) (List.forall_mem_singleton.mpr h)

theorem concerns_grouping (h : relation.Concerns operand) :
    relation.Concerns (.grouping operand) :=
  concerns_mk (fun _ _ _ hform => by cases hform) (List.forall_mem_singleton.mpr h)

theorem concerns_conjoin (hl : relation.Concerns left) (hr : relation.Concerns right) :
    relation.Concerns (left.conjoin right) :=
  concerns_mk (fun _ _ _ hform => by cases hform)
    (List.forall_mem_cons.mpr ⟨hl, List.forall_mem_singleton.mpr hr⟩)

theorem concerns_disjoin (hl : relation.Concerns left) (hr : relation.Concerns right) :
    relation.Concerns (left.disjoin right) :=
  concerns_grouping (concerns_mk (fun _ _ _ hform => by cases hform)
    (List.forall_mem_cons.mpr ⟨hl, List.forall_mem_singleton.mpr hr⟩))

end Concerns
end Node

/-! ## 2. The predicates of a policy -/

namespace Condition

/-- A result of a policy: something good, or a fault that is no misuse of the tree. -/
def Confined {α : Type} (good : α → Prop) : Except PolicyFault α → Prop
  | .ok a => good a
  | .error (.misuse _) => False
  | .error _ => True

namespace Confined

variable {α β : Type} {good : α → Prop} {good' : β → Prop}

theorem bind {x : Except PolicyFault α} {f : α → Except PolicyFault β} (h : Confined good x)
    (hf : ∀ a, good a → Confined good' (f a)) : Confined good' (x >>= f) := by
  cases x with
  | ok a => exact hf a h
  | error fault =>
    cases fault with
    | misuse fault => exact h.elim
    | _ => exact trivial

theorem map {x : Except PolicyFault α} {f : α → β} (h : Confined good x)
    (hf : ∀ a, good a → good' (f a)) : Confined good' (x.map f) := by
  cases x with
  | ok a => exact hf a h
  | error fault =>
    cases fault with
    | misuse fault => exact h.elim
    | _ => exact trivial

end Confined

/-- Only arrays and objects are no values, and that is no misuse. -/
theorem confined_valueOf (column : String) (value : Json) :
    Confined (fun _ => True) (valueOf column value) := by
  unfold valueOf
  split <;> exact trivial

theorem confined_values (column : String) (values : List Json) :
    Confined (fun _ => True) (values.mapM (valueOf column)) := by
  induction values with
  | nil => exact trivial
  | cons value rest ih =>
    rw [List.mapM_cons]
    exact (confined_valueOf column value).bind fun _ _ => ih.bind fun _ _ => trivial

section Relation

variable {relation : Node} {table : String}

theorem confined_comparison (h : relation.tableName? = some table) (column : String)
    (value : Json) (op : ComparisonOp) {test : Node → Node}
    (htest : ∀ n, relation.Concerns n → relation.Concerns (test n)) :
    Confined relation.Concerns (comparison relation column value op test) := by
  have hcolumn := Node.concerns_columnOf h column
  unfold comparison
  rw [Node.attr_of_tableName? h]
  refine (confined_valueOf column value).bind fun v _ => ?_
  cases v with
  | null => exact htest _ hcolumn
  | _ => exact Node.concerns_comparison hcolumn op (Node.concerns_literal _ _)

/-- A column without a type leaves the values of a list as they are. -/
theorem mapM_coerce_columnOf (relation : Node) (column : String) (values : List Node) :
    values.mapM (relation.columnOf column).coerce = .ok values := by
  have h := mapM_eq_ok (f := (relation.columnOf column).coerce) (g := id) (fun _ => rfl) values
  rwa [List.map_id] at h

theorem confined_membership (h : relation.tableName? = some table) (column : String)
    (values : List Json) : Confined relation.Concerns (membership relation column values) := by
  unfold membership
  rw [Node.attr_of_tableName? h]
  refine (confined_values column values).bind fun vs _ => ?_
  show Confined relation.Concerns (ofMisuse ((relation.columnOf column).inList _))
  rw [Node.inList, mapM_coerce_columnOf]
  refine Node.concerns_membership (Node.concerns_columnOf h column) (fun v hv => ?_) false
  obtain ⟨w, -, rfl⟩ := List.mem_map.mp hv
  exact Node.concerns_literal _ _

theorem concerns_joined {join : Node → Node → Node}
    (hjoin : ∀ l r, relation.Concerns l → relation.Concerns r → relation.Concerns (join l r))
    (whenEmpty : String) {ns : List Node} (h : ∀ n ∈ ns, relation.Concerns n) :
    relation.Concerns (joined whenEmpty join ns) := by
  cases ns with
  | nil => exact Node.concerns_raw _ _ _
  | cons first rest =>
    have hfold : ∀ l, relation.Concerns l → relation.Concerns (rest.foldl join l) := by
      have hrest : ∀ n ∈ rest, relation.Concerns n := fun n hn => h n (List.mem_cons_of_mem _ hn)
      clear h
      induction rest with
      | nil => exact fun l hl => hl
      | cons r more ih =>
        intro l hl
        exact ih (fun n hn => hrest n (List.mem_cons_of_mem _ hn)) _
          (hjoin l r hl (hrest r List.mem_cons_self))
    exact hfold first (h first List.mem_cons_self)

mutual

/-- **The predicate of a condition concerns its relation**, and making it breaks no rule. -/
theorem confined_predicate (h : relation.tableName? = some table) :
    ∀ condition : Condition, Confined relation.Concerns (condition.predicate relation)
  | .eq column value => by
    rw [predicate]
    exact confined_comparison h column value .eq fun n hn => Node.concerns_nullTest hn _
  | .neq column value => by
    rw [predicate]
    exact confined_comparison h column value .notEq fun n hn => Node.concerns_nullTest hn _
  | .oneOf column values => by
    rw [predicate]
    exact confined_membership h column values
  | .isNull column => by
    rw [predicate, Node.attr_of_tableName? h]
    exact Node.concerns_nullTest (Node.concerns_columnOf h column) _
  | .and conditions => by
    rw [predicate]
    exact (confined_predicates h conditions).map fun ns hns =>
      concerns_joined (fun l r hl hr => Node.concerns_grouping (Node.concerns_conjoin hl hr)) _ hns
  | .or conditions => by
    rw [predicate]
    exact (confined_predicates h conditions).map fun ns hns =>
      concerns_joined (fun l r hl hr => Node.concerns_disjoin hl hr) _ hns
  | .not condition => by
    rw [predicate]
    exact (confined_predicate h condition).map fun n hn => Node.concerns_negate hn

theorem confined_predicates (h : relation.tableName? = some table) :
    ∀ conditions : List Condition, Confined (fun ns => ∀ n ∈ ns, relation.Concerns n)
      (predicates relation conditions)
  | [] => fun n hn => by cases hn
  | condition :: rest => by
    rw [predicates]
    refine (confined_predicate h condition).bind fun first hfirst => ?_
    refine (confined_predicates h rest).bind fun more hmore => ?_
    exact List.forall_mem_cons.mpr ⟨hfirst, hmore⟩

end

end Relation
end Condition

/-! ## 3. Members of a stack and their answers -/

/-- A member of a stack of guards. -/
inductive Plugin where
  | softDelete (d : SoftDelete)
  | tenantScope (t : TenantScope)
  | accessPolicy (evaluator : Evaluator)

namespace Plugin

def transformer : Plugin → Transformer
  | .softDelete d => d.transformer
  | .tenantScope t => t.transformer
  | .accessPolicy evaluator => AccessPolicy.transformer evaluator

def guard : Plugin → Guard
  | .softDelete d => d.guard
  | .tenantScope t => t.guard
  | .accessPolicy evaluator => AccessPolicy.guard evaluator

/-- What a decision about a table says about a relation over it. -/
def ofDecision (relation : Node) (table : String) : Decision → Except Failure (Option Node)
  | .allow => .ok none
  | .deny reason => .error (.accessDenied table reason)
  | .filter condition => ((condition.predicate relation).mapError PolicyFault.failure).map some

/-- What a plugin says about one relation over a table: the predicate to add, nothing, or why it
    refuses. The columns of the predicate are those of the relation, under its alias. -/
def answer : Plugin → StatementKind → Node × String → Except Failure (Option Node)
  | .softDelete d, _, (relation, table) =>
    .ok (if d.coverage.covers table then
      some ⟨.nullTest ⟨.column relation d.column none⟩ .isNull⟩ else none)
  | .tenantScope t, _, (relation, table) =>
    if t.coverage.covers table then
      if t.tenant.isNull then
        .error (.missingConfiguration
          ("tenant scope on column \x27" ++ t.column ++ "\x27 has no tenant"))
      else .ok (some ⟨.comparison ⟨.column relation t.column none⟩ .eq ⟨.bind t.tenant⟩⟩)
    else .ok none
  | .accessPolicy evaluator, kind, (relation, table) =>
    match evaluator kind table with
    | .error fault => .error fault.failure
    | .ok decision => ofDecision relation table decision

/-- The evaluator of an access policy may fail, but it breaks no rule of the tree. -/
def Pure : Plugin → Prop
  | .accessPolicy evaluator => ∀ kind table fault, evaluator kind table ≠ .error (.misuse fault)
  | _ => True

section Answer

variable {relation : Node} {table : String}

/-- **The guard of a plugin gives its answers** for relations over a table. -/
theorem guard_eq (h : relation.tableName? = some table) (p : Plugin) (kind : StatementKind) :
    p.guard kind relation table = p.answer kind (relation, table) := by
  cases p with
  | softDelete d =>
    show d.predicate relation table = _
    rw [answer, SoftDelete.predicate, Node.attr_of_tableName? h]
    cases d.coverage.covers table <;> rfl
  | tenantScope t =>
    show t.predicate relation table = _
    rw [answer, TenantScope.predicate, TenantScope.current, Node.attr_of_tableName? h]
    cases t.coverage.covers table with
    | false => rfl
    | true => cases t.tenant.isNull <;> rfl
  | accessPolicy evaluator =>
    show AccessPolicy.guard evaluator kind relation table = _
    rw [answer, AccessPolicy.guard]
    cases evaluator kind table with
    | error fault => rfl
    | ok decision =>
      cases decision with
      | filter condition =>
        show (condition.predicate relation).mapError PolicyFault.failure >>= _
          = ((condition.predicate relation).mapError PolicyFault.failure).map some
        cases condition.predicate relation <;> rfl
      | _ => rfl

/-- An answer is a predicate on the relation, nothing, or a failure that is no misuse. -/
def Sound (relation : Node) : Except Failure (Option Node) → Prop
  | .ok answer => ∀ predicate ∈ answer, relation.Concerns predicate
  | .error failure => ∀ fault, failure ≠ .misuse fault

theorem sound_none (relation : Node) : Sound relation (.ok none) :=
  fun predicate hpredicate => by cases hpredicate

theorem sound_some {predicate : Node} (h : relation.Concerns predicate) :
    Sound relation (.ok (some predicate)) := by
  intro q hq
  obtain rfl := Option.some.inj hq
  exact h

/-- A fault of a policy that is no misuse is a failure that is none. -/
theorem sound_fault {fault : PolicyFault} (h : ∀ misuse, fault ≠ .misuse misuse) :
    Sound relation (.error fault.failure) := by
  intro misuse hfailure
  cases fault with
  | misuse fault => exact h fault rfl
  | _ => cases hfailure

theorem sound_ofDecision (h : relation.tableName? = some table) (decision : Decision) :
    Sound relation (ofDecision relation table decision) := by
  cases decision with
  | allow => exact sound_none relation
  | deny reason => exact fun fault hfailure => by cases hfailure
  | filter condition =>
    have hconfined := condition.confined_predicate h
    rw [ofDecision]
    cases hresult : condition.predicate relation with
    | error fault =>
      rw [hresult] at hconfined
      refine sound_fault fun misuse hmisuse => ?_
      rw [hmisuse] at hconfined
      exact hconfined
    | ok predicate =>
      rw [hresult] at hconfined
      exact sound_some hconfined

/-- **What a plugin answers is sound**: predicates concern their relation, and no rule of the tree
    is broken. -/
theorem sound_answer (h : relation.tableName? = some table) {p : Plugin} (hp : p.Pure)
    (kind : StatementKind) : Sound relation (p.answer kind (relation, table)) := by
  cases p with
  | softDelete d =>
    rw [answer]
    by_cases hcovers : d.coverage.covers table
    · rw [if_pos hcovers]
      exact sound_some (Node.concerns_nullTest (Node.concerns_columnOf h d.column) _)
    · rw [if_neg hcovers]
      exact sound_none relation
  | tenantScope t =>
    rw [answer]
    by_cases hcovers : t.coverage.covers table
    · rw [if_pos hcovers]
      by_cases hnull : t.tenant.isNull
      · rw [if_pos hnull]
        exact fun fault hfailure => by cases hfailure
      · rw [if_neg hnull]
        exact sound_some (Node.concerns_comparison (Node.concerns_columnOf h t.column) _
          (Node.concerns_bind _ _))
    · rw [if_neg hcovers]
      exact sound_none relation
  | accessPolicy evaluator =>
    have hevaluator : ∀ fault, evaluator kind table ≠ .error (.misuse fault) := hp kind table
    rw [answer]
    cases hdecision : evaluator kind table with
    | error fault => exact sound_fault fun misuse hmisuse => hevaluator misuse (hmisuse ▸ hdecision)
    | ok decision => exact sound_ofDecision h decision

end Answer

/-- The answers of a stack: plugin by plugin, and for each of them relation by relation. -/
def answers (stack : List Plugin) (kind : StatementKind) (tables : List (Node × String)) :
    List (Except Failure (Option Node)) :=
  stack.flatMap fun p => tables.map (p.answer kind)

end Plugin

/-! ## 4. The first failure -/

/-- Answers in order come to the predicates they give, or to the first failure among them, whatever
    stands behind it. -/
inductive Settles : List (Except Failure (Option Node)) → Except Failure (List Node) → Prop where
  | granted (given : List (Option Node)) : Settles (given.map .ok) (.ok (given.filterMap id))
  | refused (before : List (Option Node)) (failure : Failure)
    (behind : List (Except Failure (Option Node))) :
    Settles (before.map .ok ++ .error failure :: behind) (.error failure)

namespace Settles

variable {answers more : List (Except Failure (Option Node))}

/-- Behind answers that are all given, others settle as they do alone. -/
theorem append {predicates : List Node} {result : Except Failure (List Node)}
    (h : Settles answers (.ok predicates)) (hmore : Settles more result) :
    Settles (answers ++ more) (result.map (predicates ++ ·)) := by
  cases h with
  | granted given =>
    cases hmore with
    | granted given' =>
      have hgiven := granted (given ++ given')
      rw [List.map_append, List.filterMap_append] at hgiven
      exact hgiven
    | refused before failure behind =>
      have hrefused := refused (given ++ before) failure behind
      rw [List.map_append, List.append_assoc] at hrefused
      exact hrefused

/-- Behind a failure nothing counts. -/
theorem append_of_error {failure : Failure} (h : Settles answers (.error failure))
    (more : List (Except Failure (Option Node))) : Settles (answers ++ more) (.error failure) := by
  cases h with
  | refused before failure behind =>
    rw [List.append_assoc, List.cons_append]
    exact refused before failure (behind ++ more)

/-- What holds of all answers holds of the predicates and of the failure they come to. -/
theorem all {result : Except Failure (List Node)} (h : Settles answers result)
    (good : Node → Prop) (bad : Failure → Prop)
    (hgood : ∀ predicate, .ok (some predicate) ∈ answers → good predicate)
    (hbad : ∀ failure, .error failure ∈ answers → bad failure) :
    (∀ predicates, result = .ok predicates → ∀ predicate ∈ predicates, good predicate)
      ∧ ∀ failure, result = .error failure → bad failure := by
  cases h with
  | granted given =>
    refine ⟨fun predicates hresult predicate hmem => ?_, (fun _ hresult => by cases hresult)⟩
    obtain rfl := Except.ok.inj hresult
    obtain ⟨answer, hanswer, hpredicate⟩ := List.mem_filterMap.mp hmem
    obtain rfl : answer = some predicate := hpredicate
    exact hgood predicate (List.mem_map_of_mem hanswer)
  | refused before failure behind =>
    refine ⟨(fun _ hresult => by cases hresult), fun failure' hresult => ?_⟩
    obtain rfl := Except.error.inj hresult
    exact hbad failure (List.mem_append_right _ List.mem_cons_self)

/-- What answers come to is what going through them does. -/
theorem eq_mapM {result : Except Failure (List Node)} (h : Settles answers result) :
    result = (answers.mapM id).map (List.filterMap id) := by
  cases h with
  | granted given =>
    have hgiven : (given.map .ok).mapM id = (.ok given : Except Failure _) := by
      induction given with
      | nil => rfl
      | cons answer rest ih =>
        rw [List.map_cons, List.mapM_cons, ih]
        rfl
    rw [hgiven]
    rfl
  | refused before failure behind =>
    have hfirst : (before.map Except.ok ++ Except.error failure :: behind).mapM id
        = (.error failure : Except Failure (List (Option Node))) := by
      induction before with
      | nil => rfl
      | cons answer rest ih =>
        rw [List.map_cons, List.cons_append, List.mapM_cons, ih]
        rfl
    rw [hfirst]
    rfl

/-- **Answers come to one result only.** -/
theorem unique {result result' : Except Failure (List Node)} (h : Settles answers result)
    (h' : Settles answers result') : result = result' := by
  rw [h.eq_mapM, h'.eq_mapM]

end Settles

/-- **Answers asked for one by one settle**: asking ends at the first failure. -/
theorem settles_mapM {κ : Type} (ask : κ → Except Failure (Option Node)) (l : List κ) :
    Settles (l.map ask) ((l.mapM ask).map (List.filterMap id)) := by
  induction l with
  | nil => exact .granted []
  | cons a rest ih =>
    rw [List.map_cons, List.mapM_cons]
    cases hfirst : ask a with
    | error failure => exact .refused [] failure _
    | ok answer =>
      have hone : Settles [.ok answer] (.ok ([answer].filterMap id)) := .granted [answer]
      have hall := hone.append ih
      cases hrest : rest.mapM ask with
      | error failure =>
        rw [hrest] at hall
        exact hall
      | ok given =>
        rw [hrest] at hall
        have hgiven : [answer].filterMap id ++ given.filterMap id
            = (answer :: given).filterMap id := List.filterMap_append.symm
        show Settles _ (.ok ((answer :: given).filterMap id))
        rw [← hgiven]
        exact hall

theorem Guard.predicates_eq (g : Guard) (kind : StatementKind) (tables : List (Node × String)) :
    g.predicates kind tables
      = (tables.mapM fun pair => g kind pair.1 pair.2).map (List.filterMap id) := by
  show (tables.mapM fun pair => g kind pair.1 pair.2) >>= _ = _
  cases tables.mapM fun pair => g kind pair.1 pair.2 <;> rfl

/-! ## 5. Stacks -/

theorem tableName?_of_mem_tablesAmong {nodes : List Node} {relation : Node} {table : String}
    (h : (relation, table) ∈ tablesAmong nodes) : relation.tableName? = some table := by
  obtain ⟨n, -, hn⟩ := List.mem_filterMap.mp h
  obtain ⟨name, hname, hpair⟩ := Option.map_eq_some_iff.mp hn
  cases hpair
  exact hname

/-- The statements that guards restrict: the relations they are asked about, and what predicates do
    to the statement. Predicates leave the relations alone. -/
class Guarded (σ : Type) extends Transformable σ where
  kind : StatementKind
  relations : σ → List Node
  restricted : σ → List Node → σ
  restricted_nil : ∀ s, restricted s [] = s
  restricted_append : ∀ s ps qs, restricted (restricted s ps) qs = restricted s (ps ++ qs)
  relations_restricted : ∀ s ps, relations (restricted s ps) = relations s
  transform_plugin : ∀ (p : Plugin) (s : σ), transform p.transformer s
    = (p.guard.predicates kind (tablesAmong (relations s))).map (restricted s)

instance : Guarded (Select Node) where
  kind := .select
  relations s := s.source.toList ++ s.joins.map (·.right)
  restricted s ps := { s with wheres := s.wheres ++ ps }
  restricted_nil s := by simp only [List.append_nil]
  restricted_append s ps qs := by simp only [List.append_assoc]
  relations_restricted _ _ := rfl
  transform_plugin p s := by cases p <;> exact Guard.select_eq _ s

instance : Guarded (Update Node) where
  kind := .update
  relations s := [s.target]
  restricted s ps := { s with wheres := s.wheres ++ ps }
  restricted_nil s := by simp only [List.append_nil]
  restricted_append s ps qs := by simp only [List.append_assoc]
  relations_restricted _ _ := rfl
  transform_plugin p s := by cases p <;> exact Guard.update_eq _ s

instance : Guarded (Delete Node) where
  kind := .delete
  relations s := [s.target]
  restricted s ps := { s with wheres := s.wheres ++ ps }
  restricted_nil s := by simp only [List.append_nil]
  restricted_append s ps qs := by simp only [List.append_assoc]
  relations_restricted _ _ := rfl
  transform_plugin p s := by cases p <;> exact Guard.delete_eq _ s

namespace Guarded

variable {σ : Type} [Guarded σ]

/-- The tables that guards are asked about. -/
def tables (s : σ) : List (Node × String) := tablesAmong (relations s)

/-- The statement behind a stack of guards. -/
def behind (stack : List Plugin) (s : σ) : Except Failure σ :=
  Pipeline.apply (stack.map Plugin.transformer) s

theorem behind_cons (p : Plugin) (rest : List Plugin) (s : σ) :
    behind (p :: rest) s = Transformable.transform p.transformer s >>= behind rest := rfl

/-- One plugin settles its own answers. -/
theorem settles_plugin (p : Plugin) (s : σ) :
    Settles ((tables s).map (p.answer (kind σ))) (p.guard.predicates (kind σ) (tables s)) := by
  have hanswers : (tables s).map (p.answer (kind σ))
      = (tables s).map fun pair => p.guard (kind σ) pair.1 pair.2 :=
    List.map_congr_left fun pair hmem =>
      (p.guard_eq (tableName?_of_mem_tablesAmong hmem) (kind σ)).symm
  rw [hanswers, Guard.predicates_eq]
  exact settles_mapM _ _

/-- **A stack settles its answers.** What it adds are the predicates it gives, in the order of its
    plugins and for each of them in that of the relations; or it ends with the first failure. -/
theorem settles_apply (stack : List Plugin) (s : σ) :
    ∃ added, Settles (Plugin.answers stack (kind σ) (tables s)) added
      ∧ behind stack s = added.map (restricted s) := by
  induction stack generalizing s with
  | nil =>
    refine ⟨.ok [], .granted [], ?_⟩
    show Except.ok s = .ok (restricted s [])
    rw [restricted_nil]
  | cons p rest ih =>
    have hfirst := settles_plugin p s
    have hanswers : Plugin.answers (p :: rest) (kind σ) (tables s)
        = (tables s).map (p.answer (kind σ))
          ++ Plugin.answers rest (kind σ) (tables s) := List.flatMap_cons
    rw [hanswers, behind_cons, transform_plugin]
    show ∃ added, _ ∧ (p.guard.predicates (kind σ) (tables s)).map (restricted s) >>= _ = _
    cases hp : p.guard.predicates (kind σ) (tables s) with
    | error failure =>
      rw [hp] at hfirst
      exact ⟨.error failure, hfirst.append_of_error _, rfl⟩
    | ok predicates =>
      rw [hp] at hfirst
      obtain ⟨added, hadded, hrun⟩ := ih (restricted s predicates)
      -- The rest of the stack is asked about the same relations.
      have hsame : tables (restricted s predicates) = tables s :=
        congrArg tablesAmong (relations_restricted s predicates)
      rw [hsame] at hadded
      refine ⟨added.map (predicates ++ ·), hfirst.append hadded, ?_⟩
      show behind rest (restricted s predicates) = _
      rw [hrun]
      cases added with
      | error failure => rfl
      | ok more => exact congrArg Except.ok (restricted_append s predicates more)

/-- **What a stack lets pass has the tables it had.** -/
theorem tables_of_apply {stack : List Plugin} {s s' : σ} (h : behind stack s = .ok s') :
    tables s' = tables s := by
  obtain ⟨added, -, hrun⟩ := settles_apply stack s
  rw [hrun] at h
  obtain ⟨predicates, -, rfl⟩ := exists_of_map_eq_ok h
  exact congrArg tablesAmong (relations_restricted s predicates)

/-- **What a stack adds concerns the relations it was asked about**, and no stack breaks a rule of
    the tree, unless one of its evaluators does. -/
theorem sound_added {stack : List Plugin} (hpure : ∀ p ∈ stack, p.Pure) {s : σ}
    {added : Except Failure (List Node)}
    (h : Settles (Plugin.answers stack (kind σ) (tables s)) added) :
    (∀ predicates, added = .ok predicates → ∀ predicate ∈ predicates,
        ∃ pair ∈ tables s, pair.1.Concerns predicate)
      ∧ ∀ fault, added ≠ .error (.misuse fault) := by
  have hsound : ∀ answer ∈ Plugin.answers stack (kind σ) (tables s),
      ∃ pair ∈ tables s, Plugin.Sound pair.1 answer := by
    intro answer hanswer
    obtain ⟨p, hp, hmem⟩ := List.mem_flatMap.mp hanswer
    obtain ⟨⟨relation, table⟩, hpair, rfl⟩ := List.mem_map.mp hmem
    exact ⟨_, hpair, Plugin.sound_answer (tableName?_of_mem_tablesAmong hpair) (hpure p hp) _⟩
  have hall := h.all (fun predicate => ∃ pair ∈ tables s, pair.1.Concerns predicate)
    (fun failure => ∀ fault, failure ≠ .misuse fault)
    (fun predicate hmem => by
      obtain ⟨pair, hpair, hanswer⟩ := hsound _ hmem
      exact ⟨pair, hpair, hanswer predicate rfl⟩)
    (fun failure hmem => by
      obtain ⟨_, -, hanswer⟩ := hsound _ hmem
      exact hanswer)
  exact ⟨hall.1, fun fault hadded => hall.2 _ hadded fault rfl⟩

end Guarded

/-- What a stack of guards does to a statement of one kind: given the tables it is asked about and
    what predicates do to the statement. -/
structure Plugin.Effect {σ : Type} [Transformable σ] (stack : List Plugin) (kind : StatementKind)
    (tables : σ → List (Node × String)) (restricted : σ → List Node → σ) (s : σ) : Prop where
  /-- The answers settle what is added, and nothing else changes. -/
  settled : ∃ added, Settles (Plugin.answers stack kind (tables s)) added
    ∧ Pipeline.apply (stack.map Plugin.transformer) s = added.map (restricted s)
    ∧ ∀ predicates, added = .ok predicates → ∀ predicate ∈ predicates,
      ∃ pair ∈ tables s, pair.1.Concerns predicate
  /-- No rule of the tree is broken. -/
  unbroken : ∀ fault, Pipeline.apply (stack.map Plugin.transformer) s ≠ .error (.misuse fault)
  /-- Whatever ran before it, each plugin is asked about the same tables. -/
  steady : ∀ front rest, stack = front ++ rest → ∀ s',
    Pipeline.apply (front.map Plugin.transformer) s = .ok s' → tables s' = tables s

theorem Guarded.effect {σ : Type} [Guarded σ] {stack : List Plugin} (hpure : ∀ p ∈ stack, p.Pure)
    (s : σ) : Plugin.Effect stack (kind σ) tables restricted s := by
  obtain ⟨added, hadded, hrun⟩ := settles_apply stack s
  obtain ⟨hconcerns, hmisuse⟩ := sound_added hpure hadded
  refine ⟨⟨added, hadded, hrun, hconcerns⟩, fun fault hfault => ?_, ?_⟩
  · rw [← behind, hrun] at hfault
    cases added with
    | error failure => exact hmisuse fault (congrArg _ (Except.error.inj hfault))
    | ok predicates => cases hfault
  · exact fun front rest _ s' hs' => tables_of_apply hs'

/-- **What a stack of guards does to a statement.** Soft deletion, tenants and access policies in
    any order and with any settings are asked, one after the other, about each relation over a
    table: for a SELECT the source and then the joins, otherwise the target. Either all predicates
    go behind those already there, in this order, and nothing else changes; or the first failure is
    the result, whatever comes behind it. No rule of the tree is broken, each predicate names only
    columns of its relation under its alias, and each plugin is asked about the same tables. -/
theorem Pipeline.apply_plugins (stack : List Plugin) (hpure : ∀ p ∈ stack, p.Pure) :
    (∀ s : Select Node, Plugin.Effect stack .select Select.tables
        (fun s added => { s with wheres := s.wheres ++ added }) s)
      ∧ (∀ s : Update Node, Plugin.Effect stack .update (fun s => tablesAmong [s.target])
        (fun s added => { s with wheres := s.wheres ++ added }) s)
      ∧ ∀ s : Delete Node, Plugin.Effect stack .delete (fun s => tablesAmong [s.target])
        (fun s added => { s with wheres := s.wheres ++ added }) s :=
  ⟨Guarded.effect hpure, Guarded.effect hpure, Guarded.effect hpure⟩

/-- A query of two relations, one of them under an alias, with a predicate of its own. -/
def ordersOfUsers : Select Node where
  source := some ⟨.tableAlias ⟨.table "users"⟩ "u"⟩
  joins := [{ kind := .cross, right := ⟨.table "orders"⟩ }]
  wheres := [⟨.raw "active" []⟩]

/-- Soft deletion, a tenant for orders, and a policy that has no answer for users and denies the
    rest. -/
def guardedTwice : List Plugin :=
  [.softDelete {}, .tenantScope { tenant := .int 7, coverage := .only ["orders"] },
    .accessPolicy fun _ table =>
      if table == "users" then .error (.evaluation "offline") else .ok (.deny "closed")]

/-- Without the policy three predicates are added, and with it its failure for users is the result:
    that it denies orders comes behind that. -/
theorem apply_plugins_ordersOfUsers :
    (∀ p ∈ guardedTwice, p.Pure)
      ∧ Pipeline.apply ((guardedTwice.take 2).map Plugin.transformer) ordersOfUsers
        = .ok { ordersOfUsers with
          wheres := [⟨.raw "active" []⟩,
            ⟨.nullTest ⟨.column ⟨.tableAlias ⟨.table "users"⟩ "u"⟩ "deleted_at" none⟩ .isNull⟩,
            ⟨.nullTest ⟨.column ⟨.table "orders"⟩ "deleted_at" none⟩ .isNull⟩,
            ⟨.comparison ⟨.column ⟨.table "orders"⟩ "tenant_id" none⟩ .eq ⟨.bind (.int 7)⟩⟩] }
      ∧ Pipeline.apply (guardedTwice.map Plugin.transformer) ordersOfUsers
        = .error (.evaluator "policy evaluation failed: offline") := by
  have hpure : ∀ p ∈ guardedTwice, p.Pure := by
    refine List.forall_mem_cons.mpr ⟨trivial, List.forall_mem_cons.mpr ⟨trivial, ?_⟩⟩
    refine List.forall_mem_singleton.mpr fun kind table fault => ?_
    dsimp only
    split <;> exact fun h => by cases h
  obtain ⟨added, hadded, happly, -⟩ :=
    ((Pipeline.apply_plugins (guardedTwice.take 2) fun p hp =>
      hpure p (List.mem_of_mem_take hp)).1 ordersOfUsers).settled
  obtain ⟨added', hadded', happly', -⟩ :=
    ((Pipeline.apply_plugins guardedTwice hpure).1 ordersOfUsers).settled
  refine ⟨hpure, ?_, ?_⟩
  · rw [happly, hadded.unique (.granted
      [some ⟨.nullTest ⟨.column ⟨.tableAlias ⟨.table "users"⟩ "u"⟩ "deleted_at" none⟩ .isNull⟩,
        some ⟨.nullTest ⟨.column ⟨.table "orders"⟩ "deleted_at" none⟩ .isNull⟩, none,
        some ⟨.comparison ⟨.column ⟨.table "orders"⟩ "tenant_id" none⟩ .eq ⟨.bind (.int 7)⟩⟩])]
    rfl
  · rw [happly', hadded'.unique (.refused
      [some ⟨.nullTest ⟨.column ⟨.tableAlias ⟨.table "users"⟩ "u"⟩ "deleted_at" none⟩ .isNull⟩,
        some ⟨.nullTest ⟨.column ⟨.table "orders"⟩ "deleted_at" none⟩ .isNull⟩, none,
        some ⟨.comparison ⟨.column ⟨.table "orders"⟩ "tenant_id" none⟩ .eq ⟨.bind (.int 7)⟩⟩]
      (.evaluator "policy evaluation failed: offline") [.error (.accessDenied "orders" "closed")])]
    rfl

end SqlTree
