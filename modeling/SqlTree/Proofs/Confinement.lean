import SqlTree.Proofs.FilteredTables
import SqlTree.Proofs.MissingTenant

/-!
# Writes to rows that are already there

An UPDATE, a DELETE, and an INSERT whose conflicts end in an update change rows that are already
there. A tenant scope confines the first two to the rows of its tenant, but an INSERT it only
completes:

* `Statement.Alters` -- a statement changes rows of a relation, those that satisfy some predicates;
* `Engine.altered` -- which records these are;
* `Engine.altered_own` -- of them the predicate of a scope leaves those of the tenant;
* `TenantScope.transform_alters` -- what a scope does to the predicates of each statement;
* `TenantScope.upsert_unconfined` -- so the update behind a conflict reaches every tenant's rows.
-/

namespace SqlTree

/-! ## 1. Rows that a statement changes -/

/-- A statement changes or deletes rows of a relation that are already there: those that satisfy
    all of some predicates. An INSERT does if a conflict ends in an update. -/
inductive Statement.Alters : Statement → Node → List Node → Prop where
  | update (s : Update Node) : Alters (.update s) s.target s.wheres
  | delete (s : Delete Node) : Alters (.delete s) s.target s.wheres
  | upsert (s : Insert Node) {columns : List Node} {assignments : List (Assignment Node)}
    {wheres : List Node} (h : s.onConflict = some ⟨columns, .doUpdate assignments wheres⟩) :
    Alters (.insert s) s.target wheres

/-- **A statement changes rows of one relation under one list of predicates.** -/
theorem Statement.Alters.unique {statement : Statement} {target target' : Node}
    {wheres wheres' : List Node} (h : statement.Alters target wheres)
    (h' : statement.Alters target' wheres') : target' = target ∧ wheres' = wheres := by
  cases h with
  | update s =>
    cases h'
    exact ⟨rfl, rfl⟩
  | delete s =>
    cases h'
    exact ⟨rfl, rfl⟩
  | upsert s h =>
    cases h' with
    | upsert _ h' =>
      rw [h] at h'
      cases h'
      exact ⟨rfl, rfl⟩

section Records

variable {δ : Type} (E : Engine δ) (db : Database δ)

/-- The records of a relation that predicates accept. -/
def Engine.altered (target : Node) (wheres : List Node) : List (Record δ) :=
  (E.records db target).filter fun record => E.accepts db wheres [(target, record)]

theorem Binding.record?_self (target : Node) (record : Record δ) :
    Binding.record? [(target, record)] target = some record := by
  rw [record?, List.find?_cons_of_pos (by exact beq_self_eq_true _)]
  rfl

/-- **The predicate of a scope leaves the records of its tenant.** -/
theorem Engine.altered_own (t : TenantScope) (target : Node) (wheres : List Node) :
    E.altered db target (wheres ++ [t.own target])
      = (E.altered db target wheres).filter (t.owns E) := by
  rw [altered, altered, List.filter_filter]
  refine List.filter_congr fun record _ => ?_
  have hown : E.accepts db [t.own target] [(target, record)] = t.owns E record := by
    rw [Bool.eq_iff_iff, accepts_iff, List.forall_mem_singleton]
    exact TenantScope.test_mark (Binding.record?_self target record)
  rw [accepts_append, hown, Bool.and_comm]

end Records

/-! ## 2. What a scope does to them -/

namespace TenantScope

variable {t : TenantScope} {statement : Statement} {target : Node} {wheres : List Node}

/-- A scope holds every statement that changes rows of a covered table to the tenant's rows. -/
def Confines (t : TenantScope) : Prop :=
  ∀ (statement : Statement) (target : Node) (wheres : List Node),
    statement.Alters target wheres → t.Covers target →
      ∃ result wheres', statement.transform t.transformer = .ok result
        ∧ result.Alters target wheres' ∧ t.own target ∈ wheres'

/-- Over one covered target the predicate of the scope goes behind those already there. -/
theorem restricted_of_covers {σ : Type} [Guarded σ] (h : t.tenant.isNull = false)
    (hcovers : t.Covers target) {s : σ} (hs : Guarded.relations s = [target]) :
    Transformable.transform t.transformer s = .ok (Guarded.restricted s [t.own target]) := by
  obtain ⟨table, hover, hcovered⟩ := hcovers
  have htables : Guarded.tables s = [(target, table)] := by
    rw [Guarded.tables, hs]
    exact tablesAmong_cons hover []
  rw [transform_guarded_of_tenant h, htables, List.filter_cons_of_pos (by exact hcovered)]
  rfl

/-- An INSERT keeps its target and what it does on a conflict. -/
theorem insert_of_tenant (h : t.tenant.isNull = false) (s : Insert Node) :
    ∃ s', t.insert s = .ok s' ∧ s'.target = s.target ∧ s'.onConflict = s.onConflict := by
  by_cases hscopes : t.Scopes (.insert s)
  · rw [insert_of_scopes hscopes, current, h]
    exact ⟨_, rfl, rfl, rfl⟩
  · exact ⟨s, insert_of_not_scopes hscopes, rfl, rfl⟩

/-- **What a scope does to the rows that a statement changes.** With a tenant, every statement that
    changes rows of a covered table passes, and it changes rows of the same relation. An UPDATE or
    DELETE gets the predicate that the tenant owns the row behind its own, so of the records that
    it would change, in any database, those of the tenant are left, in their order. The update
    behind a conflict keeps the predicates it had: it is held to the tenant's rows exactly if the
    statement said so itself. -/
theorem transform_alters (t : TenantScope) (h : t.tenant.isNull = false)
    (halters : statement.Alters target wheres) (hcovers : t.Covers target) :
    ∃ result wheres', statement.transform t.transformer = .ok result
      ∧ (∀ target' predicates, result.Alters target' predicates
          ↔ target' = target ∧ predicates = wheres')
      ∧ (t.own target ∈ wheres' ↔ statement.kind ≠ .insert ∨ t.own target ∈ wheres)
      ∧ (statement.kind ≠ .insert → wheres' = wheres ++ [t.own target]
          ∧ ∀ (δ : Type) (E : Engine δ) (db : Database δ),
            E.altered db target wheres' = (E.altered db target wheres).filter (t.owns E))
      ∧ (statement.kind = .insert → wheres' = wheres) := by
  have honly : ∀ {result : Statement} {wheres' : List Node}, result.Alters target wheres' →
      ∀ target' predicates, result.Alters target' predicates
        ↔ target' = target ∧ predicates = wheres' := by
    intro result wheres' hresult target' predicates
    refine ⟨hresult.unique, ?_⟩
    rintro ⟨rfl, rfl⟩
    exact hresult
  have hbehind : t.own target ∈ wheres ++ [t.own target] :=
    List.mem_append_right _ List.mem_cons_self
  cases halters with
  | update s =>
    have hpasses : t.transformer.update s = _ := restricted_of_covers h hcovers (s := s) rfl
    refine ⟨.update { s with wheres := s.wheres ++ [t.own s.target] }, s.wheres ++ [t.own s.target],
      congrArg (Except.map Statement.update) hpasses, honly (.update _), ?_, fun _ => ?_, nofun⟩
    · exact iff_of_true hbehind (.inl nofun)
    · exact ⟨rfl, fun δ E db => E.altered_own db t _ _⟩
  | delete s =>
    have hpasses : t.transformer.delete s = _ := restricted_of_covers h hcovers (s := s) rfl
    refine ⟨.delete { s with wheres := s.wheres ++ [t.own s.target] }, s.wheres ++ [t.own s.target],
      congrArg (Except.map Statement.delete) hpasses, honly (.delete _), ?_, fun _ => ?_, nofun⟩
    · exact iff_of_true hbehind (.inl nofun)
    · exact ⟨rfl, fun δ E db => E.altered_own db t _ _⟩
  | upsert s hconflict =>
    obtain ⟨s', hpasses, htarget, hsame⟩ := insert_of_tenant h s
    refine ⟨.insert s', wheres, congrArg (Except.map Statement.insert) hpasses, ?_, ?_, ?_, ?_⟩
    · rw [← htarget] at honly ⊢
      exact honly (.upsert s' (hsame.trans hconflict))
    · exact ⟨.inr, fun h => h.resolve_left fun hkind => hkind rfl⟩
    · exact fun hkind => absurd rfl hkind
    · exact fun _ => rfl

/-- The orders that the seventh tenant may change. -/
def seventh : TenantScope where
  tenant := .int 7
  coverage := .only ["orders"]

/-- A new total for an order. -/
def newTotal : Assignment Node where
  target := ⟨.column ⟨.table "orders"⟩ "total" none⟩
  value := ⟨.bind (.int 10)⟩

/-- An order of some tenant, or its total if the order is there. -/
def orderOrTotal : Insert Node where
  target := ⟨.table "orders"⟩
  columns := [⟨.column ⟨.table "orders"⟩ "id" none⟩, ⟨.column ⟨.table "orders"⟩ "total" none⟩]
  rows := [[⟨.bind (.int 1)⟩, ⟨.bind (.int 10)⟩]]
  onConflict := some
    ⟨[⟨.column ⟨.table "orders"⟩ "id" none⟩], .doUpdate [newTotal] [⟨.raw "open" []⟩]⟩

/-- Orders of two tenants, the second of which has none. -/
def ordersOfTwo : Database Json := fun table =>
  if table = "orders" then
    [fun column => if column = "tenant_id" then some (.whole ⟨7, by decide⟩) else none,
      fun column => if column = "tenant_id" then some (.whole ⟨8, by decide⟩) else none,
      fun _ => none]
  else []

/-- Of three orders a DELETE under an alias reaches one, where it would reach all. -/
theorem transform_alters_oldOrders :
    seventh.tenant.isNull = false ∧ seventh.Covers ⟨.tableAlias ⟨.table "orders"⟩ "o"⟩
      ∧ (Engine.ofJson.altered ordersOfTwo ⟨.tableAlias ⟨.table "orders"⟩ "o"⟩ []).length = 3
      ∧ ∃ result wheres,
        (Statement.delete { target := ⟨.tableAlias ⟨.table "orders"⟩ "o"⟩ }).transform
          seventh.transformer = .ok result
        ∧ result.Alters ⟨.tableAlias ⟨.table "orders"⟩ "o"⟩ wheres
        ∧ (Engine.ofJson.altered ordersOfTwo ⟨.tableAlias ⟨.table "orders"⟩ "o"⟩ wheres).length
          = 1 := by
  have hcovers : seventh.Covers ⟨.tableAlias ⟨.table "orders"⟩ "o"⟩ :=
    ⟨"orders", .named .base "o", rfl⟩
  obtain ⟨result, wheres, hpasses, honly, -, hleft, -⟩ :=
    transform_alters seventh rfl (.delete { target := ⟨.tableAlias ⟨.table "orders"⟩ "o"⟩ }) hcovers
  refine ⟨rfl, hcovers, rfl, result, wheres, hpasses, (honly _ _).mpr ⟨rfl, rfl⟩, ?_⟩
  rw [(hleft nofun).2]
  rfl

/-- **The update behind a conflict is not confined**: the row that is inserted gets the tenant, and
    the one that is already there is changed whosever it is. -/
theorem upsert_unconfined :
    ¬ seventh.Confines
      ∧ (Statement.insert orderOrTotal).transform seventh.transformer = .ok (.insert
        { orderOrTotal with
          columns := orderOrTotal.columns ++ [⟨.column ⟨.table "orders"⟩ "tenant_id" none⟩]
          rows := [[⟨.bind (.int 1)⟩, ⟨.bind (.int 10)⟩, ⟨.bind (.int 7)⟩]] }) := by
  have hpasses : (Statement.insert orderOrTotal).transform seventh.transformer = .ok (.insert
      { orderOrTotal with
        columns := orderOrTotal.columns ++ [⟨.column ⟨.table "orders"⟩ "tenant_id" none⟩]
        rows := [[⟨.bind (.int 1)⟩, ⟨.bind (.int 10)⟩, ⟨.bind (.int 7)⟩]] }) := rfl
  refine ⟨fun hconfines => ?_, hpasses⟩
  obtain ⟨result, wheres, hresult, halters, hmem⟩ :=
    hconfines _ _ _ (.upsert orderOrTotal rfl) ⟨"orders", .base, rfl⟩
  obtain rfl := Except.ok.inj (hpasses.symm.trans hresult)
  obtain ⟨-, rfl⟩ := Statement.Alters.unique (.upsert _ rfl) halters
  cases List.mem_singleton.mp hmem

end TenantScope
end SqlTree
