import SqlTree.Guard.TenantScope
import SqlTree.Proofs.Denial

/-!
# Scopes without a tenant

A tenant scope asks for its tenant only when it is about to write it into a statement. So without
one it refuses some statements and lets the others pass, and this file says which:

* `TenantScope.Scopes` -- the statements that a scope writes its tenant into;
* `TenantScope.predicates_of_null`, `TenantScope.predicates_of_tenant` -- what guarding some tables
  comes to, without and with a tenant; the three guarded kinds of statements follow from it at once
  (`Demands.guarded`), an INSERT is for itself (`Demands.insert`);
* `TenantScope.transform_of_null` -- without a tenant a statement is refused exactly if any tenant
  would change it;
* `TenantScope.not_strict` -- so some INSERTs into covered tables pass.
-/

namespace SqlTree.TenantScope

variable {t : TenantScope} {kind : StatementKind} {tables : List (Node × String)} {relation : Node}

/-! ## 1. What a scope is about -/

/-- The failure of having no tenant. -/
def missing (t : TenantScope) : Failure :=
  .missingConfiguration ("tenant scope on column \x27" ++ t.column ++ "\x27 has no tenant")

/-- A relation is over a covered table. -/
def Covers (t : TenantScope) (relation : Node) : Prop :=
  ∃ table, relation.Over table ∧ t.coverage.covers table

/-- A statement reads or writes a covered table, whatever else it says. -/
def Concerns (t : TenantScope) : Statement → Prop
  | .select s => ∃ relation ∈ s.sources, t.Covers relation
  | .insert s => t.Covers s.target
  | .update s => t.Covers s.target
  | .delete s => t.Covers s.target

/-- The statements that a scope writes its tenant into: those that read, update or delete rows of a
    covered table, and an INSERT into one that lists rows under named columns of which none is the
    tenant column. -/
def Scopes (t : TenantScope) : Statement → Prop
  | .insert s => t.Covers s.target ∧ s.select = none ∧ s.rows ≠ [] ∧ s.columns ≠ []
      ∧ ∀ column ∈ s.columns, t.isTenantColumn column = false
  | statement => t.Concerns statement

/-- Without its tenant a scope refuses the statement if it is one of some statements, and otherwise
    lets it pass as it is; any tenant would change it exactly in the former case. -/
structure Demands (t : TenantScope) (affected : Prop) (statement : Statement) : Prop where
  refused : affected → statement.transform t.transformer = .error t.missing
  passed : ¬ affected → statement.transform t.transformer = .ok statement
  changed : ∀ tenant : Value, tenant.isNull = false →
    ∃ result, statement.transform { t with tenant }.transformer = .ok result
      ∧ (affected ↔ result ≠ statement)

/-! ## 2. Guarding tables -/

/-- The predicate that rows of a relation belong to the tenant. -/
def own (t : TenantScope) (relation : Node) : Node :=
  ⟨.comparison ⟨.column relation t.column none⟩ .eq ⟨.bind t.tenant⟩⟩

/-- A covered table asks for the tenant before anything else. -/
theorem guard_of_null (h : t.tenant.isNull) (kind : StatementKind) (relation : Node)
    (table : String) : t.guard kind relation table
      = if t.coverage.covers table then .error t.missing else .ok none := by
  show t.predicate relation table = _
  rw [predicate, current, if_pos h]
  cases t.coverage.covers table <;> rfl

theorem guard_of_tenant (h : t.tenant.isNull = false) (kind : StatementKind) {table : String}
    (htable : relation.tableName? = some table) : t.guard kind relation table
      = .ok (if t.coverage.covers table then some (t.own relation) else none) := by
  show t.predicate relation table = _
  rw [predicate, current, h, Node.attr_of_tableName? htable]
  cases t.coverage.covers table <;> rfl

/-- **Without a tenant** the first covered table ends the run. -/
theorem predicates_of_null (h : t.tenant.isNull) (kind : StatementKind)
    (tables : List (Node × String)) :
    t.guard.predicates kind tables
      = if tables.any fun pair => t.coverage.covers pair.2 then .error t.missing else .ok [] := by
  rw [Guard.predicates_eq]
  induction tables with
  | nil => rfl
  | cons pair rest ih =>
    rw [List.mapM_cons, List.any_cons, guard_of_null h]
    cases t.coverage.covers pair.2 with
    | true => rfl
    | false =>
      rw [Bool.false_or, ← ih]
      show Except.map _ (rest.mapM _ >>= _) = _
      cases rest.mapM fun pair => t.guard kind pair.1 pair.2 <;> rfl

/-- **With a tenant** every covered table is given its predicate. -/
theorem predicates_of_tenant (h : t.tenant.isNull = false) (kind : StatementKind)
    (htables : ∀ pair ∈ tables, pair.1.tableName? = some pair.2) :
    t.guard.predicates kind tables
      = .ok ((tables.filter fun pair => t.coverage.covers pair.2).map
        fun pair => t.own pair.1) := by
  rw [Guard.predicates_eq]
  induction tables with
  | nil => rfl
  | cons pair rest ih =>
    obtain ⟨htable, hrest⟩ := List.forall_mem_cons.mp htables
    obtain ⟨answers, hanswers, hfound⟩ := exists_of_map_eq_ok (ih hrest)
    rw [List.mapM_cons, guard_of_tenant h kind htable]
    show Except.map _ (rest.mapM _ >>= _) = _
    rw [hanswers, List.filter_cons]
    show Except.ok (List.filterMap id (_ :: answers)) = _
    rw [List.filterMap_cons, hfound]
    cases t.coverage.covers pair.2 <;> rfl

/-- Some table of a list is covered exactly if some relation of the list is. -/
theorem any_covers_iff {relations : List Node} :
    (tablesAmong relations).any (fun pair => t.coverage.covers pair.2)
      ↔ ∃ relation ∈ relations, t.Covers relation := by
  rw [List.any_eq_true]
  constructor
  · rintro ⟨pair, hpair, hcovers⟩
    obtain ⟨hmem, hover⟩ := mem_of_mem_tablesAmong hpair
    exact ⟨pair.1, hmem, pair.2, hover, hcovers⟩
  · rintro ⟨relation, hmem, table, hover, hcovers⟩
    refine ⟨(relation, table), List.mem_filterMap.mpr ⟨relation, hmem, ?_⟩, hcovers⟩
    rw [Node.over_iff.mp hover]
    rfl

/-! ## 3. Statements with a WHERE clause -/

section Guarded

variable {σ : Type} [Guarded σ]

theorem transform_guarded_of_null (h : t.tenant.isNull) (s : σ) :
    Transformable.transform t.transformer s
      = if (Guarded.tables s).any fun pair => t.coverage.covers pair.2 then .error t.missing
        else .ok s := by
  have hplugin := Guarded.transform_plugin (.tenantScope t) s
  show Transformable.transform (Plugin.tenantScope t).transformer s = _
  rw [hplugin]
  show Except.map _ (t.guard.predicates _ (Guarded.tables s)) = _
  rw [predicates_of_null h]
  split
  · rfl
  · exact congrArg _ (Guarded.restricted_nil s)

theorem transform_guarded_of_tenant (h : t.tenant.isNull = false) (s : σ) :
    Transformable.transform t.transformer s
      = .ok (Guarded.restricted s (((Guarded.tables s).filter fun pair =>
        t.coverage.covers pair.2).map fun pair => t.own pair.1)) := by
  have hplugin := Guarded.transform_plugin (.tenantScope t) s
  show Transformable.transform (Plugin.tenantScope t).transformer s = _
  rw [hplugin]
  have htables : ∀ pair ∈ Guarded.tables s, pair.1.tableName? = some pair.2 := fun pair hpair =>
    tableName?_of_mem_tablesAmong hpair
  show Except.map _ (t.guard.predicates _ (Guarded.tables s)) = _
  rw [predicates_of_tenant h _ htables]
  rfl

/-- **A guarded statement** asks for the tenant exactly if a guard is asked about a covered
    table. -/
theorem Demands.guarded (h : t.tenant.isNull) (make : σ → Statement) (s : σ)
    (hmake : ∀ p : Transformer, (make s).transform p = (Transformable.transform p s).map make)
    (hgrows : ∀ predicates, make (Guarded.restricted s predicates) = make s ↔ predicates = []) :
    t.Demands (∃ relation ∈ Guarded.relations s, t.Covers relation) (make s) := by
  have hcovers : (Guarded.tables s).any (fun pair => t.coverage.covers pair.2)
      ↔ ∃ relation ∈ Guarded.relations s, t.Covers relation := any_covers_iff
  refine ⟨fun hsome => ?refused, fun hnone => ?passed, fun tenant htenant => ?changed⟩
  case refused =>
    rw [hmake, transform_guarded_of_null h, if_pos (hcovers.mpr hsome)]
    rfl
  case passed =>
    rw [hmake, transform_guarded_of_null h, if_neg fun hany => hnone (hcovers.mp hany)]
    rfl
  case changed =>
    refine ⟨_, by rw [hmake, transform_guarded_of_tenant htenant]; rfl, ?_⟩
    -- what is added is a predicate for each covered table
    rw [Ne, hgrows, List.map_eq_nil_iff, ← hcovers, List.any_eq_true, List.filter_eq_nil_iff]
    simp only [not_forall, not_not, exists_prop]

end Guarded

/-! ## 4. INSERT -/

section Insert

variable {s : Insert Node} {table : String}

theorem covers_iff (htable : relation.tableName? = some table) :
    t.Covers relation ↔ t.coverage.covers table := by
  constructor
  · rintro ⟨other, hover, hcovers⟩
    obtain rfl := Option.some.inj (htable.symm.trans (Node.over_iff.mp hover))
    exact hcovers
  · exact fun hcovers => ⟨table, Node.over_iff.mpr htable, hcovers⟩

theorem stamps_iff (htable : s.target.tableName? = some table) :
    t.stamps s table ↔ t.Scopes (.insert s) := by
  show _ ↔ t.Covers s.target ∧ _
  rw [covers_iff htable, stamps]
  simp [and_assoc]

/-- Rows that the scope has nothing to do with go in as they are, tenant or not. -/
theorem insert_of_not_scopes (h : ¬ t.Scopes (.insert s)) : t.insert s = .ok s := by
  rw [insert]
  cases htable : s.target.tableName? with
  | none => rfl
  | some table =>
    show (if t.stamps s table then _ else _) = _
    rw [if_neg fun hstamps => h ((stamps_iff htable).mp hstamps)]
    rfl

/-- The others ask for the tenant first. -/
theorem insert_of_scopes (h : t.Scopes (.insert s)) :
    t.insert s = t.current.map fun tenant =>
      { s with
        columns := s.columns ++ [s.target.columnOf t.column]
        rows := s.rows.map (· ++ [.bind tenant]) } := by
  obtain ⟨table, hover, -⟩ := h.1
  have htable := Node.over_iff.mp hover
  rw [insert, htable]
  show (if t.stamps s table then _ else _) = _
  rw [if_pos ((stamps_iff htable).mpr h), Node.attr_of_tableName? htable]
  cases t.current <;> rfl

theorem demands_insert (h : t.tenant.isNull) (s : Insert Node) :
    t.Demands (t.Scopes (.insert s)) (.insert s) := by
  refine ⟨fun hscopes => ?refused, fun hscopes => ?passed, fun tenant htenant => ?changed⟩
  case refused =>
    show (t.insert s).map _ = _
    rw [insert_of_scopes hscopes, current, if_pos h]
    rfl
  case passed =>
    show (t.insert s).map _ = _
    rw [insert_of_not_scopes hscopes]
    rfl
  case changed =>
    have hscope : TenantScope.Scopes { t with tenant } (.insert s) ↔ t.Scopes (.insert s) := Iff.rfl
    show ∃ result, (TenantScope.insert { t with tenant } s).map _ = _ ∧ _
    by_cases hscopes : t.Scopes (.insert s)
    · rw [insert_of_scopes (hscope.mpr hscopes), current, htenant]
      refine ⟨_, rfl, iff_of_true hscopes fun heq => ?_⟩
      -- the column that is added makes it another statement
      have hcolumns := congrArg (List.length ∘ Insert.columns) (Statement.insert.inj heq)
      rw [Function.comp_apply, List.length_append, List.length_singleton] at hcolumns
      exact Nat.succ_ne_self _ hcolumns
    · rw [insert_of_not_scopes fun hs => hscopes (hscope.mp hs)]
      exact ⟨_, rfl, iff_of_false hscopes fun hne => hne rfl⟩

end Insert

/-! ## 5. All statements -/

/-- **Without a tenant a scope refuses what it would scope.** A SELECT with a covered table among
    its sources, an UPDATE or DELETE of a covered table, and an INSERT into one that lists rows
    under named columns without the tenant column, fail for the missing tenant, whatever else they
    say. Every other statement passes as it is. Any tenant lets all statements pass, and those that
    are refused without one are exactly those that it changes. -/
theorem transform_of_null (t : TenantScope) (h : t.tenant.isNull) (statement : Statement) :
    t.Demands (t.Scopes statement) statement := by
  have hgrown {wheres predicates : List Node} (hsame : wheres ++ predicates = wheres) :
      predicates = [] := List.append_right_eq_self.mp hsame
  have htarget (target : Node) :
      t.Covers target = ∃ relation ∈ [target], t.Covers relation := by
    simp only [List.mem_singleton, exists_eq_left]
  cases statement with
  | select s =>
    exact .guarded h Statement.select s (fun _ => rfl) fun predicates =>
      ⟨fun hsame => hgrown (congrArg Select.wheres (Statement.select.inj hsame)), fun hnil => by
        rw [hnil, Guarded.restricted_nil]⟩
  | insert s => exact demands_insert h s
  | update s =>
    show t.Demands (t.Covers s.target) _
    rw [htarget]
    exact .guarded h Statement.update s (fun _ => rfl) fun predicates =>
      ⟨fun hsame => hgrown (congrArg Update.wheres (Statement.update.inj hsame)), fun hnil => by
        rw [hnil, Guarded.restricted_nil]⟩
  | delete s =>
    show t.Demands (t.Covers s.target) _
    rw [htarget]
    exact .guarded h Statement.delete s (fun _ => rfl) fun predicates =>
      ⟨fun hsame => hgrown (congrArg Delete.wheres (Statement.delete.inj hsame)), fun hnil => by
        rw [hnil, Guarded.restricted_nil]⟩

/-- Orders are scoped, and no tenant is set. -/
def ordersOnly : TenantScope where
  coverage := .only ["orders"]

/-- An INSERT of one row under a named column. -/
def orderOfTen : Insert Node where
  target := ⟨.tableAlias ⟨.table "orders"⟩ "o"⟩
  columns := [⟨.column ⟨.table "orders"⟩ "total" none⟩]
  rows := [[⟨.bind (.int 10)⟩]]

/-- It is refused as a join to the orders is, and countries are read without a tenant. -/
theorem transform_of_null_ordersOnly :
    ordersOnly.tenant.isNull
      ∧ ordersOnly.Scopes (.insert orderOfTen)
      ∧ (Statement.insert orderOfTen).transform ordersOnly.transformer
        = .error (.missingConfiguration "tenant scope on column \x27tenant_id\x27 has no tenant")
      ∧ (Statement.select { source := some ⟨.table "countries"⟩, joins := [
          { kind := .cross, right := ⟨.table "orders"⟩ }] }).transform ordersOnly.transformer
        = .error (.missingConfiguration "tenant scope on column \x27tenant_id\x27 has no tenant")
      ∧ ¬ ordersOnly.Scopes (.delete { target := ⟨.table "countries"⟩ })
      ∧ (Statement.delete { target := ⟨.table "countries"⟩ }).transform ordersOnly.transformer
        = .ok (.delete { target := ⟨.table "countries"⟩ }) := by
  have hscopes : ordersOnly.Scopes (.insert orderOfTen) :=
    ⟨⟨"orders", .named .base "o", rfl⟩, rfl, by decide, by decide, by decide⟩
  have hother : ¬ ordersOnly.Scopes (.delete { target := ⟨.table "countries"⟩ }) := by
    rintro ⟨table, hover, hcovers⟩
    cases hover
    cases hcovers
  refine ⟨rfl, hscopes, (transform_of_null ordersOnly rfl _).refused hscopes,
    (transform_of_null ordersOnly rfl _).refused ?_, hother,
    (transform_of_null ordersOnly rfl _).passed hother⟩
  exact ⟨_, List.mem_cons_of_mem _ List.mem_cons_self, "orders", .base, rfl⟩

/-! ## 6. What passes without a tenant -/

/-- A scope without a tenant refuses every statement that reads or writes a covered table. -/
def Strict (t : TenantScope) : Prop :=
  ∀ statement, t.Concerns statement → statement.transform t.transformer = .error t.missing

/-- INSERTs into orders: rows without named columns, a query, rows under the tenant column, and no
    rows at all. -/
def unscopedInserts : List (Insert Node) :=
  [{ target := ⟨.table "orders"⟩, rows := [[⟨.bind (.int 1)⟩, ⟨.bind (.int 2)⟩]] },
    { target := ⟨.table "orders"⟩, columns := [⟨.column ⟨.table "orders"⟩ "total" none⟩],
      select := some ⟨.select { projections := [⟨.literal (.int 1)⟩] }⟩ },
    { target := ⟨.table "orders"⟩, columns := [⟨.column ⟨.table "orders"⟩ "tenant_id" none⟩],
      rows := [[⟨.bind (.int 99)⟩]] },
    { target := ⟨.table "orders"⟩ }]

/-- **INSERTs that nothing is added to pass**, though there is no tenant and the table is
    covered. -/
theorem not_strict :
    ¬ Strict ordersOnly
      ∧ ∀ s ∈ unscopedInserts, ordersOnly.Concerns (.insert s)
        ∧ (Statement.insert s).transform ordersOnly.transformer = .ok (.insert s) := by
  have hpasses : ∀ s ∈ unscopedInserts, ordersOnly.Concerns (.insert s)
      ∧ (Statement.insert s).transform ordersOnly.transformer = .ok (.insert s) := by
    simp only [unscopedInserts, List.forall_mem_cons]
    refine ⟨⟨?_, rfl⟩, ⟨?_, rfl⟩, ⟨?_, rfl⟩, ⟨?_, rfl⟩, fun s hs => by cases hs⟩ <;>
      exact ⟨"orders", .base, rfl⟩
  refine ⟨fun h => ?_, hpasses⟩
  obtain ⟨hconcerns, hpass⟩ := hpasses _ List.mem_cons_self
  cases hpass.symm.trans (h _ hconcerns)

end SqlTree.TenantScope
