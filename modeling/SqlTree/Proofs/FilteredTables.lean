import SqlTree.Proofs.Denial
import SqlTree.Proofs.Evaluation

/-!
# Filtering in WHERE and querying filtered tables

Soft deletion and tenants put predicates behind a WHERE clause. This file says that a query so
restricted gives the rows that it gave before over tables that hold only the records it may see:

* `Engine.product`, `Engine.rows` -- the rows of a SELECT before and behind its WHERE clause, in
  the order of nested loops and each as often as it is found;
* `Database.cut` -- a database in which some tables keep some records only;
* `Engine.product_cut` -- what is cut out of the tables is cut out of their product, join by join;
* `Engine.rows_marked` -- predicates that mark the records to keep, each on its own relation, do
  the same behind the WHERE clause;
* `Select.rows_guarded` -- so tenants and soft deletion filter tables.
-/

namespace SqlTree

variable {δ : Type}

/-! ## 1. The rows of a SELECT -/

namespace Engine

variable (E : Engine δ) (db : Database δ)

/-- The records of a relation. -/
def records (relation : Node) : List (Record δ) :=
  match relation.tableName? with
  | some table => db table
  | none => E.derived relation db

/-- Whether a row satisfies predicates: only what is true is accepted. -/
def accepts (predicates : List Node) (row : Binding δ) : Bool :=
  Truth.all (predicates.map fun p => E.test db p row) = .yes

/-- A row with each record of a joined relation that the predicate of the join accepts. -/
def extend (j : Join Node) (row : Binding δ) : List (Binding δ) :=
  ((E.records db j.right).map fun record => row ++ [(j.right, record)]).filter
    (E.accepts db j.predicate.toList)

/-- Rows joined to a relation, in nested loops. -/
def join (rows : List (Binding δ)) (j : Join Node) : List (Binding δ) :=
  match j.kind with
  | .inner => rows.flatMap (E.extend db j)
  | .cross => rows.flatMap (E.extend db j)
  | _ => E.outerJoin j db rows

/-- The rows that joins begin with: those of the source, or a single one without any relation. -/
def start : Option Node → List (Binding δ)
  | none => [[]]
  | some relation => (E.records db relation).map fun record => [(relation, record)]

/-- The rows that the source and the joins of a SELECT give. -/
def product (s : Select Node) : List (Binding δ) := s.joins.foldl (E.join db) (E.start db s.source)

/-- The rows that the WHERE clause of a SELECT leaves of them. -/
def rows (s : Select Node) : List (Binding δ) := (E.product db s).filter (E.accepts db s.wheres)

end Engine

/-- A SELECT that joins base tables under different names, by INNER and CROSS only, with no
    subquery in its predicates. -/
structure Select.Plain (E : Engine δ) (s : Select Node) : Prop where
  tables : ∀ r ∈ s.sources, ∃ table, r.Over table
  names : (s.sources.map Node.relationName?).Nodup
  kinds : ∀ j ∈ s.joins, j.kind = .inner ∨ j.kind = .cross
  ons : ∀ j ∈ s.joins, ∀ p ∈ j.predicate.toList, E.Standalone p
  wheres : ∀ p ∈ s.wheres, E.Standalone p

/-- A database in which the covered tables keep some of their records. -/
def Database.cut (db : Database δ) (covers : String → Bool) (keep : Record δ → Bool) :
    Database δ := fun table => if covers table then (db table).filter keep else db table

/-! ## 2. Cutting tables -/

namespace Engine

variable {E : Engine δ} {db : Database δ} {covers : String → Bool} {keep : Record δ → Bool}

theorem accepts_iff {predicates : List Node} {row : Binding δ} :
    E.accepts db predicates row = true ↔ ∀ p ∈ predicates, E.test db p row = .yes := by
  rw [accepts, decide_eq_true_iff, Truth.all_eq_yes_iff, List.forall_mem_map]

theorem accepts_append (ps qs : List Node) (row : Binding δ) :
    E.accepts db (ps ++ qs) row = (E.accepts db ps row && E.accepts db qs row) := by
  rw [Bool.eq_iff_iff, Bool.and_eq_true, accepts_iff, accepts_iff, accepts_iff,
    List.forall_mem_append]

/-- Predicates without subqueries accept the same rows in all databases. -/
theorem accepts_congr {predicates : List Node} (h : ∀ p ∈ predicates, E.Standalone p)
    (db db' : Database δ) : E.accepts db predicates = E.accepts db' predicates := by
  funext row
  unfold accepts
  rw [List.map_congr_left fun p hp => (h p hp).test_congr db db' row]

/-- Whether a record is one that the cut leaves in its table. -/
def kept (covers : String → Bool) (keep : Record δ → Bool) (entry : Node × Record δ) : Bool :=
  match entry.1.tableName? with
  | some table => !covers table || keep entry.2
  | none => true

theorem kept_iff {entry : Node × Record δ} {table : String}
    (h : entry.1.tableName? = some table) :
    kept covers keep entry = true ↔ (covers table = true → keep entry.2 = true) := by
  simp only [kept, h]
  cases covers table <;> simp

theorem records_cut {relation : Node} {table : String} (h : relation.Over table) :
    E.records (db.cut covers keep) relation
      = (E.records db relation).filter fun record => kept covers keep (relation, record) := by
  have htable := Node.over_iff.mp h
  simp only [records, kept, htable, Database.cut]
  cases covers table with
  | false => exact (List.filter_eq_self.mpr fun record _ => rfl).symm
  | true => rfl

theorem extend_cut {j : Join Node} {table : String} (hright : j.right.Over table)
    (hon : ∀ p ∈ j.predicate.toList, E.Standalone p) (row : Binding δ) :
    (E.extend db j row).filter (List.all · (kept covers keep))
      = if row.all (kept covers keep) then E.extend (db.cut covers keep) j row else [] := by
  have hall : ∀ record, (row ++ [(j.right, record)]).all (kept covers keep)
      = (row.all (kept covers keep) && kept covers keep (j.right, record)) := by
    intro record
    rw [List.all_append, List.all_cons, List.all_nil, Bool.and_true]
  unfold extend
  rw [accepts_congr hon (db.cut covers keep) db, records_cut hright, List.filter_comm,
    List.filter_map]
  by_cases hrow : row.all (kept covers keep) = true
  · rw [if_pos hrow]
    congr 2
    refine List.filter_congr fun record _ => ?_
    show (row ++ [(j.right, record)]).all (kept covers keep) = _
    rw [hall, hrow, Bool.true_and]
  · have hnone : (E.records db j.right).filter
        ((List.all · (kept covers keep)) ∘ fun record => row ++ [(j.right, record)]) = [] := by
      refine List.filter_eq_nil_iff.mpr fun record _ => ?_
      show ¬ (row ++ [(j.right, record)]).all (kept covers keep) = true
      rw [hall, Bool.and_eq_true]
      exact fun h => hrow h.1
    rw [if_neg hrow, hnone]
    rfl

/-- **One join of what is cut is what is cut of the join.** -/
theorem join_cut {j : Join Node} {table : String} (hright : j.right.Over table)
    (hkind : j.kind = .inner ∨ j.kind = .cross)
    (hon : ∀ p ∈ j.predicate.toList, E.Standalone p) (rows : List (Binding δ)) :
    E.join (db.cut covers keep) (rows.filter (List.all · (kept covers keep))) j
      = (E.join db rows j).filter (List.all · (kept covers keep)) := by
  have hloop : (rows.filter (List.all · (kept covers keep))).flatMap
        (E.extend (db.cut covers keep) j)
      = (rows.flatMap (E.extend db j)).filter (List.all · (kept covers keep)) := by
    induction rows with
    | nil => rfl
    | cons row rest ih =>
      rw [List.flatMap_cons, List.filter_append, ← ih, extend_cut hright hon, List.filter_cons]
      by_cases hrow : row.all (kept covers keep) = true
      · rw [if_pos hrow, if_pos hrow, List.flatMap_cons]
      · rw [if_neg hrow, if_neg hrow, List.nil_append]
  unfold join
  rcases hkind with hkind | hkind <;> rw [hkind] <;> exact hloop

theorem start_cut {source : Option Node} (h : ∀ r ∈ source.toList, ∃ table, r.Over table) :
    E.start (db.cut covers keep) source
      = (E.start db source).filter (List.all · (kept covers keep)) := by
  cases source with
  | none => rfl
  | some relation =>
    obtain ⟨table, hover⟩ := h relation (List.mem_singleton.mpr rfl)
    simp only [start, records_cut hover, List.filter_map, Function.comp_def, List.all_cons,
      List.all_nil, Bool.and_true]

/-- **What is cut out of the tables is cut out of their product.** -/
theorem product_cut {s : Select Node} (h : s.Plain E) :
    E.product (db.cut covers keep) s
      = (E.product db s).filter (List.all · (kept covers keep)) := by
  unfold product
  rw [start_cut fun r hr => h.tables r (List.mem_append_left _ hr)]
  -- The joins go one by one over rows that are cut the same way.
  have hjoins : ∀ j ∈ s.joins, (∃ table, j.right.Over table) ∧ (j.kind = .inner ∨ j.kind = .cross)
      ∧ ∀ p ∈ j.predicate.toList, E.Standalone p := fun j hj =>
    ⟨h.tables _ (List.mem_append_right _ (List.mem_map_of_mem hj)), h.kinds j hj, h.ons j hj⟩
  generalize E.start db s.source = rows
  generalize s.joins = joins at hjoins
  induction joins generalizing rows with
  | nil => rfl
  | cons j rest ih =>
    obtain ⟨⟨⟨table, hright⟩, hkind, hon⟩, hrest⟩ := List.forall_mem_cons.mp hjoins
    rw [List.foldl_cons, List.foldl_cons, join_cut hright hkind hon]
    exact ih _ hrest

/-! ## 3. The relations in a row -/

/-- **A row of a product has a record for each source**, in order. -/
theorem scope_of_mem_product {s : Select Node}
    (hkinds : ∀ j ∈ s.joins, j.kind = .inner ∨ j.kind = .cross) {row : Binding δ}
    (hrow : row ∈ E.product db s) : row.map (·.1) = s.sources := by
  have hloops : ∀ (joins : List (Join Node)) (rows : List (Binding δ)) (front : List Node),
      (∀ j ∈ joins, j.kind = .inner ∨ j.kind = .cross) →
      (∀ row ∈ rows, row.map (·.1) = front) →
      ∀ row ∈ joins.foldl (E.join db) rows, row.map (·.1) = front ++ joins.map (·.right) := by
    intro joins
    induction joins with
    | nil =>
      intro rows front _ hrows row hrow
      rw [hrows row hrow, List.map_nil, List.append_nil]
    | cons j rest ih =>
      intro rows front hkinds hrows row hrow
      obtain ⟨hkind, hrest⟩ := List.forall_mem_cons.mp hkinds
      have hstep : ∀ row ∈ E.join db rows j, row.map (·.1) = front ++ [j.right] := by
        have hloop : ∀ row ∈ rows.flatMap (E.extend db j), row.map (·.1) = front ++ [j.right] := by
          intro row hrow
          obtain ⟨before, hbefore, hrow⟩ := List.mem_flatMap.mp hrow
          obtain ⟨record, -, rfl⟩ := List.mem_map.mp (List.mem_filter.mp hrow).1
          rw [List.map_append, hrows before hbefore]
          rfl
        unfold join
        rcases hkind with hkind | hkind <;> rw [hkind] <;> exact hloop
      rw [List.map_cons, ← List.singleton_append, ← List.append_assoc]
      exact ih _ _ hrest hstep row hrow
  refine hloops s.joins _ _ hkinds (fun row hrow => ?_) row hrow
  cases hsource : s.source with
  | none =>
    rw [hsource] at hrow
    rw [List.mem_singleton.mp hrow]
    rfl
  | some relation =>
    rw [hsource] at hrow
    obtain ⟨record, -, rfl⟩ := List.mem_map.mp hrow
    rfl

end Engine

/-- **Under different names each relation finds its own record.** -/
theorem Binding.record?_of_mem {row : Binding δ} (hnames : (row.map (·.1.relationName?)).Nodup)
    {relation : Node} {record : Record δ} (h : (relation, record) ∈ row) :
    row.record? relation = some record := by
  induction row with
  | nil => cases h
  | cons entry rest ih =>
    obtain ⟨hfresh, hrest⟩ := List.nodup_cons.mp hnames
    unfold record? at ih ⊢
    rw [List.find?_cons]
    rcases List.mem_cons.mp h with rfl | h
    · rw [beq_self_eq_true]
      rfl
    · have hne : (entry.1.relationName? == relation.relationName?) = false := by
        refine beq_eq_false_iff_ne.mpr fun heq => hfresh ?_
        show entry.1.relationName? ∈ _
        rw [heq]
        exact List.mem_map.mpr ⟨_, h, rfl⟩
      rw [hne]
      exact ih hrest h

/-! ## 4. Marking rows -/

namespace Engine

variable {E : Engine δ} {db : Database δ} {covers : String → Bool} {keep : Record δ → Bool}
  {mark : Node → Node}

/-- The predicates that mark the records of covered tables, for some relations in order. -/
def marks (covers : String → Bool) (mark : Node → Node) (tables : List (Node × String)) :
    List Node := tables.filterMap fun pair => if covers pair.2 then some (mark pair.1) else none

/-- A row passes the marks of its relations when all of its records are kept. -/
theorem accepts_marks
    (hmark : ∀ (row : Binding δ) (relation : Node) (record : Record δ),
      row.record? relation = some record →
      (E.test db (mark relation) row = .yes ↔ keep record = true))
    {s : Select Node} (h : s.Plain E) {row : Binding δ} (hrow : row ∈ E.product db s) :
    E.accepts db (marks covers mark s.tables) row = row.all (kept covers keep) := by
  have hscope := scope_of_mem_product h.kinds hrow
  have hnames : (row.map (·.1.relationName?)).Nodup := by
    have hnodup := h.names
    rw [← hscope, List.map_map] at hnodup
    exact hnodup
  rw [Bool.eq_iff_iff, accepts_iff, List.all_eq_true]
  constructor
  · rintro hmarks ⟨relation, record⟩ hentry
    have hsource : relation ∈ s.sources := by
      rw [← hscope]
      exact List.mem_map.mpr ⟨_, hentry, rfl⟩
    obtain ⟨table, hover⟩ := h.tables relation hsource
    have htable := Node.over_iff.mp hover
    refine (kept_iff htable).mpr fun hcovers => ?_
    refine (hmark row relation record (row.record?_of_mem hnames hentry)).mp (hmarks _ ?_)
    have hpair : (relation, table) ∈ s.tables :=
      List.mem_filterMap.mpr ⟨relation, hsource, by rw [htable]; rfl⟩
    exact List.mem_filterMap.mpr ⟨_, hpair, if_pos hcovers⟩
  · intro hall p hp
    obtain ⟨⟨relation, table⟩, hpair, hp⟩ := List.mem_filterMap.mp hp
    have hpair : (relation, table) ∈ tablesAmong s.sources := hpair
    obtain ⟨hsource, hover⟩ := mem_of_mem_tablesAmong hpair
    by_cases hcovers : covers table = true
    · rw [if_pos hcovers] at hp
      obtain rfl := Option.some.inj hp
      rw [← hscope] at hsource
      obtain ⟨⟨_, record⟩, hentry, rfl⟩ := List.mem_map.mp hsource
      refine (hmark row _ record (row.record?_of_mem hnames hentry)).mpr ?_
      exact (kept_iff (Node.over_iff.mp hover)).mp (hall _ hentry) hcovers
    · rw [if_neg hcovers] at hp
      cases hp

/-- **Marks behind a WHERE clause cut the tables.** -/
theorem rows_marked
    (hmark : ∀ (row : Binding δ) (relation : Node) (record : Record δ),
      row.record? relation = some record →
      (E.test db (mark relation) row = .yes ↔ keep record = true))
    {s : Select Node} (h : s.Plain E) :
    E.rows db { s with wheres := s.wheres ++ marks covers mark s.tables }
      = E.rows (db.cut covers keep) s := by
  unfold rows
  rw [product_cut h, accepts_congr h.wheres (db.cut covers keep) db, List.filter_filter]
  refine List.filter_congr fun row hrow => ?_
  rw [accepts_append, accepts_marks hmark h hrow]

end Engine

/-! ## 5. Tenants and soft deletion -/

/-- A guard that answers for every relation gives all of its answers. -/
theorem Guard.predicates_eq_ok {g : Guard} {kind : StatementKind} {tables : List (Node × String)}
    {answer : Node × String → Option Node}
    (h : ∀ pair ∈ tables, g kind pair.1 pair.2 = .ok (answer pair)) :
    g.predicates kind tables = .ok (tables.filterMap answer) := by
  have hsettles := settles_mapM (fun pair : Node × String => g kind pair.1 pair.2) tables
  have hanswers : tables.map (fun pair => g kind pair.1 pair.2)
      = (tables.map answer).map .ok := by
    rw [List.map_map]
    exact List.map_congr_left h
  rw [hanswers] at hsettles
  rw [predicates_eq, hsettles.unique (.granted _), List.filterMap_map]
  rfl

/-- Where a guard gives predicates, it answered for every relation. -/
theorem Guard.answered_of_predicates {g : Guard} {kind : StatementKind}
    {tables : List (Node × String)} {added : List Node}
    (h : g.predicates kind tables = .ok added) {pair : Node × String} (hpair : pair ∈ tables)
    (failure : Failure) : g kind pair.1 pair.2 ≠ .error failure := by
  intro hfailure
  obtain ⟨before, after, rfl⟩ := List.append_of_mem hpair
  rw [predicates_eq] at h
  rcases Failure.mapM_refused (fun pair => g kind pair.1 pair.2) hfailure before after with
    hrun | ⟨_, -, _, -, hrun⟩ <;> rw [hrun] at h <;> cases h

namespace TenantScope

variable {E : Engine δ} {t : TenantScope}

/-- Whether a record belongs to the tenant. -/
def owns (t : TenantScope) (E : Engine δ) (record : Record δ) : Bool :=
  E.same (record t.column) (E.constant t.tenant) = .yes

/-- The predicate that a relation's rows belong to the tenant. -/
def mark (t : TenantScope) (relation : Node) : Node :=
  ⟨.comparison (relation.columnOf t.column) .eq ⟨.bind t.tenant⟩⟩

theorem test_mark {db : Database δ} {row : Binding δ} {relation : Node} {record : Record δ}
    (h : row.record? relation = some record) :
    E.test db (t.mark relation) row = .yes ↔ t.owns E record = true := by
  rw [mark, Engine.test_equal, Node.columnOf, E.eval_column db row h, Engine.eval_bind, owns,
    decide_eq_true_iff]

/-- With a tenant, or where none is needed, the answer is the mark of a covered table. -/
theorem guard_eq_mark {pair : Node × String} (h : pair.1.tableName? = some pair.2)
    (htenant : t.tenant.isNull = false ∨ t.coverage.covers pair.2 = false) :
    t.guard .select pair.1 pair.2
      = .ok (if t.coverage.covers pair.2 then some (t.mark pair.1) else none) := by
  rw [show t.guard = (Plugin.tenantScope t).guard from rfl, Plugin.guard_eq h, Plugin.answer]
  by_cases hcovers : t.coverage.covers pair.2 = true
  · have hnull : t.tenant.isNull = false := by
      rcases htenant with hnull | huncovered
      · exact hnull
      · rw [hcovers] at huncovered
        cases huncovered
    rw [if_pos hcovers, if_pos hcovers, hnull]
    rfl
  · rw [if_neg hcovers, if_neg hcovers]

theorem select_eq_marks {s : Select Node}
    (h : ∀ pair ∈ s.tables, t.tenant.isNull = false ∨ t.coverage.covers pair.2 = false) :
    t.transformer.select s
      = .ok { s with wheres := s.wheres ++ Engine.marks t.coverage.covers t.mark s.tables } := by
  have hselect : t.transformer.select s = t.guard.select s := rfl
  have hanswers : ∀ pair ∈ s.tables, t.guard .select pair.1 pair.2
      = .ok (if t.coverage.covers pair.2 then some (t.mark pair.1) else none) := fun pair hpair =>
    guard_eq_mark (tableName?_of_mem_tablesAmong hpair) (h pair hpair)
  rw [hselect, Guard.select_eq, Guard.predicates_eq_ok hanswers]
  rfl

/-- A scope without a tenant lets nothing pass that it covers. -/
theorem uncovered_of_select {s s' : Select Node} (h : t.transformer.select s = .ok s') :
    ∀ pair ∈ s.tables, t.tenant.isNull = false ∨ t.coverage.covers pair.2 = false := by
  have hselect : t.transformer.select s = t.guard.select s := rfl
  rw [hselect, Guard.select_eq] at h
  obtain ⟨added, hadded, -⟩ := exists_of_map_eq_ok h
  intro pair hpair
  by_contra hboth
  obtain ⟨hnull, hcovers⟩ := not_or.mp hboth
  rw [Bool.not_eq_false] at hnull hcovers
  have hrefused : ∃ failure, t.guard .select pair.1 pair.2 = .error failure := by
    rw [show t.guard = (Plugin.tenantScope t).guard from rfl,
      Plugin.guard_eq (tableName?_of_mem_tablesAmong hpair), Plugin.answer, if_pos hcovers,
      if_pos hnull]
    exact ⟨_, rfl⟩
  obtain ⟨failure, hfailure⟩ := hrefused
  exact Guard.answered_of_predicates hadded hpair failure hfailure

end TenantScope

namespace SoftDelete

variable {E : Engine δ} {d : SoftDelete}

/-- Whether a record is not deleted. -/
def spares (d : SoftDelete) (record : Record δ) : Bool := (record d.column).isNone

/-- The predicate that a relation's rows are not deleted. -/
def mark (d : SoftDelete) (relation : Node) : Node := (relation.columnOf d.column).isNull

theorem test_mark {db : Database δ} {row : Binding δ} {relation : Node} {record : Record δ}
    (h : row.record? relation = some record) :
    E.test db (d.mark relation) row = .yes ↔ d.spares record = true := by
  rw [mark, Node.isNull, Engine.test_isNull, Node.columnOf, E.eval_column db row h,
    Truth.ofBool_eq_yes, spares]

theorem select_eq_marks (s : Select Node) : d.transformer.select s
    = .ok { s with wheres := s.wheres ++ Engine.marks d.coverage.covers d.mark s.tables } := by
  have hselect : d.transformer.select s = d.guard.select s := rfl
  have hanswers : ∀ pair ∈ s.tables, d.guard .select pair.1 pair.2
      = .ok (if d.coverage.covers pair.2 then some (d.mark pair.1) else none) := fun pair hpair =>
    Plugin.guard_eq (tableName?_of_mem_tablesAmong hpair) (.softDelete d) .select
  rw [hselect, Guard.select_eq, Guard.predicates_eq_ok hanswers]
  rfl

end SoftDelete

/-- **Filtering in WHERE is querying filtered tables.** For a SELECT that joins base tables under
    different names, by INNER and CROSS only and without subqueries in its predicates, and for every
    database: behind a tenant scope it gives the rows that it gives over the database in which every
    covered table holds only the tenant's records, and behind soft deletion those over the tables
    without deleted records. They come in the same order and number. With a tenant the scope lets
    the query pass, and soft deletion always does. -/
theorem Select.rows_guarded (E : Engine δ) (db : Database δ) {s : Select Node} (h : s.Plain E) :
    (∀ t : TenantScope,
        (t.tenant.isNull = false → ∃ s', t.transformer.select s = .ok s')
          ∧ ∀ s', t.transformer.select s = .ok s' →
            E.rows db s' = E.rows (db.cut t.coverage.covers (t.owns E)) s)
      ∧ ∀ d : SoftDelete, ∃ s', d.transformer.select s = .ok s'
        ∧ E.rows db s' = E.rows (db.cut d.coverage.covers d.spares) s := by
  refine ⟨fun t => ⟨fun htenant => ?_, fun s' hs' => ?_⟩, fun d => ?_⟩
  · exact ⟨_, t.select_eq_marks fun _ _ => .inl htenant⟩
  · rw [t.select_eq_marks (TenantScope.uncovered_of_select hs')] at hs'
    obtain rfl := Except.ok.inj hs'
    exact Engine.rows_marked (fun row relation record => TenantScope.test_mark) h
  · exact ⟨_, d.select_eq_marks s,
      Engine.rows_marked (fun row relation record => SoftDelete.test_mark) h⟩

/-- The staff under another name. -/
def staff (name : String) : Node := ⟨.tableAlias ⟨.table "staff"⟩ name⟩

/-- Members of the staff with their superiors, a join of the staff with itself, except those whom
    nobody named. -/
def superiors : Select Node where
  source := some (staff "s")
  joins := [{ kind := .inner, right := staff "t",
              predicate := some
                ⟨.comparison ((staff "s").columnOf "boss") .eq ((staff "t").columnOf "id")⟩ }]
  wheres := [⟨.or ⟨.nullTest ((staff "s").columnOf "name") .isNotNull⟩
    ⟨.nullTest ((staff "t").columnOf "name") .isNotNull⟩⟩]

/-- A member of the staff. -/
def member (id boss firm : String) (left : Option Json) : Record Json := fun column =>
  if column = "id" then some (.text id) else if column = "boss" then some (.text boss)
  else if column = "tenant_id" then some (.text firm) else if column = "deleted_at" then left
  else if column = "name" then some (.text id) else none

/-- Five members of two firms; one of them has left, and one has a superior of the other firm. -/
def firms : Database Json := fun table =>
  if table = "staff" then
    [member "ann" "bob" "x" none, member "bob" "bob" "x" none, member "eve" "bob" "y" none,
      member "joe" "kim" "y" none, member "kim" "kim" "y" (some (.text "may"))]
  else []

/-- Of five pairs the scope leaves the two within the firm, and soft deletion the three without the
    member who has left. -/
theorem Select.rows_guarded_superiors :
    superiors.Plain Engine.ofJson ∧ (Engine.ofJson.rows firms superiors).length = 5
      ∧ (∃ s', ({ tenant := .text "x" } : TenantScope).transformer.select superiors = .ok s'
        ∧ (Engine.ofJson.rows firms s').length = 2)
      ∧ ∃ s', ({} : SoftDelete).transformer.select superiors = .ok s'
        ∧ (Engine.ofJson.rows firms s').length = 3 := by
  have hplain : superiors.Plain Engine.ofJson := by
    refine ⟨?_, ?_, ?_, ?_, ?_⟩
    · exact List.forall_mem_cons.mpr ⟨⟨"staff", .named .base "s"⟩,
        List.forall_mem_singleton.mpr ⟨"staff", .named .base "t"⟩⟩
    · show [some "s", some "t"].Nodup
      decide
    · exact List.forall_mem_singleton.mpr (.inl rfl)
    · refine List.forall_mem_singleton.mpr (List.forall_mem_singleton.mpr ?_)
      simp [Engine.Standalone, Node.parts_mk, Form.children, Node.isSubquery, Node.isQuery,
        Node.form, staff, Node.columnOf]
    · refine List.forall_mem_singleton.mpr ?_
      simp [Engine.Standalone, Node.parts_mk, Form.children, Node.isSubquery, Node.isQuery,
        Node.form, staff, Node.columnOf]
  obtain ⟨htenant, hdeleted⟩ := Select.rows_guarded Engine.ofJson firms hplain
  refine ⟨hplain, rfl, ?_, ?_⟩
  · obtain ⟨hpasses, hrows⟩ := htenant { tenant := .text "x" }
    obtain ⟨s', hs'⟩ := hpasses rfl
    refine ⟨s', hs', ?_⟩
    rw [hrows s' hs']
    rfl
  · obtain ⟨s', hs', hrows⟩ := hdeleted {}
    refine ⟨s', hs', ?_⟩
    rw [hrows]
    rfl

end SqlTree
