import SqlTree.Proofs.GuardStack

/-!
# Denied tables

An access policy is asked about the tables that a statement names itself: a SELECT about its source
and its joins, an INSERT about its target. This file says that a denial of one of them always ends
the statement, and that no other table is asked about:

* `Node.Over` -- a relation over a base table, seen through its aliases;
* `Statement.Touches` -- some SELECT in a statement, however deep, reads a base table;
* `Failure.mapM_refused` -- asking in order ends at the first failure;
* `AccessPolicy.transform_denied` -- a denied source or target ends the statement, and the
  answers about other tables do not matter;
* `AccessPolicy.not_watchful` -- so a denied table in a subquery, in a CTE or behind an INSERT is
  read all the same.
-/

namespace SqlTree

/-! ## 1. Relations over base tables -/

/-- A base table, or an alias of a relation over it. -/
inductive Node.Over (table : String) : Node → Prop where
  | base : Over table ⟨.table table⟩
  | named {relation : Node} (h : Over table relation) (name : String) :
    Over table ⟨.tableAlias relation name⟩

/-- **The table under a relation is the one that it is over.** -/
theorem Node.over_iff {table : String} {n : Node} : n.Over table ↔ n.tableName? = some table := by
  constructor
  · intro h
    induction h with
    | base => rw [tableName?_mk]
    | named _ name ih => rw [tableName?_mk]; exact ih
  · induction n using children_induction with
    | step form ih =>
      intro h
      rw [tableName?_mk] at h
      cases form with
      | table name =>
        obtain rfl := Option.some.inj h
        exact .base
      | tableAlias relation name => exact .named (ih relation List.mem_cons_self h) name
      | _ => cases h

/-- What a SELECT reads at its top, in the order in which it is asked about. -/
def Select.sources (s : Select Node) : List Node := s.source.toList ++ s.joins.map (·.right)

/-- A node is the source of a SELECT, or what one of its joins that is not verbatim adds. -/
def Select.Reads (s : Select Node) (n : Node) : Prop :=
  s.source = some n ∨ ∃ j ∈ s.joins, j.kind ≠ .verbatim ∧ j.right = n

namespace Statement

/-- Some SELECT in a statement, at its top or anywhere below, reads a base table. -/
def Touches (t : Statement) (table : String) : Prop :=
  ∃ n ∈ t.node.parts, ∃ s, n.form = .select s ∧ ∃ r, s.Reads r ∧ r.Over table

/-- A statement as a transformer changes it. -/
def transform (p : Transformer) : Statement → Except Failure Statement
  | .select s => (p.select s).map .select
  | .insert s => (p.insert s).map .insert
  | .update s => (p.update s).map .update
  | .delete s => (p.delete s).map .delete

end Statement

/-! ## 2. Asking in order -/

theorem mem_of_mem_tablesAmong {nodes : List Node} {pair : Node × String}
    (h : pair ∈ tablesAmong nodes) : pair.1 ∈ nodes ∧ pair.1.Over pair.2 := by
  obtain ⟨n, hn, hpair⟩ := List.mem_filterMap.mp h
  obtain ⟨table, htable, rfl⟩ := Option.map_eq_some_iff.mp hpair
  exact ⟨hn, Node.over_iff.mpr htable⟩

theorem tablesAmong_append (front back : List Node) :
    tablesAmong (front ++ back) = tablesAmong front ++ tablesAmong back :=
  List.filterMap_append

theorem tablesAmong_cons {n : Node} {table : String} (h : n.Over table) (rest : List Node) :
    tablesAmong (n :: rest) = (n, table) :: tablesAmong rest := by
  unfold tablesAmong
  rw [List.filterMap_cons, Node.over_iff.mp h]
  rfl

/-- **Asking in order ends at the first failure**: where one is known, it is that or one of those
    before. -/
theorem Failure.mapM_refused {κ α : Type} (ask : κ → Except Failure α) {a : κ}
    {failure : Failure} (h : ask a = .error failure) (before after : List κ) :
    (before ++ a :: after).mapM ask = .error failure
      ∨ ∃ b ∈ before, ∃ failure', ask b = .error failure'
        ∧ (before ++ a :: after).mapM ask = .error failure' := by
  induction before with
  | nil =>
    left
    rw [List.nil_append, List.mapM_cons, h]
    rfl
  | cons b rest ih =>
    rw [List.cons_append, List.mapM_cons]
    cases hb : ask b with
    | error failure' => exact .inr ⟨b, List.mem_cons_self, failure', hb, rfl⟩
    | ok answer =>
      rcases ih with ih | ⟨c, hc, failure', hfailure, ih⟩
      · left
        rw [ih]
        rfl
      · refine .inr ⟨c, List.mem_cons_of_mem _ hc, failure', hfailure, ?_⟩
        rw [ih]
        rfl

/-- Guards that answer alike about some relations give the same predicates for them. -/
theorem Guard.predicates_congr {g g' : Guard} {kind : StatementKind}
    {tables : List (Node × String)}
    (h : ∀ pair ∈ tables, g kind pair.1 pair.2 = g' kind pair.1 pair.2) :
    g.predicates kind tables = g'.predicates kind tables := by
  rw [predicates_eq, predicates_eq]
  have hasked := settles_mapM (fun pair : Node × String => g kind pair.1 pair.2) tables
  rw [List.map_congr_left h] at hasked
  exact hasked.unique (settles_mapM _ tables)

/-! ## 3. What a policy is asked about -/

namespace AccessPolicy

variable {evaluator evaluator' : Evaluator} {kind : StatementKind} {relation : Node}
  {table reason : String}

theorem guard_denied (h : evaluator kind table = .ok (.deny reason)) (relation : Node) :
    guard evaluator kind relation table = .error (.accessDenied table reason) := by
  rw [guard, h]
  rfl

/-- Evaluators that decide alike about a table make the same guard for it. -/
theorem guard_congr (h : evaluator kind table = evaluator' kind table) (relation : Node) :
    guard evaluator kind relation table = guard evaluator' kind relation table := by
  rw [guard, guard, h]

theorem insert_eq (evaluator : Evaluator) (s : Insert Node) :
    (transformer evaluator).insert s
      = ((guard evaluator).predicates .insert (tablesAmong [s.target])).map fun _ => s := by
  show (guard evaluator).predicates .insert (tablesAmong [s.target]) >>= (fun _ => Except.ok s) = _
  cases (guard evaluator).predicates .insert (tablesAmong [s.target]) <;> rfl

/-- **A denied source ends a SELECT**, unless the policy fails for one before it. -/
theorem select_denied {s : Select Node} {before after : List Node}
    (hsources : s.sources = before ++ relation :: after) (hover : relation.Over table)
    (hdenied : evaluator .select table = .ok (.deny reason)) :
    (transformer evaluator).select s = .error (.accessDenied table reason)
      ∨ ∃ r ∈ before, ∃ other failure, r.Over other
        ∧ guard evaluator .select r other = .error failure
        ∧ (transformer evaluator).select s = .error failure := by
  have htables : s.tables = tablesAmong before ++ (relation, table) :: tablesAmong after := by
    show tablesAmong s.sources = _
    rw [hsources, tablesAmong_append, tablesAmong_cons hover]
  have hselect : (transformer evaluator).select s = (guard evaluator).select s := rfl
  rw [hselect, Guard.select_eq, Guard.predicates_eq, htables]
  have hfirst : guard evaluator .select (relation, table).1 (relation, table).2
      = .error (.accessDenied table reason) := guard_denied hdenied relation
  rcases Failure.mapM_refused (fun pair => guard evaluator .select pair.1 pair.2) hfirst
      (tablesAmong before) (tablesAmong after) with hrun | ⟨⟨r, other⟩, hr, failure, hfail, hrun⟩
  · left
    rw [hrun]
    rfl
  · obtain ⟨hmem, hr⟩ := mem_of_mem_tablesAmong hr
    refine .inr ⟨r, hmem, other, failure, hr, hfail, ?_⟩
    rw [hrun]
    rfl

/-- **A denied target ends an INSERT.** -/
theorem insert_denied {s : Insert Node} (hover : s.target.Over table)
    (hdenied : evaluator .insert table = .ok (.deny reason)) :
    (transformer evaluator).insert s = .error (.accessDenied table reason) := by
  rw [insert_eq, tablesAmong_cons hover, Guard.predicates_eq, List.mapM_cons]
  show Except.map _ (Except.map _ (guard evaluator .insert s.target table >>= _)) = _
  rw [guard_denied hdenied]
  rfl

/-- **Only the sources of a SELECT are asked about.** -/
theorem select_congr {s : Select Node}
    (h : ∀ r ∈ s.sources, ∀ table, r.Over table →
      evaluator .select table = evaluator' .select table) :
    (transformer evaluator).select s = (transformer evaluator').select s := by
  show (guard evaluator).select s = (guard evaluator').select s
  rw [Guard.select_eq, Guard.select_eq]
  rw [Guard.predicates_congr fun pair hpair => ?_]
  have hpair : pair ∈ tablesAmong s.sources := hpair
  obtain ⟨hmem, hover⟩ := mem_of_mem_tablesAmong hpair
  exact guard_congr (h pair.1 hmem pair.2 hover) pair.1

/-- **Only the target of an INSERT is asked about.** -/
theorem insert_congr {s : Insert Node}
    (h : ∀ table, s.target.Over table → evaluator .insert table = evaluator' .insert table) :
    (transformer evaluator).insert s = (transformer evaluator').insert s := by
  rw [insert_eq, insert_eq]
  rw [Guard.predicates_congr fun pair hpair => ?_]
  obtain ⟨hmem, hover⟩ := mem_of_mem_tablesAmong hpair
  rw [List.mem_singleton.mp hmem] at hover
  exact guard_congr (h pair.2 hover) pair.1

/-! ## 4. What a denial does -/

/-- A policy ends every SELECT and every INSERT in which a table is read, however deep, that it
    denies to a SELECT. -/
def Watchful (evaluator : Evaluator) : Prop :=
  ∀ t : Statement, t.kind = .select ∨ t.kind = .insert → ∀ table reason, t.Touches table →
    evaluator .select table = .ok (.deny reason) →
    ∀ t', t.transform (transformer evaluator) ≠ .ok t'

/-- Denies one table to every statement. -/
def secretive : Evaluator := fun _ table =>
  .ok (if table == "secrets" then .deny "no" else .allow)

/-- A query of one table. -/
def reading (table : String) : Node := ⟨.select { source := some ⟨.table table⟩ }⟩

/-- Statements with a denied table in a subquery under an alias, in a CTE, in one of two combined
    queries, in EXISTS, in IN, as a value, and behind an INSERT. -/
def concealed : List Statement :=
  [.select { source := some ⟨.tableAlias (reading "secrets") "s"⟩ },
    .select { source := some ⟨.table "s"⟩, ctes := [{ name := "s", query := reading "secrets" }] },
    .select { source := some ⟨.tableAlias ⟨.setOperation
      { left := reading "notes", op := .union, right := reading "secrets" }⟩ "s"⟩ },
    .select { source := some ⟨.table "notes"⟩, wheres := [⟨.existence (reading "secrets") false⟩] },
    .select { source := some ⟨.table "notes"⟩,
              wheres := [⟨.membership ⟨.column ⟨.table "notes"⟩ "id" none⟩ [reading "secrets"]
                false⟩] },
    .select { projections := [reading "secrets"] },
    .insert { target := ⟨.table "notes"⟩, select := some (reading "secrets") }]

theorem touches_of_reading {t : Statement} {table : String} (h : reading table ∈ t.node.parts) :
    t.Touches table :=
  ⟨reading table, h, _, rfl, _, .inl rfl, .base⟩

/-- **A denied table is read all the same**, wherever it stands in a subquery, in a CTE or behind
    an INSERT: the statement passes as it is. -/
theorem not_watchful :
    ¬ Watchful secretive
      ∧ ∀ t ∈ concealed, t.Touches "secrets" ∧ t.transform (transformer secretive) = .ok t := by
  have hconcealed : ∀ t ∈ concealed,
      t.Touches "secrets" ∧ t.transform (transformer secretive) = .ok t := by
    simp only [concealed, List.forall_mem_cons]
    refine ⟨⟨?_, rfl⟩, ⟨?_, rfl⟩, ⟨?_, rfl⟩, ⟨?_, rfl⟩, ⟨?_, rfl⟩, ⟨?_, rfl⟩, ⟨?_, rfl⟩,
      fun t ht => by cases ht⟩ <;>
      refine touches_of_reading ?_ <;>
      simp [Statement.node, Node.parts_mk, Form.children, Select.children, Insert.children,
        SetOperation.children, reading]
  refine ⟨fun h => ?_, hconcealed⟩
  obtain ⟨htouches, hpasses⟩ := hconcealed _ List.mem_cons_self
  exact h _ (.inl rfl) "secrets" "no" htouches rfl _ hpasses

/-- **What a denial does.** A SELECT whose source or a join, directly or under aliases, is a table
    denied to it never passes: it ends with that denial, or with what the policy fails for in an
    earlier source. An INSERT into a denied table ends with the denial, and every other one that
    passes is unchanged. No other table is asked about: policies that agree on the sources, or on
    the target, do the same to the statement, whatever they say about tables in its subqueries. -/
theorem transform_denied (evaluator : Evaluator) :
    (∀ (s : Select Node) (before after : List Node) (relation : Node) (table reason : String),
        s.sources = before ++ relation :: after → relation.Over table →
        evaluator .select table = .ok (.deny reason) →
        (transformer evaluator).select s = .error (.accessDenied table reason)
          ∨ ∃ r ∈ before, ∃ other failure, r.Over other
            ∧ guard evaluator .select r other = .error failure
            ∧ (transformer evaluator).select s = .error failure)
      ∧ (∀ (s : Insert Node) (table reason : String), s.target.Over table →
        evaluator .insert table = .ok (.deny reason) →
        (transformer evaluator).insert s = .error (.accessDenied table reason))
      ∧ (∀ s s' : Insert Node, (transformer evaluator).insert s = .ok s' → s' = s)
      ∧ (∀ (evaluator' : Evaluator) (s : Select Node),
        (∀ r ∈ s.sources, ∀ table, r.Over table →
          evaluator .select table = evaluator' .select table) →
        (transformer evaluator).select s = (transformer evaluator').select s)
      ∧ ∀ (evaluator' : Evaluator) (s : Insert Node),
        (∀ table, s.target.Over table → evaluator .insert table = evaluator' .insert table) →
        (transformer evaluator).insert s = (transformer evaluator').insert s := by
  refine ⟨fun s before after relation table reason => select_denied,
    fun s table reason => insert_denied, fun s s' h => ?_, fun evaluator' s => select_congr,
    fun evaluator' s => insert_congr⟩
  rw [insert_eq] at h
  obtain ⟨_, -, rfl⟩ := exists_of_map_eq_ok h
  rfl

/-- Notes joined to the denied table under an alias. -/
def notesOfSecrets : Select Node where
  source := some ⟨.table "notes"⟩
  joins := [{ kind := .cross, right := ⟨.tableAlias ⟨.table "secrets"⟩ "s"⟩ }]

/-- The join is denied, and it stays denied whatever a policy says about tables that the query does
    not name. -/
theorem transform_denied_notesOfSecrets :
    notesOfSecrets.sources = [⟨.table "notes"⟩, ⟨.tableAlias ⟨.table "secrets"⟩ "s"⟩]
      ∧ (transformer secretive).select notesOfSecrets = .error (.accessDenied "secrets" "no")
      ∧ (transformer fun kind table =>
          if table == "users" then .error (.evaluation "offline") else secretive kind table).select
          notesOfSecrets = .error (.accessDenied "secrets" "no")
      ∧ (transformer secretive).insert { target := ⟨.table "secrets"⟩ }
        = .error (.accessDenied "secrets" "no") := by
  obtain ⟨hselect, hinsert, -, hother, -⟩ := transform_denied secretive
  have hdenied : (transformer secretive).select notesOfSecrets
      = .error (.accessDenied "secrets" "no") := by
    rcases hselect notesOfSecrets [⟨.table "notes"⟩] [] _ "secrets" "no" rfl (.named .base "s") rfl
      with h | ⟨r, hr, other, failure, hover, hfail, -⟩
    · exact h
    · rw [List.mem_singleton.mp hr] at hover hfail
      cases hover
      cases hfail
  refine ⟨rfl, hdenied, ?_, hinsert _ "secrets" "no" .base rfl⟩
  rw [← hother _ notesOfSecrets fun r hr table hover => ?_, hdenied]
  rcases List.mem_cons.mp hr with rfl | hr
  · cases hover
    rfl
  · rw [List.mem_singleton.mp hr] at hover
    cases hover with
    | named hover _ =>
      cases hover
      rfl

end AccessPolicy
end SqlTree
