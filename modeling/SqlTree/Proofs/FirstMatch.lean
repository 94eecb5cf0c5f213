import SqlTree.Policy.Document
import SqlTree.Proofs.ConditionTruth
import SqlTree.Proofs.FilteredTables

/-!
# Policies decide by their first rule

A policy is a list of rules with a default behind it. This file says what an access policy makes of
a statement in terms of the rules alone:

* `Rule.Concerns`, `Policy.Decides` -- the first rule about a kind of statement on a table decides,
  and the default if there is none;
* `Decision.Grants`, `Decision.Refuses` -- what a decision makes of a relation;
* `Policy.Settles` -- a statement passes if everything it names is granted, and otherwise the first
  relation that is refused says why;
* `Policy.Undefaulted` -- the policies whose default nobody set;
* `AccessPolicy.transform_policy` -- the main statement: every policy settles every statement that
  way, without a default it refuses what no rule is about, and further rules change nothing where
  there was one.
-/

namespace SqlTree

/-! ## 1. The first rule decides -/

/-- A rule is about a kind of statement on a table: it names the table or all of them, and the kind
    or none. -/
def Rule.Concerns (r : Rule) (kind : StatementKind) (table : String) : Prop :=
  (r.table = "*" ∨ r.table = table) ∧ (r.actions = [] ∨ kind ∈ r.actions)

theorem Rule.applies_iff {r : Rule} {kind : StatementKind} {table : String} :
    r.applies kind table = true ↔ r.Concerns kind table := by
  rw [applies, Concerns, Bool.and_eq_true, Bool.or_eq_true, Bool.or_eq_true, beq_iff_eq, beq_iff_eq,
    List.isEmpty_iff, List.contains_iff_mem]

namespace Policy

variable {p : Policy} {kind : StatementKind} {table : String} {decision : Decision}

/-- No rule of a policy is about a kind of statement on a table. -/
def Unlisted (p : Policy) (kind : StatementKind) (table : String) : Prop :=
  ∀ r ∈ p.rules, ¬ r.Concerns kind table

instance : Decidable (p.Unlisted kind table) :=
  decidable_of_iff (∀ r ∈ p.rules, ¬ r.applies kind table = true)
    (forall₂_congr fun _ _ => not_congr Rule.applies_iff)

/-- What a policy decides about a kind of statement on a table: what the first rule about them says,
    or the default. -/
inductive Decides (p : Policy) (kind : StatementKind) (table : String) : Decision → Prop where
  | rule {before behind : List Rule} {r : Rule} (hrules : p.rules = before ++ r :: behind)
    (hfirst : ∀ earlier ∈ before, ¬ earlier.Concerns kind table) (h : r.Concerns kind table) :
    Decides p kind table r.decision
  | default (h : p.Unlisted kind table) : Decides p kind table p.default

/-- **A policy reaches exactly one decision**: the one that is looked up. -/
theorem decides_iff : p.Decides kind table decision ↔ p.decide kind table = decision := by
  constructor
  · intro h
    cases h with
    | rule hrules hfirst h =>
      rw [decide, hrules, List.find?_append, List.find?_eq_none.mpr fun earlier hearlier happlies =>
        hfirst earlier hearlier (Rule.applies_iff.mp happlies), Option.none_or,
        List.find?_cons_of_pos (by exact Rule.applies_iff.mpr h)]
    | default h =>
      rw [decide, List.find?_eq_none.mpr fun r hr happlies => h r hr (Rule.applies_iff.mp happlies)]
  · rintro rfl
    unfold decide
    cases hfound : p.rules.find? fun r => r.applies kind table with
    | none =>
      exact .default fun r hr hconcerns =>
        List.find?_eq_none.mp hfound r hr (Rule.applies_iff.mpr hconcerns)
    | some r =>
      obtain ⟨happlies, before, behind, hrules, hfirst⟩ := List.find?_eq_some_iff_append.mp hfound
      refine .rule hrules (fun earlier hearlier hconcerns => ?_) (Rule.applies_iff.mp happlies)
      have hskipped := hfirst earlier hearlier
      rw [Rule.applies_iff.mpr hconcerns] at hskipped
      cases hskipped

end Policy

/-! ## 2. What a decision makes of a relation -/

namespace Decision

variable {relation : Node} {table : String} {decision : Decision} {answer : Option Node}
  {failure : Failure}

/-- A decision lets a relation pass: as it is, or under the predicate that a condition becomes. -/
inductive Grants (relation : Node) : Decision → Option Node → Prop where
  | allow : Grants relation .allow none
  | filter {condition : Condition} {predicate : Node}
    (h : condition.predicate relation = .ok predicate) :
    Grants relation (.filter condition) (some predicate)

/-- A decision refuses a relation over a table: with its reason, or for the first value in its
    condition that no column can be compared with. -/
inductive Refuses (table : String) : Decision → Failure → Prop where
  | deny (reason : String) : Refuses table (.deny reason) (.accessDenied table reason)
  | uncomparable {condition : Condition} {column : String} {value : Json}
    (h : Condition.firstCompound condition.compared = some (column, value)) :
    Refuses table (.filter condition)
      (.evaluator (PolicyFault.unsupportedValue column value).message)

theorem grants_iff :
    decision.Grants relation answer ↔ Plugin.ofDecision relation table decision = .ok answer := by
  constructor
  · intro h
    cases h with
    | allow => rfl
    | filter h => rw [Plugin.ofDecision, h]; rfl
  · intro h
    cases decision with
    | allow =>
      obtain rfl := Except.ok.inj h
      exact .allow
    | deny reason => cases h
    | filter condition =>
      rw [Plugin.ofDecision] at h
      cases hpredicate : condition.predicate relation with
      | error fault => rw [hpredicate] at h; cases h
      | ok predicate =>
        rw [hpredicate] at h
        obtain rfl := Except.ok.inj h
        exact .filter hpredicate

theorem refuses_iff (h : relation.isRelation = true) :
    decision.Refuses table failure
      ↔ Plugin.ofDecision relation table decision = .error failure := by
  cases decision with
  | allow => exact ⟨(fun hrefuses => by cases hrefuses), (fun hrefused => by cases hrefused)⟩
  | deny reason =>
    constructor
    · intro hrefuses
      cases hrefuses
      rfl
    · intro hrefused
      obtain rfl := Except.error.inj hrefused
      exact .deny reason
  | filter condition =>
    have houtcome := condition.outcome_predicate h
    rw [Plugin.ofDecision]
    generalize condition.predicate relation = result at houtcome
    cases houtcome with
    | done none =>
      refine ⟨fun hrefuses => ?_, (fun hrefused => by cases hrefused)⟩
      cases hrefuses with
      | uncomparable hfirst => cases none.symm.trans hfirst
    | refused first =>
      constructor
      · intro hrefuses
        cases hrefuses with
        | uncomparable hfirst =>
          cases Option.some.inj (first.symm.trans hfirst)
          rfl
      · intro hrefused
        obtain rfl := Except.error.inj hrefused
        exact .uncomparable first

end Decision

/-! ## 3. One table after the other -/

section Asking

variable {ε κ α : Type} {ask : κ → Except ε α} {good : κ → α → Prop} {bad : κ → ε → Prop}
  {keys : List κ}

/-- Asking in order gives every answer. -/
theorem mapM_eq_ok_iff (hgood : ∀ key ∈ keys, ∀ answer, ask key = .ok answer ↔ good key answer)
    {answers : List α} : keys.mapM ask = .ok answers ↔ List.Forall₂ good keys answers := by
  induction keys generalizing answers with
  | nil =>
    rw [List.forall₂_nil_left_iff]
    exact ⟨fun h => (Except.ok.inj h).symm, fun h => h ▸ rfl⟩
  | cons key rest ih =>
    obtain ⟨hkey, hrest⟩ := List.forall_mem_cons.mp hgood
    rw [List.mapM_cons, List.forall₂_cons_left_iff]
    constructor
    · intro h
      obtain ⟨answer, hanswer, h⟩ := exists_of_bind_eq_ok h
      obtain ⟨more, hmore, h⟩ := exists_of_bind_eq_ok h
      exact ⟨answer, more, (hkey answer).mp hanswer, (ih hrest).mp hmore, (Except.ok.inj h).symm⟩
    · rintro ⟨answer, more, hanswer, hmore, rfl⟩
      rw [(hkey answer).mpr hanswer, (ih hrest).mpr hmore]
      rfl

/-- A list is split at its first member, or at one of the rest if the first may stand before. -/
theorem exists_split_cons {p q : κ → Prop} {first : κ} {rest : List κ} :
    (∃ before key behind, first :: rest = before ++ key :: behind
        ∧ (∀ earlier ∈ before, p earlier) ∧ q key)
      ↔ q first ∨ p first ∧ ∃ before key behind, rest = before ++ key :: behind
        ∧ (∀ earlier ∈ before, p earlier) ∧ q key := by
  constructor
  · rintro ⟨before, key, behind, hkeys, hbefore, hkey⟩
    cases before with
    | nil =>
      obtain ⟨rfl, -⟩ := List.cons.inj hkeys
      exact .inl hkey
    | cons earlier more =>
      obtain ⟨rfl, rfl⟩ := List.cons.inj hkeys
      obtain ⟨hfirst, hmore⟩ := List.forall_mem_cons.mp hbefore
      exact .inr ⟨hfirst, more, key, behind, rfl, hmore, hkey⟩
  · rintro (hfirst | ⟨hfirst, before, key, behind, rfl, hbefore, hkey⟩)
    · exact ⟨[], first, rest, rfl, fun _ h => (List.not_mem_nil h).elim, hfirst⟩
    · exact ⟨first :: before, key, behind, rfl, List.forall_mem_cons.mpr ⟨hfirst, hbefore⟩, hkey⟩

/-- Asking in order ends at the first failure, whatever stands behind it. -/
theorem mapM_eq_error_iff (hgood : ∀ key ∈ keys, ∀ answer, ask key = .ok answer ↔ good key answer)
    (hbad : ∀ key ∈ keys, ∀ failure, ask key = .error failure ↔ bad key failure) {failure : ε} :
    keys.mapM ask = .error failure ↔ ∃ before key behind, keys = before ++ key :: behind
      ∧ (∀ earlier ∈ before, ∃ answer, good earlier answer) ∧ bad key failure := by
  induction keys with
  | nil =>
    refine iff_of_false (fun h => by cases h) ?_
    rintro ⟨before, key, behind, hkeys, -⟩
    cases before <;> cases hkeys
  | cons first rest ih =>
    obtain ⟨hanswers, hgoods⟩ := List.forall_mem_cons.mp hgood
    obtain ⟨hfails, hbads⟩ := List.forall_mem_cons.mp hbad
    have hpasses : (∃ answer, good first answer) ↔ ∃ answer, ask first = .ok answer :=
      exists_congr fun answer => (hanswers answer).symm
    rw [List.mapM_cons, exists_split_cons, ← ih hgoods hbads, ← hfails failure, hpasses]
    cases ask first with
    | error refused =>
      refine ⟨fun h => .inl (congrArg Except.error (Except.error.inj h)), ?_⟩
      rintro (h | ⟨⟨answer, h⟩, -⟩)
      · exact congrArg Except.error (Except.error.inj h)
      · cases h
    | ok answer =>
      have hrest : (do let more ← rest.mapM ask; pure (answer :: more)) = Except.error failure
          ↔ rest.mapM ask = .error failure := by
        cases rest.mapM ask with
        | error refused => exact Iff.rfl
        | ok more => exact iff_of_false (fun h => by cases h) (fun h => by cases h)
      refine hrest.trans ⟨fun h => .inr ⟨⟨answer, rfl⟩, h⟩, ?_⟩
      rintro (h | ⟨-, h⟩)
      · cases h
      · exact h

end Asking

/-- The relations that a policy is asked about, each with its table: what a SELECT reads at its top,
    and the target of every other statement. -/
def Statement.tables : Statement → List (Node × String)
  | .select s => s.tables
  | .insert s => tablesAmong [s.target]
  | .update s => tablesAmong [s.target]
  | .delete s => tablesAmong [s.target]

/-- A statement with predicates behind those that it has. An INSERT has none and gets none. -/
def Statement.restricted (predicates : List Node) : Statement → Statement
  | .select s => .select { s with wheres := s.wheres ++ predicates }
  | .insert s => .insert s
  | .update s => .update { s with wheres := s.wheres ++ predicates }
  | .delete s => .delete { s with wheres := s.wheres ++ predicates }

namespace Policy

/-- A policy lets a relation pass, given the relation and its table. -/
def Grants (p : Policy) (kind : StatementKind) (pair : Node × String) (answer : Option Node) :
    Prop :=
  ∃ decision, p.Decides kind pair.2 decision ∧ decision.Grants pair.1 answer

/-- A policy refuses a relation, given the relation and its table. -/
def Refuses (p : Policy) (kind : StatementKind) (pair : Node × String) (failure : Failure) : Prop :=
  ∃ decision, p.Decides kind pair.2 decision ∧ decision.Refuses pair.2 failure

/-- What a policy makes of a statement. -/
structure Settles (p : Policy) (s : Statement) (run : Except Failure Statement) : Prop where
  /-- It passes exactly if every relation does, and it gets their predicates in order. -/
  passed : ∀ s', run = .ok s' ↔ ∃ answers, List.Forall₂ (p.Grants s.kind) s.tables answers
    ∧ s' = s.restricted (answers.filterMap id)
  /-- Otherwise the first relation that is refused says why. -/
  refused : ∀ failure, run = .error failure ↔ ∃ before pair behind,
    s.tables = before ++ pair :: behind
      ∧ (∀ earlier ∈ before, ∃ answer, p.Grants s.kind earlier answer)
      ∧ p.Refuses s.kind pair failure

end Policy

theorem Statement.tableName?_of_mem_tables {s : Statement} {pair : Node × String}
    (h : pair ∈ s.tables) : pair.1.tableName? = some pair.2 := by
  cases s <;> exact tableName?_of_mem_tablesAmong h

namespace AccessPolicy

/-- **A policy is asked about the tables of a statement**, and an INSERT stays as it is. -/
theorem transform_eq (evaluator : Evaluator) (s : Statement) :
    s.transform (transformer evaluator)
      = ((guard evaluator).predicates s.kind s.tables).map s.restricted := by
  have hmap : ∀ {σ : Type} (make : σ → Statement) (change : List Node → σ)
      (added : Except Failure (List Node)),
      (added.map change).map make = added.map fun predicates => make (change predicates) := by
    intro σ make change added
    cases added <;> rfl
  cases s with
  | select s => exact (congrArg _ (Guard.select_eq _ s)).trans (hmap _ _ _)
  | insert s => exact (congrArg _ (insert_eq _ s)).trans (hmap _ _ _)
  | update s => exact (congrArg _ (Guard.update_eq _ s)).trans (hmap _ _ _)
  | delete s => exact (congrArg _ (Guard.delete_eq _ s)).trans (hmap _ _ _)

variable {p : Policy} {kind : StatementKind} {pair : Node × String}

theorem guard_eq (h : pair.1.tableName? = some pair.2) :
    guard p.evaluator kind pair.1 pair.2
      = Plugin.ofDecision pair.1 pair.2 (p.decide kind pair.2) :=
  (Plugin.accessPolicy p.evaluator).guard_eq h kind

theorem guard_eq_ok_iff (h : pair.1.tableName? = some pair.2) {answer : Option Node} :
    guard p.evaluator kind pair.1 pair.2 = .ok answer ↔ p.Grants kind pair answer := by
  rw [guard_eq h, ← Decision.grants_iff]
  constructor
  · exact fun hgrants => ⟨_, Policy.decides_iff.mpr rfl, hgrants⟩
  · rintro ⟨decision, hdecides, hgrants⟩
    rwa [Policy.decides_iff.mp hdecides]

theorem guard_eq_error_iff (h : pair.1.tableName? = some pair.2) {failure : Failure} :
    guard p.evaluator kind pair.1 pair.2 = .error failure ↔ p.Refuses kind pair failure := by
  rw [guard_eq h, ← Decision.refuses_iff (Node.isRelation_of_tableName? h)]
  constructor
  · exact fun hrefuses => ⟨_, Policy.decides_iff.mpr rfl, hrefuses⟩
  · rintro ⟨decision, hdecides, hrefuses⟩
    rwa [Policy.decides_iff.mp hdecides]

/-- **Every policy settles every statement.** -/
theorem settles_transform (p : Policy) (s : Statement) :
    p.Settles s (s.transform (transformer p.evaluator)) := by
  have hgrants : ∀ pair ∈ s.tables, ∀ answer,
      guard p.evaluator s.kind pair.1 pair.2 = .ok answer ↔ p.Grants s.kind pair answer :=
    fun pair hpair answer => guard_eq_ok_iff (Statement.tableName?_of_mem_tables hpair)
  have hrefuses : ∀ pair ∈ s.tables, ∀ failure,
      guard p.evaluator s.kind pair.1 pair.2 = .error failure ↔ p.Refuses s.kind pair failure :=
    fun pair hpair failure => guard_eq_error_iff (Statement.tableName?_of_mem_tables hpair)
  rw [transform_eq, Guard.predicates_eq]
  refine ⟨fun s' => ?passed, fun failure => ?refused⟩
  case passed =>
    constructor
    · intro h
      obtain ⟨added, hadded, rfl⟩ := exists_of_map_eq_ok h
      obtain ⟨answers, hanswers, rfl⟩ := exists_of_map_eq_ok hadded
      exact ⟨answers, (mapM_eq_ok_iff hgrants).mp hanswers, rfl⟩
    · rintro ⟨answers, hanswers, rfl⟩
      rw [(mapM_eq_ok_iff hgrants).mpr hanswers]
      rfl
  case refused =>
    rw [← mapM_eq_error_iff hgrants hrefuses]
    constructor
    · exact fun h => eq_error_of_map_eq_error (eq_error_of_map_eq_error h)
    · intro h
      rw [h]
      rfl

end AccessPolicy

/-! ## 4. A default that nobody set -/

namespace Policy

/-- A document says nothing about the default: it is an object without that field, or an array of
    at most the rules. -/
def LacksDefault : Json → Prop
  | .object fields => ∀ field ∈ fields, field.1 ≠ "default"
  | .array items => items.length ≤ 1
  | _ => False

/-- Policies whose default nobody set: a new one, one from a document that says nothing about it,
    and all that rules make of them. -/
inductive Undefaulted : Policy → Prop where
  | new : Undefaulted {}
  | document {text : String} {j : Json} {p : Policy} (hparse : Json.parse text = some j)
    (hlacks : LacksDefault j) (h : ofDocument? text = some p) : Undefaulted p
  | add {p : Policy} (h : Undefaulted p) (r : Rule) : Undefaulted (p.add r)

/-- A field that an object does not have is missing from it. -/
theorem lookup?_of_forall {fields : List (String × Json)} {name : String}
    (h : ∀ field ∈ fields, field.1 ≠ name) : Json.Fields.lookup? fields name = some none := by
  have hnone : (fields.filter fun field => field.1 == name) = [] :=
    List.filter_eq_nil_iff.mpr fun field hfield hname => h field hfield (beq_iff_eq.mp hname)
  rw [Json.Fields.lookup?, hnone]

/-- The values of a document that says nothing about the default. -/
theorem slots?_of_lacksDefault {j : Json} (h : LacksDefault j) :
    ∃ fields, j.fields? = some fields ∧ (fields.slots? ["rules", "default"] = none
      ∨ ∃ rules, fields.slots? ["rules", "default"] = some [rules, none]) := by
  cases j with
  | object fields =>
    refine ⟨.named fields, rfl, ?_⟩
    rw [Json.Fields.slots?, List.mapM_cons, List.mapM_cons, List.mapM_nil, lookup?_of_forall h]
    cases Json.Fields.lookup? fields "rules" with
    | none => exact .inl rfl
    | some rules => exact .inr ⟨rules, rfl⟩
  | array items =>
    refine ⟨.positional items, rfl, .inr ?_⟩
    match items, h with
    | [], _ => exact ⟨none, rfl⟩
    | [rules], _ => exact ⟨some rules, rfl⟩
  | _ => cases h

/-- **Where nobody set a default, everything is denied that no rule is about.** -/
theorem Undefaulted.default_eq {p : Policy} (h : p.Undefaulted) : p.default = unlisted := by
  induction h with
  | new => rfl
  | add _ r ih => exact ih
  | @document text j p hparse hlacks h =>
    rw [ofDocument?, hparse] at h
    have h : ofJson? j = some p := h
    obtain ⟨fields, hfields, hslots⟩ := slots?_of_lacksDefault hlacks
    unfold ofJson? at h
    rw [hfields] at h
    have h : (fields.slots? ["rules", "default"] >>= _) = some p := h
    rcases hslots with hslots | ⟨rules, hslots⟩
    · rw [hslots] at h
      cases h
    · rw [hslots] at h
      have h : (Json.orDefault rulesOfJson? [] rules >>= _) = some p := h
      obtain ⟨read, -, h⟩ := Option.bind_eq_some_iff.mp h
      obtain rfl := Option.some.inj h
      rfl

variable {p : Policy} {kind : StatementKind} {table : String}

/-! ## 5. More rules -/

theorem rules_foldl_add (p : Policy) (more : List Rule) :
    (more.foldl add p).rules = p.rules ++ more := by
  induction more generalizing p with
  | nil => exact (List.append_nil _).symm
  | cons r rest ih => exact (ih (p.add r)).trans (List.append_assoc p.rules [r] rest)

/-- **Where a rule decides, it decides behind further rules too.** -/
theorem decide_foldl_add (h : ¬ p.Unlisted kind table) (more : List Rule) :
    (more.foldl add p).decide kind table = p.decide kind table := by
  have hdecides := decides_iff.mpr (rfl : p.decide kind table = _)
  generalize p.decide kind table = decision at hdecides
  rw [← decides_iff]
  cases hdecides with
  | default hunlisted => exact absurd hunlisted h
  | @rule before behind r hrules hfirst hconcerns =>
    have hbehind : (more.foldl add p).rules = before ++ r :: (behind ++ more) := by
      rw [rules_foldl_add, hrules, List.append_assoc, List.cons_append]
    exact .rule hbehind hfirst hconcerns

end Policy

namespace AccessPolicy

/-- A statement that names a table without a rule does not pass, unless a default was set. -/
theorem transform_unlisted {p : Policy} (h : p.Undefaulted) {s : Statement} {pair : Node × String}
    (hpair : pair ∈ s.tables) (hunlisted : p.Unlisted s.kind pair.2) :
    ∃ failure, s.transform (transformer p.evaluator) = .error failure := by
  have hdenied : p.Decides s.kind pair.2 unlisted := h.default_eq ▸ .default hunlisted
  have hguard : guard p.evaluator s.kind pair.1 pair.2 = .error _ :=
    (guard_eq_error_iff (Statement.tableName?_of_mem_tables hpair)).mpr ⟨_, hdenied, .deny _⟩
  rw [transform_eq]
  cases hadded : (guard p.evaluator).predicates s.kind s.tables with
  | error failure => exact ⟨failure, rfl⟩
  | ok added => exact absurd hguard (Guard.answered_of_predicates hadded hpair _)

/-- Policies that decide alike about the tables of a statement do the same to it. -/
theorem transform_congr {p q : Policy} {s : Statement}
    (h : ∀ pair ∈ s.tables, p.decide s.kind pair.2 = q.decide s.kind pair.2) :
    s.transform (transformer p.evaluator) = s.transform (transformer q.evaluator) := by
  rw [transform_eq, transform_eq, Guard.predicates_congr fun pair hpair => ?_]
  exact guard_congr (congrArg Except.ok (h pair hpair)) pair.1

/-- **The first rule decides, and without one nothing passes.** A policy decides about each relation
    that a statement names at its top, a SELECT its source and its joins and every other statement
    its target, as its first rule about the kind of the statement and the table says, or as its
    default. The statement passes exactly if none is denied and every condition becomes a predicate;
    then these go behind its own in order, or nowhere for an INSERT, and nothing else changes.
    Otherwise the first relation that is refused says why: with the reason of its denial, or with
    the value in its condition that is none. Where nobody set a default, no statement passes that
    names a table no rule is about; and further rules change nothing for a table that has one. -/
theorem transform_policy (p : Policy) :
    (∀ s : Statement, p.Settles s (s.transform (transformer p.evaluator)))
      ∧ (p.Undefaulted → ∀ (s : Statement), ∀ pair ∈ s.tables, p.Unlisted s.kind pair.2 →
        ∃ failure, s.transform (transformer p.evaluator) = .error failure)
      ∧ ∀ more : List Rule,
        (∀ kind table, ¬ p.Unlisted kind table → ∀ decision,
          (more.foldl Policy.add p).Decides kind table decision ↔ p.Decides kind table decision)
        ∧ ∀ s : Statement, (∀ pair ∈ s.tables, ¬ p.Unlisted s.kind pair.2) →
          s.transform (transformer (more.foldl Policy.add p).evaluator)
            = s.transform (transformer p.evaluator) := by
  refine ⟨settles_transform p, fun h s pair => transform_unlisted h, fun more => ⟨?_, ?_⟩⟩
  · intro kind table hlisted decision
    rw [Policy.decides_iff, Policy.decides_iff, Policy.decide_foldl_add hlisted]
  · exact fun s hlisted => transform_congr fun pair hpair =>
      Policy.decide_foldl_add (hlisted pair hpair) more

/-- Books may only be read, and of the loans only those of one reader; no rule is about staff. -/
def lending : Policy :=
  (({} : Policy).readOnly "books").filter "loans" (.eq "reader" (.text "ann"))

/-- Loans under an alias, with their books. -/
def loansOfBooks : Select Node where
  source := some ⟨.table "books"⟩
  joins := [{ kind := .cross, right := ⟨.tableAlias ⟨.table "loans"⟩ "l"⟩ }]
  wheres := [⟨.raw "open" []⟩]

/-- A rule against everything, behind the others, does not take away the loans of the reader; with a
    join of staff nothing is left even without it; and books are not changed. -/
theorem transform_policy_lending :
    lending.Undefaulted
      ∧ (Statement.select loansOfBooks).transform
          (transformer ((lending.deny "*" "closed").evaluator))
        = .ok (.select { loansOfBooks with
          wheres := [⟨.raw "open" []⟩, ⟨.comparison
            ⟨.column ⟨.tableAlias ⟨.table "loans"⟩ "l"⟩ "reader" none⟩ .eq
            ⟨.literal (.text "ann")⟩⟩] })
      ∧ (∃ failure, (Statement.select { loansOfBooks with
          joins := loansOfBooks.joins ++ [{ kind := .inner, right := ⟨.table "staff"⟩ }] }).transform
          (transformer lending.evaluator) = .error failure)
      ∧ (Statement.delete { target := ⟨.table "books"⟩ }).transform (transformer lending.evaluator)
        = .error (.accessDenied "books" "read-only") := by
  have hundefaulted : lending.Undefaulted := ((Policy.Undefaulted.new.add _).add _).add _
  obtain ⟨hsettles, hfails, hmore⟩ := transform_policy lending
  have hbooks : lending.Grants .select (⟨.table "books"⟩, "books") none :=
    ⟨.allow, Policy.decides_iff.mpr rfl, .allow⟩
  have hloans : lending.Grants .select (⟨.tableAlias ⟨.table "loans"⟩ "l"⟩, "loans")
      (some ⟨.comparison ⟨.column ⟨.tableAlias ⟨.table "loans"⟩ "l"⟩ "reader" none⟩ .eq
        ⟨.literal (.text "ann")⟩⟩) :=
    ⟨_, Policy.decides_iff.mpr rfl, .filter rfl⟩
  refine ⟨hundefaulted, ?_, ?_, ?_⟩
  · have hlisted : ∀ pair ∈ (Statement.select loansOfBooks).tables,
        ¬ lending.Unlisted .select pair.2 :=
      List.forall_mem_cons.mpr ⟨by decide, List.forall_mem_singleton.mpr (by decide)⟩
    exact ((hmore [{ table := "*", decision := .deny "closed" }]).2 _ hlisted).trans
      (((hsettles (.select loansOfBooks)).passed _).mpr ⟨_, .cons hbooks (.cons hloans .nil), rfl⟩)
  · refine hfails hundefaulted _ (⟨.table "staff"⟩, "staff") ?_ (by decide)
    exact List.mem_cons_of_mem _ (List.mem_cons_of_mem _ List.mem_cons_self)
  · refine ((hsettles (.delete { target := ⟨.table "books"⟩ })).refused _).mpr
      ⟨[], (⟨.table "books"⟩, "books"), [], rfl, nofun, .deny "read-only", ?_, .deny "read-only"⟩
    exact Policy.decides_iff.mpr rfl

end AccessPolicy
end SqlTree
