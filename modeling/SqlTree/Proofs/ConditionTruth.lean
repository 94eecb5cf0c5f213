import SqlTree.Proofs.Evaluation
import SqlTree.Proofs.GuardStack

/-!
# What a condition means

A condition of a policy has a truth of its own in a record, stated without any SQL. This file says
that the predicate made of it has the same truth in every row:

* `Condition.compared` -- the values of a condition, in the order of its document;
* `Condition.truth` -- the truth of a condition in a record;
* `Condition.Outcome` -- a result that fails exactly for the first array or object;
* `Condition.Made` -- the predicates that conditions are turned into, in which every AND and OR
  stands in parentheses or under a NOT;
* `Condition.outcome_predicate` -- one induction over the condition for all three;
* `Condition.predicate_means` -- the main statement.
-/

namespace SqlTree

/-- An array or an object. -/
def Json.isCompound : Json → Bool
  | .array _ => true
  | .object _ => true
  | _ => false

namespace Condition

/-! ## 1. The meaning of a condition -/

mutual

/-- The columns and values that a condition compares, in the order of its document. -/
def compared : Condition → List (String × Json)
  | .eq column value => [(column, value)]
  | .neq column value => [(column, value)]
  | .oneOf column values => values.map fun value => (column, value)
  | .isNull _ => []
  | .and conditions => comparedAll conditions
  | .or conditions => comparedAll conditions
  | .not condition => condition.compared

def comparedAll : List Condition → List (String × Json)
  | [] => []
  | condition :: rest => condition.compared ++ comparedAll rest

end

section Truth

variable {δ : Type} (E : Engine δ) (record : Record δ)

mutual

/-- The truth of a condition in a record. Compared with null, a column is tested for null; a list
    of values is a disjunction of equalities, where null leaves the answer open. -/
def truth : Condition → Truth
  | .eq column .null => .ofBool (record column).isNone
  | .eq column value => E.same (record column) (some (E.datum value))
  | .neq column .null => .ofBool (record column).isSome
  | .neq column value => (E.same (record column) (some (E.datum value))).not
  | .oneOf column values =>
    Truth.any (values.map fun value => E.same (record column) (E.json value))
  | .isNull column => .ofBool (record column).isNone
  | .and conditions => Truth.all (truths conditions)
  | .or conditions => Truth.any (truths conditions)
  | .not condition => (truth condition).not

def truths : List Condition → List Truth
  | [] => []
  | condition :: rest => truth condition :: truths rest

end

end Truth

/-! ## 2. The first value that is none -/

/-- The first array or object among values that are compared. -/
def firstCompound (compared : List (String × Json)) : Option (String × Json) :=
  compared.find? fun pair => pair.2.isCompound

/-- A result for some compared values: it fails for the first array or object among them, with
    column and value, and otherwise it is good. -/
inductive Outcome {α : Type} (compared : List (String × Json)) (good : α → Prop) :
    Except PolicyFault α → Prop where
  | done {a : α} (none : firstCompound compared = none) (h : good a) : Outcome compared good (.ok a)
  | refused {column : String} {value : Json}
    (first : firstCompound compared = some (column, value)) :
    Outcome compared good (.error (.unsupportedValue column value))

namespace Outcome

variable {α β : Type} {compared more : List (String × Json)} {good : α → Prop}
  {good' : β → Prop}

theorem bind {x : Except PolicyFault α} {f : α → Except PolicyFault β}
    (h : Outcome compared good x) (hf : ∀ a, good a → Outcome more good' (f a)) :
    Outcome (compared ++ more) good' (x >>= f) := by
  cases h with
  | refused first =>
    refine .refused ?_
    rw [firstCompound, List.find?_append, ← firstCompound, first]
    rfl
  | @done a none hgood =>
    have hfirst : firstCompound (compared ++ more) = firstCompound more := by
      rw [firstCompound, List.find?_append, ← firstCompound, none]
      rfl
    show Outcome _ _ (f a)
    have hrest := hf a hgood
    generalize f a = result at hrest
    cases hrest with
    | done none' h' => exact .done (hfirst.trans none') h'
    | refused first => exact .refused (hfirst.trans first)

theorem map {x : Except PolicyFault α} {f : α → β} (h : Outcome compared good x)
    (hf : ∀ a, good a → good' (f a)) : Outcome compared good' (x.map f) := by
  cases h with
  | refused first => exact .refused first
  | done none hgood => exact .done none (hf _ hgood)

/-- The same result, of which more is known. -/
theorem imp {x : Except PolicyFault α} {better : α → Prop} (h : Outcome compared good x)
    (himp : ∀ a, good a → better a) : Outcome compared better x := by
  cases h with
  | refused first => exact .refused first
  | done none hgood => exact .done none (himp _ hgood)

end Outcome

/-! ## 3. Values -/

/-- **A whole number is the same number as a value**, signed or not. -/
theorem toJson_ofWhole (n : WholeNumber) : (Value.ofWhole n).toJson = .whole n := by
  obtain ⟨value, low, high⟩ := n
  unfold Value.ofWhole
  by_cases hsigned : value < 9223372036854775808
  · have hvalue : (Int64.ofInt value).toInt = value :=
      Int64.toInt_ofInt_of_le (by simpa using low) (by simpa using hsigned)
    rw [if_pos hsigned]
    simp only [Value.toJson, WholeNumber.ofInt64, hvalue]
  · have hvalue : ((UInt64.ofNat value.toNat).toNat : Int) = value := by
      rw [UInt64.toNat_ofNat_of_lt' (by rw [UInt64.size]; omega)]
      omega
    rw [if_neg hsigned]
    simp only [Value.toJson, WholeNumber.ofUInt64, hvalue]

/-- **A column is compared with the value that its document has**, and only arrays and objects are
    no values. -/
theorem outcome_valueOf (column : String) (value : Json) :
    Outcome [(column, value)] (fun v : Value => v.toJson = value) (valueOf column value) := by
  cases value with
  | whole n => exact .done rfl (toJson_ofWhole n)
  | array items => exact .refused rfl
  | object fields => exact .refused rfl
  | _ => exact .done rfl rfl

theorem outcome_values (column : String) (values : List Json) :
    Outcome (values.map fun value => (column, value)) (fun vs => vs.map Value.toJson = values)
      (values.mapM (valueOf column)) := by
  induction values with
  | nil => exact .done rfl rfl
  | cons value rest ih =>
    rw [List.mapM_cons, List.map_cons]
    refine (outcome_valueOf column value).bind fun v hv => ?_
    have hrest : Outcome (rest.map (fun value => (column, value)) ++ [])
        (fun vs => vs.map Value.toJson = value :: rest)
        (rest.mapM (valueOf column) >>= fun vs => .ok (v :: vs)) :=
      ih.bind fun vs hvs => .done rfl ?_
    · rwa [List.append_nil] at hrest
    · rw [List.map_cons, hv, hvs]

/-! ## 4. Predicates made of conditions -/

/-- The predicates that conditions on a relation are turned into. -/
inductive Made (relation : Node) : Node → Prop where
  | nullTest (column : String) (op : NullTest) :
    Made relation ⟨.nullTest (relation.columnOf column) op⟩
  | comparison (column : String) (op : ComparisonOp) (v : Value) :
    Made relation ⟨.comparison (relation.columnOf column) op ⟨.literal v⟩⟩
  | membership (column : String) (vs : List Value) :
    Made relation ⟨.membership (relation.columnOf column) (vs.map Node.literal) false⟩
  | constant (sql : String) : Made relation (.raw sql)
  | negate {n : Node} (h : Made relation n) : Made relation n.negate
  | conjoin {l r : Node} (hl : Made relation l) (hr : Made relation r) :
    Made relation (.grouping (l.conjoin r))
  | disjoin {l r : Node} (hl : Made relation l) (hr : Made relation r) :
    Made relation (l.disjoin r)

/-- What a predicate made of a condition is: made of nothing else, and as true as the condition in
    every row that has a record for the relation. -/
structure Renders (relation : Node) (truth : ∀ δ : Type, Engine δ → Record δ → Truth)
    (n : Node) : Prop where
  made : Made relation n
  means : ∀ (δ : Type) (E : Engine δ) (db : Database δ) (row : Binding δ) (record : Record δ),
    row.record? relation = some record → E.test db n row = truth δ E record

section Relation

variable {relation : Node}

theorem attr_of_isRelation (h : relation.isRelation = true) (column : String) :
    relation.attr column = .ok (relation.columnOf column) := by
  unfold Node.attr Node.checkRelation
  rw [if_pos h]
  rfl

theorem outcome_comparison (h : relation.isRelation = true) (column : String) (value : Json)
    {op : ComparisonOp} {test : Node → Node}
    {good : Node → Prop} (hnull : value = .null → good (test (relation.columnOf column)))
    (hvalue : ∀ v : Value, value ≠ .null → v.toJson = value →
      good ⟨.comparison (relation.columnOf column) op ⟨.literal v⟩⟩) :
    Outcome [(column, value)] good (comparison relation column value op test) := by
  unfold comparison
  rw [attr_of_isRelation h]
  have hcompared : [(column, value)] = [(column, value)] ++ [] := rfl
  rw [hcompared]
  refine (outcome_valueOf column value).bind fun v hv => ?_
  cases v with
  | null => exact .done rfl (hnull hv.symm)
  | _ => exact .done rfl (hvalue _ (by rw [← hv]; exact Json.noConfusion) hv)

theorem outcome_membership (h : relation.isRelation = true) (column : String)
    (values : List Json) :
    Outcome (values.map fun value => (column, value))
      (fun n => ∃ vs : List Value, vs.map Value.toJson = values
        ∧ n = ⟨.membership (relation.columnOf column) (vs.map Node.literal) false⟩)
      (membership relation column values) := by
  unfold membership
  rw [attr_of_isRelation h]
  rw [← List.append_nil (values.map fun value => (column, value))]
  refine (outcome_values column values).bind fun vs hvs => ?_
  show Outcome [] _ (ofMisuse ((relation.columnOf column).inList (vs.map Node.literal)))
  rw [Node.inList, mapM_coerce_columnOf]
  exact .done rfl ⟨vs, hvs, rfl⟩

theorem made_joined {join : Node → Node → Node}
    (hjoin : ∀ l r, Made relation l → Made relation r → Made relation (join l r))
    (whenEmpty : String) {ns : List Node} (h : ∀ n ∈ ns, Made relation n) :
    Made relation (joined whenEmpty join ns) := by
  cases ns with
  | nil => exact .constant whenEmpty
  | cons first rest =>
    obtain ⟨hfirst, hrest⟩ := List.forall_mem_cons.mp h
    show Made relation (rest.foldl join first)
    clear h
    induction rest generalizing first with
    | nil => exact hfirst
    | cons second more ih =>
      obtain ⟨hsecond, hmore⟩ := List.forall_mem_cons.mp hrest
      exact ih _ (hjoin _ _ hfirst hsecond) hmore

end Relation

section Joined

variable {δ : Type} (E : Engine δ) (db : Database δ) (row : Binding δ)

/-- Predicates joined from the left have the truth of the first with the others. -/
theorem test_foldl {join : Node → Node → Node} (op : Truth → Truth → Truth)
    (hjoin : ∀ l r, E.test db (join l r) row = op (E.test db l row) (E.test db r row))
    (rest : List Node) (first : Node) : E.test db (rest.foldl join first) row
      = (rest.map fun n => E.test db n row).foldl op (E.test db first row) := by
  induction rest generalizing first with
  | nil => rfl
  | cons n more ih => rw [List.foldl_cons, List.map_cons, List.foldl_cons, ih, hjoin]

/-- **Predicates joined by AND are all of them**, and without any the constant is true. -/
theorem test_joined_and (ns : List Node) :
    E.test db (joined "1=1" (fun l r => .grouping (l.conjoin r)) ns) row
      = Truth.all (ns.map fun n => E.test db n row) := by
  cases ns with
  | nil =>
    show E.test db ⟨.raw "1=1" []⟩ row = .yes
    rw [Engine.test, Engine.eval_raw, E.raw_true]
    exact E.truth_ofTruth .yes
  | cons first rest =>
    show E.test db (rest.foldl _ first) row = _
    rw [test_foldl E db row Truth.and (fun l r => ?_), Truth.foldl_and]
    · rfl
    · exact (E.test_grouping db row _).trans (E.test_and db row l r)

/-- **Predicates joined by OR are any of them**, and without any the constant is false. -/
theorem test_joined_or (ns : List Node) :
    E.test db (joined "1=0" Node.disjoin ns) row
      = Truth.any (ns.map fun n => E.test db n row) := by
  cases ns with
  | nil =>
    show E.test db ⟨.raw "1=0" []⟩ row = .no
    rw [Engine.test, Engine.eval_raw, E.raw_false]
    exact E.truth_ofTruth .no
  | cons first rest =>
    show E.test db (rest.foldl _ first) row = _
    rw [test_foldl E db row Truth.or (fun l r => ?_), Truth.foldl_or]
    · rfl
    · exact (E.test_grouping db row _).trans (E.test_or db row l r)

end Joined

/-! ## 5. Every condition -/

section Conditions

variable {relation : Node}

theorem eq_of_not_null {δ : Type} (E : Engine δ) {value : Json} (h : value ≠ .null) :
    E.json value = some (E.datum value) := by
  cases value with
  | null => exact absurd rfl h
  | _ => rfl

theorem renders_eq (h : relation.isRelation = true) (column : String) (value : Json) :
    Outcome [(column, value)] (Renders relation fun _ E record => truth E record (.eq column value))
      (comparison relation column value .eq Node.isNull) := by
  refine outcome_comparison h column value (fun hnull => ?_) fun v hne hv => ?_
  · subst hnull
    refine ⟨.nullTest column .isNull, fun δ E db row record hrecord => ?_⟩
    rw [Node.isNull, Engine.test_isNull, Node.columnOf, E.eval_column db row hrecord, truth]
  · refine ⟨.comparison column .eq v, fun δ E db row record hrecord => ?_⟩
    rw [Engine.test_equal, Node.columnOf, E.eval_column db row hrecord, Engine.eval_literal,
      Engine.constant, hv, eq_of_not_null E hne]
    cases value with
    | null => exact absurd rfl hne
    | _ => simp only [truth]

theorem renders_neq (h : relation.isRelation = true) (column : String) (value : Json) :
    Outcome [(column, value)]
      (Renders relation fun _ E record => truth E record (.neq column value))
      (comparison relation column value .notEq Node.isNotNull) := by
  refine outcome_comparison h column value (fun hnull => ?_) fun v hne hv => ?_
  · subst hnull
    refine ⟨.nullTest column .isNotNull, fun δ E db row record hrecord => ?_⟩
    rw [Node.isNotNull, Engine.test_isNotNull, Node.columnOf, E.eval_column db row hrecord, truth]
  · refine ⟨.comparison column .notEq v, fun δ E db row record hrecord => ?_⟩
    rw [Engine.test_notEqual, Node.columnOf, E.eval_column db row hrecord, Engine.eval_literal,
      Engine.constant, hv, eq_of_not_null E hne]
    cases value with
    | null => exact absurd rfl hne
    | _ => simp only [truth]

theorem renders_oneOf (h : relation.isRelation = true) (column : String) (values : List Json) :
    Outcome (values.map fun value => (column, value))
      (Renders relation fun _ E record => truth E record (.oneOf column values))
      (membership relation column values) := by
  refine (outcome_membership h column values).imp fun n hn => ?_
  obtain ⟨vs, rfl, rfl⟩ := hn
  refine ⟨.membership column vs, fun δ E db row record hrecord => ?_⟩
  have hliterals : (vs.map Node.literal).any Node.isQuery = false := by
    rw [List.any_eq_false]
    intro n hn
    obtain ⟨v, -, rfl⟩ := List.mem_map.mp hn
    exact Bool.false_ne_true
  rw [E.test_membership db row _ hliterals, Node.columnOf, E.eval_column db row hrecord, truth]
  show E.among (record column) ((vs.map Node.literal).map fun v => E.eval db v row) = _
  rw [Engine.among, List.map_map, List.map_map, List.map_map]
  rfl

mutual

/-- **The predicate of a condition means what the condition does**, or its first array or object is
    refused. -/
theorem outcome_predicate (h : relation.isRelation = true) : ∀ c : Condition,
    Outcome c.compared (Renders relation fun _ E record => truth E record c) (c.predicate relation)
  | .eq column value => by
    rw [predicate, compared]
    exact renders_eq h column value
  | .neq column value => by
    rw [predicate, compared]
    exact renders_neq h column value
  | .oneOf column values => by
    rw [predicate, compared]
    exact renders_oneOf h column values
  | .isNull column => by
    rw [predicate, compared, attr_of_isRelation h]
    refine .done rfl ⟨.nullTest column .isNull, fun δ E db row record hrecord => ?_⟩
    rw [Node.isNull, Engine.test_isNull, Node.columnOf, E.eval_column db row hrecord, truth]
  | .and conditions => by
    rw [predicate, compared]
    refine (outcome_predicates h conditions).map fun ns hns => ⟨made_joined ?_ _ hns.1, ?_⟩
    · exact fun l r hl hr => .conjoin hl hr
    · intro δ E db row record hrecord
      rw [test_joined_and, hns.2 δ E db row record hrecord, truth]
  | .or conditions => by
    rw [predicate, compared]
    refine (outcome_predicates h conditions).map fun ns hns => ⟨made_joined ?_ _ hns.1, ?_⟩
    · exact fun l r hl hr => .disjoin hl hr
    · intro δ E db row record hrecord
      rw [test_joined_or, hns.2 δ E db row record hrecord, truth]
  | .not condition => by
    rw [predicate, compared]
    refine (outcome_predicate h condition).map fun n hn =>
      ⟨.negate hn.made, fun δ E db row record hrecord => ?_⟩
    rw [Node.negate, Engine.test_not, hn.means δ E db row record hrecord, truth]

theorem outcome_predicates (h : relation.isRelation = true) : ∀ cs : List Condition,
    Outcome (comparedAll cs)
      (fun ns => (∀ n ∈ ns, Made relation n)
        ∧ ∀ (δ : Type) (E : Engine δ) (db : Database δ) (row : Binding δ) (record : Record δ),
          row.record? relation = some record →
          ns.map (fun n => E.test db n row) = truths E record cs)
      (predicates relation cs)
  | [] => by
    rw [predicates, comparedAll]
    refine .done rfl ⟨fun n hn => (by cases hn), fun δ E db row record _ => ?_⟩
    rw [truths]
    rfl
  | condition :: rest => by
    rw [predicates, comparedAll]
    refine (outcome_predicate h condition).bind fun first hfirst => ?_
    have hrest : Outcome (comparedAll rest) (fun ns => (∀ n ∈ ns, Made relation n)
          ∧ ∀ (δ : Type) (E : Engine δ) (db : Database δ) (row : Binding δ) (record : Record δ),
            row.record? relation = some record →
            ns.map (fun n => E.test db n row) = truths E record (condition :: rest))
        ((predicates relation rest).map (first :: ·)) :=
      (outcome_predicates h rest).map fun more hmore =>
        ⟨List.forall_mem_cons.mpr ⟨hfirst.made, hmore.1⟩, fun δ E db row record hrecord => by
          rw [List.map_cons, hfirst.means δ E db row record hrecord,
            hmore.2 δ E db row record hrecord, truths]⟩
    exact hrest

end

end Conditions
end Condition

/-! ## 6. Parentheses -/

namespace Node

/-- An AND or an OR. -/
def isConnective (n : Node) : Bool :=
  match n.form with
  | .and _ _ => true
  | .or _ _ => true
  | _ => false

/-- Parentheses or a NOT. -/
def isShelter (n : Node) : Bool :=
  match n.form with
  | .grouping _ => true
  | .not _ => true
  | _ => false

/-- Only parentheses and NOT have an AND or OR right below them. -/
def Shelters (n : Node) : Prop :=
  ∀ c ∈ n.form.children, c.isConnective = true → n.isShelter = true

theorem isConnective_of_isRelation {n : Node} (h : n.isRelation = true) :
    n.isConnective = false := by
  obtain ⟨form⟩ := n
  cases form with
  | and left right => cases h
  | or left right => cases h
  | _ => rfl

/-- There is no AND and no OR in a relation over a table. -/
theorem shelters_of_tableName? {n : Node} {table : String} (h : n.tableName? = some table) :
    ∀ m ∈ n.parts, m.Shelters := by
  intro m hm c hc hconnective
  have hmem : c ∈ m.parts := by
    obtain ⟨form⟩ := m
    rw [parts_mk]
    exact List.mem_cons_of_mem _ (List.mem_flatMap.mpr ⟨c, hc, List.mem_cons_self⟩)
  rw [isConnective_of_isRelation (n.isRelation_of_mem_parts h c (parts_subset hm hmem))]
    at hconnective
  cases hconnective

end Node

namespace Condition

theorem Made.isConnective {relation n : Node} (h : Made relation n) : n.isConnective = false := by
  cases h <;> rfl

/-- **In a predicate made of a condition every AND and OR is sheltered**, in all of its tree that
    some way of descending reaches. -/
theorem Made.shelters {relation n : Node} {below : Form Node → List Node}
    {reach : Node → List Node}
    (hreach : ∀ form, reach ⟨form⟩ = ⟨form⟩ :: (below form).flatMap reach)
    (hbelow : ∀ form, below form ⊆ form.children) (hrelation : relation.isRelation = true)
    (hcolumn : ∀ name, ∀ c ∈ below (.column relation name none), ∀ m ∈ reach c, m.Shelters)
    (h : Made relation n) : ∀ m ∈ reach n, m.Shelters := by
  -- One layer: the node itself, and what is reached through the children that are left.
  have hmk : ∀ form : Form Node, (Node.mk form).Shelters →
      (∀ c ∈ form.children, ∀ m ∈ reach c, m.Shelters) → ∀ m ∈ reach ⟨form⟩, m.Shelters := by
    intro form hself hchildren m hm
    rw [hreach] at hm
    rcases List.mem_cons.mp hm with rfl | hm
    · exact hself
    · obtain ⟨c, hc, hm⟩ := List.mem_flatMap.mp hm
      exact hchildren c (hbelow form hc) m hm
  have hplain : ∀ form : Form Node, (∀ c ∈ form.children, c.isConnective = false) →
      (Node.mk form).Shelters := by
    intro form hform c hc hconnective
    rw [hform c hc] at hconnective
    cases hconnective
  have hleaf : ∀ form : Form Node, form.children = [] → ∀ m ∈ reach ⟨form⟩, m.Shelters := by
    intro form hform
    refine hmk form (hplain form ?_) ?_ <;> rw [hform] <;> exact fun c hc => by cases hc
  have hcolumnOf : ∀ column, ∀ m ∈ reach (relation.columnOf column), m.Shelters := by
    intro column m hm
    rw [Node.columnOf, hreach] at hm
    rcases List.mem_cons.mp hm with rfl | hm
    · exact hplain _ (List.forall_mem_singleton.mpr (Node.isConnective_of_isRelation hrelation))
    · obtain ⟨c, hc, hm⟩ := List.mem_flatMap.mp hm
      exact hcolumn column c hc m hm
  induction h with
  | nullTest column op =>
    exact hmk _ (hplain _ (List.forall_mem_singleton.mpr rfl))
      (List.forall_mem_singleton.mpr (hcolumnOf column))
  | comparison column op v =>
    exact hmk _ (hplain _ (List.forall_mem_cons.mpr ⟨rfl, List.forall_mem_singleton.mpr rfl⟩))
      (List.forall_mem_cons.mpr ⟨hcolumnOf column, List.forall_mem_singleton.mpr (hleaf _ rfl)⟩)
  | membership column vs =>
    refine hmk _ (hplain _ (List.forall_mem_cons.mpr ⟨rfl, ?_⟩))
      (List.forall_mem_cons.mpr ⟨hcolumnOf column, ?_⟩)
    · exact List.forall_mem_map.mpr fun v _ => rfl
    · exact List.forall_mem_map.mpr fun v _ => hleaf _ rfl
  | constant sql => exact hleaf _ rfl
  | negate _ ih => exact hmk _ (fun _ _ _ => rfl) (List.forall_mem_singleton.mpr ih)
  | conjoin hl hr ihl ihr =>
    refine hmk _ (fun _ _ _ => rfl) (List.forall_mem_singleton.mpr (hmk _ (hplain _ ?_) ?_))
    · exact List.forall_mem_cons.mpr
        ⟨hl.isConnective, List.forall_mem_singleton.mpr hr.isConnective⟩
    · exact List.forall_mem_cons.mpr ⟨ihl, List.forall_mem_singleton.mpr ihr⟩
  | disjoin hl hr ihl ihr =>
    refine hmk _ (fun _ _ _ => rfl) (List.forall_mem_singleton.mpr (hmk _ (hplain _ ?_) ?_))
    · exact List.forall_mem_cons.mpr
        ⟨hl.isConnective, List.forall_mem_singleton.mpr hr.isConnective⟩
    · exact List.forall_mem_cons.mpr ⟨ihl, List.forall_mem_singleton.mpr ihr⟩

/-! ## 7. Main statement -/

/-- **A condition and its predicate mean the same.** Let no array and no object be compared. Then
    the condition becomes a predicate, and in every database and every row that has a record for
    the relation its truth is that of the condition in the record, whatever equality the values
    have. It is no AND or OR itself, and wherever one is written in it, or stands in its tree while
    the tree of the relation has none that is bare, it stands right below parentheses or a NOT.
    Otherwise the first array or object in the order of the document is refused with its column. -/
theorem predicate_means (c : Condition) {relation : Node} (h : relation.isRelation = true) :
    (∀ column value, firstCompound c.compared = some (column, value) →
        c.predicate relation = .error (.unsupportedValue column value))
      ∧ ((∀ pair ∈ c.compared, pair.2.isCompound = false) →
        ∃ n, c.predicate relation = .ok n
          ∧ (∀ (δ : Type) (E : Engine δ) (db : Database δ) (row : Binding δ) (record : Record δ),
            row.record? relation = some record → E.test db n row = truth E record c)
          ∧ n.isConnective = false
          ∧ (∀ m ∈ n.visited, m.Shelters)
          ∧ ((∀ m ∈ relation.parts, m.Shelters) → ∀ m ∈ n.parts, m.Shelters)) := by
  have houtcome := c.outcome_predicate h
  constructor
  · intro column value hfirst
    generalize c.predicate relation = result at houtcome
    cases houtcome with
    | done none _ =>
      rw [hfirst] at none
      cases none
    | refused first =>
      rw [hfirst] at first
      cases first
      rfl
  · intro hscalar
    have hnone : firstCompound c.compared = none :=
      List.find?_eq_none.mpr fun pair hpair => by
        rw [hscalar pair hpair]
        exact Bool.false_ne_true
    generalize c.predicate relation = result at houtcome
    cases houtcome with
    | refused first =>
      rw [hnone] at first
      cases first
    | @done n _ hn =>
      refine ⟨n, rfl, hn.means, hn.made.isConnective, ?_, fun hrelation => ?_⟩
      · exact hn.made.shelters Node.visited_mk Form.written_subset h fun _ c hc => by cases hc
      · refine hn.made.shelters Node.parts_mk (fun _ => List.Subset.refl _) h fun _ c hc => ?_
        rw [List.mem_singleton.mp hc]
        exact hrelation

/-- Records that are open to an owner or to everyone, and neither locked nor without a state. -/
def readable : Condition :=
  .and [.or [.eq "owner" (.text "ann"), .eq "public" (.bool true), .and []],
    .not (.oneOf "state" [.text "locked", .null]), .neq "state" .null]

/-- In a record without an owner the list leaves the answer open, since it has a null; and a
    second list of which the first value is none is refused with its column. -/
theorem predicate_means_readable :
    (∃ n, readable.predicate ⟨.tableAlias ⟨.table "notes"⟩ "n"⟩ = .ok n
        ∧ Engine.ofJson.test (fun _ => []) n
          [(⟨.tableAlias ⟨.table "notes"⟩ "n"⟩,
            fun column => if column = "state" then some (.text "open") else none)] = .unknown
        ∧ (∀ m ∈ n.visited, m.Shelters) ∧ ∀ m ∈ n.parts, m.Shelters)
      ∧ (Condition.and [readable, .oneOf "tags" [.array []], .eq "state" (.object [])]).predicate
        ⟨.table "notes"⟩ = .error (.unsupportedValue "tags" (.array [])) := by
  have hscalar : ∀ pair ∈ readable.compared, pair.2.isCompound = false := by
    simp [readable, compared, comparedAll, Json.isCompound]
  obtain ⟨n, hn, hmeans, -, hvisited, hparts⟩ :=
    (@predicate_means readable ⟨.tableAlias ⟨.table "notes"⟩ "n"⟩ rfl).2 hscalar
  refine ⟨⟨n, hn, (hmeans _ _ _ _ _ rfl).trans rfl, hvisited, hparts ?_⟩, ?_⟩
  · exact Node.shelters_of_tableName? (Node.tableName?_mk _)
  · exact (predicate_means _ rfl).1 "tags" (.array []) rfl

end Condition
end SqlTree
