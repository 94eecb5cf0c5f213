import Mathlib.Data.List.Forall2
import Mathlib.Data.List.Nodup
import SqlTree.Policy.Document
import SqlTree.Proofs.ConditionTruth
import SqlTree.Proofs.JsonText

/-!
# Policies survive their documents

A policy that is written as a document and read again is the same policy. Only the fields of
objects among the values it compares with may come back in another order:

* `Json.Alike` -- the same value up to the order of fields;
* `Json.alike_canonical`, `Json.canonical_of_sorted` -- sorting changes nothing else, and nothing
  at all where fields are sorted already;
* `Condition.Alike`, `Policy.Alike` -- the same for conditions and policies;
* `Condition.condition?_part` -- a condition is read back, one case for each kind;
* `Policy.ofDocument?_document` -- the main statement.
-/

namespace SqlTree

/-! ## 1. The order of fields -/

namespace Json

mutual

/-- Two values are the same up to the order of fields. -/
inductive Alike : Json → Json → Prop where
  | scalar {j : Json} (h : j.isCompound = false) : Alike j j
  | array {items items' : List Json} (h : List.Forall₂ Alike items items') :
    Alike (.array items) (.array items')
  | object {fields fields' moved : List (String × Json)} (h : List.Forall₂ AlikeField fields fields')
    (hmoved : moved.Perm fields') : Alike (.object fields) (.object moved)

inductive AlikeField : String × Json → String × Json → Prop where
  | mk (name : String) {j j' : Json} (h : Alike j j') : AlikeField (name, j) (name, j')

end

mutual

/-- The names in every object of a value satisfy something. -/
def Objects (holds : List String → Prop) : Json → Prop
  | .array items => ObjectsItems holds items
  | .object fields => holds (fields.map Prod.fst) ∧ ObjectsFields holds fields
  | _ => True

def ObjectsItems (holds : List String → Prop) : List Json → Prop
  | [] => True
  | item :: rest => Objects holds item ∧ ObjectsItems holds rest

def ObjectsFields (holds : List String → Prop) : List (String × Json) → Prop
  | [] => True
  | (_, value) :: rest => Objects holds value ∧ ObjectsFields holds rest

end

section Sorting

variable {α : Type} {name : String} {sorted fields : List (String × α)}

/-- A new name is put among the others. -/
theorem insertField_perm (value : α) (h : name ∉ sorted.map Prod.fst) :
    (insertField name value sorted).Perm ((name, value) :: sorted) := by
  induction sorted with
  | nil => exact .refl _
  | cons field rest ih =>
    obtain ⟨hne, hrest⟩ := not_or.mp (List.mem_cons.not.mp h)
    rw [insertField, if_neg hne]
    by_cases hlt : name < field.1
    · rw [if_pos hlt]
    · rw [if_neg hlt]
      exact ((ih hrest).cons field).trans (.swap _ _ _)

/-- A name behind all others is put at the end. -/
theorem insertField_last (value : α) (h : ∀ other ∈ sorted.map Prod.fst, other < name) :
    insertField name value sorted = sorted ++ [(name, value)] := by
  induction sorted with
  | nil => rfl
  | cons field rest ih =>
    obtain ⟨hfield, hrest⟩ := List.forall_mem_cons.mp h
    have hne : name ≠ field.1 := fun heq => String.lt_irrefl _ (heq ▸ hfield)
    rw [insertField, if_neg hne, if_neg (fun hlt => String.lt_irrefl _ (String.lt_trans hlt hfield)),
      ih hrest, List.cons_append]

theorem foldl_insertField_perm (h : ((sorted ++ fields).map Prod.fst).Nodup) :
    (fields.foldl (fun sorted field => insertField field.1 field.2 sorted) sorted).Perm
      (sorted ++ fields) := by
  induction fields generalizing sorted with
  | nil => rw [List.append_nil]; exact .refl _
  | cons field rest ih =>
    have hmiddle : (sorted ++ field :: rest).Perm ((field :: sorted) ++ rest) :=
      List.perm_middle
    have hnames := (hmiddle.map Prod.fst).nodup_iff.mp h
    have hnew : field.1 ∉ sorted.map Prod.fst := by
      rw [List.cons_append, List.map_cons, List.map_append] at hnames
      exact fun hmem => (List.nodup_cons.mp hnames).1 (List.mem_append_left _ hmem)
    have hput := insertField_perm field.2 hnew
    have hrest := hput.append_right rest
    exact (ih ((hrest.map Prod.fst).nodup_iff.mpr hnames)).trans (hrest.trans hmiddle.symm)

/-- **Sorting moves fields**, if no two have one name. -/
theorem sortFields_perm (h : (fields.map Prod.fst).Nodup) : (sortFields fields).Perm fields :=
  foldl_insertField_perm h

theorem foldl_insertField_sorted (h : ((sorted ++ fields).map Prod.fst).Pairwise (· < ·)) :
    fields.foldl (fun sorted field => insertField field.1 field.2 sorted) sorted
      = sorted ++ fields := by
  induction fields generalizing sorted with
  | nil => exact (List.append_nil _).symm
  | cons field rest ih =>
    have hlast : ∀ other ∈ sorted.map Prod.fst, other < field.1 := fun other hother => by
      rw [List.map_append, List.map_cons] at h
      exact (List.pairwise_append.mp h).2.2 other hother field.1 List.mem_cons_self
    have hsame : sorted ++ field :: rest = sorted ++ [field] ++ rest :=
      (List.append_assoc sorted [field] rest).symm
    rw [List.foldl_cons, insertField_last field.2 hlast, hsame]
    exact ih (hsame ▸ h)

/-- **Sorted fields stay where they are.** -/
theorem sortFields_sorted (h : (fields.map Prod.fst).Pairwise (· < ·)) :
    sortFields fields = fields :=
  foldl_insertField_sorted h

end Sorting

theorem map_fst_canonicalFields (fields : List (String × Json)) :
    (canonicalFields fields).map Prod.fst = fields.map Prod.fst := by
  induction fields with
  | nil => rfl
  | cons field rest ih => rw [canonicalFields, List.map_cons, List.map_cons, ih]

theorem canonicalItems_eq (items : List Json) : canonicalItems items = items.map canonical := by
  induction items with
  | nil => rfl
  | cons item rest ih => rw [canonicalItems, List.map_cons, ih]

mutual

/-- **Sorting a value changes the order of fields only**, if no object has two of one name. -/
theorem alike_canonical : ∀ j : Json, j.Objects List.Nodup → j.Alike j.canonical
  | .null, _ => .scalar rfl
  | .bool _, _ => .scalar rfl
  | .whole _, _ => .scalar rfl
  | .float _, _ => .scalar rfl
  | .text _, _ => .scalar rfl
  | .array items, h => .array (alike_canonicalItems items h)
  | .object fields, h => by
    rw [Objects] at h
    refine .object (alike_canonicalFields fields h.2) (sortFields_perm ?_)
    rw [map_fst_canonicalFields]
    exact h.1

theorem alike_canonicalItems : ∀ items : List Json, ObjectsItems List.Nodup items →
    List.Forall₂ Alike items (canonicalItems items)
  | [], _ => .nil
  | item :: rest, h => .cons (alike_canonical item h.1) (alike_canonicalItems rest h.2)

theorem alike_canonicalFields : ∀ fields : List (String × Json), ObjectsFields List.Nodup fields →
    List.Forall₂ AlikeField fields (canonicalFields fields)
  | [], _ => .nil
  | (name, value) :: rest, h =>
    .cons (.mk name (alike_canonical value h.1)) (alike_canonicalFields rest h.2)

end

mutual

/-- **A value that is sorted stays as it is.** -/
theorem canonical_of_sorted : ∀ j : Json, j.Objects (List.Pairwise (· < ·)) → j.canonical = j
  | .null, _ => rfl
  | .bool _, _ => rfl
  | .whole _, _ => rfl
  | .float _, _ => rfl
  | .text _, _ => rfl
  | .array items, h => by rw [canonical, canonicalItems_of_sorted items h]
  | .object fields, h => by
    rw [Objects] at h
    rw [canonical, canonicalFields_of_sorted fields h.2, sortFields_sorted h.1]

theorem canonicalItems_of_sorted : ∀ items : List Json,
    ObjectsItems (List.Pairwise (· < ·)) items → canonicalItems items = items
  | [], _ => rfl
  | item :: rest, h => by
    rw [canonicalItems, canonical_of_sorted item h.1, canonicalItems_of_sorted rest h.2]

theorem canonicalFields_of_sorted : ∀ fields : List (String × Json),
    ObjectsFields (List.Pairwise (· < ·)) fields → canonicalFields fields = fields
  | [], _ => rfl
  | (name, value) :: rest, h => by
    rw [canonicalFields, canonical_of_sorted value h.1, canonicalFields_of_sorted rest h.2]

end

end Json

/-! ## 2. Policies that are the same -/

namespace Condition

/-- Two conditions are the same up to the order of fields in their values. -/
inductive Alike : Condition → Condition → Prop where
  | eq (column : String) {value value' : Json} (h : value.Alike value') :
    Alike (.eq column value) (.eq column value')
  | neq (column : String) {value value' : Json} (h : value.Alike value') :
    Alike (.neq column value) (.neq column value')
  | oneOf (column : String) {values values' : List Json} (h : List.Forall₂ Json.Alike values values') :
    Alike (.oneOf column values) (.oneOf column values')
  | isNull (column : String) : Alike (.isNull column) (.isNull column)
  | and {conditions conditions' : List Condition} (h : List.Forall₂ Alike conditions conditions') :
    Alike (.and conditions) (.and conditions')
  | or {conditions conditions' : List Condition} (h : List.Forall₂ Alike conditions conditions') :
    Alike (.or conditions) (.or conditions')
  | not {condition condition' : Condition} (h : Alike condition condition') :
    Alike (.not condition) (.not condition')

mutual

/-- The condition with every value sorted. -/
def canonical : Condition → Condition
  | .eq column value => .eq column value.canonical
  | .neq column value => .neq column value.canonical
  | .oneOf column values => .oneOf column (values.map Json.canonical)
  | .isNull column => .isNull column
  | .and conditions => .and (canonicalList conditions)
  | .or conditions => .or (canonicalList conditions)
  | .not condition => .not condition.canonical

def canonicalList : List Condition → List Condition
  | [] => []
  | condition :: rest => condition.canonical :: canonicalList rest

end

/-- The values that a condition compares satisfy something. -/
def Values (c : Condition) (holds : Json → Prop) : Prop := ∀ pair ∈ c.compared, holds pair.2

theorem forall_oneOf {column : String} {values : List Json} {holds : Json → Prop}
    (h : (oneOf column values).Values holds) : ∀ value ∈ values, holds value := fun value hvalue =>
  h (column, value) (List.mem_map_of_mem hvalue)

/-- Values of several conditions. -/
def ValuesAll (cs : List Condition) (holds : Json → Prop) : Prop :=
  ∀ pair ∈ comparedAll cs, holds pair.2

theorem valuesAll_cons {c : Condition} {cs : List Condition} {holds : Json → Prop}
    (h : ValuesAll (c :: cs) holds) : c.Values holds ∧ ValuesAll cs holds :=
  List.forall_mem_append.mp h

mutual

theorem alike_canonical : ∀ c : Condition, c.Values (Json.Objects List.Nodup) → c.Alike c.canonical
  | .eq column value, h => .eq column (value.alike_canonical (h (column, value) List.mem_cons_self))
  | .neq column value, h =>
    .neq column (value.alike_canonical (h (column, value) List.mem_cons_self))
  | .oneOf column values, h => by
    refine .oneOf column ?_
    rw [List.forall₂_map_right_iff, List.forall₂_same]
    exact fun value hvalue => value.alike_canonical (forall_oneOf h value hvalue)
  | .isNull column, _ => .isNull column
  | .and conditions, h => .and (alike_canonicalList conditions h)
  | .or conditions, h => .or (alike_canonicalList conditions h)
  | .not condition, h => .not (alike_canonical condition h)

theorem alike_canonicalList : ∀ cs : List Condition, ValuesAll cs (Json.Objects List.Nodup) →
    List.Forall₂ Alike cs (canonicalList cs)
  | [], _ => .nil
  | c :: rest, h =>
    .cons (alike_canonical c (valuesAll_cons h).1) (alike_canonicalList rest (valuesAll_cons h).2)

end

mutual

theorem canonical_of_sorted : ∀ c : Condition,
    c.Values (Json.Objects (List.Pairwise (· < ·))) → c.canonical = c
  | .eq column value, h => by
    rw [canonical, value.canonical_of_sorted (h (column, value) List.mem_cons_self)]
  | .neq column value, h => by
    rw [canonical, value.canonical_of_sorted (h (column, value) List.mem_cons_self)]
  | .oneOf column values, h => by
    rw [canonical, List.map_congr_left fun value hvalue =>
      value.canonical_of_sorted (forall_oneOf h value hvalue), List.map_id']
  | .isNull column, _ => rfl
  | .and conditions, h => by rw [canonical, canonicalList_of_sorted conditions h]
  | .or conditions, h => by rw [canonical, canonicalList_of_sorted conditions h]
  | .not condition, h => by rw [canonical, canonical_of_sorted condition h]

theorem canonicalList_of_sorted : ∀ cs : List Condition,
    ValuesAll cs (Json.Objects (List.Pairwise (· < ·))) → canonicalList cs = cs
  | [], _ => rfl
  | c :: rest, h => by
    rw [canonicalList, canonical_of_sorted c (valuesAll_cons h).1,
      canonicalList_of_sorted rest (valuesAll_cons h).2]

end

mutual

theorem exact_toJson : ∀ c : Condition, c.Values Json.Exact → c.toJson.Exact
  | .eq column value, h =>
    ⟨trivial, trivial, h (column, value) List.mem_cons_self, trivial⟩
  | .neq column value, h =>
    ⟨trivial, trivial, h (column, value) List.mem_cons_self, trivial⟩
  | .oneOf _ _, h =>
    ⟨trivial, trivial, Json.exactItems_iff.mpr (forall_oneOf h), trivial⟩
  | .isNull _, _ => ⟨trivial, trivial, trivial⟩
  | .and conditions, h => ⟨trivial, exact_toJsonList conditions h, trivial⟩
  | .or conditions, h => ⟨trivial, exact_toJsonList conditions h, trivial⟩
  | .not condition, h => ⟨trivial, exact_toJson condition h, trivial⟩

theorem exact_toJsonList : ∀ cs : List Condition, ValuesAll cs Json.Exact →
    Json.ExactItems (toJsonList cs)
  | [], _ => trivial
  | c :: rest, h =>
    ⟨exact_toJson c (valuesAll_cons h).1, exact_toJsonList rest (valuesAll_cons h).2⟩

end

/-! ## 3. Reading what was written -/

theorem part_json (j : Json) : (part j).json = j := by cases j <;> rfl

mutual

/-- **A condition is read back**, with its values sorted. -/
theorem condition?_part : ∀ c : Condition, (part c.toJson).condition? = some c.canonical
  | .eq column value => by
    show (some (column, (part value).json.canonical)).map (fun (c, v) => Condition.eq c v) = _
    rw [part_json]
    rfl
  | .neq column value => by
    show (some (column, (part value).json.canonical)).map (fun (c, v) => Condition.neq c v) = _
    rw [part_json]
    rfl
  | .oneOf column values => by
    show (some (column, Json.canonicalItems values)).map (fun (c, vs) => Condition.oneOf c vs) = _
    rw [Json.canonicalItems_eq]
    rfl
  | .isNull column => rfl
  | .and conditions => by
    show ((partItems (toJsonList conditions)).mapM Part.condition?).map Condition.and = _
    rw [conditions?_partItems conditions]
    rfl
  | .or conditions => by
    show ((partItems (toJsonList conditions)).mapM Part.condition?).map Condition.or = _
    rw [conditions?_partItems conditions]
    rfl
  | .not condition => by
    show ((part condition.toJson).condition?).map Condition.not = _
    rw [condition?_part condition]
    rfl

theorem conditions?_partItems : ∀ cs : List Condition,
    (partItems (toJsonList cs)).mapM Part.condition? = some (canonicalList cs)
  | [] => rfl
  | c :: rest => by
    rw [toJsonList, partItems, List.mapM_cons, condition?_part c, conditions?_partItems rest]
    rfl

end

end Condition

/-- What was written one by one is read back one by one. -/
theorem mapM_map_eq_some {α β γ : Type} {write : α → β} {read : β → Option γ} {result : α → γ}
    (h : ∀ a, read (write a) = some (result a)) (as : List α) :
    (as.map write).mapM read = some (as.map result) := by
  induction as with
  | nil => rfl
  | cons a rest ih =>
    rw [List.map_cons, List.mapM_cons, h, ih]
    rfl

namespace Decision

/-- Two decisions are the same up to the order of fields in their values. -/
inductive Alike : Decision → Decision → Prop where
  | allow : Alike .allow .allow
  | deny (reason : String) : Alike (.deny reason) (.deny reason)
  | filter {condition condition' : Condition} (h : condition.Alike condition') :
    Alike (.filter condition) (.filter condition')

/-- The decision with every value sorted. -/
def canonical : Decision → Decision
  | .filter condition => .filter condition.canonical
  | decision => decision

/-- The values that the condition of a decision compares satisfy something. -/
def Values (decision : Decision) (holds : Json → Prop) : Prop :=
  ∀ condition, decision = .filter condition → condition.Values holds

theorem alike_canonical (decision : Decision) (h : decision.Values (Json.Objects List.Nodup)) :
    decision.Alike decision.canonical := by
  cases decision with
  | allow => exact .allow
  | deny reason => exact .deny reason
  | filter condition => exact .filter (condition.alike_canonical (h condition rfl))

theorem canonical_of_sorted (decision : Decision)
    (h : decision.Values (Json.Objects (List.Pairwise (· < ·)))) :
    decision.canonical = decision := by
  cases decision with
  | filter condition => rw [canonical, condition.canonical_of_sorted (h condition rfl)]
  | _ => rfl

theorem exact_toJson (decision : Decision) (h : decision.Values Json.Exact) :
    decision.toJson.Exact := by
  cases decision with
  | allow => exact ⟨trivial, trivial⟩
  | deny reason => exact ⟨trivial, trivial, trivial⟩
  | filter condition => exact ⟨trivial, condition.exact_toJson (h condition rfl), trivial⟩

/-- **A decision is read back.** -/
theorem ofJson?_toJson (decision : Decision) :
    ofJson? decision.toJson = some decision.canonical := by
  cases decision with
  | allow => rfl
  | deny reason => rfl
  | filter condition =>
    show (Condition.part condition.toJson).condition? >>= (fun c => some (Decision.filter c)) = _
    rw [condition.condition?_part]
    rfl

end Decision

theorem StatementKind.ofJson?_toJson (kind : StatementKind) : ofJson? kind.toJson = some kind := by
  cases kind <;> rfl

namespace Rule

/-- Two rules are the same up to the order of fields in their values. -/
structure Alike (r r' : Rule) : Prop where
  table : r.table = r'.table
  actions : r.actions = r'.actions
  decision : r.decision.Alike r'.decision

/-- The rule with every value sorted. -/
def canonical (r : Rule) : Rule := { r with decision := r.decision.canonical }

theorem exact_toJson (r : Rule) (h : r.decision.Values Json.Exact) : r.toJson.Exact := by
  refine ⟨trivial, Json.exactItems_iff.mpr ?_, r.decision.exact_toJson h, trivial⟩
  exact List.forall_mem_map.mpr fun _ _ => trivial

/-- **A rule is read back.** -/
theorem ofJson?_toJson (r : Rule) : ofJson? r.toJson = some r.canonical := by
  have hactions : (r.actions.map StatementKind.toJson).mapM StatementKind.ofJson?
      = some r.actions := by
    rw [mapM_map_eq_some StatementKind.ofJson?_toJson, List.map_id']
  show ((r.actions.map StatementKind.toJson).mapM StatementKind.ofJson? >>= fun actions =>
    Decision.ofJson? r.decision.toJson >>= fun decision => some (Rule.mk r.table actions decision)) = _
  rw [hactions, r.decision.ofJson?_toJson]
  rfl

end Rule

namespace Policy

/-- Two policies are the same up to the order of fields in the values they compare with. -/
structure Alike (p q : Policy) : Prop where
  rules : List.Forall₂ Rule.Alike p.rules q.rules
  default : p.default.Alike q.default

/-- The policy with every value sorted. -/
def canonical (p : Policy) : Policy where
  rules := p.rules.map Rule.canonical
  default := p.default.canonical

/-- The values in the conditions of a policy satisfy something. -/
structure Values (p : Policy) (holds : Json → Prop) : Prop where
  rules : ∀ r ∈ p.rules, r.decision.Values holds
  default : p.default.Values holds

theorem alike_canonical (p : Policy) (h : p.Values (Json.Objects List.Nodup)) :
    p.Alike p.canonical := by
  refine ⟨?_, p.default.alike_canonical h.default⟩
  show List.Forall₂ _ p.rules (p.rules.map Rule.canonical)
  rw [List.forall₂_map_right_iff, List.forall₂_same]
  exact fun r hr => ⟨rfl, rfl, r.decision.alike_canonical (h.rules r hr)⟩

theorem canonical_of_sorted (p : Policy) (h : p.Values (Json.Objects (List.Pairwise (· < ·)))) :
    p.canonical = p := by
  have hrule : ∀ r ∈ p.rules, r.canonical = r := fun r hr => by
    rw [Rule.canonical, r.decision.canonical_of_sorted (h.rules r hr)]
  rw [canonical, List.map_congr_left hrule, List.map_id', p.default.canonical_of_sorted h.default]

theorem exact_toJson (p : Policy) (h : p.Values Json.Exact) : p.toJson.Exact := by
  refine ⟨Json.exactItems_iff.mpr ?_, p.default.exact_toJson h.default, trivial⟩
  exact List.forall_mem_map.mpr fun r hr => r.exact_toJson (h.rules r hr)

theorem ofJson?_toJson (p : Policy) : ofJson? p.toJson = some p.canonical := by
  have hrules := mapM_map_eq_some Rule.ofJson?_toJson p.rules
  show ((p.rules.map Rule.toJson).mapM Rule.ofJson? >>= fun rules =>
    Decision.ofJson? p.default.toJson >>= fun decision => some (Policy.mk rules decision)) = _
  rw [hrules, p.default.ofJson?_toJson]
  rfl

/-- **A policy survives its document.** Let no value in its conditions hold a floating-point number,
    and no object two fields of one name, and let the document nest no deeper than documents may.
    Then the text is read as a policy, with the same rules in the same order, each about the same
    table and kinds of statements, with the same decisions and the same default; in every condition
    the columns and values are the same, whatever characters they hold, and only fields of objects
    may have another order. If they were sorted the policy is the very same. -/
theorem ofDocument?_document (p : Policy) (hexact : p.Values Json.Exact)
    (hnames : p.Values (Json.Objects List.Nodup))
    (hdepth : p.toJson.depth ≤ Json.documentDepth) :
    ∃ q, ofDocument? p.document = some q ∧ p.Alike q
      ∧ (p.Values (Json.Objects (List.Pairwise (· < ·))) → q = p) := by
  refine ⟨p.canonical, ?_, p.alike_canonical hnames, p.canonical_of_sorted⟩
  rw [ofDocument?, document, Json.parse_compact (p.exact_toJson hexact) hdepth]
  exact p.ofJson?_toJson

/-- A policy with nested conditions, with quotes, backslashes, controls and letters beyond ASCII in
    its texts, with the least and the greatest whole number, and with an object that is not
    sorted. -/
def tagged : Policy where
  rules := [{ table := "notes", actions := [.select, .update],
              decision := .filter (.and
                [.or [.eq "owner\x22" (.text "Ann\n\\"),
                  .oneOf "größe" [.null, .whole ⟨-9223372036854775808, by decide⟩]],
                .not (.isNull "a\x01")]) },
            { table := "*", decision := .deny "\x00\x1f" }]
  default := .filter (.neq "meta" (.object
    [("z", .array [.bool true, .object []]), ("a", .whole ⟨18446744073709551615, by decide⟩)]))

/-- It is read back with the object sorted, and without that as it is. -/
theorem ofDocument?_document_tagged :
    (∃ q, ofDocument? tagged.document = some q ∧ tagged.Alike q)
      ∧ ofDocument? { tagged with default := unlisted }.document
        = some { tagged with default := unlisted } := by
  have hvalues : ∀ holds : Json → Prop, holds (.text "Ann\n\\") → holds .null →
      holds (.whole ⟨-9223372036854775808, by decide⟩) →
      ∀ r ∈ tagged.rules, r.decision.Values holds := by
    intro holds htext hnull hwhole
    refine List.forall_mem_cons.mpr ⟨fun condition h => ?_,
      List.forall_mem_singleton.mpr fun condition h => ?_⟩
    · cases h
      exact List.forall_mem_cons.mpr ⟨htext, List.forall_mem_cons.mpr
        ⟨hnull, List.forall_mem_singleton.mpr hwhole⟩⟩
    · cases h
  have hdefault : ∀ holds : Json → Prop, holds (.object
      [("z", .array [.bool true, .object []]), ("a", .whole ⟨18446744073709551615, by decide⟩)]) →
      tagged.default.Values holds := by
    intro holds hobject condition h
    cases h
    exact List.forall_mem_singleton.mpr hobject
  have hunlisted : ∀ holds : Json → Prop, unlisted.Values holds := by
    intro holds condition h
    cases h
  constructor
  · obtain ⟨q, hread, halike, -⟩ := ofDocument?_document tagged
      ⟨hvalues _ trivial trivial trivial, hdefault _ (by simp [Json.Exact, Json.ExactFields,
        Json.ExactItems])⟩
      ⟨hvalues _ trivial trivial trivial, hdefault _ (by simp [Json.Objects, Json.ObjectsFields,
        Json.ObjectsItems])⟩
      (by decide)
    exact ⟨q, hread, halike⟩
  · obtain ⟨q, hread, -, hsame⟩ := ofDocument?_document { tagged with default := unlisted }
      ⟨hvalues _ trivial trivial trivial, hunlisted _⟩
      ⟨hvalues _ trivial trivial trivial, hunlisted _⟩
      (by decide)
    rw [hread, hsame ⟨hvalues _ trivial trivial trivial, hunlisted _⟩]

end Policy
end SqlTree
