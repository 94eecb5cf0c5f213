import SqlTree.Json.Fields
import SqlTree.Json.Reader
import SqlTree.Policy.Rules

/-!
# Policy documents

Conditions, decisions, rules and policies as JSON. Writing puts the tag first and then every
field in order of declaration. Reading takes fields in any order and fills in the ones that have
a default: the actions of a rule, and both fields of a policy.

Values inside a condition are kept in canonical order. The tag of a condition inside another
tagged record may also be the position of its word among all words.
-/

namespace SqlTree

/-! ## 1. Conditions -/

namespace Condition

/-- The tags of the conditions. -/
def words : List String := ["eq", "neq", "in", "is_null", "and", "or", "not"]

mutual

def toJson : Condition → Json
  | .eq column value =>
    .object [("op", .text "eq"), ("column", .text column), ("value", value)]
  | .neq column value =>
    .object [("op", .text "neq"), ("column", .text column), ("value", value)]
  | .oneOf column values =>
    .object [("op", .text "in"), ("column", .text column), ("values", .array values)]
  | .isNull column => .object [("op", .text "is_null"), ("column", .text column)]
  | .and conditions =>
    .object [("op", .text "and"), ("conditions", .array (toJsonList conditions))]
  | .or conditions => .object [("op", .text "or"), ("conditions", .array (toJsonList conditions))]
  | .not condition => .object [("op", .text "not"), ("condition", condition.toJson)]

def toJsonList : List Condition → List Json
  | [] => []
  | condition :: rest => condition.toJson :: toJsonList rest

end

/-- A part of a document: its JSON, and what it is as a condition and as a list of conditions,
    if it is that. -/
structure Part where
  json : Json
  condition? : Option Condition
  conditions? : Option (List Condition)

/-- The word of a tag: a string, or the position of a word. -/
def tagWord? : Json → Option String
  | .text s => some s
  | .whole n => if 0 ≤ n.value then words[n.value.toNat]? else none
  | _ => none

/-- A column and one field more. -/
def columnAnd? {α : Type} (name : String) (read : Part → Option α) (fields : Json.Fields Part) :
    Option (String × α) := do
  match ← fields.slots? ["column", name] with
  | [some column, some other] => return (← column.json.text?, ← read other)
  | _ => none

/-- A field on its own. -/
def only? {α : Type} (name : String) (read : Part → Option α) (fields : Json.Fields Part) :
    Option α := do
  match ← fields.slots? [name] with
  | [some field] => read field
  | _ => none

/-- A condition from its fields. -/
def ofFields? (fields : Json.Fields Part) : Option Condition := do
  let (tag, fields) ← fields.tagged? "op"
  match ← tagWord? tag.json with
  | "eq" => (columnAnd? "value" (some ·.json.canonical) fields).map fun (c, v) => .eq c v
  | "neq" => (columnAnd? "value" (some ·.json.canonical) fields).map fun (c, v) => .neq c v
  | "in" =>
    (columnAnd? "values" (·.json.canonical.items?) fields).map fun (c, vs) => .oneOf c vs
  | "is_null" => (only? "column" (·.json.text?) fields).map .isNull
  | "and" => (only? "conditions" (·.conditions?) fields).map .and
  | "or" => (only? "conditions" (·.conditions?) fields).map .or
  | "not" => (only? "condition" (·.condition?) fields).map .not
  | _ => none

mutual

/-- A value read as a part, from the parts it holds. -/
def part : Json → Part
  | .array items =>
    let parts := partItems items
    ⟨.array items, ofFields? (.positional parts), parts.mapM (·.condition?)⟩
  | .object fields => ⟨.object fields, ofFields? (.named (partFields fields)), none⟩
  | scalar => ⟨scalar, none, none⟩

def partItems : List Json → List Part
  | [] => []
  | item :: rest => part item :: partItems rest

def partFields : List (String × Json) → List (String × Part)
  | [] => []
  | (name, value) :: rest => (name, part value) :: partFields rest

end

/-- The condition in a field of another tagged record. -/
def ofField? (j : Json) : Option Condition := (part j).condition?

/-- A condition that stands on its own; its tag is a string. -/
def ofJson? (j : Json) : Option Condition := do
  let (tag, _) ← (← j.fields?).tagged? "op"
  let _ ← tag.text?
  ofField? j

end Condition

/-! ## 2. Decisions -/

namespace Decision

def toJson : Decision → Json
  | .allow => .object [("effect", .text "allow")]
  | .deny reason => .object [("effect", .text "deny"), ("reason", .text reason)]
  | .filter condition => .object [("effect", .text "filter"), ("condition", condition.toJson)]

def ofJson? (j : Json) : Option Decision := do
  let (tag, fields) ← (← j.fields?).tagged? "effect"
  match ← tag.text? with
  | "allow" => if fields.vacuous then return .allow else none
  | "deny" =>
    match ← fields.slots? ["reason"] with
    | [some reason] => return .deny (← reason.text?)
    | _ => none
  | "filter" =>
    match ← fields.slots? ["condition"] with
    | [some condition] => return .filter (← Condition.ofField? condition)
    | _ => none
  | _ => none

end Decision

/-! ## 3. Rules and policies -/

namespace StatementKind

/-- The word for a kind of statement in a document. -/
def documentWord : StatementKind → String
  | .select => "select"
  | .insert => "insert"
  | .update => "update"
  | .delete => "delete"

def toJson (kind : StatementKind) : Json := .text kind.documentWord

def ofDocumentWord? (word : String) : Option StatementKind :=
  (Vocabulary.members : List StatementKind).find? fun kind => kind.documentWord == word

def ofJson? (j : Json) : Option StatementKind := j.keyword?.bind ofDocumentWord?

end StatementKind

namespace Rule

def toJson (r : Rule) : Json :=
  .object
    [("table", .text r.table), ("actions", .array (r.actions.map StatementKind.toJson)),
      ("decision", r.decision.toJson)]

def actionsOfJson? (j : Json) : Option (List StatementKind) := do
  (← j.items?).mapM StatementKind.ofJson?

def ofJson? (j : Json) : Option Rule := do
  match ← (← j.fields?).slots? ["table", "actions", "decision"] with
  | [some table, actions, some decision] =>
    return {
      table := ← table.text?
      actions := ← Json.orDefault actionsOfJson? [] actions
      decision := ← Decision.ofJson? decision }
  | _ => none

end Rule

namespace Policy

def toJson (p : Policy) : Json :=
  .object [("rules", .array (p.rules.map Rule.toJson)), ("default", p.default.toJson)]

def rulesOfJson? (j : Json) : Option (List Rule) := do (← j.items?).mapM Rule.ofJson?

def ofJson? (j : Json) : Option Policy := do
  match ← (← j.fields?).slots? ["rules", "default"] with
  | [rules, decision] =>
    return {
      rules := ← Json.orDefault rulesOfJson? [] rules
      default := ← Json.orDefault Decision.ofJson? unlisted decision }
  | _ => none

/-- The text of a policy. -/
def document (p : Policy) : String := p.toJson.compact

/-- A policy from its text. -/
def ofDocument? (text : String) : Option Policy := (Json.parse text).bind ofJson?

end Policy
end SqlTree
