import SqlTree.Policy.Condition

/-!
# Policies

A policy decides what kinds of statements may touch which tables. It is a list of rules: the
first rule that matches decides, and if none does the default decision holds, which denies unless
it was set.
-/

namespace SqlTree

/-- What a policy decides about a table. -/
inductive Decision where
  | allow
  | deny (reason : String)
  /-- Access to the rows that satisfy a condition. -/
  | filter (condition : Condition)

/-- A decision about a table. -/
structure Rule where
  /-- The name of the table, or `*` for every table. -/
  table : String
  /-- The kinds of statements it is about. None stands for all. -/
  actions : List StatementKind := []
  decision : Decision

namespace Rule

/-- Whether a rule decides about a kind of statement on a table. -/
def applies (r : Rule) (kind : StatementKind) (table : String) : Bool :=
  (r.table == "*" || r.table == table) && (r.actions.isEmpty || r.actions.contains kind)

end Rule

/-- The decision where no rule applies and no other was set. -/
def unlisted : Decision := .deny "no policy rule matches"

/-- Rules in order, and the decision where none applies. -/
structure Policy where
  rules : List Rule := []
  default : Decision := unlisted

namespace Policy

/-- The decision about a kind of statement on a table. -/
def decide (p : Policy) (kind : StatementKind) (table : String) : Decision :=
  match p.rules.find? fun r => r.applies kind table with
  | some r => r.decision
  | none => p.default

/-! ## Adding rules -/

/-- One more rule, behind all others. -/
def add (p : Policy) (r : Rule) : Policy := { p with rules := p.rules ++ [r] }

/-- Allows every statement on a table. -/
def allow (p : Policy) (table : String) : Policy := p.add { table, decision := .allow }

/-- Denies every statement on a table. -/
def deny (p : Policy) (table reason : String) : Policy :=
  p.add { table, decision := .deny reason }

/-- Restricts every statement on a table to some rows. -/
def filter (p : Policy) (table : String) (condition : Condition) : Policy :=
  p.add { table, decision := .filter condition }

/-- Allows reading a table and denies everything else on it. -/
def readOnly (p : Policy) (table : String) : Policy :=
  (p.add { table, actions := [.select], decision := .allow }).deny table "read-only"

/-- The same rules with another default. -/
def orElse (p : Policy) (decision : Decision) : Policy := { p with default := decision }

end Policy
end SqlTree
