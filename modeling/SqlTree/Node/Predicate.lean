import SqlTree.Node.Build

/-!
# Predicates and arithmetic

Comparisons of an expression with others, and the connectives between predicates. Two rules hold
throughout:

* a typed column casts the constants that it is compared with to its type (`coerce`); nulls,
  parameters and all other expressions stay as they are;
* an OR always comes in parentheses (`disjoin`, `anyOf`), so that it stays one item wherever it
  is listed beside others.
-/

namespace SqlTree.Node

/-! ## 1. Comparisons -/

/-- What an expression compared with `n` becomes: a constant beside a typed column is cast. -/
def coerce (n other : Node) : Except Misuse Node :=
  match n.form, other.form with
  | .column _ _ (some _), .literal .null => .ok other
  | .column _ _ (some typeName), .literal v => Node.cast v typeName
  | _, _ => .ok other

/-- A comparison of two expressions. -/
def compare (left : Node) (op : ComparisonOp) (right : Node) : Except Misuse Node := do
  return ⟨.comparison left op (← left.coerce right)⟩

/-- Membership in a list of expressions, or in a query if that is the only one. -/
def inList (operand : Node) (values : List Node) (negated : Bool := false) :
    Except Misuse Node := do
  return ⟨.membership operand (← values.mapM operand.coerce) negated⟩

def between (operand low high : Node) (negated : Bool := false) : Except Misuse Node := do
  let low ← operand.coerce low
  let high ← operand.coerce high
  return ⟨.between operand low high negated⟩

def isNull (operand : Node) : Node := ⟨.nullTest operand .isNull⟩

def isNotNull (operand : Node) : Node := ⟨.nullTest operand .isNotNull⟩

/-! ## 2. Connectives -/

/-- Both predicates. -/
def conjoin (left right : Node) : Node := ⟨.and left right⟩

/-- Either predicate, in parentheses. -/
def disjoin (left right : Node) : Node := .grouping ⟨.or left right⟩

def negate (operand : Node) : Node := ⟨.not operand⟩

/-- Any of the predicates, in parentheses; no predicate if there is none. -/
def anyOf : List Node → Option Node
  | [] => none
  | first :: rest => some (.grouping (rest.foldl (fun l r => ⟨.or l r⟩) first))

/-- All of the predicates, in parentheses; no predicate if there is none. -/
def allOf : List Node → Option Node
  | [] => none
  | first :: rest => some (.grouping (rest.foldl (fun l r => ⟨.and l r⟩) first))

/-- Some item of a list compares with the operand. -/
def compareAny (operand : Node) (op : ComparisonOp) (items : List Node) :
    Except Misuse (Option Node) := do
  return anyOf (← items.mapM (operand.compare op))

/-- Every item of a list compares with the operand. -/
def compareAll (operand : Node) (op : ComparisonOp) (items : List Node) :
    Except Misuse (Option Node) := do
  return allOf (← items.mapM (operand.compare op))

/-- The operand is in some of the lists. -/
def inAny (operand : Node) (lists : List (List Node)) : Except Misuse (Option Node) := do
  return anyOf (← lists.mapM operand.inList)

/-- The operand is in all of the lists. -/
def inAll (operand : Node) (lists : List (List Node)) : Except Misuse (Option Node) := do
  return allOf (← lists.mapM operand.inList)

/-! ## 3. Arithmetic -/

def arithmetic (left : Node) (op : ArithmeticOp) (right : Node) : Node :=
  ⟨.arithmetic left op right⟩

def bitwiseNot (operand : Node) : Node := ⟨.unary .bitNot operand⟩

end SqlTree.Node
