import SqlTree.Guard

/-!
# Tenants

Every row of a covered table belongs to a tenant, named in a column. Statements are confined to
the rows of one tenant, and rows that an INSERT lists under named columns get the tenant as one
column more, unless that column is listed already. Without a tenant, whatever would need one
fails.
-/

namespace SqlTree

/-- The tenant that statements are confined to, and the tables with tenants. -/
structure TenantScope where
  column : String := "tenant_id"
  /-- The tenant. A null value is none. -/
  tenant : Value := .null
  coverage : Guard.Coverage := .every

namespace TenantScope

/-- The tenant, or the failure of having none. -/
def current (t : TenantScope) : Except Failure Value :=
  if t.tenant.isNull then
    .error (.missingConfiguration
      ("tenant scope on column \x27" ++ t.column ++ "\x27 has no tenant"))
  else .ok t.tenant

/-- The predicate that a relation's rows belong to the tenant. -/
def predicate (t : TenantScope) (relation : Node) (table : String) :
    Except Failure (Option Node) := do
  if t.coverage.covers table then
    let tenant ← t.current
    let own ← Failure.ofMisuse do (← relation.attr t.column).compare .eq (.bind tenant)
    return some own
  else return none

/-- Whether a column has the name of the tenant column. -/
def isTenantColumn (t : TenantScope) (column : Node) : Bool :=
  match column.form with
  | .column _ name _ => name == t.column
  | _ => false

/-- Whether an INSERT into a table gets the tenant as one more column. -/
def stamps (t : TenantScope) (s : Insert Node) (table : String) : Bool :=
  t.coverage.covers table && s.select.isNone && !s.rows.isEmpty && !s.columns.isEmpty
    && !s.columns.any t.isTenantColumn

/-- An INSERT with the tenant in every row. -/
def insert (t : TenantScope) (s : Insert Node) : Except Failure (Insert Node) := do
  match s.target.tableName? with
  | none => return s
  | some table =>
    if t.stamps s table then
      let tenant ← t.current
      let column ← Failure.ofMisuse (s.target.attr t.column)
      return { s with
        columns := s.columns ++ [column]
        rows := s.rows.map (· ++ [.bind tenant]) }
    else return s

def guard (t : TenantScope) : Guard := fun _ relation table => t.predicate relation table

def transformer (t : TenantScope) : Transformer :=
  { t.guard.transformer "tenant_scope" with insert := t.insert }

end TenantScope
end SqlTree
