import SqlTree.Proofs.MissingTenant

/-!
# Rows that get a tenant

An INSERT with named columns pairs the values of each row with them by position alone, so a scope
that adds a column has to add a value at the end of every row, of however many rows there are:

* `Insert.Fits`, `Insert.pairs`, `Insert.valueFor?` -- rows with a value for each column, and what
  such a row puts where;
* `TenantScope.Extends` -- a row with the tenant behind its values, which stay where they were;
* `TenantScope.extends_stamped` -- every row of a stamped INSERT is one;
* `TenantScope.transform_stamps` -- what a scope with a tenant does to any INSERT, once or twice.
-/

namespace SqlTree

/-! ## 1. What a row puts where -/

namespace Insert

variable (s : Insert Node)

/-- A row has one value for each column. -/
def Fits (row : List Node) : Prop := row.length = s.columns.length

/-- The columns, each with the value of a row at its position. -/
def pairs (row : List Node) : List (Node × Node) := s.columns.zip row

/-- The value that a row puts into the column of a name, the first one if several columns have
    it. -/
def valueFor? (row : List Node) (name : String) : Option Node :=
  ((s.pairs row).find? fun pair => pair.1.columnName? == some name).map (·.2)

end Insert

/-! ## 2. Stamped rows -/

namespace TenantScope

variable {t : TenantScope} {s s' : Insert Node} {row row' : List Node}

/-- An INSERT with the tenant as one more column. -/
def stamped (t : TenantScope) (s : Insert Node) : Insert Node :=
  { s with
    columns := s.columns ++ [s.target.columnOf t.column]
    rows := s.rows.map (· ++ [.bind t.tenant]) }

/-- A row of one INSERT stands for a row of another one: it has one value more, it fits if the other
    one does, and then every value stays with its column, the new one being the tenant in the tenant
    column. -/
structure Extends (t : TenantScope) (s s' : Insert Node) (row row' : List Node) : Prop where
  length : row'.length = row.length + 1
  fits : s'.Fits row' ↔ s.Fits row
  pairs : s.Fits row →
    s'.pairs row' = s.pairs row ++ [(s.target.columnOf t.column, .bind t.tenant)]
  own : s.Fits row → s'.valueFor? row' t.column = some (.bind t.tenant)
  others : s.Fits row → ∀ name, name ≠ t.column → s'.valueFor? row' name = s.valueFor? row name

theorem isTenantColumn_iff (column : Node) :
    t.isTenantColumn column = true ↔ column.columnName? = some t.column := by
  obtain ⟨form⟩ := column
  cases form with
  | column relation name typeName => exact beq_iff_eq.trans Option.some_inj.symm
  | _ => exact ⟨nofun, nofun⟩

/-- The column that is added has the name of the tenant column. -/
theorem columnName?_columnOf (relation : Node) (name : String) :
    (relation.columnOf name).columnName? = some name := rfl

/-- Before it is added no column has this name. -/
theorem find?_pairs_of_scopes (h : t.Scopes (.insert s)) (row : List Node) :
    (s.pairs row).find? (fun pair => pair.1.columnName? == some t.column) = none := by
  obtain ⟨-, -, -, -, hfree⟩ := h
  refine List.find?_eq_none.mpr fun pair hpair hname => ?_
  have hcolumn : pair.1 ∈ s.columns := (List.of_mem_zip hpair).1
  have htenant := isTenantColumn_iff pair.1 |>.mpr (beq_iff_eq.mp hname)
  rw [hfree _ hcolumn] at htenant
  cases htenant

/-- **A row with the tenant behind it** puts the tenant into the tenant column and all else where it
    was. -/
theorem extends_stamped (h : t.Scopes (.insert s)) (row : List Node) :
    t.Extends s (t.stamped s) row (row ++ [.bind t.tenant]) := by
  have hpairs : s.Fits row → (t.stamped s).pairs (row ++ [.bind t.tenant])
      = s.pairs row ++ [(s.target.columnOf t.column, .bind t.tenant)] :=
    fun hfits => List.zip_append hfits.symm
  have hentry : s.Fits row → ∀ name, (t.stamped s).valueFor? (row ++ [.bind t.tenant]) name
      = (((s.pairs row).find? fun pair => pair.1.columnName? == some name).or
          (if name = t.column then some (s.target.columnOf t.column, .bind t.tenant)
            else none)).map (·.2) := by
    intro hfits name
    have hname : ((some t.column == some name) = true) = (name = t.column) :=
      propext (beq_iff_eq.trans (Option.some_inj.trans eq_comm))
    rw [Insert.valueFor?, hpairs hfits, List.find?_append, List.find?_singleton]
    simp only [columnName?_columnOf, hname]
  refine ⟨?length, ?fits, hpairs, fun hfits => ?own, fun hfits name hname => ?others⟩
  case length => rw [List.length_append, List.length_singleton]
  case fits =>
    show (row ++ [_]).length = (s.columns ++ [_]).length ↔ row.length = s.columns.length
    rw [List.length_append, List.length_append, List.length_singleton, List.length_singleton,
      Nat.add_right_cancel_iff]
  case own =>
    rw [hentry hfits, find?_pairs_of_scopes h, if_pos rfl]
    rfl
  case others =>
    rw [hentry hfits, if_neg hname, Option.or_none]
    rfl

/-- A stamped INSERT lists the tenant column, so it is not stamped again. -/
theorem not_scopes_stamped (t : TenantScope) (s : Insert Node) :
    ¬ t.Scopes (.insert (t.stamped s)) := by
  rintro ⟨-, -, -, -, hfree⟩
  have hlast := hfree (s.target.columnOf t.column) (List.mem_append_right _ List.mem_cons_self)
  rw [(isTenantColumn_iff _).mpr (columnName?_columnOf _ _)] at hlast
  cases hlast

/-! ## 3. INSERTs -/

/-- An INSERT became another one by stamping: the columns and rows are those of `stamped`, nothing
    else changed, and each row stands for the one at its place. -/
structure Stamps (t : TenantScope) (s s' : Insert Node) : Prop where
  eq_stamped : s' = t.stamped s
  rows : List.Forall₂ (t.Extends s s') s.rows s'.rows

theorem stamps_stamped (h : t.Scopes (.insert s)) : t.Stamps s (t.stamped s) := by
  refine ⟨rfl, ?_⟩
  show List.Forall₂ _ s.rows (s.rows.map (· ++ [.bind t.tenant]))
  rw [List.forall₂_map_right_iff, List.forall₂_same]
  exact fun row _ => extends_stamped h row

/-- **A scope with a tenant lets every INSERT pass, and stamps it at most once.** An INSERT into a
    covered table that lists rows under named columns, none of which is the tenant column, gets
    this column behind its own, of the relation that it writes to, and the tenant behind the values
    of each row. So a row fits the columns if it did before, and then its values stay in their
    columns and the tenant is in the tenant column. Any other INSERT is left as it is, and so is
    what comes out when the scope is used again. -/
theorem transform_stamps (t : TenantScope) (h : t.tenant.isNull = false) (s : Insert Node) :
    ∃ s', (Statement.insert s).transform t.transformer = .ok (.insert s')
      ∧ (Statement.insert s').transform t.transformer = .ok (.insert s')
      ∧ (t.Scopes (.insert s) → t.Stamps s s')
      ∧ (¬ t.Scopes (.insert s) → s' = s) := by
  have hkept : ∀ {s : Insert Node}, ¬ t.Scopes (.insert s) →
      (Statement.insert s).transform t.transformer = .ok (.insert s) :=
    fun hscopes => congrArg (Except.map Statement.insert) (insert_of_not_scopes hscopes)
  by_cases hscopes : t.Scopes (.insert s)
  · have hstamped : t.insert s = .ok (t.stamped s) := by
      rw [insert_of_scopes hscopes, current, h]
      rfl
    exact ⟨t.stamped s, congrArg (Except.map Statement.insert) hstamped,
      hkept (not_scopes_stamped t s), fun _ => stamps_stamped hscopes,
      fun hnot => absurd hscopes hnot⟩
  · exact ⟨s, hkept hscopes, hkept hscopes, fun hs => absurd hs hscopes, fun _ => rfl⟩

/-- The seventh organisation. -/
def seventhOrganisation : TenantScope where
  column := "org_id"
  tenant := .int 7

/-- Two orders under an alias, the second of which has a value too many. -/
def ordersOfAlias : Insert Node where
  target := ⟨.tableAlias ⟨.table "orders"⟩ "o"⟩
  columns := [⟨.column ⟨.table "orders"⟩ "total" none⟩,
    ⟨.column ⟨.table "orders"⟩ "tenant_id" none⟩]
  rows := [[⟨.bind (.int 10)⟩, ⟨.literal .null⟩],
    [⟨.bind (.int 20)⟩, ⟨.literal .null⟩, ⟨.literal .null⟩]]
  returning := [⟨.star none⟩]

/-- The first order gets its organisation beside a total that stays where it was; the second one
    fits no more than before. -/
theorem transform_stamps_ordersOfAlias :
    seventhOrganisation.tenant.isNull = false
      ∧ seventhOrganisation.Scopes (.insert ordersOfAlias)
      ∧ ∃ s' row row',
        (Statement.insert ordersOfAlias).transform seventhOrganisation.transformer
          = .ok (.insert s')
        ∧ s'.rows = [row, row'] ∧ s'.Fits row ∧ ¬ s'.Fits row'
        ∧ s'.valueFor? row "org_id" = some ⟨.bind (.int 7)⟩
        ∧ s'.valueFor? row "total" = some ⟨.bind (.int 10)⟩ := by
  have hscopes : seventhOrganisation.Scopes (.insert ordersOfAlias) :=
    ⟨⟨"orders", .named .base "o", rfl⟩, rfl, by decide, by decide, by decide⟩
  obtain ⟨s', hpasses, -, hstamps, -⟩ :=
    transform_stamps seventhOrganisation rfl ordersOfAlias
  obtain ⟨rfl, hrows⟩ := hstamps hscopes
  obtain ⟨hfirst, hrest⟩ := List.forall₂_cons.mp hrows
  obtain ⟨hsecond, -⟩ := List.forall₂_cons.mp hrest
  have hfits : ordersOfAlias.Fits [⟨.bind (.int 10)⟩, ⟨.literal .null⟩] := rfl
  refine ⟨rfl, hscopes, _, _, _, hpasses, rfl, hfirst.fits.mpr hfits, fun hlong => ?_,
    hfirst.own hfits, hfirst.others hfits "total" (by decide)⟩
  cases hsecond.fits.mp hlong

end TenantScope
end SqlTree
