import SqlTree.Proofs.AddedParentheses
import SqlTree.Proofs.ExpressionPlaces
import SqlTree.Proofs.ParameterTrace

/-!
# Queries where an expression may stand

A query that stands where an expression may stand is written in parentheses if the construct
treats the child as an operand, and as it is if not. So the text of a tree is compared with the
text of the same tree with explicit parentheses around every such query:

* `Node.Expands` -- the second text is the first with one pair for each bare query;
* `Render.wraps_formDoc` -- for one form, the number is that of its bare queries and of those
  below its children;
* `Session.render_bracketed` -- so the two texts of a tree are equal exactly if it has no bare
  query, and each bare query costs one pair of parentheses.
-/

namespace SqlTree

/-! ## 1. Children with their texts -/

namespace Node

/-- An arithmetic expression, which stands in parentheses in another. -/
def isArithmetic (n : Node) : Bool :=
  match n.form with
  | .arithmetic .. => true
  | .unary .. => true
  | _ => false

/-- Parentheses below a node do not change what the node is. -/
theorem bracketed_same (n : Node) : n.bracketed.isQuery = n.isQuery
    ∧ n.bracketed.isArithmetic = n.isArithmetic ∧ n.bracketed.columnName? = n.columnName?
    ∧ n.bracketed.relationName? = n.relationName? := by
  obtain ⟨form⟩ := n
  rw [bracketed_mk]
  cases form with
  | membership operand values negated =>
    rcases values with _ | ⟨single, _ | ⟨next, rest⟩⟩ <;> exact ⟨rfl, rfl, rfl, rfl⟩
  | _ => exact ⟨rfl, rfl, rfl, rfl⟩

/-- A query is nothing else. -/
theorem of_isQuery {n : Node} (h : n.isQuery = true) :
    n.isArithmetic = false ∧ n.columnName? = none ∧ n.relationName? = none := by
  obtain ⟨form⟩ := n
  cases form with
  | select s => exact ⟨rfl, rfl, rfl⟩
  | setOperation s => exact ⟨rfl, rfl, rfl⟩
  | _ => cases h

theorem doc_grouping (layout : Layout) (n : Node) :
    (Node.mk (.grouping n)).doc layout = .paren (n.doc layout) := doc_mk layout _

theorem inBrackets_of_isQuery {n : Node} (h : n.isQuery = true) :
    n.inBrackets = ⟨.grouping n.bracketed⟩ := if_pos h

theorem inBrackets_of_not_isQuery {n : Node} (h : n.isQuery = false) :
    n.inBrackets = n.bracketed := if_neg (Bool.eq_false_iff.mp h)

/-- Nor do parentheses around it, apart from a query being one. -/
theorem inBrackets_same (n : Node) : n.inBrackets.isArithmetic = n.isArithmetic
    ∧ n.inBrackets.columnName? = n.columnName?
    ∧ n.inBrackets.relationName? = n.relationName? := by
  cases h : n.isQuery with
  | false =>
    rw [inBrackets_of_not_isQuery h]
    exact (bracketed_same n).2
  | true =>
    obtain ⟨harithmetic, hcolumn, hrelation⟩ := of_isQuery h
    rw [inBrackets_of_isQuery h, harithmetic, hcolumn, hrelation]
    exact ⟨rfl, rfl, rfl⟩

theorem isQuery_of_isArithmetic {n : Node} (h : n.isArithmetic = true) : n.isQuery = false := by
  by_contra hquery
  rw [(of_isQuery (eq_true_of_ne_false hquery)).1] at h
  cases h

/-- A column is no query and has nothing below it that is written. -/
theorem bareQueries_of_column {n : Node} {name : String} (h : n.columnName? = some name) :
    n.isQuery = false ∧ n.bareQueries = [] := by
  obtain ⟨form⟩ := n
  cases form with
  | column relation name typeName => exact ⟨rfl, bareQueries_mk _⟩
  | _ => cases h

/-- The text of a tree with its parentheses is that of the tree with one pair for each of its bare
    queries. -/
def Expands (layout : Layout) (n : Node) : Prop :=
  Doc.Wraps n.bareQueries.length (n.doc layout) (n.bracketed.doc layout)

end Node

/-- A child that is known to expand. Rules about forms of such children need no hypotheses. -/
abbrev Slot (layout : Layout) := {n : Node // n.Expands layout}

namespace Slot

variable {layout : Layout}

/-- The child as it is. -/
def before (n : Slot layout) : Render.Child := n.1.rendered layout

/-- The child with parentheses below it, where the construct answers for it. -/
def own (n : Slot layout) : Render.Child := n.1.bracketed.rendered layout

/-- And where an expression may stand. -/
def expr (n : Slot layout) : Render.Child := n.1.inBrackets.rendered layout

/-- The bare queries below children. -/
def inner (l : List (Slot layout)) : Nat := (l.flatMap fun n => n.1.bareQueries).length

/-- The queries among children. -/
def queries (l : List (Slot layout)) : Nat := (l.filter fun n => n.1.isQuery).length

@[simp] theorem inner_nil : inner ([] : List (Slot layout)) = 0 := rfl

@[simp] theorem inner_cons (n : Slot layout) (l : List (Slot layout)) :
    inner (n :: l) = n.1.bareQueries.length + inner l := by
  simp [inner]

@[simp] theorem inner_append (l l' : List (Slot layout)) :
    inner (l ++ l') = inner l + inner l' := by
  simp [inner]

@[simp] theorem queries_nil : queries ([] : List (Slot layout)) = 0 := rfl

@[simp] theorem queries_cons (n : Slot layout) (l : List (Slot layout)) :
    queries (n :: l) = n.1.isQuery.toNat + queries l := by
  cases h : n.1.isQuery <;> simp [queries, h, Nat.add_comm]

@[simp] theorem queries_append (l l' : List (Slot layout)) :
    queries (l ++ l') = queries l + queries l' := by
  simp [queries]

/-- The pairs of parentheses that are missing when children are written, those in `bare` as they
    are. -/
def missing (written bare : List (Slot layout)) : Nat := inner written + queries bare

end Slot

namespace Render

open Doc Slot

theorem arithmeticOperand_eq (c : Child) :
    arithmeticOperand c = if c.1.isArithmetic then .paren c.2 else operand c := by
  obtain ⟨⟨form⟩, d⟩ := c
  cases form <;> rfl

theorem unqualified_eq (c : Child) :
    unqualified c = (c.1.columnName?.map Doc.name).getD c.2 := by
  obtain ⟨⟨form⟩, d⟩ := c
  cases form <;> rfl

variable {layout : Layout}

/-! ## 2. Children in their positions -/

/-- A query that is written as it is misses its parentheses. -/
theorem wraps_bare (n : Slot layout) : Wraps (missing [n] [n]) (before n).2 (expr n).2 := by
  unfold before expr Node.rendered
  cases h : n.1.isQuery with
  | false =>
    rw [Node.inBrackets_of_not_isQuery h]
    exact n.2.of_eq (by simp [missing, h])
  | true =>
    rw [Node.inBrackets_of_isQuery h, Node.doc_grouping]
    exact (Wraps.added n.2).of_eq (by simp [missing, h])

/-- An operand does not. -/
theorem wraps_operand (n : Slot layout) :
    Wraps (missing [n] []) (operand (before n)) (operand (expr n)) := by
  unfold operand before expr Node.rendered
  dsimp only
  cases h : n.1.isQuery with
  | false =>
    rw [Node.inBrackets_of_not_isQuery h, (Node.bracketed_same n.1).1, h]
    exact n.2.of_eq (by simp [missing])
  | true =>
    rw [Node.inBrackets_of_isQuery h, Node.doc_grouping]
    exact (Wraps.paren n.2).of_eq (by simp [missing])

/-- Nor does a child for which the construct answers. -/
theorem wraps_own (n : Slot layout) : Wraps (missing [n] []) (before n).2 (own n).2 :=
  n.2.of_eq (by simp [missing])

theorem wraps_arithmeticOperand (n : Slot layout) :
    Wraps (missing [n] []) (arithmeticOperand (before n)) (arithmeticOperand (expr n)) := by
  have hexpr : (expr n).1.isArithmetic = n.1.isArithmetic := n.1.inBrackets_same.1
  have hbefore : (before n).1 = n.1 := rfl
  rw [arithmeticOperand_eq, arithmeticOperand_eq, hexpr, hbefore]
  cases h : n.1.isArithmetic with
  | false => exact wraps_operand n
  | true =>
    have hbare : Wraps (missing [n] []) (before n).2 (expr n).2 :=
      (wraps_bare n).of_eq (by simp [missing, Node.isQuery_of_isArithmetic h])
    exact .paren hbare

theorem wraps_unqualified (n : Slot layout) :
    Wraps (missing [n] [n]) (unqualified (before n)) (unqualified (expr n)) := by
  have hexpr : (expr n).1.columnName? = n.1.columnName? := n.1.inBrackets_same.2.1
  have hbefore : (before n).1 = n.1 := rfl
  rw [unqualified_eq, unqualified_eq, hexpr, hbefore]
  cases h : n.1.columnName? with
  | none => exact wraps_bare n
  | some name =>
    obtain ⟨hquery, hnone⟩ := Node.bareQueries_of_column h
    exact (Wraps.same _).of_eq (by simp [missing, hquery, hnone])

/-! ## 3. Lists -/

theorem flatMap_none {κ : Type} (l : List κ) :
    l.flatMap (fun _ => ([] : List (Slot layout))) = [] :=
  List.flatMap_eq_nil_iff.mpr fun _ _ => rfl

/-- Parts written one by one. -/
theorem wraps_each {κ μ : Type} {f g : κ → μ} (write : μ → Doc)
    {written bare : κ → List (Slot layout)}
    (h : ∀ k, Wraps (missing (written k) (bare k)) (write (f k)) (write (g k))) (l : List κ) :
    WrapsAll (missing (l.flatMap written) (l.flatMap bare)) ((l.map f).map write)
      ((l.map g).map write) := by
  induction l with
  | nil => exact .nil
  | cons k rest ih =>
    refine (WrapsAll.cons (h k) ih).of_eq ?_
    simp +arith [missing]

theorem wraps_eachBare (l : List (Slot layout)) :
    WrapsAll (missing l l) ((l.map before).map (·.2)) ((l.map expr).map (·.2)) :=
  (wraps_each Prod.snd wraps_bare l).of_eq (by rw [List.flatMap_singleton'])

theorem wraps_list (l : List (Slot layout)) :
    Wraps (missing l l) (list (l.map before)) (list (l.map expr)) := (wraps_eachBare l).join _

theorem wraps_conjunction (l : List (Slot layout)) :
    Wraps (missing l l) (conjunction (l.map before)) (conjunction (l.map expr)) :=
  (wraps_eachBare l).join _

theorem wraps_columnList (l : List (Slot layout)) :
    Wraps (missing l l) (columnList (l.map before)) (columnList (l.map expr)) :=
  .paren (((wraps_each unqualified wraps_unqualified l).join _).of_eq (by simp))

theorem wraps_operands (l : List (Slot layout)) :
    Wraps (missing l []) (commas ((l.map before).map operand))
      (commas ((l.map expr).map operand)) :=
  ((wraps_each operand wraps_operand l).join _).of_eq
    (by rw [flatMap_none, List.flatMap_singleton'])

theorem wraps_after (word : String) (write : Child → Doc) {bare : Slot layout → List (Slot layout)}
    (h : ∀ n, Wraps (missing [n] (bare n)) (write (before n)) (write (expr n)))
    (o : Option (Slot layout)) :
    Wraps (missing o.toList (o.toList.flatMap bare)) (Doc.after word ((o.map before).map write))
      (Doc.after word ((o.map expr).map write)) := by
  cases o with
  | none => exact .same _
  | some n => exact (Wraps.append (.same _) (h n)).of_eq (by simp [missing])

/-- A column list behind a blank, unless it is empty. -/
theorem wraps_optionalColumns (l : List (Slot layout)) :
    Wraps (missing l l)
      (if (l.map before).isEmpty then Doc.empty else " " ++ columnList (l.map before))
      (if (l.map expr).isEmpty then Doc.empty else " " ++ columnList (l.map expr)) := by
  cases l with
  | nil => exact .same _
  | cons n rest =>
    exact (Wraps.append (.same _) (wraps_columnList (n :: rest))).of_eq (Nat.zero_add _)

/-! ## 4. Clauses -/

theorem wraps_bound (b : Bound (Slot layout)) :
    Wraps (missing b.children b.children) (bound (b.map before)) (bound (b.map expr)) := by
  cases b with
  | preceding n =>
    exact (Wraps.append (.append (wraps_bare n) (.same _)) (.same _)).of_eq rfl
  | following n =>
    exact (Wraps.append (.append (wraps_bare n) (.same _)) (.same _)).of_eq rfl
  | _ => exact .same _

theorem wraps_frame (f : Frame (Slot layout)) :
    Wraps (missing f.children f.children) (frame (f.map before)) (frame (f.map expr)) := by
  obtain ⟨unit, start, stop⟩ := f
  cases stop with
  | none =>
    exact (Wraps.append (.append (.same _) (.same _)) (wraps_bound start)).of_eq
      (by simp [missing, Frame.children])
  | some stop =>
    refine (Wraps.append (.append (.append (.append (.same _) (.same _)) (wraps_bound start))
      (.same _)) (wraps_bound stop)).of_eq ?_
    simp +arith [missing, Frame.children]

/-- A list behind its words, unless it is empty. -/
theorem wraps_optionalList (word : String) (l : List (Slot layout)) :
    WrapsAll (missing l l)
      (if (l.map before).isEmpty then [] else [.text word ++ list (l.map before)])
      (if (l.map expr).isEmpty then [] else [.text word ++ list (l.map expr)]) := by
  cases l with
  | nil => exact .nil
  | cons n rest =>
    exact (WrapsAll.cons (.append (.same _) (wraps_list (n :: rest))) .nil).of_eq (by simp)

theorem wraps_windowBody (w : Window (Slot layout)) :
    Wraps (missing w.children w.children) (windowBody (w.map before))
      (windowBody (w.map expr)) := by
  obtain ⟨name, partition, order, fr⟩ := w
  have hframe : WrapsAll
      (missing (fr.toList.flatMap Frame.children) (fr.toList.flatMap Frame.children))
      (((fr.map (Frame.map before)).map frame).toList)
      (((fr.map (Frame.map expr)).map frame).toList) := by
    cases fr with
    | none => exact .nil
    | some f => exact (WrapsAll.cons (wraps_frame f) .nil).of_eq (by simp)
  refine ((((wraps_optionalList _ partition).append (wraps_optionalList _ order)).append
    hframe).join _).of_eq ?_
  simp +arith [missing, Window.children]

theorem wraps_window (w : Window (Slot layout)) :
    Wraps (missing w.children w.children) (window (w.map before)) (window (w.map expr)) := by
  have hbody := wraps_windowBody w
  obtain ⟨name, partition, order, fr⟩ := w
  cases name with
  | none => exact .paren hbody
  | some name =>
    exact (Wraps.append (.append (.same _) (.same _)) (.paren hbody)).of_eq (by simp)

theorem wraps_windowRef (w : WindowRef (Slot layout)) :
    Wraps (missing w.children w.children) (windowRef (w.map before))
      (windowRef (w.map expr)) := by
  cases w with
  | inline w => exact .paren (wraps_windowBody w)
  | named name => exact .same _

theorem wraps_branch (b : Branch (Slot layout)) :
    Wraps (missing b.children []) (branch (b.map before)) (branch (b.map expr)) := by
  refine (Wraps.append (.append (.append (.same _) (wraps_operand b.condition)) (.same _))
    (wraps_operand b.result)).of_eq ?_
  simp [missing, Branch.children]

theorem wraps_assignment (a : Assignment (Slot layout)) :
    Wraps (missing a.children [a.target]) (assignment (a.map before))
      (assignment (a.map expr)) := by
  refine (Wraps.append (.append (wraps_bare a.target) (.same _)) (wraps_operand a.value)).of_eq ?_
  simp +arith [missing, Assignment.children]

theorem wraps_assignments (l : List (Assignment (Slot layout))) :
    WrapsAll (missing (l.flatMap Assignment.children) (l.map (·.target)))
      ((l.map (Assignment.map before)).map assignment)
      ((l.map (Assignment.map expr)).map assignment) :=
  (wraps_each assignment wraps_assignment l).of_eq (by rw [List.map_eq_flatMap])

theorem wraps_joined (j : Join (Slot layout)) :
    Wraps (missing j.written j.bare) (Render.join (j.map before)) (Render.join (j.map expr)) := by
  obtain ⟨kind, right, predicate, lateral⟩ := j
  have hplain : ∀ kind : JoinKind,
      Wraps (missing (right :: predicate.toList) predicate.toList)
        (kind.word ++ keyword lateral " LATERAL" ++ " " ++ operand (before right)
          ++ Doc.after " ON " ((predicate.map before).map (·.2)))
        (kind.word ++ keyword lateral " LATERAL" ++ " " ++ operand (expr right)
          ++ Doc.after " ON " ((predicate.map expr).map (·.2))) := by
    intro kind
    refine (Wraps.append (.append (.append (.append (.same _) (.same _)) (.same _))
      (wraps_operand right)) (wraps_after " ON " (·.2) wraps_bare predicate)).of_eq ?_
    simp +arith [missing]
  cases kind with
  | verbatim => exact wraps_bare right
  | _ => exact hplain _

theorem wraps_cte (c : Cte (Slot layout)) :
    Wraps (missing [c.query] []) (cte (c.map before)) (cte (c.map own)) :=
  (Wraps.append (.append (.append (.same _) (.same _)) (.same _))
    (.paren (wraps_own c.query))).of_eq (by simp)

theorem wraps_onConflict (c : OnConflict (Slot layout)) :
    Wraps (missing c.children c.bare) (onConflict (c.map before)) (onConflict (c.map expr)) := by
  obtain ⟨columns, action⟩ := c
  have hcolumns := wraps_optionalColumns columns
  cases action with
  | doNothing =>
    refine (Wraps.append (.append (.same _) hcolumns) (.same _)).of_eq ?_
    simp [OnConflict.children, OnConflict.bare, ConflictAction.children, ConflictAction.bare]
  | doUpdate assignments wheres =>
    have hwhere : Wraps (missing wheres wheres)
        (if (wheres.map before).isEmpty then Doc.empty
          else " WHERE " ++ conjunction (wheres.map before))
        (if (wheres.map expr).isEmpty then Doc.empty
          else " WHERE " ++ conjunction (wheres.map expr)) := by
      cases wheres with
      | nil => exact .same _
      | cons n rest =>
        exact (Wraps.append (.same _) (wraps_conjunction (n :: rest))).of_eq (Nat.zero_add _)
    refine (Wraps.append (.append (.same _) hcolumns)
      (.append (.append (.same _) ((wraps_assignments assignments).join _)) hwhere)).of_eq ?_
    simp +arith [missing, OnConflict.children, OnConflict.bare, ConflictAction.children,
      ConflictAction.bare]

/-! ## 5. Statements -/

/-- The sections of a statement, laid out. -/
def SectionsWrap (layout : Layout) (k : Nat) (sections sections' : List Section) : Prop :=
  WrapsAll k (sections.map layout.lay) (sections'.map layout.lay)

variable {k m : Nat} {sections sections' more more' : List Section}

theorem SectionsWrap.of_eq (h : SectionsWrap layout k sections sections') (hk : k = m) :
    SectionsWrap layout m sections sections' := hk ▸ h

theorem SectionsWrap.append (h : SectionsWrap layout k sections sections')
    (hmore : SectionsWrap layout m more more') :
    SectionsWrap layout (k + m) (sections ++ more) (sections' ++ more') := by
  unfold SectionsWrap
  rw [List.map_append, List.map_append]
  exact WrapsAll.append h hmore

theorem sectionsWrap_same (sections : List Section) : SectionsWrap layout 0 sections sections := by
  induction sections with
  | nil => exact .nil
  | cons s rest ih => exact .cons (.same _) ih

theorem sectionsWrap_line {d d' : Doc} (h : Wraps k d d') :
    SectionsWrap layout k [.line d] [.line d'] := .cons h .nil

theorem sectionsWrap_items {heading heading' : Doc} {separator : Separator}
    {items items' : List Doc} (hh : Wraps k heading heading') (h : WrapsAll m items items') :
    SectionsWrap layout (k + m) [.items heading separator items]
      [.items heading' separator items'] := by
  have hlist : Wraps (k + m)
      (heading ++ " " ++ Doc.join (layout.between separator) items)
      (heading' ++ " " ++ Doc.join (layout.between separator) items') :=
    .append (.append hh (.same _)) (h.join _)
  refine WrapsAll.cons (m := 0) ?_ .nil
  cases layout with
  | oneLine => exact hlist
  | lines =>
    cases h with
    | nil => exact hh
    | cons h hrest => exact hlist

theorem sectionsWrap_block {d d' : Doc} (h : Wraps k d d') :
    SectionsWrap layout k [.block d] [.block d'] := by
  refine WrapsAll.cons (m := 0) ?_ .nil
  cases layout with
  | oneLine => exact .paren h
  | lines =>
    exact (Wraps.paren (.append (.append (.same _) (.indented h)) (.same _))).of_eq (Nat.zero_add k)

/-- **A statement wraps as its sections do.** -/
theorem wraps_statement (h : SectionsWrap layout k sections sections') :
    Wraps k (layout.statement sections) (layout.statement sections') := h.join _

theorem sectionsWrap_itemsOf (heading : String) (separator : Separator)
    (l : List (Slot layout)) :
    SectionsWrap layout (missing l l) (itemsOf heading separator (l.map before))
      (itemsOf heading separator (l.map expr)) := by
  cases l with
  | nil => exact .nil
  | cons n rest =>
    exact (sectionsWrap_items (.same _) (wraps_eachBare (n :: rest))).of_eq (Nat.zero_add _)

theorem sectionsWrap_lineOf (heading : String) (write : Child → Doc)
    {bare : Slot layout → List (Slot layout)}
    (h : ∀ n, Wraps (missing [n] (bare n)) (write (before n)) (write (expr n)))
    (o : Option (Slot layout)) :
    SectionsWrap layout (missing o.toList (o.toList.flatMap bare))
      (lineOf heading ((o.map before).map write)) (lineOf heading ((o.map expr).map write)) := by
  cases o with
  | none => exact .nil
  | some n => exact (sectionsWrap_line (.append (.same _) (h n))).of_eq (by simp [missing])

theorem wraps_selectHead (s : Select (Slot layout)) :
    Wraps (missing s.distinctOn s.distinctOn) (selectHead (s.map before))
      (selectHead (s.place expr own)) := by
  have hdistinct : Wraps (missing s.distinctOn s.distinctOn)
      (if (s.distinctOn.map before).isEmpty then keyword s.distinct " DISTINCT"
        else " DISTINCT ON " ++ .paren (list (s.distinctOn.map before)))
      (if (s.distinctOn.map expr).isEmpty then keyword s.distinct " DISTINCT"
        else " DISTINCT ON " ++ .paren (list (s.distinctOn.map expr))) := by
    cases s.distinctOn with
    | nil => exact .same _
    | cons n rest =>
      exact (Wraps.append (.same _) (.paren (wraps_list (n :: rest)))).of_eq (Nat.zero_add _)
  exact (Wraps.append (.append (.same _) (.same _)) hdistinct).of_eq (Nat.zero_add _)

theorem sectionsWrap_withClause (ctes : List (Cte (Slot layout))) :
    SectionsWrap layout (missing (ctes.map (·.query)) [])
      ((withClause? (ctes.map (Cte.map before))).map Section.line).toList
      ((withClause? (ctes.map (Cte.map own))).map Section.line).toList := by
  cases ctes with
  | nil => exact .nil
  | cons c rest =>
    have hword : ∀ f : Slot layout → Child, ((c :: rest).map (Cte.map f)).any (·.recursive)
        = (c :: rest).any (·.recursive) := fun f => List.any_map
    have hlist := (wraps_each cte wraps_cte (c :: rest)).join ", "
    rw [flatMap_none, ← List.map_eq_flatMap] at hlist
    unfold withClause?
    rw [hword, hword]
    exact (sectionsWrap_line (.append (.same _) hlist)).of_eq (Nat.zero_add _)

theorem sectionsWrap_projections (s : Select (Slot layout)) :
    SectionsWrap layout
      (missing (s.distinctOn ++ s.projections) (s.distinctOn ++ s.projections))
      [if (s.projections.map before).isEmpty then .line (selectHead (s.map before) ++ " *")
        else .items (selectHead (s.map before)) .comma ((s.projections.map before).map (·.2))]
      [if (s.projections.map expr).isEmpty then .line (selectHead (s.place expr own) ++ " *")
        else .items (selectHead (s.place expr own)) .comma
          ((s.projections.map expr).map (·.2))] := by
  have hhead := wraps_selectHead s
  cases s.projections with
  | nil => exact (sectionsWrap_line (.append hhead (.same _))).of_eq (by simp)
  | cons n rest =>
    refine (sectionsWrap_items hhead (wraps_eachBare (n :: rest))).of_eq ?_
    simp +arith [missing]

theorem sectionsWrap_select (s : Select (Slot layout)) :
    SectionsWrap layout (missing s.written s.bare) (selectSections (s.map before))
      (selectSections (s.place expr own)) := by
  have hjoins : SectionsWrap layout
      (missing (s.joins.flatMap Join.written) (s.joins.flatMap Join.bare))
      ((s.joins.map (Join.map before)).map fun j => .line (Render.join j))
      ((s.joins.map (Join.map expr)).map fun j => .line (Render.join j)) := by
    have heach := wraps_each (layout.lay ∘ fun j => .line (Render.join j)) wraps_joined s.joins
    rwa [← List.map_map, ← List.map_map] at heach
  have hwindows : SectionsWrap layout
      (missing (s.windows.flatMap Window.children) (s.windows.flatMap Window.children))
      (if (s.windows.map (Window.map before)).isEmpty then []
        else [.items "WINDOW" .comma ((s.windows.map (Window.map before)).map window)])
      (if (s.windows.map (Window.map expr)).isEmpty then []
        else [.items "WINDOW" .comma ((s.windows.map (Window.map expr)).map window)]) := by
    cases s.windows with
    | nil => exact .nil
    | cons w rest =>
      exact (sectionsWrap_items (.same _) (wraps_each window wraps_window (w :: rest))).of_eq
        (Nat.zero_add _)
  have hfirst := ((sectionsWrap_withClause s.ctes).append (sectionsWrap_same
    (s.comment.map fun text => Section.line (.comment "/*" text)).toList)).append
    (sectionsWrap_projections s)
  have hsource := (hfirst.append
    (sectionsWrap_lineOf "FROM " operand wraps_operand s.source)).append hjoins
  have hfiltered := ((hsource.append (sectionsWrap_itemsOf "WHERE" .conjunction s.wheres)).append
    (sectionsWrap_itemsOf "GROUP BY" .comma s.groups)).append
    (sectionsWrap_itemsOf "HAVING" .conjunction s.havings)
  have hordered := (hfiltered.append hwindows).append
    (sectionsWrap_itemsOf "ORDER BY" .comma s.orders)
  have hlimited := (hordered.append
    (sectionsWrap_lineOf "LIMIT " Prod.snd wraps_bare s.limit)).append
    (sectionsWrap_lineOf "OFFSET " Prod.snd wraps_bare s.offset)
  refine (hlimited.append (sectionsWrap_same
    ((lockClause? (s.map before)).map Section.line).toList)).of_eq ?_
  rw [flatMap_none]
  simp +arith [missing, Select.written, Select.bare]

theorem sectionsWrap_setOperation (s : SetOperation (Slot layout)) :
    SectionsWrap layout (missing s.children s.bare) (setOperationSections (s.map before))
      (setOperationSections (s.place expr own)) := by
  have hblocks : SectionsWrap layout _
      [.block (before s.left).2, .line s.op.word, .block (before s.right).2]
      [.block (own s.left).2, .line s.op.word, .block (own s.right).2] :=
    (sectionsWrap_block (wraps_own s.left)).append
      ((sectionsWrap_same [.line s.op.word]).append (sectionsWrap_block (wraps_own s.right)))
  refine (((hblocks.append (sectionsWrap_itemsOf "ORDER BY" .comma s.orders)).append
    (sectionsWrap_lineOf "LIMIT " Prod.snd wraps_bare s.limit)).append
    (sectionsWrap_lineOf "OFFSET " Prod.snd wraps_bare s.offset)).of_eq ?_
  simp +arith [missing, SetOperation.children, SetOperation.bare]

theorem sectionsWrap_insertSource (s : Insert (Slot layout)) :
    SectionsWrap layout (missing s.writtenSource []) [insertSource (s.map before)]
      [insertSource (s.place expr own)] := by
  obtain ⟨target, columns, rows, select, returning, conflict⟩ := s
  cases select with
  | some query => exact sectionsWrap_line (wraps_own query)
  | none =>
    cases rows with
    | nil => exact sectionsWrap_same _
    | cons row rest =>
      have hrows := wraps_each valuesRow (fun row => .paren (wraps_operands row)) (row :: rest)
      rw [flatMap_none] at hrows
      exact (sectionsWrap_items (.same _) hrows).of_eq (by simp [Insert.writtenSource])

theorem sectionsWrap_insert (s : Insert (Slot layout)) :
    SectionsWrap layout (missing s.written s.bare) (insertSections (s.map before))
      (insertSections (s.place expr own)) := by
  have hhead := Wraps.append (.append (.same "INSERT INTO ") (wraps_bare s.target))
    (wraps_optionalColumns s.columns)
  have hconflict : SectionsWrap layout
      (missing (s.onConflict.toList.flatMap OnConflict.children)
        (s.onConflict.toList.flatMap OnConflict.bare))
      ((s.onConflict.map (OnConflict.map before)).map fun c => .line (onConflict c)).toList
      ((s.onConflict.map (OnConflict.map expr)).map fun c => .line (onConflict c)).toList := by
    cases s.onConflict with
    | none => exact .nil
    | some c => exact (sectionsWrap_line (wraps_onConflict c)).of_eq (by simp)
  refine ((((sectionsWrap_line hhead).append (sectionsWrap_insertSource s)).append
    hconflict).append
    (sectionsWrap_itemsOf "RETURNING" .comma s.returning)).of_eq ?_
  simp +arith [missing, Insert.written, Insert.bare]

theorem sectionsWrap_update (s : Update (Slot layout)) :
    SectionsWrap layout (missing s.children s.bare) (updateSections (s.map before))
      (updateSections (s.map expr)) := by
  have hhead := Wraps.append (.same "UPDATE ") (wraps_bare s.target)
  have hset : SectionsWrap layout _
      [.items "SET" .comma ((s.assignments.map (Assignment.map before)).map assignment)]
      [.items "SET" .comma ((s.assignments.map (Assignment.map expr)).map assignment)] :=
    sectionsWrap_items (.same _) (wraps_assignments s.assignments)
  refine ((((sectionsWrap_line hhead).append hset).append
    (sectionsWrap_itemsOf "WHERE" .conjunction s.wheres)).append
    (sectionsWrap_itemsOf "RETURNING" .comma s.returning)).of_eq ?_
  simp +arith [missing, Update.children, Update.bare]

theorem sectionsWrap_delete (s : Delete (Slot layout)) :
    SectionsWrap layout (missing s.children s.children) (deleteSections (s.map before))
      (deleteSections (s.map expr)) := by
  have hhead := Wraps.append (.same "DELETE FROM ") (wraps_bare s.target)
  refine (((sectionsWrap_line hhead).append
    (sectionsWrap_itemsOf "WHERE" .conjunction s.wheres)).append
    (sectionsWrap_itemsOf "RETURNING" .comma s.returning)).of_eq ?_
  simp +arith [missing, Delete.children]

/-! ## 6. Forms -/

theorem wraps_membership (n : Slot layout) (values : List (Slot layout)) (negated : Bool) :
    Wraps (missing (Form.membership n values negated).written [])
      (formDoc layout ((Form.membership n values negated).map before))
      (formDoc layout ((Form.membership n values negated).place expr own)) := by
  rcases values with _ | ⟨v, _ | ⟨w, rest⟩⟩
  · exact .same _
  · refine (Wraps.append (.append (wraps_operand n) (.same _)) (.paren (wraps_own v))).of_eq ?_
    simp [missing, Form.written]
  · refine (Wraps.append (.append (wraps_operand n) (.same _))
      (.paren (wraps_operands (v :: w :: rest)))).of_eq ?_
    simp [missing, Form.written]

theorem wraps_aggregate (func : AggregateFunc) (argument filter : Option (Slot layout))
    (distinct : Bool) :
    Wraps (missing (argument.toList ++ filter.toList) (argument.toList ++ filter.toList))
      (aggregate func (argument.map before) distinct (filter.map before))
      (aggregate func (argument.map expr) distinct (filter.map expr)) := by
  have hrange : Wraps (missing argument.toList argument.toList)
      (((argument.map before).map (·.2)).getD "*") (((argument.map expr).map (·.2)).getD "*") := by
    cases argument with
    | none => exact .same _
    | some n => exact wraps_bare n
  have hfilter := wraps_after " FILTER " (fun c => .paren ("WHERE " ++ c.2))
    (fun n => (Wraps.paren (.append (.same "WHERE ") (wraps_bare n))).of_eq (Nat.zero_add _)) filter
  refine (Wraps.append (.append (.same _) (.paren (.append (.same _) hrange))) hfilter).of_eq ?_
  simp +arith [missing]

theorem wraps_choice (operand? otherwise : Option (Slot layout))
    (branches : List (Branch (Slot layout))) :
    Wraps
      (missing (operand?.toList ++ branches.flatMap Branch.children ++ otherwise.toList) [])
      (choice (operand?.map before) (branches.map (Branch.map before)) (otherwise.map before))
      (choice (operand?.map expr) (branches.map (Branch.map expr)) (otherwise.map expr)) := by
  have hbranches := (wraps_each branch wraps_branch branches).join Doc.empty
  refine (Wraps.append (.append (.append (.append (.same _)
    (wraps_after " " operand wraps_operand operand?)) hbranches)
    (wraps_after " ELSE " operand wraps_operand otherwise)) (.same _)).of_eq ?_
  rw [flatMap_none, flatMap_none, flatMap_none]
  simp +arith [missing]

theorem wraps_groupingSet (kind : GroupingKind) (columns : List (Slot layout))
    (sets : List (List (Slot layout))) :
    Wraps (missing (Form.groupingSet kind columns sets).written
        (Form.groupingSet kind columns sets).bare)
      (groupingSet kind (columns.map before) (sets.map (List.map before)))
      (groupingSet kind (columns.map expr) (sets.map (List.map expr))) := by
  cases kind with
  | groupingSets =>
    have hsets := (wraps_each (fun set => .paren (list set)) (fun set => .paren (wraps_list set))
      sets).join ", "
    exact (Wraps.append (.same _) (.paren hsets)).of_eq (by simp [missing, Form.written, Form.bare])
  | _ => exact (Wraps.append (.same _) (.paren (wraps_list columns))).of_eq (Nat.zero_add _)

/-- **The text of a form with its children in parentheses is that of the form, with one pair more
    for each bare query below the children and for each bare child that is one.** -/
theorem wraps_formDoc (form : Form (Slot layout)) :
    Wraps (missing form.written form.bare) (formDoc layout (form.map before))
      (formDoc layout (form.place expr own)) := by
  have hrelation : ∀ relation : Slot layout,
      (expr relation).1.relationName? = (before relation).1.relationName? :=
    fun relation => relation.1.inBrackets_same.2.2
  cases form with
  | table name => exact .same _
  | tableAlias relation name =>
    exact .append (.append (wraps_operand relation) (.same _)) (.same _)
  | column relation name typeName =>
    show Wraps 0 (qualified (before relation).1.relationName? _)
      (qualified (expr relation).1.relationName? _)
    rw [hrelation]
    exact .same _
  | star relation =>
    cases relation with
    | none => exact .same _
    | some relation =>
      show Wraps 0 (qualified (before relation).1.relationName? _)
        (qualified (expr relation).1.relationName? _)
      rw [hrelation]
      exact .same _
  | literal v => exact .same _
  | bind v => exact .same _
  | cast v typeName => exact .same _
  | raw sql binds => exact .same _
  | comparison left op right =>
    refine (Wraps.comparison op (wraps_operand left) (wraps_operand right)).of_eq ?_
    simp [missing, Form.written, Form.children, Form.bare]
  | nullTest c op => exact .append (.append (wraps_operand c) (.same _)) (.same _)
  | and left right =>
    refine (Wraps.append (.append (wraps_bare left) (.same _)) (wraps_bare right)).of_eq ?_
    simp +arith [missing, Form.written, Form.children, Form.bare]
  | or left right =>
    refine (Wraps.append (.append (wraps_bare left) (.same _)) (wraps_bare right)).of_eq ?_
    simp +arith [missing, Form.written, Form.children, Form.bare]
  | not c => exact (Wraps.append (.same _) (.paren (wraps_own c))).of_eq (Nat.zero_add _)
  | grouping c => exact .paren (wraps_own c)
  | membership c values negated => exact wraps_membership c values negated
  | between c low high negated =>
    refine (Wraps.append (.append (.append (.append (wraps_operand c) (.same _))
      (wraps_operand low)) (.same _)) (wraps_operand high)).of_eq ?_
    simp +arith [missing, Form.written, Form.children, Form.bare]
  | existence query negated =>
    exact (Wraps.append (.same _) (.paren (wraps_own query))).of_eq (Nat.zero_add _)
  | arithmetic left op right =>
    refine (Wraps.append (.append (.append (.append (wraps_arithmeticOperand left) (.same _))
      (.same _)) (.same _)) (wraps_arithmeticOperand right)).of_eq ?_
    simp [missing, Form.written, Form.children, Form.bare]
  | unary op c =>
    exact (Wraps.append (.same _) (wraps_arithmeticOperand c)).of_eq (Nat.zero_add _)
  | call name arguments distinct =>
    refine (Wraps.append (.same _) (.paren (.append (.same _) (wraps_list arguments)))).of_eq ?_
    simp [Form.written, Form.children, Form.bare]
  | aggregate func argument distinct filter => exact wraps_aggregate func argument filter distinct
  | extract field c =>
    refine (Wraps.append (.same _) (.paren (.append (.same _) (wraps_bare c)))).of_eq ?_
    simp [missing, Form.written, Form.children, Form.bare]
  | ordering c direction nulls =>
    exact .append (.append (.append (wraps_operand c) (.same _)) (.same _)) (.same _)
  | window w => exact wraps_window w
  | windowed c w =>
    refine (Wraps.append (.append (wraps_bare c) (.same _)) (wraps_windowRef w)).of_eq ?_
    simp +arith [missing, Form.written, Form.children, Form.bare]
  | labelled c name => exact .append (.append (wraps_operand c) (.same _)) (.same _)
  | choice c branches otherwise => exact wraps_choice c otherwise branches
  | groupingSet kind columns sets => exact wraps_groupingSet kind columns sets
  | setOperation s => exact wraps_statement (sectionsWrap_setOperation s)
  | cte c => exact wraps_cte c
  | assignment a => exact wraps_assignment a
  | join j => exact wraps_joined j
  | select s => exact wraps_statement (sectionsWrap_select s)
  | insert s => exact wraps_statement (sectionsWrap_insert s)
  | update s => exact wraps_statement (sectionsWrap_update s)
  | delete s => exact wraps_statement (sectionsWrap_delete s)

end Render

/-! ## 7. Trees -/

namespace Node

/-- **The text of a tree with its parentheses is that of the tree with one pair more for each of
    its bare queries.** -/
theorem expands (layout : Layout) (n : Node) : n.Expands layout := by
  induction n using stored_induction with
  | step form =>
    have h := Render.wraps_formDoc form
    show Doc.Wraps (Node.mk _).bareQueries.length _ _
    rw [bareQueries_mk, bracketed_mk, doc_mk, doc_mk, Form.map_map, Form.map_place,
      Form.place_map, Form.written_map, Form.bare_map, List.filter_map, List.flatMap_map]
    refine h.of_eq ?_
    rw [List.length_append, List.length_map]
    exact Nat.add_comm _ _

end Node

namespace Session

/-- **A rendering puts queries in parentheses except the bare ones.** Explicit parentheses around
    every query that stands where an expression may stand change nothing about which renderings
    are refused, nor about the parameters; the text has one pair more for each bare query, and is
    the same exactly if there is none. What explicit parentheses write is one mark before and one
    behind the rendering. -/
theorem render_bracketed (s : Session) (t : Node) :
    (∀ misuse, s.render t.bracketed = .error misuse ↔ s.render t = .error misuse)
    ∧ ∀ text s', s.render t = .ok (text, s') →
      (∃ text', s.render t.bracketed = .ok (text', s')
        ∧ text'.toList.count '(' = text.toList.count '(' + t.bareQueries.length
        ∧ (text' = text ↔ t.bareQueries = []))
      ∧ s.render ⟨.grouping t⟩ = .ok ("(" ++ text ++ ")", s') := by
  have hwraps := t.expands s.renderer.layout
  refine ⟨fun misuse => ?_, fun text s' h => ?_⟩
  · rw [render_eq_error_iff, render_eq_error_iff, hwraps.fault?_eq]
  · have hbindings : t.bracketed.collect = t.collect := by
      rw [← t.bracketed.bindings_doc s.renderer.layout, ← t.bindings_doc s.renderer.layout,
        hwraps.bindings_eq]
    obtain ⟨hfault, rfl, hs'⟩ := render_eq_ok_iff.mp h
    have hcount := hwraps.count_spell s.renderer.spelling s.index
    constructor
    · refine ⟨_, render_eq_ok_iff.mpr ⟨hwraps.fault?_eq.trans hfault, rfl, hbindings ▸ hs'⟩,
        hcount, fun heq => ?_, fun hnone => ?_⟩
      · rw [heq] at hcount
        exact List.length_eq_zero_iff.mp (Nat.left_eq_add.mp hcount)
      · rw [hwraps.eq_of_zero (congrArg List.length hnone)]
    · have hcollect : (Node.mk (.grouping t)).collect = t.collect := by
        rw [← Node.bindings_doc s.renderer.layout, Node.doc_grouping,
          ← t.bindings_doc s.renderer.layout]
        rfl
      refine render_eq_ok_iff.mpr ⟨?_, ?_, hcollect ▸ hs'⟩
      · rw [Node.doc_grouping]
        exact hfault
      · rw [Node.doc_grouping]
        rfl

/-- All rows of a table. -/
def rowsOf (table : String) : Node := ⟨.select { source := some ⟨.table table⟩ }⟩

/-- A SELECT with a query in a comparison, one behind EXISTS, and one bare. -/
def scalars : Node :=
  ⟨.select
    { source := some ⟨.table "t"⟩
      projections := [rowsOf "u"]
      wheres :=
        [⟨.comparison ⟨.bind (.int 1)⟩ .eq (rowsOf "v")⟩, ⟨.existence (rowsOf "w") false⟩] }⟩

/-- Only the bare one costs parentheses. -/
theorem render_bracketed_scalars : ∃ text s',
    (Session.mk ⟨.postgres, .oneLine, true⟩ []).render scalars = .ok (text, s')
      ∧ text = "SELECT SELECT * FROM \"u\" FROM \"t\" WHERE $1 = (SELECT * FROM \"v\") "
        ++ "AND EXISTS (SELECT * FROM \"w\")"
      ∧ ∃ text', (Session.mk ⟨.postgres, .oneLine, true⟩ []).render scalars.bracketed
          = .ok (text', s')
        ∧ text'.toList.count '(' = 3 ∧ text' ≠ text := by
  have h : (Session.mk ⟨.postgres, .oneLine, true⟩ []).render scalars
      = .ok ("SELECT SELECT * FROM \"u\" FROM \"t\" WHERE $1 = (SELECT * FROM \"v\") "
        ++ "AND EXISTS (SELECT * FROM \"w\")", ⟨⟨.postgres, .oneLine, true⟩, [.int 1]⟩) := rfl
  obtain ⟨⟨text', hrender, hcount, hsame⟩, -⟩ := (render_bracketed _ scalars).2 _ _ h
  exact ⟨_, _, h, rfl, text', hrender, hcount, fun heq => by cases hsame.mp heq⟩

/-- A query in a projection is written without parentheses. -/
theorem projection_unbracketed :
    (Session.mk ⟨.postgres, .oneLine, true⟩ []).render ⟨.select { projections := [rowsOf "t"] }⟩
        = .ok ("SELECT SELECT * FROM \"t\"", ⟨⟨.postgres, .oneLine, true⟩, []⟩)
      ∧ ¬ ∀ (s : Session) (t : Node), s.render t.bracketed = s.render t := by
  have hbare : (Session.mk ⟨.postgres, .oneLine, true⟩ []).render
      ⟨.select { projections := [rowsOf "t"] }⟩
        = .ok ("SELECT SELECT * FROM \"t\"", ⟨⟨.postgres, .oneLine, true⟩, []⟩) := rfl
  have hbracketed : (Session.mk ⟨.postgres, .oneLine, true⟩ []).render
      (Node.bracketed ⟨.select { projections := [rowsOf "t"] }⟩)
        = .ok ("SELECT (SELECT * FROM \"t\")", ⟨⟨.postgres, .oneLine, true⟩, []⟩) := rfl
  refine ⟨hbare, fun h => ?_⟩
  have heq := h ⟨⟨.postgres, .oneLine, true⟩, []⟩ ⟨.select { projections := [rowsOf "t"] }⟩
  rw [hbare, hbracketed] at heq
  obtain ⟨htext, -⟩ := Prod.mk.inj (Except.ok.inj heq)
  exact absurd htext (by decide)

end Session
end SqlTree
