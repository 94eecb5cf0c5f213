import Mathlib.Data.List.Basic
import SqlTree.Proofs.Visited
import SqlTree.Render

/-!
# Collecting from a text

Some parts of a text are noted down from left to right, and the rest is passed over: a survey says
what is noted for each kind of part. What a survey of a statement notes can be read off the tree:

* `Survey`, `Doc.survey` -- what to note, and the notes on a text;
* `Form.surveyed` -- the notes on a form itself, apart from its children;
* `Render.survey_formDoc` -- the notes on the text of a form: its own, then those on its written
  children;
* `Node.survey_doc` -- in either layout the notes on the text of a tree are those on the visited
  nodes, in the order of the visit.
-/

namespace SqlTree

/-- What is noted down for the parts of a text that are no fixed words and no quoted names. -/
structure Survey (α : Type) where
  bare : NameRule → String → List α
  value : Value → List α
  raw : String → List Value → List α
  comparison : ComparisonOp → List α

variable {α : Type} {v : Survey α}

/-! ## 1. Notes on a text -/

namespace Doc

/-- What a survey notes on a text, from left to right. A comparison comes before its operands. -/
def survey (v : Survey α) : Doc → List α
  | .text _ => []
  | .name _ => []
  | .bare rule s => v.bare rule s
  | .value w => v.value w
  | .raw sql binds => v.raw sql binds
  | .comment _ _ => []
  | .comparison op left right => v.comparison op ++ (left.survey v ++ right.survey v)
  | .paren body => body.survey v
  | .indented body => body.survey v
  | .append left right => left.survey v ++ right.survey v

@[simp] theorem survey_text (s : String) : (Doc.text s).survey v = [] := rfl

@[simp] theorem survey_name (s : String) : (Doc.name s).survey v = [] := rfl

@[simp] theorem survey_bare (rule : NameRule) (s : String) :
    (Doc.bare rule s).survey v = v.bare rule s := rfl

@[simp] theorem survey_value (w : Value) : (Doc.value w).survey v = v.value w := rfl

@[simp] theorem survey_raw (sql : String) (binds : List Value) :
    (Doc.raw sql binds).survey v = v.raw sql binds := rfl

@[simp] theorem survey_comment (mark s : String) : (Doc.comment mark s).survey v = [] := rfl

@[simp] theorem survey_comparison (op : ComparisonOp) (l r : Doc) :
    (Doc.comparison op l r).survey v = v.comparison op ++ (l.survey v ++ r.survey v) := rfl

@[simp] theorem survey_paren (d : Doc) : (Doc.paren d).survey v = d.survey v := rfl

@[simp] theorem survey_indented (d : Doc) : (Doc.indented d).survey v = d.survey v := rfl

@[simp] theorem survey_append (l r : Doc) : (l ++ r).survey v = l.survey v ++ r.survey v := rfl

@[simp] theorem survey_empty : Doc.empty.survey v = [] := rfl

@[simp] theorem survey_after (keyword : String) (d : Option Doc) :
    (Doc.after keyword d).survey v = d.toList.flatMap (survey v) := by
  cases d <;> simp [after]

theorem survey_join (separator : Doc) (hs : separator.survey v = []) :
    ∀ ds : List Doc, (Doc.join separator ds).survey v = ds.flatMap (survey v)
  | [] => rfl
  | [d] => (List.append_nil (d.survey v)).symm
  | d :: e :: rest => by
    have ih := survey_join separator hs (e :: rest)
    show d.survey v ++ separator.survey v ++ (Doc.join separator (e :: rest)).survey v = _
    rw [hs, ih, List.append_nil]
    rfl

@[simp] theorem survey_join_text (s : String) (ds : List Doc) :
    (Doc.join (.text s) ds).survey v = ds.flatMap (survey v) := survey_join _ rfl ds

@[simp] theorem survey_join_empty (ds : List Doc) :
    (Doc.join Doc.empty ds).survey v = ds.flatMap (survey v) := survey_join _ rfl ds

end Doc

/-! ## 2. Notes on the parts of a statement -/

def Section.survey (v : Survey α) : Section → List α
  | .line text => text.survey v
  | .items heading _ list => heading.survey v ++ list.flatMap (Doc.survey v)
  | .block body => body.survey v

@[simp] theorem Section.survey_line (d : Doc) : (Section.line d).survey v = d.survey v := rfl

namespace Layout

@[simp] theorem survey_between (layout : Layout) (separator : Separator) :
    (layout.between separator).survey v = [] := by
  cases layout <;> cases separator <;> rfl

@[simp] theorem survey_lay (layout : Layout) (s : Section) :
    (layout.lay s).survey v = s.survey v := by
  cases s with
  | line text => rfl
  | block body =>
    cases layout with
    | oneLine => rfl
    | lines => simp [lay, Section.survey]
  | items heading separator items =>
    have hj : (Doc.join (layout.between separator) items).survey v = items.flatMap (Doc.survey v) :=
      Doc.survey_join _ (survey_between layout separator) items
    cases layout with
    | oneLine => simp [lay, Section.survey, hj]
    | lines => cases items <;> simp_all [lay, Section.survey]

/-- **The notes on a layout are those on its sections**, in their order. -/
@[simp] theorem survey_statement (layout : Layout) (sections : List Section) :
    (layout.statement sections).survey v = sections.flatMap (Section.survey v) := by
  unfold statement
  rw [Doc.survey_join _ (by cases layout <;> rfl), List.flatMap_map]
  simp only [survey_lay]

end Layout

namespace Render

/-- The notes on the children of a clause. -/
def surveyOf (v : Survey α) (children : List Child) : List α :=
  children.flatMap fun c => c.2.survey v

@[simp] theorem surveyOf_nil : surveyOf v [] = [] := rfl

@[simp] theorem surveyOf_cons (c : Child) (rest : List Child) :
    surveyOf v (c :: rest) = c.2.survey v ++ surveyOf v rest := rfl

@[simp] theorem surveyOf_append (l r : List Child) :
    surveyOf v (l ++ r) = surveyOf v l ++ surveyOf v r := List.flatMap_append

@[simp] theorem surveyOf_flatten (rows : List (List Child)) :
    surveyOf v rows.flatten = rows.flatMap (surveyOf v) := by
  rw [← List.flatMap_id, surveyOf, List.flatMap_assoc]
  rfl

/-- The children of several clauses, one clause after the other. -/
@[simp] theorem surveyOf_flatMap {κ : Type} (f : κ → List Child) (l : List κ) :
    surveyOf v (l.flatMap f) = l.flatMap fun k => surveyOf v (f k) := List.flatMap_assoc

@[simp] theorem survey_operand (c : Child) : (operand c).survey v = c.2.survey v := by
  unfold operand
  split <;> rfl

@[simp] theorem survey_arithmeticOperand (c : Child) :
    (arithmeticOperand c).survey v = c.2.survey v := by
  unfold arithmeticOperand
  split
  · rfl
  · rfl
  · exact survey_operand c

@[simp] theorem survey_keyword (present : Bool) (word : String) :
    (keyword present word).survey v = [] := by
  cases present <;> rfl

@[simp] theorem survey_commas (ds : List Doc) :
    (commas ds).survey v = ds.flatMap (Doc.survey v) := Doc.survey_join_text _ ds

@[simp] theorem survey_list (children : List Child) :
    (list children).survey v = surveyOf v children := by
  rw [list, survey_commas, List.flatMap_map]
  rfl

@[simp] theorem survey_conjunction (children : List Child) :
    (conjunction children).survey v = surveyOf v children := by
  rw [conjunction, Doc.survey_join_text, List.flatMap_map]
  rfl

@[simp] theorem survey_valuesRow (row : List Child) :
    (valuesRow row).survey v = surveyOf v row := by
  rw [valuesRow, Doc.survey_paren, survey_commas, List.flatMap_map]
  simp only [survey_operand]
  rfl

/-- The notes on a column list are those on its columns, if the notes on a column without its
    relation are. -/
theorem survey_columnList {columns : List Child}
    (hq : ∀ c ∈ columns, (unqualified c).survey v = c.2.survey v) :
    (columnList columns).survey v = surveyOf v columns := by
  rw [columnList, Doc.survey_paren, survey_commas, List.flatMap_map]
  exact List.flatMap_congr hq

@[simp] theorem survey_bound (b : Bound Child) : (bound b).survey v = surveyOf v b.children := by
  cases b <;> simp [bound, Bound.offset?, Bound.children]

@[simp] theorem survey_frame (f : Frame Child) : (frame f).survey v = surveyOf v f.children := by
  obtain ⟨unit, start, stop⟩ := f
  cases stop <;> simp [frame, Frame.children]

@[simp] theorem survey_windowBody (w : Window Child) :
    (windowBody w).survey v = surveyOf v w.children := by
  obtain ⟨name, partition, order, fr⟩ := w
  unfold windowBody Window.children
  rw [Doc.survey_join_text]
  cases partition <;> cases order <;> cases fr <;> simp

@[simp] theorem survey_window (w : Window Child) :
    (window w).survey v = surveyOf v w.children := by
  unfold window
  split <;> simp

@[simp] theorem survey_windowRef (w : WindowRef Child) :
    (windowRef w).survey v = surveyOf v w.children := by
  cases w <;> simp [windowRef, WindowRef.children]

@[simp] theorem survey_branch (b : Branch Child) :
    (branch b).survey v = surveyOf v b.children := by
  simp [branch, Branch.children]

@[simp] theorem survey_assignment (a : Assignment Child) :
    (assignment a).survey v = surveyOf v a.children := by
  simp [assignment, Assignment.children]

@[simp] theorem survey_join (j : Join Child) : (join j).survey v = surveyOf v j.written := by
  obtain ⟨kind, right, predicate, lateral⟩ := j
  cases kind <;> cases predicate <;> simp [join, Join.written, Join.children]

@[simp] theorem survey_cte (c : Cte Child) : (cte c).survey v = c.query.2.survey v := by
  unfold cte
  have hc : (c.columns.map Doc.name).flatMap (Doc.survey v) = [] := by
    rw [List.flatMap_map]
    exact List.flatMap_eq_nil_iff.mpr fun _ _ => rfl
  split <;> simp [hc]

theorem survey_withClause? (ctes : List (Cte Child)) :
    (withClause? ctes).toList.flatMap (Doc.survey v) = surveyOf v (ctes.map (·.query)) := by
  have hc : (ctes.map cte).flatMap (Doc.survey v) = surveyOf v (ctes.map (·.query)) := by
    rw [surveyOf, List.flatMap_map, List.flatMap_map]
    exact List.flatMap_congr fun c _ => survey_cte c
  cases ctes with
  | nil => rfl
  | cons c rest =>
    unfold withClause?
    simp only [List.isEmpty_cons, Bool.false_eq_true, if_false, Option.toList_some,
      List.flatMap_cons, List.flatMap_nil, List.append_nil, Doc.survey_append, survey_commas]
    rw [hc]
    split <;> rfl

theorem survey_onConflict {c : OnConflict Child}
    (hq : ∀ k ∈ c.columns, (unqualified k).survey v = k.2.survey v) :
    (onConflict c).survey v = surveyOf v c.children := by
  obtain ⟨columns, action⟩ := c
  have hl := survey_columnList hq
  unfold onConflict OnConflict.children
  cases columns <;> cases action <;>
    simp [hl, ConflictAction.children, List.flatMap_map] <;> split <;> simp_all

/-! ## 3. Notes on statements -/

@[simp] theorem survey_itemsOf (heading : String) (separator : Separator)
    (children : List Child) :
    (itemsOf heading separator children).flatMap (Section.survey v) = surveyOf v children := by
  cases children with
  | nil => rfl
  | cons c rest => simp [itemsOf, Section.survey, surveyOf, List.flatMap_map]

@[simp] theorem survey_lineOf (heading : String) (d : Option Doc) :
    (lineOf heading d).flatMap (Section.survey v) = d.toList.flatMap (Doc.survey v) := by
  cases d <;> simp [lineOf, Section.survey]

@[simp] theorem survey_selectHead (s : Select Child) :
    (selectHead s).survey v = surveyOf v s.distinctOn := by
  unfold selectHead
  cases hh : s.hints.isEmpty <;> cases hd : s.distinctOn <;> simp

/-- The notes on an optional section are those on its text. -/
@[simp] theorem survey_optionalLine (d : Option Doc) :
    (d.map Section.line).toList.flatMap (Section.survey v) = d.toList.flatMap (Doc.survey v) := by
  cases d <;> simp [Section.survey]

theorem survey_lockClause? (s : Select Child) :
    (lockClause? s).toList.flatMap (Doc.survey v) = [] := by
  unfold lockClause?
  cases s.lock <;> simp

theorem survey_optional (d : Option Child) :
    (d.map (·.2)).toList.flatMap (Doc.survey v) = surveyOf v d.toList := by
  cases d <;> rfl

theorem survey_optionalOperand (d : Option Child) :
    (d.map operand).toList.flatMap (Doc.survey v) = surveyOf v d.toList := by
  cases d <;> simp

/-- The projections of a SELECT, with its head. -/
theorem survey_projections (s : Select Child) :
    (if s.projections.isEmpty then Section.line (selectHead s ++ " *")
      else .items (selectHead s) .comma (s.projections.map (·.2))).survey v
      = surveyOf v s.distinctOn ++ surveyOf v s.projections := by
  cases hp : s.projections with
  | nil => simp [Section.survey]
  | cons c rest => simp [Section.survey, surveyOf, List.flatMap_map]

theorem survey_windows (ws : List (Window Child)) :
    (if ws.isEmpty then [] else [Section.items "WINDOW" .comma (ws.map window)]).flatMap
      (Section.survey v) = surveyOf v (ws.flatMap Window.children) := by
  cases ws with
  | nil => rfl
  | cons w rest => simp [Section.survey, List.flatMap_map]

/-- **The notes on a SELECT are those on its written children**: the named queries, what it is
    distinct on, the projections, then the clauses as they follow. -/
theorem survey_selectSections (s : Select Child) :
    (selectSections s).flatMap (Section.survey v) = surveyOf v s.written := by
  have hcomment : ((s.comment.map fun text => Section.line (.comment "/*" text)).toList).flatMap
      (Section.survey v) = [] := by
    cases s.comment <;> rfl
  have hjoins : (s.joins.map fun j => Section.line (join j)).flatMap (Section.survey v)
      = surveyOf v (s.joins.flatMap Join.written) := by
    rw [List.flatMap_map, surveyOf_flatMap]
    exact List.flatMap_congr fun j _ => survey_join j
  unfold selectSections Select.written
  simp only [List.flatMap_append, surveyOf_append, survey_optionalLine, survey_withClause?,
    hcomment, List.flatMap_singleton, survey_projections, survey_lineOf,
    survey_optionalOperand, survey_optional, hjoins, survey_itemsOf, survey_windows,
    survey_lockClause?, List.nil_append, List.append_nil, List.append_assoc]

theorem survey_setOperationSections (s : SetOperation Child) :
    (setOperationSections s).flatMap (Section.survey v) = surveyOf v s.children := by
  unfold setOperationSections SetOperation.children
  simp only [List.flatMap_append, survey_itemsOf, survey_lineOf, survey_optional]
  simp [Section.survey]

theorem survey_insertSource (s : Insert Child) :
    (insertSource s).survey v = surveyOf v s.writtenSource := by
  unfold insertSource Insert.writtenSource
  cases s.select with
  | some query => simp [Section.survey]
  | none =>
    cases hr : s.rows with
    | nil => simp [Section.survey]
    | cons row rest => simp [Section.survey, List.flatMap_map]

theorem survey_conflictLine {c : Option (OnConflict Child)}
    (hq : ∀ k ∈ c.toList.flatMap (·.columns), (unqualified k).survey v = k.2.survey v) :
    ((c.map fun c => Section.line (onConflict c)).toList).flatMap (Section.survey v)
      = surveyOf v (c.toList.flatMap OnConflict.children) := by
  cases c with
  | none => rfl
  | some c =>
    have h : (onConflict c).survey v = surveyOf v c.children :=
      survey_onConflict fun k hk => hq k (by simpa using hk)
    simp [Section.survey, h]

/-- **The notes on an INSERT are those on its written children**: on its rows only if it has no
    query. -/
theorem survey_insertSections {s : Insert Child}
    (hq : ∀ c ∈ s.written, (unqualified c).survey v = c.2.survey v) :
    (insertSections s).flatMap (Section.survey v) = surveyOf v s.written := by
  have hcols : (if s.columns.isEmpty then Doc.empty else " " ++ columnList s.columns).survey v
      = surveyOf v s.columns := by
    have h : (columnList s.columns).survey v = surveyOf v s.columns :=
      survey_columnList fun c hc => hq c (by simp [Insert.written, hc])
    cases hc : s.columns with
    | nil => rfl
    | cons c rest => simpa [hc] using h
  have hkey : ∀ k ∈ s.onConflict.toList.flatMap (·.columns),
      (unqualified k).survey v = k.2.survey v := by
    intro k hk
    obtain ⟨c, hc, hk⟩ := List.mem_flatMap.mp hk
    have hw : k ∈ s.onConflict.toList.flatMap OnConflict.children :=
      List.mem_flatMap.mpr ⟨c, hc, List.mem_append_left _ hk⟩
    exact hq k (by simp [Insert.written, hw])
  have hconf := survey_conflictLine hkey
  unfold insertSections Insert.written
  simp only [List.flatMap_append, List.flatMap_cons, List.flatMap_nil,
    Section.survey_line, Doc.survey_append, Doc.survey_text, hcols, survey_insertSource,
    hconf, survey_itemsOf, surveyOf_cons, surveyOf_append, List.nil_append,
    List.append_nil, List.append_assoc]

theorem survey_updateSections (s : Update Child) :
    (updateSections s).flatMap (Section.survey v) = surveyOf v s.children := by
  unfold updateSections Update.children
  simp [Section.survey, List.flatMap_map]

theorem survey_deleteSections (s : Delete Child) :
    (deleteSections s).flatMap (Section.survey v) = surveyOf v s.children := by
  unfold deleteSections Delete.children
  simp [Section.survey]

end Render

/-! ## 4. Notes on a tree -/

/-- What a survey notes on a form itself, apart from its children. -/
def Form.surveyed {ν : Type} (v : Survey α) : Form ν → List α
  | .literal w => v.value w
  | .bind w => v.value w
  | .cast w typeName => v.value w ++ v.bare .type typeName
  | .raw sql binds => v.raw sql binds
  | .comparison _ op _ => v.comparison op
  | .call name _ _ => v.bare .function name
  | _ => []

namespace Render

/-- **The notes on a form are its own, then those on its written children.** -/
theorem survey_formDoc (layout : Layout) {form : Form Child}
    (hq : ∀ c ∈ form.written, (unqualified c).survey v = c.2.survey v) :
    (formDoc layout form).survey v = form.surveyed v ++ surveyOf v form.written := by
  cases form with
  | insert s =>
    show (layout.statement (insertSections s)).survey v = _
    rw [Layout.survey_statement, survey_insertSections hq]
    rfl
  | select s =>
    show (layout.statement (selectSections s)).survey v = _
    rw [Layout.survey_statement, survey_selectSections]
    rfl
  | setOperation s =>
    show (layout.statement (setOperationSections s)).survey v = _
    rw [Layout.survey_statement, survey_setOperationSections]
    rfl
  | update s =>
    show (layout.statement (updateSections s)).survey v = _
    rw [Layout.survey_statement, survey_updateSections]
    rfl
  | delete s =>
    show (layout.statement (deleteSections s)).survey v = _
    rw [Layout.survey_statement, survey_deleteSections]
    rfl
  | membership c values negated =>
    rcases values with _ | ⟨first, _ | ⟨second, rest⟩⟩ <;> cases negated <;>
      simp [formDoc, membership, Form.surveyed, Form.written, surveyOf, List.flatMap_map]
  | groupingSet kind columns sets =>
    cases kind <;>
      simp [formDoc, groupingSet, Form.surveyed, Form.written, List.flatMap_map]
  | aggregate func argument distinct filter =>
    cases argument <;> cases filter <;>
      simp [formDoc, aggregate, Form.surveyed, Form.written, Form.children]
  | choice c branches otherwise =>
    cases c <;> cases otherwise <;>
      simp [formDoc, choice, Form.surveyed, Form.written, Form.children, List.flatMap_map]
  | column relation name typeName =>
    simp only [formDoc, qualified]
    split <;> rfl
  | star relation =>
    simp only [formDoc, qualified]
    split <;> rfl
  | existence query negated =>
    cases negated <;> simp [formDoc, Form.surveyed, Form.written, Form.children]
  | between c low high negated =>
    cases negated <;> simp [formDoc, Form.surveyed, Form.written, Form.children]
  | _ => simp [formDoc, ordering, Form.surveyed, Form.written, Form.children]

/-- Only a column is written in another way without its relation. -/
theorem unqualified_of_ne_column {c : Child}
    (h : ∀ relation name typeName, c.1.form ≠ .column relation name typeName) :
    unqualified c = c.2 := by
  unfold unqualified
  split
  · exact absurd ‹_› (h _ _ _)
  · rfl

end Render

namespace Node

theorem doc_mk (layout : Layout) (form : Form Node) :
    (Node.mk form).doc layout = Render.formDoc layout (form.map (rendered layout)) :=
  fold_mk _ form

theorem survey_unqualified (layout : Layout) (n : Node) :
    (Render.unqualified (n.rendered layout)).survey v = (n.doc layout).survey v := by
  by_cases h : ∃ relation name typeName, n.form = .column relation name typeName
  · obtain ⟨relation, name, typeName, hform⟩ := h
    obtain ⟨form⟩ := n
    obtain rfl : form = .column relation name typeName := hform
    rw [doc_mk]
    show [] = (Render.qualified _ (.name name)).survey v
    unfold Render.qualified
    split <;> rfl
  · exact congrArg _ (Render.unqualified_of_ne_column fun relation name typeName hform =>
      h ⟨relation, name, typeName, hform⟩)

/-- **The notes on the text of a tree are those on its visited nodes**, in the order of the visit
    and whatever the layout. -/
theorem survey_doc (layout : Layout) (n : Node) :
    (n.doc layout).survey v = n.visited.flatMap fun m => m.form.surveyed v := by
  induction n using written_induction with
  | step form ih =>
    have hq : ∀ c ∈ (form.map (rendered layout)).written,
        (Render.unqualified c).survey v = c.2.survey v := by
      intro c hc
      rw [Form.written_map] at hc
      obtain ⟨n, _, rfl⟩ := List.mem_map.mp hc
      exact survey_unqualified layout n
    have hown : (form.map (rendered layout)).surveyed v = form.surveyed v := by
      cases form <;> rfl
    have hbelow : Render.surveyOf v (form.map (rendered layout)).written
        = (form.written.flatMap visited).flatMap fun m => m.form.surveyed v := by
      rw [Form.written_map, Render.surveyOf, List.flatMap_map, List.flatMap_assoc]
      exact List.flatMap_congr ih
    rw [doc_mk, Render.survey_formDoc layout hq, hown, hbelow, visited_mk]
    rfl

end Node
end SqlTree
