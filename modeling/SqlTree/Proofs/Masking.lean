import SqlTree.Proofs.Mention
import SqlTree.Session

/-!
# Trees with other values in place

A masking puts other values where a tree holds values and leaves the rest of the tree as it is.
This file follows a masking from the tree to the SQL text:

* `Masking.node` -- a tree with its values replaced;
* `Masking.doc_node` -- its text is the text of the tree with the values replaced there;
* `Masking.spell_doc` -- with placeholders a masking that keeps nulls is not seen in the
  spelling, and `Masking.fault?_doc` -- no masking is seen in what a text is refused for.
-/

namespace SqlTree

/-- What becomes of the values of a tree: `own` of those in constants, parameters and casts,
    `brought` of those that verbatim SQL brings along. -/
structure Masking where
  own : Value → Value
  brought : Value → Value

namespace Masking

variable {ν μ : Type} (k : Masking)

/-- Every non-null value becomes `v`, and every value of verbatim SQL becomes `w`. -/
def fixed (v w : Value) : Masking := ⟨fun u => if u.isNull then u else v, fun _ => w⟩

/-- The masking makes no null and removes none. -/
def KeepsNulls : Prop := ∀ v, (k.own v).isNull = v.isNull

theorem keepsNulls_fixed {v : Value} (hv : v.isNull = false) (w : Value) :
    (fixed v w).KeepsNulls := by
  intro u
  show (if u.isNull then u else v).isNull = u.isNull
  by_cases hu : u.isNull
  · rw [if_pos hu]
  · rw [if_neg hu, hv, Bool.eq_false_iff.mpr hu]

/-! ## 1. Masked trees -/

/-- The values of one form replaced, its children left. -/
def form : Form ν → Form ν
  | .literal v => .literal (k.own v)
  | .bind v => .bind (k.own v)
  | .cast v typeName => .cast (k.own v) typeName
  | .raw sql binds => .raw sql (binds.map k.brought)
  | form => form

/-- All values of a tree replaced. -/
def node : Node → Node := Node.fold fun form => ⟨k.form (form.map (·.2))⟩

theorem node_mk (form : Form Node) : k.node ⟨form⟩ = ⟨k.form (form.map k.node)⟩ := by
  unfold node
  rw [Node.fold_mk, Form.map_map]

theorem form_node (n : Node) : (k.node n).form = k.form (n.form.map k.node) := by
  obtain ⟨form⟩ := n
  rw [node_mk]
  rfl

theorem written_form (form : Form ν) : (k.form form).written = form.written := by
  cases form <;> rfl

/-- What a node is depends on its form alone, which no masking changes. -/
theorem isQuery_node (n : Node) : (k.node n).isQuery = n.isQuery := by
  unfold Node.isQuery
  rw [form_node]
  cases n.form <;> rfl

theorem relationName?_node (n : Node) : (k.node n).relationName? = n.relationName? := by
  unfold Node.relationName?
  rw [form_node]
  cases n.form <;> rfl

/-! ## 2. Masked texts -/

/-- All values of a text replaced. -/
def doc : Doc → Doc
  | .text s => .text s
  | .name s => .name s
  | .bare rule s => .bare rule s
  | .value v => .value (k.own v)
  | .raw sql binds => .raw sql (binds.map k.brought)
  | .comment mark s => .comment mark s
  | .comparison op left right => .comparison op (doc left) (doc right)
  | .paren body => .paren (doc body)
  | .indented body => .indented (doc body)
  | .append left right => .append (doc left) (doc right)

@[simp] theorem doc_text (s : String) : k.doc (.text s) = .text s := rfl

@[simp] theorem doc_name (s : String) : k.doc (.name s) = .name s := rfl

@[simp] theorem doc_bare (rule : NameRule) (s : String) : k.doc (.bare rule s) = .bare rule s := rfl

@[simp] theorem doc_comment (mark s : String) : k.doc (.comment mark s) = .comment mark s := rfl

@[simp] theorem doc_comparison (op : ComparisonOp) (l r : Doc) :
    k.doc (.comparison op l r) = .comparison op (k.doc l) (k.doc r) := rfl

@[simp] theorem doc_paren (d : Doc) : k.doc (.paren d) = .paren (k.doc d) := rfl

@[simp] theorem doc_indented (d : Doc) : k.doc (.indented d) = .indented (k.doc d) := rfl

@[simp] theorem doc_append (l r : Doc) : k.doc (l ++ r) = k.doc l ++ k.doc r := rfl

@[simp] theorem doc_empty : k.doc Doc.empty = Doc.empty := rfl

@[simp] theorem doc_after (word : String) (d : Option Doc) :
    k.doc (Doc.after word d) = Doc.after word (d.map k.doc) := by
  cases d <;> rfl

theorem doc_join (separator : Doc) :
    ∀ ds : List Doc, k.doc (Doc.join separator ds) = Doc.join (k.doc separator) (ds.map k.doc)
  | [] => rfl
  | [_] => rfl
  | d :: e :: rest => by
    have ih := doc_join separator (e :: rest)
    show k.doc d ++ k.doc separator ++ k.doc (Doc.join separator (e :: rest)) = _
    rw [ih]
    rfl

/-- A choice between two texts is masked by masking both. -/
theorem doc_ite {p : Prop} [Decidable p] (l r : Doc) :
    k.doc (if p then l else r) = if p then k.doc l else k.doc r := apply_ite k.doc p l r

/-! ## 3. Masked sections -/

def part : Section → Section
  | .line text => .line (k.doc text)
  | .items heading separator items => .items (k.doc heading) separator (items.map k.doc)
  | .block body => .block (k.doc body)

theorem doc_lay (layout : Layout) (s : Section) :
    k.doc (layout.lay s) = layout.lay (k.part s) := by
  cases s with
  | line text => rfl
  | block body => cases layout <;> rfl
  | items heading separator items =>
    have hb : k.doc (layout.between separator) = layout.between separator := by
      cases layout <;> cases separator <;> rfl
    have hj := k.doc_join (layout.between separator) items
    rw [hb] at hj
    cases layout with
    | oneLine =>
      show k.doc heading ++ " " ++ k.doc (Doc.join _ items) = _
      rw [hj]
      rfl
    | lines =>
      cases items with
      | nil => rfl
      | cons d rest =>
        show k.doc heading ++ " " ++ k.doc (Doc.join _ (d :: rest)) = _
        rw [hj]
        rfl

/-- **A layout of masked sections is masked.** -/
theorem doc_statement (layout : Layout) (sections : List Section) :
    k.doc (layout.statement sections) = layout.statement (sections.map k.part) := by
  unfold Layout.statement
  rw [doc_join, List.map_map, List.map_map]
  congr 1
  · cases layout <;> rfl
  · exact List.map_congr_left fun s _ => k.doc_lay layout s

/-! ## 4. Masked clauses -/

/-- A child masked: the node and its text alike. -/
def child (c : Render.Child) : Render.Child := (k.node c.1, k.doc c.2)

open Render

@[simp] theorem child_snd (c : Child) : (k.child c).2 = k.doc c.2 := rfl

theorem child_form (c : Child) : (k.child c).1.form = k.form (c.1.form.map k.node) :=
  k.form_node c.1

/-- Texts of children with something around each, masked child by child. -/
theorem map_doc_map {κ : Type} {write : κ → Doc} {mask : κ → κ}
    (h : ∀ c, k.doc (write c) = write (mask c)) (l : List κ) :
    (l.map write).map k.doc = (l.map mask).map write := by
  rw [List.map_map, List.map_map]
  exact List.map_congr_left fun c _ => h c

@[simp] theorem doc_operand (c : Child) : k.doc (operand c) = operand (k.child c) := by
  unfold operand
  rw [doc_ite, doc_paren]
  show _ = if (k.node c.1).isQuery then _ else _
  rw [isQuery_node]
  rfl

@[simp] theorem doc_arithmeticOperand (c : Child) :
    k.doc (arithmeticOperand c) = arithmeticOperand (k.child c) := by
  have ho := k.doc_operand c
  unfold arithmeticOperand
  rw [child_form, ← ho]
  cases c.1.form <;> rfl

@[simp] theorem doc_unqualified (c : Child) :
    k.doc (unqualified c) = unqualified (k.child c) := by
  unfold unqualified
  rw [child_form]
  cases c.1.form <;> rfl

@[simp] theorem doc_keyword (present : Bool) (word : String) :
    k.doc (keyword present word) = keyword present word := by
  cases present <;> rfl

@[simp] theorem doc_commas (ds : List Doc) : k.doc (commas ds) = commas (ds.map k.doc) :=
  k.doc_join (.text ", ") ds

@[simp] theorem doc_list (children : List Child) :
    k.doc (list children) = list (children.map k.child) := by
  unfold list
  rw [doc_commas, map_doc_map k fun c => (k.child_snd c).symm]

@[simp] theorem doc_conjunction (children : List Child) :
    k.doc (conjunction children) = conjunction (children.map k.child) := by
  unfold conjunction
  rw [doc_join, map_doc_map k fun c => (k.child_snd c).symm]
  rfl

@[simp] theorem doc_columnList (columns : List Child) :
    k.doc (columnList columns) = columnList (columns.map k.child) := by
  unfold columnList
  rw [doc_paren, doc_commas, map_doc_map k k.doc_unqualified]

@[simp] theorem doc_valuesRow (row : List Child) :
    k.doc (valuesRow row) = valuesRow (row.map k.child) := by
  unfold valuesRow
  rw [doc_paren, doc_commas, map_doc_map k k.doc_operand]

@[simp] theorem doc_bound (b : Bound Child) : k.doc (bound b) = bound (b.map k.child) := by
  cases b <;> rfl

@[simp] theorem doc_frame (f : Frame Child) : k.doc (frame f) = frame (f.map k.child) := by
  obtain ⟨unit, start, stop⟩ := f
  cases stop <;> simp [frame, Frame.map]

@[simp] theorem doc_windowBody (w : Window Child) :
    k.doc (windowBody w) = windowBody (w.map k.child) := by
  obtain ⟨name, partition, order, fr⟩ := w
  unfold windowBody
  rw [doc_join]
  cases partition <;> cases order <;> cases fr <;> simp [Window.map]

@[simp] theorem doc_window (w : Window Child) : k.doc (window w) = window (w.map k.child) := by
  obtain ⟨name, partition, order, fr⟩ := w
  cases name <;> simp [window, Window.map]

@[simp] theorem doc_windowRef (w : WindowRef Child) :
    k.doc (windowRef w) = windowRef (w.map k.child) := by
  cases w <;> simp [windowRef, WindowRef.map]

@[simp] theorem doc_branch (b : Branch Child) : k.doc (branch b) = branch (b.map k.child) := by
  simp [branch, Branch.map]

@[simp] theorem doc_assignment (a : Assignment Child) :
    k.doc (assignment a) = assignment (a.map k.child) := by
  simp [assignment, Assignment.map]

@[simp] theorem doc_joined (j : Join Child) : k.doc (join j) = join (j.map k.child) := by
  obtain ⟨kind, right, predicate, lateral⟩ := j
  cases kind <;> cases predicate <;> simp [join, Join.map]

@[simp] theorem doc_cte (c : Cte Child) : k.doc (cte c) = cte (c.map k.child) := by
  have hn : (c.columns.map Doc.name).map k.doc = c.columns.map Doc.name := by
    rw [List.map_map]
    rfl
  unfold cte
  simp only [doc_append, doc_name, doc_text, doc_paren, doc_ite, doc_empty, doc_commas, hn]
  rfl

theorem withClause?_map (ctes : List (Cte Child)) :
    (withClause? ctes).map k.doc = withClause? (ctes.map (Cte.map k.child)) := by
  have hr : (ctes.map (Cte.map k.child)).any (·.recursive) = ctes.any (·.recursive) := by
    rw [List.any_map]
    rfl
  unfold withClause?
  rw [List.isEmpty_map, hr]
  by_cases he : ctes.isEmpty
  · rw [if_pos he, if_pos he]
    rfl
  · rw [if_neg he, if_neg he]
    show some (k.doc (_ ++ commas (ctes.map cte))) = _
    rw [doc_append, doc_commas, map_doc_map k k.doc_cte]
    rfl

@[simp] theorem doc_onConflict (c : OnConflict Child) :
    k.doc (onConflict c) = onConflict (c.map k.child) := by
  obtain ⟨columns, action⟩ := c
  have ha : ∀ l : List (Assignment Child),
      (l.map assignment).map k.doc = (l.map (Assignment.map k.child)).map assignment :=
    map_doc_map k k.doc_assignment
  unfold onConflict
  cases action with
  | doNothing => simp [OnConflict.map, ConflictAction.map, doc_ite]
  | doUpdate assignments wheres =>
    simp only [OnConflict.map, ConflictAction.map, doc_append, doc_text, doc_ite, doc_empty,
      doc_columnList, doc_commas, doc_conjunction, List.isEmpty_map, ha]

/-! ## 5. Masked statements -/

@[simp] theorem map_part_itemsOf (heading : String) (separator : Separator)
    (children : List Child) :
    (itemsOf heading separator children).map k.part
      = itemsOf heading separator (children.map k.child) := by
  cases children with
  | nil => rfl
  | cons c rest =>
    show [Section.items (.text heading) separator (k.doc c.2 :: (rest.map (·.2)).map k.doc)] = _
    rw [map_doc_map k fun c => (k.child_snd c).symm]
    rfl

@[simp] theorem map_part_lineOf (heading : String) (d : Option Doc) :
    (lineOf heading d).map k.part = lineOf heading (d.map k.doc) := by
  cases d <;> rfl

@[simp] theorem map_part_optionalLine (d : Option Doc) :
    ((d.map Section.line).toList).map k.part = ((d.map k.doc).map Section.line).toList := by
  cases d <;> rfl

@[simp] theorem map_doc_snd (c : Option Child) :
    (c.map (·.2)).map k.doc = (c.map k.child).map (·.2) := by
  cases c <;> rfl

@[simp] theorem map_doc_operand (c : Option Child) :
    (c.map operand).map k.doc = (c.map k.child).map operand := by
  cases c <;> simp

@[simp] theorem doc_selectHead (s : Select Child) :
    k.doc (selectHead s) = selectHead (s.map k.child) := by
  unfold selectHead Select.map
  cases s.distinctOn <;> simp [doc_ite]

theorem map_doc_lockClause? (s : Select Child) :
    (lockClause? s).map k.doc = lockClause? (s.map k.child) := by
  unfold lockClause? Select.map
  cases s.lock <;> simp

theorem map_part_selectSections (s : Select Child) :
    (selectSections s).map k.part = selectSections (s.map k.child) := by
  have hcomment : ((s.comment.map fun text => Section.line (.comment "/*" text)).toList).map k.part
      = (s.comment.map fun text => Section.line (.comment "/*" text)).toList := by
    cases s.comment <;> rfl
  have hjoins : (s.joins.map fun j => Section.line (join j)).map k.part
      = (s.joins.map (Join.map k.child)).map fun j => Section.line (join j) := by
    rw [List.map_map, List.map_map]
    exact List.map_congr_left fun j _ => congrArg Section.line (k.doc_joined j)
  have hprojections : k.part (if s.projections.isEmpty then .line (selectHead s ++ " *")
        else .items (selectHead s) .comma (s.projections.map (·.2)))
      = if (s.projections.map k.child).isEmpty then .line (selectHead (s.map k.child) ++ " *")
        else .items (selectHead (s.map k.child)) .comma
          ((s.projections.map k.child).map (·.2)) := by
    rw [List.isEmpty_map]
    by_cases he : s.projections.isEmpty
    · rw [if_pos he, if_pos he, ← doc_selectHead]
      rfl
    · rw [if_neg he, if_neg he, ← doc_selectHead, ← map_doc_map k fun c => (k.child_snd c).symm]
      rfl
  have hwindows : (if s.windows.isEmpty then []
        else [Section.items "WINDOW" .comma (s.windows.map window)]).map k.part
      = if (s.windows.map (Window.map k.child)).isEmpty then []
        else [Section.items "WINDOW" .comma
          ((s.windows.map (Window.map k.child)).map window)] := by
    rw [List.isEmpty_map, ← map_doc_map k k.doc_window]
    by_cases he : s.windows.isEmpty
    · rw [if_pos he, if_pos he]
      rfl
    · rw [if_neg he, if_neg he]
      rfl
  unfold selectSections
  simp only [List.map_append, List.map_cons, List.map_nil, map_part_optionalLine, hcomment,
    hprojections, map_part_lineOf, map_doc_operand, map_doc_snd, hjoins, map_part_itemsOf,
    hwindows, withClause?_map, map_doc_lockClause?]
  rfl

theorem map_part_setOperationSections (s : SetOperation Child) :
    (setOperationSections s).map k.part = setOperationSections (s.map k.child) := by
  unfold setOperationSections
  simp only [List.map_append, map_part_itemsOf, map_part_lineOf, map_doc_snd]
  rfl

theorem part_insertSource (s : Insert Child) :
    k.part (insertSource s) = insertSource (s.map k.child) := by
  obtain ⟨target, columns, rows, select, returning, conflict⟩ := s
  cases select with
  | some query => rfl
  | none =>
    have hr : (rows.map valuesRow).map k.doc = (rows.map (List.map k.child)).map valuesRow :=
      map_doc_map k k.doc_valuesRow rows
    cases rows with
    | nil => rfl
    | cons row rest =>
      show Section.items (.text "VALUES") .comma (((row :: rest).map valuesRow).map k.doc) = _
      rw [hr]
      rfl

theorem map_part_insertSections (s : Insert Child) :
    (insertSections s).map k.part = insertSections (s.map k.child) := by
  have hconflict : ((s.onConflict.map fun c => Section.line (onConflict c)).toList).map k.part
      = ((s.onConflict.map (OnConflict.map k.child)).map
          fun c => Section.line (onConflict c)).toList := by
    cases s.onConflict with
    | none => rfl
    | some c => exact congrArg (fun d => [Section.line d]) (k.doc_onConflict c)
  have hhead : k.part (.line ("INSERT INTO " ++ s.target.2
        ++ if s.columns.isEmpty then Doc.empty else " " ++ columnList s.columns))
      = .line ("INSERT INTO " ++ k.doc s.target.2
        ++ if (s.columns.map k.child).isEmpty then Doc.empty
          else " " ++ columnList (s.columns.map k.child)) := by
    show Section.line (k.doc _) = _
    simp only [doc_append, doc_text, doc_ite, doc_empty, doc_columnList, List.isEmpty_map]
  unfold insertSections
  simp only [List.map_append, List.map_cons, List.map_nil, map_part_itemsOf, hconflict,
    part_insertSource]
  rw [hhead]
  rfl

theorem map_part_updateSections (s : Update Child) :
    (updateSections s).map k.part = updateSections (s.map k.child) := by
  have hset : k.part (.items "SET" .comma (s.assignments.map assignment))
      = .items "SET" .comma ((s.assignments.map (Assignment.map k.child)).map assignment) := by
    rw [← map_doc_map k k.doc_assignment]
    rfl
  unfold updateSections
  simp only [List.map_append, List.map_cons, List.map_nil, map_part_itemsOf, hset]
  rfl

theorem map_part_deleteSections (s : Delete Child) :
    (deleteSections s).map k.part = deleteSections (s.map k.child) := by
  unfold deleteSections
  simp only [List.map_append, map_part_itemsOf]
  rfl

/-! ## 6. The text of a masked tree -/

/-- **The text of a form is masked by masking the form and its children.** -/
theorem doc_formDoc (layout : Layout) (f : Form Child) :
    k.doc (formDoc layout f) = formDoc layout (k.form (f.map k.child)) := by
  cases f with
  | select s =>
    show k.doc (layout.statement (selectSections s)) = _
    rw [doc_statement, map_part_selectSections]
    rfl
  | setOperation s =>
    show k.doc (layout.statement (setOperationSections s)) = _
    rw [doc_statement, map_part_setOperationSections]
    rfl
  | insert s =>
    show k.doc (layout.statement (insertSections s)) = _
    rw [doc_statement, map_part_insertSections]
    rfl
  | update s =>
    show k.doc (layout.statement (updateSections s)) = _
    rw [doc_statement, map_part_updateSections]
    rfl
  | delete s =>
    show k.doc (layout.statement (deleteSections s)) = _
    rw [doc_statement, map_part_deleteSections]
    rfl
  | column relation name typeName =>
    show k.doc (qualified relation.1.relationName? (.name name))
      = qualified (k.node relation.1).relationName? (.name name)
    rw [relationName?_node]
    cases relation.1.relationName? <;> rfl
  | star relation =>
    cases relation with
    | none => rfl
    | some r =>
      show k.doc (qualified r.1.relationName? "*") = qualified (k.node r.1).relationName? "*"
      rw [relationName?_node]
      cases r.1.relationName? <;> rfl
  | membership c values negated =>
    rcases values with _ | ⟨v, _ | ⟨w, rest⟩⟩ <;> cases negated <;>
      simp [formDoc, membership, form, Form.map, Function.comp_def]
  | aggregate func argument distinct filter =>
    cases argument <;> cases filter <;> simp [formDoc, aggregate, form, Form.map]
  | choice c branches otherwise =>
    have hb : (branches.map branch).map k.doc = (branches.map (Branch.map k.child)).map branch :=
      map_doc_map k k.doc_branch branches
    simp only [formDoc, choice, form, Form.map, doc_append, doc_text, doc_after, doc_join,
      doc_empty, map_doc_operand, hb]
  | groupingSet kind columns sets =>
    have hs : (sets.map fun set => Doc.paren (list set)).map k.doc
        = (sets.map (List.map k.child)).map fun set => Doc.paren (list set) :=
      map_doc_map k (fun set => by rw [doc_paren, doc_list]) sets
    cases kind <;> simp only [formDoc, groupingSet, form, Form.map, doc_append, doc_text,
      doc_paren, doc_commas, doc_list, hs]
  | between c low high negated => cases negated <;> simp [formDoc, form, Form.map]
  | existence query negated => cases negated <;> simp [formDoc, form, Form.map]
  | literal v => rfl
  | bind v => rfl
  | cast v typeName => rfl
  | raw sql binds => rfl
  | _ => simp [formDoc, ordering, form, Form.map]

/-- **The text of a masked tree is the masked text of the tree.** -/
theorem doc_node (layout : Layout) (n : Node) : (k.node n).doc layout = k.doc (n.doc layout) := by
  induction n using Node.children_induction with
  | step f ih =>
    have hchildren : (f.map k.node).map (Node.rendered layout)
        = (f.map (Node.rendered layout)).map k.child := by
      rw [Form.map_map, Form.map_map]
      exact Form.map_congr fun c hc => Prod.ext rfl (ih c hc)
    have hown : (k.form (f.map k.node)).map (Node.rendered layout)
        = k.form ((f.map k.node).map (Node.rendered layout)) := by
      cases f <;> rfl
    rw [node_mk, Node.doc_mk, Node.doc_mk, hown, hchildren, doc_formDoc]

/-! ## 7. What a masking cannot change -/

/-- A masking that keeps nulls leaves the number of values that a text binds. -/
theorem slots_doc {k : Masking} (hk : k.KeepsNulls) (d : Doc) : (k.doc d).slots = d.slots := by
  unfold Doc.slots
  induction d with
  | value v =>
    show (if (k.own v).isNull then [] else [k.own v]).length = (if v.isNull then [] else [v]).length
    rw [hk v]
    split <;> rfl
  | raw sql binds => exact List.length_map _
  | comparison op l r ihl ihr =>
    show ((k.doc l).bindings ++ (k.doc r).bindings).length = (l.bindings ++ r.bindings).length
    rw [List.length_append, List.length_append, ihl, ihr]
  | append l r ihl ihr =>
    show ((k.doc l).bindings ++ (k.doc r).bindings).length = (l.bindings ++ r.bindings).length
    rw [List.length_append, List.length_append, ihl, ihr]
  | paren body ih => exact ih
  | indented body ih => exact ih
  | _ => rfl

/-- **With placeholders no spelling shows a value**: a masking that keeps nulls leaves it. -/
theorem spell_doc {k : Masking} (hk : k.KeepsNulls) {how : Spelling}
    (hp : how.parameterise = true) (d : Doc) :
    ∀ bound : Nat, how.spell (k.doc d) bound = how.spell d bound := by
  induction d with
  | value v =>
    intro bound
    show how.value (k.own v) bound = how.value v bound
    unfold Spelling.value
    rw [hk v, hp]
    rfl
  | comparison op l r ihl ihr =>
    intro bound
    show how.dialect.compare op (how.spell (k.doc l) bound)
      (how.spell (k.doc r) (bound + (k.doc l).slots)) = _
    rw [slots_doc hk, ihl, ihr]
    rfl
  | append l r ihl ihr =>
    intro bound
    show how.spell (k.doc l) bound ++ how.spell (k.doc r) (bound + (k.doc l).slots) = _
    rw [slots_doc hk, ihl, ihr]
    rfl
  | paren body ih =>
    intro bound
    show "(" ++ how.spell (k.doc body) bound ++ ")" = _
    rw [ih]
    rfl
  | indented body ih =>
    intro bound
    show Text.indent (how.spell (k.doc body) bound) = _
    rw [ih]
    rfl
  | _ => exact fun _ => rfl

/-- What a text is refused for is a name, so no masking changes it. -/
theorem fault?_doc (d : Doc) : (k.doc d).fault? = d.fault? := by
  induction d with
  | comparison op l r ihl ihr =>
    show (k.doc l).fault?.or (k.doc r).fault? = l.fault?.or r.fault?
    rw [ihl, ihr]
  | append l r ihl ihr =>
    show (k.doc l).fault?.or (k.doc r).fault? = l.fault?.or r.fault?
    rw [ihl, ihr]
  | paren body ih => exact ih
  | indented body ih => exact ih
  | _ => rfl

end Masking
end SqlTree
