import SqlTree.Proofs.Comments

/-!
# The comments of a rendering

Comments and hints come from SELECTs, and nothing else that is written is read as a comment. So
what is true of the comments and hints of the SELECTs in a tree is true of every comment that a
database reads in its text. A WITH clause stands before the comment of its SELECT: the comments of
a text are not in the order of a visit, as the notes of a survey are, so this is about each of them.

* `Doc.Remarked` -- all comments in a text are of some kind;
* `Render.remarked_formDoc` -- those of a form are if its own are and those of its written
  children are;
* `Node.remarked_doc_iff` -- those of a tree are if and only if those of its visited SELECTs are;
* `Token.Remarked`, `Doc.Spaced.reported` -- the comments among the tokens of a text are its
  comments;
* `Node.remarked_lex_iff` -- so the comments that are read in a rendering are those of its SELECTs.
-/

namespace SqlTree

variable {P : String → String → Prop}

/-! ## 1. Comments in a text -/

namespace Doc

/-- All comments in a text, with their opening marks, are of some kind. -/
def Remarked (P : String → String → Prop) : Doc → Prop
  | .comment mark s => P mark s
  | .comparison _ left right => Remarked P left ∧ Remarked P right
  | .paren body => Remarked P body
  | .indented body => Remarked P body
  | .append left right => Remarked P left ∧ Remarked P right
  | _ => True

@[simp] theorem remarked_text (s : String) : (Doc.text s).Remarked P := trivial

@[simp] theorem remarked_name (s : String) : (Doc.name s).Remarked P := trivial

@[simp] theorem remarked_bare (rule : NameRule) (s : String) : (Doc.bare rule s).Remarked P :=
  trivial

@[simp] theorem remarked_value (v : Value) : (Doc.value v).Remarked P := trivial

@[simp] theorem remarked_raw (sql : String) (binds : List Value) : (Doc.raw sql binds).Remarked P :=
  trivial

@[simp] theorem remarked_comment (mark s : String) :
    (Doc.comment mark s).Remarked P ↔ P mark s := Iff.rfl

@[simp] theorem remarked_comparison (op : ComparisonOp) (l r : Doc) :
    (Doc.comparison op l r).Remarked P ↔ l.Remarked P ∧ r.Remarked P := Iff.rfl

@[simp] theorem remarked_paren (d : Doc) : (Doc.paren d).Remarked P ↔ d.Remarked P := Iff.rfl

@[simp] theorem remarked_indented (d : Doc) : (Doc.indented d).Remarked P ↔ d.Remarked P := Iff.rfl

@[simp] theorem remarked_append (l r : Doc) :
    (l ++ r).Remarked P ↔ l.Remarked P ∧ r.Remarked P := Iff.rfl

@[simp] theorem remarked_empty : Doc.empty.Remarked P := trivial

@[simp] theorem remarked_after (word : String) (d : Option Doc) :
    (Doc.after word d).Remarked P ↔ ∀ c ∈ d, c.Remarked P := by
  cases d <;> simp [after]

theorem remarked_join {separator : Doc} (hs : separator.Remarked P) :
    ∀ ds : List Doc, (Doc.join separator ds).Remarked P ↔ ∀ d ∈ ds, d.Remarked P
  | [] => by simp [join]
  | [d] => by simp [join]
  | d :: e :: rest => by
    have ih := remarked_join hs (e :: rest)
    show (d.Remarked P ∧ separator.Remarked P) ∧ (Doc.join separator (e :: rest)).Remarked P ↔ _
    rw [ih, and_iff_left hs]
    exact List.forall_mem_cons.symm

@[simp] theorem remarked_join_text (s : String) (ds : List Doc) :
    (Doc.join (.text s) ds).Remarked P ↔ ∀ d ∈ ds, d.Remarked P :=
  remarked_join (remarked_text s) ds

@[simp] theorem remarked_join_empty (ds : List Doc) :
    (Doc.join Doc.empty ds).Remarked P ↔ ∀ d ∈ ds, d.Remarked P := remarked_join remarked_empty ds

/-- A comment that stands in a text is one of its comments. -/
theorem Behind.remarked {mark s : String} {k : Nat} {d : Doc}
    (h : Behind (.comment mark s) k d) (hd : d.Remarked P) : P mark s := by
  induction h with
  | here => exact hd
  | left _ ih => exact ih hd.1
  | right _ ih => exact ih hd.2
  | comparisonLeft _ ih => exact ih hd.1
  | comparisonRight _ ih => exact ih hd.2
  | paren _ ih => exact ih hd
  | indented _ ih => exact ih hd

end Doc

def Section.Remarked (P : String → String → Prop) : Section → Prop
  | .line text => text.Remarked P
  | .items heading _ list => heading.Remarked P ∧ ∀ d ∈ list, d.Remarked P
  | .block body => body.Remarked P

@[simp] theorem Section.remarked_line (d : Doc) : (Section.line d).Remarked P ↔ d.Remarked P :=
  Iff.rfl

@[simp] theorem Section.remarked_block (d : Doc) : (Section.block d).Remarked P ↔ d.Remarked P :=
  Iff.rfl

@[simp] theorem Section.remarked_items (heading : Doc) (separator : Separator) (list : List Doc) :
    (Section.items heading separator list).Remarked P
      ↔ heading.Remarked P ∧ ∀ d ∈ list, d.Remarked P := Iff.rfl

namespace Layout

theorem remarked_lay (layout : Layout) (s : Section) :
    (layout.lay s).Remarked P ↔ s.Remarked P := by
  cases s with
  | line text => exact Iff.rfl
  | block body => cases layout <;> simp [lay]
  | items heading separator items =>
    have hbetween : (layout.between separator).Remarked P := by
      cases layout <;> cases separator <;> trivial
    have hjoin := Doc.remarked_join hbetween items
    cases layout with
    | oneLine => simp [lay, hjoin]
    | lines => cases items <;> simp_all [lay]

/-- **The comments of a statement are those of its sections.** -/
@[simp] theorem remarked_statement (layout : Layout) (sections : List Section) :
    (layout.statement sections).Remarked P ↔ ∀ s ∈ sections, s.Remarked P := by
  unfold statement
  rw [Doc.remarked_join (by cases layout <;> trivial), List.forall_mem_map]
  exact forall₂_congr fun s _ => layout.remarked_lay s

end Layout

/-! ## 2. Clauses -/

namespace Render

/-- All comments in the texts of these children are of some kind. -/
def AllRemarked (P : String → String → Prop) (children : List Child) : Prop :=
  ∀ c ∈ children, c.2.Remarked P

@[simp] theorem allRemarked_nil : AllRemarked P [] := List.forall_mem_nil _

@[simp] theorem allRemarked_cons (c : Child) (rest : List Child) :
    AllRemarked P (c :: rest) ↔ c.2.Remarked P ∧ AllRemarked P rest := List.forall_mem_cons

@[simp] theorem allRemarked_append (l r : List Child) :
    AllRemarked P (l ++ r) ↔ AllRemarked P l ∧ AllRemarked P r := List.forall_mem_append

/-- The children of several clauses. -/
@[simp] theorem allRemarked_flatMap {κ : Type} (f : κ → List Child) (l : List κ) :
    AllRemarked P (l.flatMap f) ↔ ∀ k ∈ l, AllRemarked P (f k) := List.forall_mem_flatMap

@[simp] theorem allRemarked_flatten (rows : List (List Child)) :
    AllRemarked P rows.flatten ↔ ∀ row ∈ rows, AllRemarked P row := by
  rw [← List.flatMap_id]
  exact List.forall_mem_flatMap

/-- Children that are each written with their own comments only. -/
theorem remarked_map {children : List Child} {write : Child → Doc}
    (h : ∀ c, (write c).Remarked P ↔ c.2.Remarked P) :
    (∀ d ∈ children.map write, d.Remarked P) ↔ AllRemarked P children := by
  rw [List.forall_mem_map]
  exact forall₂_congr fun c _ => h c

@[simp] theorem remarked_operand (c : Child) : (operand c).Remarked P ↔ c.2.Remarked P := by
  unfold operand
  split <;> rfl

@[simp] theorem remarked_arithmeticOperand (c : Child) :
    (arithmeticOperand c).Remarked P ↔ c.2.Remarked P := by
  unfold arithmeticOperand
  split
  · rfl
  · rfl
  · exact remarked_operand c

@[simp] theorem remarked_keyword (present : Bool) (word : String) :
    (keyword present word).Remarked P := by
  cases present <;> trivial

@[simp] theorem remarked_commas (ds : List Doc) :
    (commas ds).Remarked P ↔ ∀ d ∈ ds, d.Remarked P := Doc.remarked_join_text _ ds

@[simp] theorem remarked_list (children : List Child) :
    (list children).Remarked P ↔ AllRemarked P children :=
  (remarked_commas _).trans (remarked_map fun _ => Iff.rfl)

@[simp] theorem remarked_conjunction (children : List Child) :
    (conjunction children).Remarked P ↔ AllRemarked P children :=
  (Doc.remarked_join_text _ _).trans (remarked_map fun _ => Iff.rfl)

@[simp] theorem remarked_operands (children : List Child) :
    (commas (children.map operand)).Remarked P ↔ AllRemarked P children :=
  (remarked_commas _).trans (remarked_map remarked_operand)

theorem remarked_columnList {columns : List Child} (h : AllRemarked P columns) :
    (columnList columns).Remarked P := by
  rw [columnList, Doc.remarked_paren, remarked_commas, List.forall_mem_map]
  intro c hc
  unfold unqualified
  split
  · exact Doc.remarked_name _
  · exact h c hc

@[simp] theorem remarked_bound (b : Bound Child) :
    (bound b).Remarked P ↔ AllRemarked P b.children := by
  cases b <;> simp [bound, Bound.offset?, Bound.children]

@[simp] theorem remarked_frame (f : Frame Child) :
    (frame f).Remarked P ↔ AllRemarked P f.children := by
  obtain ⟨unit, start, stop⟩ := f
  cases stop <;> simp [frame, Frame.children]

@[simp] theorem remarked_windowBody (w : Window Child) :
    (windowBody w).Remarked P ↔ AllRemarked P w.children := by
  obtain ⟨name, partition, order, fr⟩ := w
  unfold windowBody Window.children
  rw [Doc.remarked_join_text]
  cases partition <;> cases order <;> cases fr <;> simp [and_assoc]

@[simp] theorem remarked_window (w : Window Child) :
    (window w).Remarked P ↔ AllRemarked P w.children := by
  unfold window
  split <;> simp

@[simp] theorem remarked_windowRef (w : WindowRef Child) :
    (windowRef w).Remarked P ↔ AllRemarked P w.children := by
  cases w <;> simp [windowRef, WindowRef.children]

@[simp] theorem remarked_branch (b : Branch Child) :
    (branch b).Remarked P ↔ AllRemarked P b.children := by
  simp [branch, Branch.children]

@[simp] theorem remarked_assignment (a : Assignment Child) :
    (assignment a).Remarked P ↔ AllRemarked P a.children := by
  simp [assignment, Assignment.children]

@[simp] theorem remarked_joined (j : Join Child) :
    (join j).Remarked P ↔ AllRemarked P j.written := by
  obtain ⟨kind, right, predicate, lateral⟩ := j
  cases kind <;> cases predicate <;> simp [join, Join.written, Join.children]

@[simp] theorem remarked_cte (c : Cte Child) : (cte c).Remarked P ↔ c.query.2.Remarked P := by
  unfold cte
  split <;> simp

theorem remarked_onConflict {c : OnConflict Child} (h : AllRemarked P c.children) :
    (onConflict c).Remarked P := by
  obtain ⟨columns, action⟩ := c
  obtain ⟨hcolumns, haction⟩ := (allRemarked_append _ _).mp h
  have hlist := remarked_columnList hcolumns
  cases action with
  | doNothing => cases columns <;> simp [onConflict, hlist]
  | doUpdate assignments wheres =>
    simp only [ConflictAction.children, allRemarked_append, allRemarked_flatMap] at haction
    cases columns <;> cases wheres <;> simp_all [onConflict]

/-! ## 3. Statements -/

@[simp] theorem remarked_itemsOf (heading : String) (separator : Separator)
    (children : List Child) :
    (∀ s ∈ itemsOf heading separator children, s.Remarked P) ↔ AllRemarked P children := by
  cases children with
  | nil => simp [itemsOf]
  | cons c rest =>
    have hitems : ∀ d ∈ [Section.items heading separator ((c :: rest).map (·.2))],
        d.Remarked P ↔ AllRemarked P (c :: rest) := by
      intro d hd
      rw [List.mem_singleton.mp hd]
      exact (and_iff_right (Doc.remarked_text heading)).trans (remarked_map fun _ => Iff.rfl)
    exact List.forall_mem_singleton.trans (hitems _ List.mem_cons_self)

@[simp] theorem remarked_lineOf (heading : String) (d : Option Doc) :
    (∀ s ∈ lineOf heading d, s.Remarked P) ↔ ∀ c ∈ d, c.Remarked P := by
  cases d <;> simp [lineOf]

@[simp] theorem remarked_optionalLine (d : Option Doc) :
    (∀ s ∈ (d.map Section.line).toList, s.Remarked P) ↔ ∀ c ∈ d, c.Remarked P := by
  cases d <;> simp

@[simp] theorem remarked_optional (d : Option Child) :
    (∀ c ∈ d.map (·.2), c.Remarked P) ↔ AllRemarked P d.toList := by
  cases d <;> simp

@[simp] theorem remarked_optionalOperand (d : Option Child) :
    (∀ c ∈ d.map operand, c.Remarked P) ↔ AllRemarked P d.toList := by
  cases d <;> simp

theorem remarked_withClause? {ctes : List (Cte Child)}
    (h : AllRemarked P (ctes.map (·.query))) : ∀ d ∈ withClause? ctes, d.Remarked P := by
  have hctes : ∀ d ∈ ctes.map cte, d.Remarked P := by
    rw [List.forall_mem_map]
    exact fun c hc => (remarked_cte c).mpr (h _ (List.mem_map_of_mem hc))
  intro d hd
  unfold withClause? at hd
  split at hd
  · cases hd
  · obtain rfl := Option.mem_some.mp hd
    simpa using hctes

theorem remarked_lockClause? (s : Select Child) : ∀ d ∈ lockClause? s, d.Remarked P := by
  unfold lockClause?
  cases s.lock <;> simp

/-- **The comments of a SELECT are its own** and those of its written children. -/
theorem remarked_selectSections {s : Select Child} (hblocks : ∀ b ∈ s.blocks, P b.1 b.2)
    (h : AllRemarked P s.written) : ∀ sec ∈ selectSections s, sec.Remarked P := by
  simp only [Select.written, allRemarked_append, allRemarked_flatMap] at h
  obtain ⟨⟨⟨⟨⟨⟨⟨⟨⟨⟨⟨hctes, hdistinct⟩, hprojections⟩, hsource⟩, hjoins⟩, hwheres⟩, hgroups⟩,
    hhavings⟩, hwindows⟩, horders⟩, hlimit⟩, hoffset⟩ := h
  simp only [Select.blocks, List.forall_mem_append] at hblocks
  obtain ⟨hcomment, hhints⟩ := hblocks
  have hremark : ∀ sec ∈ (s.comment.map fun text => Section.line (.comment "/*" text)).toList,
      sec.Remarked P := by
    cases hc : s.comment <;> simp_all
  have hhead : (selectHead s).Remarked P := by
    unfold selectHead
    cases hh : s.hints.isEmpty <;> cases hd : s.distinctOn <;> simp_all
  have hprojection : (if s.projections.isEmpty then Section.line (selectHead s ++ " *")
      else .items (selectHead s) .comma (s.projections.map (·.2))).Remarked P := by
    split
    · exact ⟨hhead, Doc.remarked_text " *"⟩
    · exact ⟨hhead, (remarked_map fun _ => Iff.rfl).mpr hprojections⟩
  have hjoined : ∀ sec ∈ s.joins.map (fun j => Section.line (join j)), sec.Remarked P := by
    rw [List.forall_mem_map]
    exact fun j hj => (remarked_joined j).mpr (hjoins j hj)
  have hwindow : ∀ sec ∈ (if s.windows.isEmpty then []
      else [Section.items "WINDOW" .comma (s.windows.map window)]), sec.Remarked P := by
    split
    · exact List.forall_mem_nil _
    · refine List.forall_mem_singleton.mpr ⟨Doc.remarked_text _, ?_⟩
      rw [List.forall_mem_map]
      exact fun w hw => (remarked_window w).mpr (hwindows w hw)
  unfold selectSections
  simp only [List.forall_mem_append, List.forall_mem_singleton, remarked_optionalLine,
    remarked_lineOf, remarked_itemsOf, remarked_optional, remarked_optionalOperand]
  exact ⟨⟨⟨⟨⟨⟨⟨⟨⟨⟨⟨⟨remarked_withClause? hctes, hremark⟩, hprojection⟩, hsource⟩, hjoined⟩,
    hwheres⟩, hgroups⟩, hhavings⟩, hwindow⟩, horders⟩, hlimit⟩, hoffset⟩, remarked_lockClause? s⟩

theorem remarked_setOperationSections {s : SetOperation Child} (h : AllRemarked P s.children) :
    ∀ sec ∈ setOperationSections s, sec.Remarked P := by
  simp only [SetOperation.children, allRemarked_cons, allRemarked_append] at h
  obtain ⟨hleft, hright, ⟨horders, hlimit⟩, hoffset⟩ := h
  unfold setOperationSections
  simp only [List.forall_mem_append, List.forall_mem_cons, remarked_itemsOf, remarked_lineOf,
    remarked_optional]
  exact ⟨⟨⟨⟨hleft, trivial, hright, List.forall_mem_nil _⟩, horders⟩, hlimit⟩, hoffset⟩

theorem remarked_insertSections {s : Insert Child} (h : AllRemarked P s.written) :
    ∀ sec ∈ insertSections s, sec.Remarked P := by
  simp only [Insert.written, allRemarked_cons, allRemarked_append, allRemarked_flatMap] at h
  obtain ⟨htarget, ⟨⟨hcolumns, hsource⟩, hconflict⟩, hreturning⟩ := h
  have hlist : (if s.columns.isEmpty then Doc.empty
      else " " ++ columnList s.columns).Remarked P := by
    split
    · exact Doc.remarked_empty
    · exact ⟨Doc.remarked_text " ", remarked_columnList hcolumns⟩
  have hrows : (insertSource s).Remarked P := by
    unfold insertSource
    unfold Insert.writtenSource at hsource
    cases hselect : s.select with
    | some query => simpa [hselect] using hsource
    | none =>
      rw [hselect] at hsource
      dsimp only
      split
      · trivial
      · refine ⟨Doc.remarked_text "VALUES", ?_⟩
        rw [List.forall_mem_map]
        intro row hrow
        exact (remarked_operands row).mpr ((allRemarked_flatten _).mp hsource row hrow)
  have honConflict : ∀ sec ∈ (s.onConflict.map fun c => Section.line (onConflict c)).toList,
      sec.Remarked P := by
    intro sec hsec
    obtain ⟨c, hc, rfl⟩ := Option.map_eq_some_iff.mp (Option.mem_toList.mp hsec)
    exact remarked_onConflict (hconflict c (Option.mem_toList.mpr hc))
  unfold insertSections
  simp only [List.forall_mem_append, List.forall_mem_cons, remarked_itemsOf]
  exact ⟨⟨⟨⟨⟨Doc.remarked_text _, htarget⟩, hlist⟩, hrows, List.forall_mem_nil _⟩, honConflict⟩,
    hreturning⟩

theorem remarked_updateSections {s : Update Child} (h : AllRemarked P s.children) :
    ∀ sec ∈ updateSections s, sec.Remarked P := by
  simp only [Update.children, allRemarked_cons, allRemarked_append, allRemarked_flatMap] at h
  obtain ⟨htarget, ⟨hassignments, hwheres⟩, hreturning⟩ := h
  have hset : ∀ d ∈ s.assignments.map assignment, d.Remarked P := by
    rw [List.forall_mem_map]
    exact fun a ha => (remarked_assignment a).mpr (hassignments a ha)
  unfold updateSections
  simp only [List.forall_mem_append, List.forall_mem_cons, remarked_itemsOf]
  exact ⟨⟨⟨⟨Doc.remarked_text _, htarget⟩, ⟨Doc.remarked_text _, hset⟩, List.forall_mem_nil _⟩,
    hwheres⟩, hreturning⟩

theorem remarked_deleteSections {s : Delete Child} (h : AllRemarked P s.children) :
    ∀ sec ∈ deleteSections s, sec.Remarked P := by
  simp only [Delete.children, allRemarked_cons, allRemarked_append] at h
  obtain ⟨htarget, hwheres, hreturning⟩ := h
  unfold deleteSections
  simp only [List.forall_mem_append, List.forall_mem_singleton, remarked_itemsOf]
  exact ⟨⟨⟨Doc.remarked_text _, htarget⟩, hwheres⟩, hreturning⟩

end Render

/-! ## 4. Trees -/

/-- The comments that a form is written with, apart from those of its children. -/
def Form.blocks {ν : Type} : Form ν → List (String × String)
  | .select q => q.blocks
  | _ => []

namespace Render

/-- **The comments of a form are its own** and those of its written children. -/
theorem remarked_formDoc (layout : Layout) {form : Form Child}
    (hblocks : ∀ b ∈ form.blocks, P b.1 b.2) (h : AllRemarked P form.written) :
    (formDoc layout form).Remarked P := by
  cases form with
  | select s => exact (layout.remarked_statement _).mpr (remarked_selectSections hblocks h)
  | insert s => exact (layout.remarked_statement _).mpr (remarked_insertSections h)
  | setOperation s => exact (layout.remarked_statement _).mpr (remarked_setOperationSections h)
  | update s => exact (layout.remarked_statement _).mpr (remarked_updateSections h)
  | delete s => exact (layout.remarked_statement _).mpr (remarked_deleteSections h)
  | membership c values negated =>
    rcases values with _ | ⟨first, _ | ⟨second, rest⟩⟩
    · cases negated <;> exact Doc.remarked_text _
    · cases negated <;> simp_all [formDoc, membership, Form.written]
    · have hvalues : (commas ((first :: second :: rest).map operand)).Remarked P :=
        (remarked_operands _).mpr ((allRemarked_cons _ _).mp h).2
      have hc : (operand c).Remarked P :=
        (remarked_operand c).mpr ((allRemarked_cons _ _).mp h).1
      cases negated <;> exact ⟨⟨hc, Doc.remarked_text _⟩, hvalues⟩
  | groupingSet kind columns sets =>
    cases kind <;> simp_all [formDoc, groupingSet, Form.written]
  | aggregate func argument distinct filter =>
    cases argument <;> cases filter <;>
      simp_all [formDoc, aggregate, Form.written, Form.children]
  | choice c branches otherwise =>
    cases c <;> cases otherwise <;>
      simp_all [formDoc, choice, Form.written, Form.children]
  | column relation name typeName =>
    simp only [formDoc, qualified]
    split <;> simp
  | star relation =>
    simp only [formDoc, qualified]
    split <;> simp
  | existence query negated => cases negated <;> simp_all [formDoc, Form.written, Form.children]
  | between c low high negated =>
    cases negated <;> simp_all [formDoc, Form.written, Form.children]
  | _ => simp_all [formDoc, ordering, Form.written, Form.children]

end Render

/-- **The comments of a tree are those of its visited SELECTs**, in either layout. -/
theorem Node.remarked_doc_iff (layout : Layout) (t : Node) :
    (t.doc layout).Remarked P
      ↔ ∀ q : Select Node, ⟨.select q⟩ ∈ t.visited → ∀ b ∈ q.blocks, P b.1 b.2 := by
  constructor
  · rintro h q hq ⟨mark, s⟩ hb
    obtain ⟨k, hnested⟩ := exists_nested hq
    exact (behind_blocks layout hnested hb).remarked h
  · intro h
    induction t using written_induction with
    | step form ih =>
      rw [doc_mk]
      refine Render.remarked_formDoc layout ?_ fun c hc => ?_
      · cases form with
        | select q => exact h q (by rw [visited_mk]; exact List.mem_cons_self)
        | _ => exact List.forall_mem_nil _
      · rw [Form.written_map] at hc
        obtain ⟨n, hn, rfl⟩ := List.mem_map.mp hc
        refine ih n hn fun q hq => h q ?_
        rw [visited_mk]
        exact List.mem_cons_of_mem _ (List.mem_flatMap.mpr ⟨n, hn, hq⟩)

/-! ## 5. Comments among tokens -/

open Reading

/-- The token is no comment, or one of some kind. -/
def Token.Remarked (Q : List Char → Prop) : Token → Prop
  | .comment s => Q s
  | _ => True

section Tokens

variable {Q : List Char → Prop} {how : Spelling}

theorem Token.tameIn.remarked {s : List Char} {t : Token} (h : t.tameIn s) : t.Remarked Q := by
  cases t with
  | comment s => exact h.elim
  | _ => trivial

/-- A tame text has no comments. -/
theorem remarked_lex_of_tame (r : Reading) {s : String} (hs : ∀ c ∈ s.toList, isTame c = true) :
    ∀ t ∈ r.lex s, t.Remarked Q := fun t ht => ((lex_of_tame r hs).2 t ht).remarked

theorem remarked_lex_of_number (r : Reading) {s : String} (hs : NumberText s.toList) :
    ∀ t ∈ r.lex s, t.Remarked Q := by
  obtain ⟨hmode, htokens⟩ := read_number r hs (m := .gap) trivial
  exact List.forall_mem_append.mpr
    ⟨fun t ht => (htokens t ht).remarked, fun t ht => (hmode.finish t ht).remarked⟩

/-- **A value has no comments**, as a placeholder and as a literal. -/
theorem Spelling.remarked_value (how : Spelling) (v : Value) (bound : Nat) :
    ∀ t ∈ (how.reading true).lex (how.value v bound), t.Remarked Q := by
  have hword : ∀ s ∈ ["NULL", "TRUE", "FALSE"],
      ∀ t ∈ (how.reading true).lex s, t.Remarked Q := by
    intro s hs
    have htame : ∀ s ∈ ["NULL", "TRUE", "FALSE"], s.toList.all isTame = true := by decide
    exact remarked_lex_of_tame _ (List.all_eq_true.mp (htame s hs))
  have hinline : ∀ t ∈ (how.reading true).lex v.inline, t.Remarked Q := by
    cases v with
    | null => exact hword "NULL" (by decide)
    | bool b =>
      cases b with
      | true => exact hword "TRUE" (by decide)
      | false => exact hword "FALSE" (by decide)
    | int n => exact remarked_lex_of_number _ (numberText_toString_int n.toInt)
    | uint n => exact remarked_lex_of_number _ (numberText_toString_nat n.toNat)
    | float x => exact remarked_lex_of_number _ (numberText_write x)
    | text s =>
      have hread := read_literal (r := how.reading true) rfl s
      unfold lex
      rw [hread]
      exact List.forall_mem_singleton.mpr trivial
  by_cases hp : how.parameterise = true
  · rw [(Spelling.lex_value hp v bound).2]
    split
    · exact List.forall_mem_singleton.mpr trivial
    · refine List.forall_mem_singleton.mpr ?_
      cases how.dialect <;> trivial
  · unfold Spelling.value
    rw [if_neg hp]
    split
    · exact hword "NULL" (by decide)
    · exact hinline

namespace Doc

variable (Q how) in
/-- The comments among the tokens of a text are of some kind if and only if its comments are. -/
def Reported (d : Doc) : Prop :=
  ∀ bound, (∀ t ∈ d.tokens how true bound, t.Remarked Q)
    ↔ d.Remarked fun mark s => Q (commentInside mark s)

theorem Reported.append {l r : Doc} (hl : l.Reported Q how) (hr : r.Reported Q how) :
    (l ++ r).Reported Q how := by
  intro bound
  show (∀ t ∈ l.tokens how true bound ++ r.tokens how true (bound + l.slots), t.Remarked Q) ↔ _
  rw [List.forall_mem_append, hl bound, hr (bound + l.slots)]
  rfl

theorem reported_text {s : String} (hs : s.toList.all isTame = true) :
    (Doc.text s).Reported Q how :=
  fun _ => iff_of_true (remarked_lex_of_tame _ (List.all_eq_true.mp hs)) trivial

/-- **The comments among the tokens of a text whose parts fit are its comments**, if there is no
    verbatim SQL in it. Where lines are moved, that must make no difference. -/
theorem Spaced.reported (hQ : ∀ s, Q (Text.shifted s) ↔ Q s) {layout : Layout} {inside : Bool}
    {e e' : Seam} {d : Doc} (h : Doc.Spaced layout inside e d e') (hm : ∀ m ∈ d.mentions, m.Plain) :
    d.Reported Q how := by
  induction h with
  | text h =>
    exact reported_text (List.all_eq_true.mpr fun c hc =>
      isTame_of_isFixed (isFixed_of_fixedText h c hc))
  | or => exact reported_text (by decide)
  | operator h =>
    intro bound
    refine iff_of_true ?_ trivial
    show ∀ t ∈ (how.reading true).lex _, t.Remarked Q
    obtain ⟨dialect, parameterise⟩ := how
    rcases List.mem_pair.mp h with rfl | rfl <;> cases dialect <;>
      exact List.forall_mem_singleton.mpr trivial
  | name s => exact fun _ => iff_of_true (List.forall_mem_singleton.mpr trivial) trivial
  | bare h s =>
    refine fun _ => iff_of_true (remarked_lex_of_tame _ ?_) trivial
    exact isTame_of_accepts (hm _ List.mem_cons_self)
  | value v => exact fun bound => iff_of_true (how.remarked_value v bound) trivial
  | raw sql binds => exact (hm _ List.mem_cons_self).elim
  | comment h s => exact fun _ => List.forall_mem_singleton
  | comparison op hl hr ihl ihr =>
    rename_i l r
    intro bound
    have hleft := ihl (fun m hm' => hm m (List.mem_append_left _ hm')) bound
    have hright := ihr (fun m hm' => hm m (List.mem_append_right _ hm')) (bound + l.slots)
    have hframe : ∀ s ∈ (how.dialect.comparisonFrame op).texts,
        ∀ t ∈ (how.reading true).lex s, t.Remarked Q := fun s hs =>
      remarked_lex_of_tame _ (isTame_of_isQuiet ((how.dialect.comparisonFrame_fits op).1 s hs))
    have hbefore := hframe _ List.mem_cons_self
    have hbetween := hframe _ (List.mem_cons_of_mem _ List.mem_cons_self)
    have hafter := hframe _ (List.mem_cons_of_mem _ (List.mem_cons_of_mem _ List.mem_cons_self))
    unfold Doc.tokens
    rw [List.forall_mem_append, List.forall_mem_append, List.forall_mem_append,
      List.forall_mem_append, and_iff_left hafter, and_iff_left hbetween, and_iff_right hbefore,
      hleft, hright]
    rfl
  | paren h ih =>
    intro bound
    have hmark : ∀ c, (Token.mark c).Remarked Q := fun _ => trivial
    unfold Doc.tokens
    rw [List.forall_mem_cons, List.forall_mem_append, List.forall_mem_singleton, ih hm bound,
      and_iff_right (hmark '('), and_iff_left (hmark ')')]
    rfl
  | indented hl h ih =>
    intro bound
    have hshifted : ∀ t : Token, t.shifted.Remarked Q ↔ t.Remarked Q := by
      intro t
      cases t with
      | comment s => exact hQ s
      | _ => exact Iff.rfl
    unfold Doc.tokens
    rw [List.forall_mem_map]
    exact (forall₂_congr fun t _ => hshifted t).trans (ih hm bound)
  | range hw hd hlow ihd ihlow =>
    rename_i word
    simp only [mentions_append, mentions_text, List.append_nil, List.forall_mem_append] at hm
    have hword : (Doc.text word).Reported Q how := by
      rcases List.mem_pair.mp hw with rfl | rfl <;> exact reported_text (by decide)
    exact (((ihd hm.1).append hword).append (ihlow hm.2)).append (reported_text (by decide))
  | choice hd hb ho ihd ihb iho =>
    simp only [mentions_append, mentions_text, List.append_nil, List.nil_append,
      List.forall_mem_append] at hm
    have hcase : (Doc.text "CASE").Reported Q how := reported_text (by decide)
    exact (((hcase.append (ihd hm.1.1)).append (ihb hm.1.2)).append (iho hm.2)).append
      (reported_text (by decide))
  | append hl hr ihl ihr =>
    exact (ihl fun m hm' => hm m (List.mem_append_left _ hm')).append
      (ihr fun m hm' => hm m (List.mem_append_right _ hm'))

end Doc

/-- **The comments that are read in a tree are those of its visited SELECTs**, whatever the dialect
    and the layout, if it has no verbatim SQL and is not refused. -/
theorem Node.remarked_lex_iff (hQ : ∀ s, Q (Text.shifted s) ↔ Q s) {t : Node} (ht : t.NoVerbatim)
    {layout : Layout} (hf : (t.doc layout).fault? = none) (bound : Nat) :
    (∀ token ∈ (how.reading true).lex (how.spell (t.doc layout) bound), token.Remarked Q)
      ↔ ∀ q : Select Node, ⟨.select q⟩ ∈ t.visited →
        ∀ b ∈ q.blocks, Q (commentInside b.1 b.2) := by
  rw [(lex_visited ht hf List.mem_cons_self layout how bound).2,
    (t.spaced_doc layout).reported hQ (plain_of_fault?_eq_none ht hf) bound, remarked_doc_iff]

end Tokens
end SqlTree
