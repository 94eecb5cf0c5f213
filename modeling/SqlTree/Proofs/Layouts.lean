import Mathlib.Data.List.Forall2
import SqlTree.Proofs.Substitution

/-!
# One form in two layouts

The text of a form over several lines and its text on one line have the same parts in the same
order. Between the parts other blanks stand, and the two queries that a set operation combines
stand in blocks of lines that are moved as a whole; nothing else is moved.

* `Form.combined` -- the children that stand in such blocks;
* `Doc.Laid` -- a text over several lines beside one on one line, made of the same parts;
* `Render.laid_formDoc` -- the two texts of a form are, for children whose texts are related in
  any way.
-/

namespace SqlTree

/-- The queries that a form combines. -/
def Form.combined {ν : Type} : Form ν → List ν
  | .setOperation s => [s.left, s.right]
  | _ => []

theorem Form.combined_subset {ν : Type} (form : Form ν) : form.combined ⊆ form.written := by
  cases form with
  | setOperation s =>
    intro n hn
    rcases List.mem_pair.mp hn with rfl | rfl
    · exact List.mem_cons_self
    · exact List.mem_cons_of_mem _ List.mem_cons_self
  | _ => exact List.nil_subset _

/-! ## 1. Texts side by side -/

/-- A text over several lines beside a text on one line. They are put together in the same way from
    texts related by `kid`; what stands in a block of lines is related by `block`. -/
inductive Doc.Laid (kid block : Doc → Doc → Prop) : Doc → Doc → Prop where
  | same {d : Doc} (h : d.Flat) : Laid kid block d d
  | kid {d d' : Doc} (h : kid d d') : Laid kid block d d'
  | comparison (op : ComparisonOp) {l l' r r' : Doc} (hl : Laid kid block l l')
    (hr : Laid kid block r r') : Laid kid block (.comparison op l r) (.comparison op l' r')
  | paren {d d' : Doc} (h : Laid kid block d d') : Laid kid block (.paren d) (.paren d')
  | append {l l' r r' : Doc} (hl : Laid kid block l l') (hr : Laid kid block r r') :
    Laid kid block (.append l r) (.append l' r')
  /-- A new line for the next section. -/
  | line : Laid kid block (.text "\n") (.text " ")
  /-- A new line for the next item. -/
  | between (s : Separator) : Laid kid block (Layout.lines.between s) (Layout.oneLine.between s)
  /-- A heading without items. -/
  | heading {d d' : Doc} (h : Laid kid block d d') : Laid kid block d (d' ++ " " ++ Doc.empty)
  | block {d d' : Doc} (h : block d d') :
    Laid kid block (.paren ("\n" ++ .indented d ++ "\n")) (.paren d')

/-- The same for sections. -/
inductive Section.Laid (kid block : Doc → Doc → Prop) : Section → Section → Prop where
  | line {d d' : Doc} (h : Doc.Laid kid block d d') : Laid kid block (.line d) (.line d')
  | items {heading heading' : Doc} {separator : Separator} {items items' : List Doc}
    (hh : Doc.Laid kid block heading heading')
    (h : List.Forall₂ (Doc.Laid kid block) items items') :
    Laid kid block (.items heading separator items) (.items heading' separator items')
  | block {d d' : Doc} (h : block d d') : Laid kid block (.block d) (.block d')

namespace Render

open Doc Doc.Laid

variable {kid block : Doc → Doc → Prop}

/-- A node with a text for it. -/
def texted (d : Node → Doc) (n : Node) : Child := (n, d n)

/-- A word that both layouts have in common. -/
theorem laid_text (s : String) : Laid kid block (.text s) (.text s) := .same trivial

theorem laid_join {separator separator' : Doc} (hs : Laid kid block separator separator') :
    ∀ {ds ds' : List Doc}, List.Forall₂ (Laid kid block) ds ds' →
      Laid kid block (Doc.join separator ds) (Doc.join separator' ds')
  | _, _, .nil => laid_text ""
  | _, _, .cons h .nil => h
  | _, _, .cons h (.cons h' hrest) => .append (.append h hs) (laid_join hs (.cons h' hrest))

/-- Parts written one by one. -/
theorem laid_each {κ μ : Type} {l : List κ} {f g : κ → μ} (write : μ → Doc)
    (h : ∀ k ∈ l, Laid kid block (write (f k)) (write (g k))) :
    List.Forall₂ (Laid kid block) ((l.map f).map write) ((l.map g).map write) := by
  rw [List.map_map, List.map_map, List.forall₂_map_left_iff, List.forall₂_map_right_iff,
    List.forall₂_same]
  exact h

theorem laid_commas {κ μ : Type} {l : List κ} {f g : κ → μ} (write : μ → Doc)
    (h : ∀ k ∈ l, Laid kid block (write (f k)) (write (g k))) :
    Laid kid block (commas ((l.map f).map write)) (commas ((l.map g).map write)) :=
  laid_join (laid_text _) (laid_each write h)

/-! ## 2. Children and clauses -/

variable {d d' : Node → Doc}

/-- The two texts of each of these children are related. -/
def AllKids (kid : Doc → Doc → Prop) (d d' : Node → Doc) (children : List Node) : Prop :=
  ∀ n ∈ children, kid (d n) (d' n)

theorem AllKids.of_subset {l l' : List Node} (h : AllKids kid d d' l') (hs : l ⊆ l') :
    AllKids kid d d' l := fun n hn => h n (hs hn)

theorem laid_operand {n : Node} (h : kid (d n) (d' n)) :
    Laid kid block (operand (texted d n)) (operand (texted d' n)) := by
  unfold operand texted
  split
  · exact .paren (.kid h)
  · exact .kid h

theorem laid_arithmeticOperand {n : Node} (h : kid (d n) (d' n)) :
    Laid kid block (arithmeticOperand (texted d n)) (arithmeticOperand (texted d' n)) := by
  have hplain : Laid kid block (operand (texted d n)) (operand (texted d' n)) := laid_operand h
  obtain ⟨form⟩ := n
  cases form with
  | arithmetic left op right => exact .paren (.kid h)
  | unary op c => exact .paren (.kid h)
  | _ => exact hplain

theorem laid_unqualified {n : Node} (h : kid (d n) (d' n)) :
    Laid kid block (unqualified (texted d n)) (unqualified (texted d' n)) := by
  obtain ⟨form⟩ := n
  cases form with
  | column relation name typeName => exact .same trivial
  | _ => exact .kid h

theorem laid_list {l : List Node} (h : AllKids kid d d' l) :
    Laid kid block (list (l.map (texted d))) (list (l.map (texted d'))) :=
  laid_commas Prod.snd fun n hn => .kid (h n hn)

theorem laid_conjunction {l : List Node} (h : AllKids kid d d' l) :
    Laid kid block (conjunction (l.map (texted d))) (conjunction (l.map (texted d'))) :=
  laid_join (laid_text _) (laid_each Prod.snd fun n hn => .kid (h n hn))

theorem laid_columnList {l : List Node} (h : AllKids kid d d' l) :
    Laid kid block (columnList (l.map (texted d))) (columnList (l.map (texted d'))) :=
  .paren (laid_commas unqualified fun n hn => laid_unqualified (h n hn))

theorem laid_valuesRow {l : List Node} (h : AllKids kid d d' l) :
    Laid kid block (valuesRow (l.map (texted d))) (valuesRow (l.map (texted d'))) :=
  .paren (laid_commas operand fun n hn => laid_operand (h n hn))

theorem laid_after (word : String) {o : Option Node} (write : Child → Doc)
    (h : ∀ n ∈ o.toList, Laid kid block (write (texted d n)) (write (texted d' n))) :
    Laid kid block (Doc.after word ((o.map (texted d)).map write))
      (Doc.after word ((o.map (texted d')).map write)) := by
  cases o with
  | none => exact laid_text ""
  | some n => exact .append (laid_text word) (h n List.mem_cons_self)

theorem laid_bound {b : Bound Node} (h : AllKids kid d d' b.children) :
    Laid kid block (bound (b.map (texted d))) (bound (b.map (texted d'))) := by
  cases b with
  | preceding n =>
    exact .append (.append (.kid (h n List.mem_cons_self)) (laid_text _)) (laid_text _)
  | following n =>
    exact .append (.append (.kid (h n List.mem_cons_self)) (laid_text _)) (laid_text _)
  | _ => exact laid_text _

theorem laid_frame {f : Frame Node} (h : AllKids kid d d' f.children) :
    Laid kid block (frame (f.map (texted d))) (frame (f.map (texted d'))) := by
  obtain ⟨unit, start, stop⟩ := f
  have hstart : Laid kid block (bound (start.map (texted d))) (bound (start.map (texted d'))) :=
    laid_bound (h.of_subset (List.subset_append_left _ _))
  cases stop with
  | none => exact .append (.append (laid_text _) (laid_text _)) hstart
  | some stop =>
    have hstop : Laid kid block (bound (stop.map (texted d))) (bound (stop.map (texted d'))) :=
      laid_bound fun n hn =>
        h n (List.mem_append_right _ (List.mem_flatMap.mpr ⟨stop, List.mem_cons_self, hn⟩))
    exact .append (.append (.append (.append (laid_text _) (laid_text _)) hstart) (laid_text _))
      hstop

/-- A list behind its words, unless it is empty. -/
theorem laid_optionalList {word : String} {l : List Node} (h : AllKids kid d d' l) :
    List.Forall₂ (Laid kid block)
      (if (l.map (texted d)).isEmpty then [] else [.text word ++ list (l.map (texted d))])
      (if (l.map (texted d')).isEmpty then [] else [.text word ++ list (l.map (texted d'))]) := by
  cases l with
  | nil => exact .nil
  | cons n rest => exact .cons (.append (laid_text _) (laid_list h)) .nil

theorem laid_windowBody {w : Window Node} (h : AllKids kid d d' w.children) :
    Laid kid block (windowBody (w.map (texted d))) (windowBody (w.map (texted d'))) := by
  obtain ⟨name, partition, order, fr⟩ := w
  simp only [AllKids, Window.children, List.forall_mem_append, List.forall_mem_flatMap] at h
  obtain ⟨⟨hpartition, horder⟩, hframe⟩ := h
  have hfr : List.Forall₂ (Laid kid block)
      (((fr.map (Frame.map (texted d))).map frame).toList)
      (((fr.map (Frame.map (texted d'))).map frame).toList) := by
    cases fr with
    | none => exact .nil
    | some f => exact .cons (laid_frame (hframe f List.mem_cons_self)) .nil
  exact laid_join (laid_text _) (List.rel_append
    (List.rel_append (laid_optionalList hpartition) (laid_optionalList horder)) hfr)

theorem laid_window {w : Window Node} (h : AllKids kid d d' w.children) :
    Laid kid block (window (w.map (texted d))) (window (w.map (texted d'))) := by
  have hbody : Laid kid block (windowBody (w.map (texted d))) (windowBody (w.map (texted d'))) :=
    laid_windowBody h
  obtain ⟨name, partition, order, fr⟩ := w
  cases name with
  | none => exact .paren hbody
  | some name => exact .append (.append (.same trivial) (laid_text _)) (.paren hbody)

theorem laid_windowRef {w : WindowRef Node} (h : AllKids kid d d' w.children) :
    Laid kid block (windowRef (w.map (texted d))) (windowRef (w.map (texted d'))) := by
  cases w with
  | inline w => exact .paren (laid_windowBody h)
  | named name => exact .same trivial

theorem laid_branch {b : Branch Node} (h : AllKids kid d d' b.children) :
    Laid kid block (branch (b.map (texted d))) (branch (b.map (texted d'))) := by
  exact .append (.append (.append (laid_text _)
    (laid_operand (h b.condition List.mem_cons_self))) (laid_text _))
    (laid_operand (h b.result (List.mem_cons_of_mem _ List.mem_cons_self)))

theorem laid_assignment {a : Assignment Node} (h : AllKids kid d d' a.children) :
    Laid kid block (assignment (a.map (texted d))) (assignment (a.map (texted d'))) := by
  exact .append (.append (.kid (h a.target List.mem_cons_self)) (laid_text _))
    (laid_operand (h a.value (List.mem_cons_of_mem _ List.mem_cons_self)))

theorem laid_joined {j : Join Node} (h : AllKids kid d d' j.written) :
    Laid kid block (Render.join (j.map (texted d))) (Render.join (j.map (texted d'))) := by
  obtain ⟨kind, right, predicate, lateral⟩ := j
  have hplain : ∀ kind : JoinKind, AllKids kid d d' (right :: predicate.toList) →
      Laid kid block
        (kind.word ++ keyword lateral " LATERAL" ++ " " ++ operand (texted d right)
          ++ Doc.after " ON " ((predicate.map (texted d)).map (·.2)))
        (kind.word ++ keyword lateral " LATERAL" ++ " " ++ operand (texted d' right)
          ++ Doc.after " ON " ((predicate.map (texted d')).map (·.2))) := by
    intro kind h
    have hlateral : Laid kid block (keyword lateral " LATERAL") (keyword lateral " LATERAL") := by
      cases lateral <;> exact laid_text _
    exact .append (.append (.append (.append (laid_text _) hlateral) (laid_text _))
      (laid_operand (h right List.mem_cons_self)))
      (laid_after " ON " (·.2) fun n hn => .kid (h n (List.mem_cons_of_mem _ hn)))
  cases kind with
  | verbatim => exact .kid (h right List.mem_cons_self)
  | _ => exact hplain _ h

theorem laid_cte {c : Cte Node} (h : kid (d c.query) (d' c.query)) :
    Laid kid block (cte (c.map (texted d))) (cte (c.map (texted d'))) := by
  have hcolumns : Laid kid block
      (if c.columns.isEmpty then Doc.empty else " " ++ .paren (commas (c.columns.map Doc.name)))
      (if c.columns.isEmpty then Doc.empty
        else " " ++ .paren (commas (c.columns.map Doc.name))) := by
    have hnames : List.Forall₂ (Laid kid block) (c.columns.map Doc.name)
        (c.columns.map Doc.name) := List.forall₂_same.mpr fun e he => by
      obtain ⟨name, -, rfl⟩ := List.mem_map.mp he
      exact .same trivial
    split
    · exact laid_text ""
    · exact .append (laid_text _) (.paren (laid_join (laid_text _) hnames))
  exact .append (.append (.append (.same trivial) hcolumns) (laid_text _)) (.paren (.kid h))

theorem laid_onConflict {c : OnConflict Node} (h : AllKids kid d d' c.children) :
    Laid kid block (onConflict (c.map (texted d))) (onConflict (c.map (texted d'))) := by
  obtain ⟨columns, action⟩ := c
  simp only [AllKids, OnConflict.children, List.forall_mem_append] at h
  obtain ⟨hcolumns, haction⟩ := h
  have hkey : Laid kid block
      (if (columns.map (texted d)).isEmpty then Doc.empty
        else " " ++ columnList (columns.map (texted d)))
      (if (columns.map (texted d')).isEmpty then Doc.empty
        else " " ++ columnList (columns.map (texted d'))) := by
    cases columns with
    | nil => exact laid_text ""
    | cons n rest => exact .append (laid_text _) (laid_columnList hcolumns)
  cases action with
  | doNothing => exact .append (.append (laid_text _) hkey) (laid_text _)
  | doUpdate assignments wheres =>
    simp only [ConflictAction.children, List.forall_mem_append, List.forall_mem_flatMap] at haction
    obtain ⟨hassignments, hwheres⟩ := haction
    have hset : Laid kid block
        (commas ((assignments.map (Assignment.map (texted d))).map assignment))
        (commas ((assignments.map (Assignment.map (texted d'))).map assignment)) :=
      laid_commas assignment fun a ha => laid_assignment (hassignments a ha)
    have hwhere : Laid kid block
        (if (wheres.map (texted d)).isEmpty then Doc.empty
          else " WHERE " ++ conjunction (wheres.map (texted d)))
        (if (wheres.map (texted d')).isEmpty then Doc.empty
          else " WHERE " ++ conjunction (wheres.map (texted d'))) := by
      cases wheres with
      | nil => exact laid_text ""
      | cons n rest => exact .append (laid_text _) (laid_conjunction hwheres)
    exact .append (.append (laid_text _) hkey) (.append (.append (laid_text _) hset) hwhere)

/-! ## 3. Statements -/

/-- The sections of a statement in the two layouts. -/
abbrev LaidSections (kid block : Doc → Doc → Prop) : List Section → List Section → Prop :=
  List.Forall₂ (Section.Laid kid block)

theorem laid_lay {s s' : Section} (h : Section.Laid kid block s s') :
    Laid kid block (Layout.lines.lay s) (Layout.oneLine.lay s') := by
  cases h with
  | line h => exact h
  | block h => exact .block h
  | items hh h =>
    cases h with
    | nil => exact .heading hh
    | cons h hrest =>
      exact .append (.append hh (laid_text _)) (laid_join (.between _) (.cons h hrest))

/-- **A statement is laid out by laying out its sections**, with a line for each of them. -/
theorem laid_statement {sections sections' : List Section}
    (h : LaidSections kid block sections sections') :
    Laid kid block (Layout.lines.statement sections) (Layout.oneLine.statement sections') := by
  refine laid_join .line ?_
  rw [List.forall₂_map_left_iff, List.forall₂_map_right_iff]
  exact h.imp fun _ _ => laid_lay

/-- A section that is written alike. -/
theorem laidSections_line {o o' : Doc} (h : Laid kid block o o') :
    LaidSections kid block [.line o] [.line o'] := .cons (.line h) .nil

theorem laid_itemsOf {heading : String} {separator : Separator} {l : List Node}
    (h : AllKids kid d d' l) :
    LaidSections kid block (itemsOf heading separator (l.map (texted d)))
      (itemsOf heading separator (l.map (texted d'))) := by
  cases l with
  | nil => exact .nil
  | cons n rest =>
    exact .cons (.items (laid_text _) (laid_each Prod.snd fun n hn => .kid (h n hn))) .nil

theorem laid_lineOf {heading : String} {o : Option Node} (write : Child → Doc)
    (h : ∀ n ∈ o.toList, Laid kid block (write (texted d n)) (write (texted d' n))) :
    LaidSections kid block (lineOf heading ((o.map (texted d)).map write))
      (lineOf heading ((o.map (texted d')).map write)) := by
  cases o with
  | none => exact .nil
  | some n => exact laidSections_line (.append (laid_text _) (h n List.mem_cons_self))

/-- An optional clause on a line of its own. -/
theorem laid_optionalLine {κ μ : Type} {o : Option κ} {f g : κ → μ} (write : μ → Doc)
    (h : ∀ k ∈ o, Laid kid block (write (f k)) (write (g k))) :
    LaidSections kid block ((o.map f).map fun k => Section.line (write k)).toList
      ((o.map g).map fun k => Section.line (write k)).toList := by
  cases o with
  | none => exact .nil
  | some k => exact laidSections_line (h k rfl)

theorem laid_selectHead {s : Select Node} (h : AllKids kid d d' s.distinctOn) :
    Laid kid block (selectHead (s.map (texted d))) (selectHead (s.map (texted d'))) := by
  have hhints : Laid kid block
      (if s.hints.isEmpty then Doc.empty else " " ++ .comment "/*+" (" ".intercalate s.hints))
      (if s.hints.isEmpty then Doc.empty
        else " " ++ .comment "/*+" (" ".intercalate s.hints)) := by
    split
    · exact laid_text ""
    · exact .append (laid_text _) (.same trivial)
  have hdistinct : Laid kid block
      (if (s.distinctOn.map (texted d)).isEmpty then keyword s.distinct " DISTINCT"
        else " DISTINCT ON " ++ .paren (list (s.distinctOn.map (texted d))))
      (if (s.distinctOn.map (texted d')).isEmpty then keyword s.distinct " DISTINCT"
        else " DISTINCT ON " ++ .paren (list (s.distinctOn.map (texted d')))) := by
    cases hs : s.distinctOn with
    | nil => cases s.distinct <;> exact laid_text _
    | cons n rest => exact .append (laid_text _) (.paren (laid_list (hs ▸ h)))
  exact .append (.append (laid_text _) hhints) hdistinct

theorem laid_withClause {ctes : List (Cte Node)} (h : AllKids kid d d' (ctes.map (·.query))) :
    LaidSections kid block
      ((withClause? (ctes.map (Cte.map (texted d)))).map Section.line).toList
      ((withClause? (ctes.map (Cte.map (texted d')))).map Section.line).toList := by
  cases ctes with
  | nil => exact .nil
  | cons c rest =>
    have hword : ∀ f : Node → Child, ((c :: rest).map (Cte.map f)).any (·.recursive)
        = (c :: rest).any (·.recursive) := fun f => List.any_map
    have hlist : Laid kid block (commas (((c :: rest).map (Cte.map (texted d))).map cte))
        (commas (((c :: rest).map (Cte.map (texted d'))).map cte)) :=
      laid_commas cte fun c hc => laid_cte (h c.query (List.mem_map_of_mem hc))
    unfold withClause?
    rw [hword, hword]
    exact laidSections_line (.append (laid_text _) hlist)

theorem laid_projections {s : Select Node} (hdistinct : AllKids kid d d' s.distinctOn)
    (hprojections : AllKids kid d d' s.projections) :
    Section.Laid kid block
      (if (s.projections.map (texted d)).isEmpty then .line (selectHead (s.map (texted d)) ++ " *")
        else .items (selectHead (s.map (texted d))) .comma
          ((s.projections.map (texted d)).map (·.2)))
      (if (s.projections.map (texted d')).isEmpty
        then .line (selectHead (s.map (texted d')) ++ " *")
        else .items (selectHead (s.map (texted d'))) .comma
          ((s.projections.map (texted d')).map (·.2))) := by
  have hhead : Laid kid block (selectHead (s.map (texted d))) (selectHead (s.map (texted d'))) :=
    laid_selectHead hdistinct
  cases hs : s.projections with
  | nil => exact .line (.append hhead (laid_text _))
  | cons n rest =>
    exact .items hhead (laid_each Prod.snd fun n hn => .kid (hprojections n (hs ▸ hn)))

theorem laid_selectSections {s : Select Node} (h : AllKids kid d d' s.written) :
    LaidSections kid block (selectSections (s.map (texted d)))
      (selectSections (s.map (texted d'))) := by
  simp only [AllKids, Select.written, List.forall_mem_append, List.forall_mem_flatMap] at h
  obtain ⟨⟨⟨⟨⟨⟨⟨⟨⟨⟨⟨hctes, hdistinct⟩, hprojections⟩, hsource⟩, hjoins⟩, hwheres⟩, hgroups⟩,
    hhavings⟩, hwindows⟩, horders⟩, hlimit⟩, hoffset⟩ := h
  have hcomment : LaidSections kid block
      (s.comment.map fun text => Section.line (.comment "/*" text)).toList
      (s.comment.map fun text => Section.line (.comment "/*" text)).toList := by
    cases s.comment with
    | none => exact .nil
    | some text => exact laidSections_line (.same trivial)
  have hjoin : LaidSections kid block
      ((s.joins.map (Join.map (texted d))).map fun j => .line (Render.join j))
      ((s.joins.map (Join.map (texted d'))).map fun j => .line (Render.join j)) := by
    rw [List.map_map, List.map_map, LaidSections, List.forall₂_map_left_iff,
      List.forall₂_map_right_iff, List.forall₂_same]
    exact fun j hj => .line (laid_joined (hjoins j hj))
  have hwindow : LaidSections kid block
      (if (s.windows.map (Window.map (texted d))).isEmpty then []
        else [.items "WINDOW" .comma ((s.windows.map (Window.map (texted d))).map window)])
      (if (s.windows.map (Window.map (texted d'))).isEmpty then []
        else [.items "WINDOW" .comma ((s.windows.map (Window.map (texted d'))).map window)]) := by
    cases hs : s.windows with
    | nil => exact .nil
    | cons w rest =>
      exact .cons (.items (laid_text _) (laid_each window fun w hw =>
        laid_window (hwindows w (hs ▸ hw)))) .nil
  have hlock : LaidSections kid block
      (((lockClause? (s.map (texted d))).map Section.line).toList)
      (((lockClause? (s.map (texted d'))).map Section.line).toList) := by
    show LaidSections kid block
      (((s.lock.map fun mode => (.text mode.word ++ keyword s.skipLocked " SKIP LOCKED" : Doc)).map
        Section.line).toList)
      (((s.lock.map fun mode => (.text mode.word ++ keyword s.skipLocked " SKIP LOCKED" : Doc)).map
        Section.line).toList)
    cases s.lock with
    | none => exact .nil
    | some mode =>
      refine laidSections_line (.append (laid_text _) ?_)
      cases s.skipLocked <;> exact laid_text _
  refine List.rel_append ?_ hlock
  refine List.rel_append ?_ (laid_lineOf (·.2) fun n hn => .kid (hoffset n hn))
  refine List.rel_append ?_ (laid_lineOf (·.2) fun n hn => .kid (hlimit n hn))
  refine List.rel_append ?_ (laid_itemsOf horders)
  refine List.rel_append ?_ hwindow
  refine List.rel_append ?_ (laid_itemsOf hhavings)
  refine List.rel_append ?_ (laid_itemsOf hgroups)
  refine List.rel_append ?_ (laid_itemsOf hwheres)
  refine List.rel_append ?_ hjoin
  refine List.rel_append ?_ (laid_lineOf operand fun n hn => laid_operand (hsource n hn))
  refine List.rel_append ?_ (.cons (laid_projections hdistinct hprojections) .nil)
  exact List.rel_append (laid_withClause hctes) hcomment

theorem laid_setOperationSections {s : SetOperation Node} (h : AllKids kid d d' s.children)
    (hblock : ∀ n ∈ [s.left, s.right], block (d n) (d' n)) :
    LaidSections kid block (setOperationSections (s.map (texted d)))
      (setOperationSections (s.map (texted d'))) := by
  simp only [AllKids, SetOperation.children, List.forall_mem_cons, List.forall_mem_append] at h
  obtain ⟨-, -, ⟨horders, hlimit⟩, hoffset⟩ := h
  have hblocks : LaidSections kid block
      [.block (d s.left), .line s.op.word, .block (d s.right)]
      [.block (d' s.left), .line s.op.word, .block (d' s.right)] :=
    .cons (.block (hblock _ List.mem_cons_self)) (.cons (.line (laid_text _))
      (.cons (.block (hblock _ (List.mem_cons_of_mem _ List.mem_cons_self))) .nil))
  refine List.rel_append ?_ (laid_lineOf (·.2) fun n hn => .kid (hoffset n hn))
  refine List.rel_append ?_ (laid_lineOf (·.2) fun n hn => .kid (hlimit n hn))
  exact List.rel_append hblocks (laid_itemsOf horders)

theorem laid_insertSource {s : Insert Node} (h : AllKids kid d d' s.writtenSource) :
    Section.Laid kid block (insertSource (s.map (texted d)))
      (insertSource (s.map (texted d'))) := by
  obtain ⟨target, columns, rows, select, returning, conflict⟩ := s
  cases select with
  | some query => exact .line (.kid (h query List.mem_cons_self))
  | none =>
    cases rows with
    | nil => exact .line (laid_text _)
    | cons row rest =>
      exact .items (laid_text _) (laid_each valuesRow fun row hrow => laid_valuesRow fun n hn =>
        h n (List.mem_flatten.mpr ⟨row, hrow, hn⟩))

theorem laid_insertSections {s : Insert Node} (h : AllKids kid d d' s.written) :
    LaidSections kid block (insertSections (s.map (texted d)))
      (insertSections (s.map (texted d'))) := by
  simp only [AllKids, Insert.written, List.forall_mem_cons, List.forall_mem_append,
    List.forall_mem_flatMap] at h
  obtain ⟨htarget, ⟨⟨hcolumns, hsource⟩, hconflict⟩, hreturning⟩ := h
  have hcolumnList : Laid kid block
      (if (s.columns.map (texted d)).isEmpty then Doc.empty
        else " " ++ columnList (s.columns.map (texted d)))
      (if (s.columns.map (texted d')).isEmpty then Doc.empty
        else " " ++ columnList (s.columns.map (texted d'))) := by
    cases hs : s.columns with
    | nil => exact laid_text ""
    | cons n rest => exact .append (laid_text _) (laid_columnList (hs ▸ hcolumns))
  have hhead : Laid kid block
      ("INSERT INTO " ++ d s.target ++ if (s.columns.map (texted d)).isEmpty then Doc.empty
        else " " ++ columnList (s.columns.map (texted d)))
      ("INSERT INTO " ++ d' s.target ++ if (s.columns.map (texted d')).isEmpty then Doc.empty
        else " " ++ columnList (s.columns.map (texted d'))) :=
    .append (.append (laid_text _) (.kid htarget)) hcolumnList
  refine List.rel_append ?_ (laid_itemsOf hreturning)
  refine List.rel_append ?_ (laid_optionalLine onConflict fun c hc =>
    laid_onConflict (hconflict c (Option.mem_toList.mpr hc)))
  exact .cons (.line hhead) (.cons (laid_insertSource hsource) .nil)

theorem laid_updateSections {s : Update Node} (h : AllKids kid d d' s.children) :
    LaidSections kid block (updateSections (s.map (texted d)))
      (updateSections (s.map (texted d'))) := by
  simp only [AllKids, Update.children, List.forall_mem_cons, List.forall_mem_append,
    List.forall_mem_flatMap] at h
  obtain ⟨htarget, ⟨hassignments, hwheres⟩, hreturning⟩ := h
  have hset : Section.Laid kid block
      (.items "SET" .comma ((s.assignments.map (Assignment.map (texted d))).map assignment))
      (.items "SET" .comma ((s.assignments.map (Assignment.map (texted d'))).map assignment)) :=
    .items (laid_text _) (laid_each assignment fun a ha => laid_assignment (hassignments a ha))
  refine List.rel_append ?_ (laid_itemsOf hreturning)
  refine List.rel_append ?_ (laid_itemsOf hwheres)
  exact .cons (.line (.append (laid_text _) (.kid htarget))) (.cons hset .nil)

theorem laid_deleteSections {s : Delete Node} (h : AllKids kid d d' s.children) :
    LaidSections kid block (deleteSections (s.map (texted d)))
      (deleteSections (s.map (texted d'))) := by
  simp only [AllKids, Delete.children, List.forall_mem_cons, List.forall_mem_append] at h
  obtain ⟨htarget, hwheres, hreturning⟩ := h
  refine List.rel_append ?_ (laid_itemsOf hreturning)
  refine List.rel_append ?_ (laid_itemsOf hwheres)
  exact laidSections_line (.append (laid_text _) (.kid htarget))

/-! ## 4. Forms -/

theorem laid_membership {n : Node} {values : List Node} {negated : Bool}
    (h : AllKids kid d d' (if values.isEmpty then [] else n :: values)) :
    Laid kid block (membership (texted d n) (values.map (texted d)) negated)
      (membership (texted d' n) (values.map (texted d')) negated) := by
  rcases values with _ | ⟨v, _ | ⟨w, rest⟩⟩
  · cases negated <;> exact laid_text _
  · exact .append (.append (laid_operand (h n List.mem_cons_self)) (laid_text _))
      (.paren (.kid (h v (List.mem_cons_of_mem _ List.mem_cons_self))))
  · exact .append (.append (laid_operand (h n List.mem_cons_self)) (laid_text _))
      (.paren (laid_commas operand fun k hk => laid_operand (h k (List.mem_cons_of_mem _ hk))))

theorem laid_aggregate {func : AggregateFunc} {argument filter : Option Node} {distinct : Bool}
    (h : AllKids kid d d' (argument.toList ++ filter.toList)) :
    Laid kid block
      (aggregate func (argument.map (texted d)) distinct (filter.map (texted d)))
      (aggregate func (argument.map (texted d')) distinct (filter.map (texted d'))) := by
  have hword : Laid kid block (keyword distinct "DISTINCT ") (keyword distinct "DISTINCT ") := by
    cases distinct <;> exact laid_text _
  have hrange : Laid kid block (((argument.map (texted d)).map (·.2)).getD "*")
      (((argument.map (texted d')).map (·.2)).getD "*") := by
    cases argument with
    | none => exact laid_text _
    | some n => exact .kid (h n List.mem_cons_self)
  exact .append (.append (laid_text _) (.paren (.append hword hrange)))
    (laid_after " FILTER " (fun c => .paren ("WHERE " ++ c.2)) fun n hn =>
      .paren (.append (laid_text _) (.kid (h n (List.mem_append_right _ hn)))))

theorem laid_choice {operand? otherwise : Option Node} {branches : List (Branch Node)}
    (h : AllKids kid d d'
      (operand?.toList ++ branches.flatMap Branch.children ++ otherwise.toList)) :
    Laid kid block
      (choice (operand?.map (texted d)) (branches.map (Branch.map (texted d)))
        (otherwise.map (texted d)))
      (choice (operand?.map (texted d')) (branches.map (Branch.map (texted d')))
        (otherwise.map (texted d'))) := by
  simp only [AllKids, List.forall_mem_append, List.forall_mem_flatMap] at h
  obtain ⟨⟨hoperand, hbranches⟩, hotherwise⟩ := h
  have hbranch : Laid kid block
      (Doc.join Doc.empty ((branches.map (Branch.map (texted d))).map branch))
      (Doc.join Doc.empty ((branches.map (Branch.map (texted d'))).map branch)) :=
    laid_join (laid_text "") (laid_each branch fun b hb => laid_branch (hbranches b hb))
  exact .append (.append (.append (.append (laid_text _)
    (laid_after " " operand fun n hn => laid_operand (hoperand n hn))) hbranch)
    (laid_after " ELSE " operand fun n hn => laid_operand (hotherwise n hn))) (laid_text _)

theorem laid_groupingSet {kind : GroupingKind} {columns : List Node} {sets : List (List Node)}
    (h : AllKids kid d d' (Form.groupingSet kind columns sets).written) :
    Laid kid block
      (groupingSet kind (columns.map (texted d)) (sets.map (List.map (texted d))))
      (groupingSet kind (columns.map (texted d')) (sets.map (List.map (texted d')))) := by
  cases kind with
  | groupingSets =>
    refine .append (laid_text _) (.paren (laid_commas (fun set => .paren (list set)) fun set hset =>
      .paren (laid_list ?_)))
    exact fun n hn => h n (List.mem_flatten.mpr ⟨set, hset, hn⟩)
  | _ => exact .append (laid_text _) (.paren (laid_list h))

/-- A name in front of a text that is laid out alike. -/
theorem flat_qualified {relation : Option String} {e : Doc} (h : e.Flat) :
    (qualified relation e).Flat := by
  cases relation with
  | none => exact h
  | some name => exact ⟨⟨trivial, trivial⟩, h⟩

/-- **The texts of a form in the two layouts are laid out side by side**: they are made of the same
    parts, and only the queries that the form combines stand in blocks. -/
theorem laid_formDoc {form : Form Node} (h : AllKids kid d d' form.written)
    (hblock : ∀ n ∈ form.combined, block (d n) (d' n)) :
    Laid kid block (formDoc .lines (form.map (texted d)))
      (formDoc .oneLine (form.map (texted d'))) := by
  have hfirst : ∀ {n : Node} {rest : List Node}, form.written = n :: rest → kid (d n) (d' n) :=
    fun hw => h _ (hw ▸ List.mem_cons_self)
  have hsecond : ∀ {n m : Node} {rest : List Node}, form.written = n :: m :: rest →
      kid (d m) (d' m) :=
    fun hw => h _ (hw ▸ List.mem_cons_of_mem _ List.mem_cons_self)
  cases form with
  | table name => exact .same trivial
  | tableAlias relation name =>
    exact .append (.append (laid_operand (hfirst rfl)) (laid_text _)) (.same trivial)
  | column relation name typeName => exact .same (flat_qualified trivial)
  | star relation =>
    cases relation with
    | none => exact laid_text _
    | some relation => exact .same (flat_qualified trivial)
  | literal v => exact .same trivial
  | bind v => exact .same trivial
  | cast v typeName => exact .same ⟨trivial, ⟨trivial, trivial⟩, trivial⟩
  | raw sql binds => exact .same trivial
  | comparison left op right =>
    exact .comparison op (laid_operand (hfirst rfl)) (laid_operand (hsecond rfl))
  | nullTest c op => exact .append (.append (laid_operand (hfirst rfl)) (laid_text _)) (laid_text _)
  | and left right =>
    exact .append (.append (.kid (hfirst rfl)) (laid_text _)) (.kid (hsecond rfl))
  | or left right =>
    exact .append (.append (.kid (hfirst rfl)) (laid_text _)) (.kid (hsecond rfl))
  | not c => exact .append (laid_text _) (.paren (.kid (hfirst rfl)))
  | grouping c => exact .paren (.kid (hfirst rfl))
  | membership c values negated => exact laid_membership h
  | between c low high negated =>
    have hhigh : kid (d high) (d' high) :=
      h high (List.mem_cons_of_mem _ (List.mem_cons_of_mem _ List.mem_cons_self))
    exact .append (.append (.append (.append (laid_operand (hfirst rfl)) (laid_text _))
      (laid_operand (hsecond rfl))) (laid_text _)) (laid_operand hhigh)
  | existence query negated => exact .append (laid_text _) (.paren (.kid (hfirst rfl)))
  | arithmetic left op right =>
    exact .append (.append (.append (.append (laid_arithmeticOperand (hfirst rfl)) (laid_text _))
      (laid_text _)) (laid_text _)) (laid_arithmeticOperand (hsecond rfl))
  | unary op c => exact .append (laid_text _) (laid_arithmeticOperand (hfirst rfl))
  | call name arguments distinct =>
    have hword : Laid kid block (keyword distinct "DISTINCT ") (keyword distinct "DISTINCT ") := by
      cases distinct <;> exact laid_text _
    exact .append (.same trivial) (.paren (.append hword (laid_list h)))
  | aggregate func argument distinct filter => exact laid_aggregate h
  | extract field c =>
    exact .append (laid_text _) (.paren (.append (.append (laid_text _) (laid_text _))
      (.kid (hfirst rfl))))
  | ordering c direction nulls =>
    have hnulls : Laid kid block (keyword (nulls != .unstated) (" " ++ nulls.word))
        (keyword (nulls != .unstated) (" " ++ nulls.word)) := by
      cases nulls <;> exact laid_text _
    exact .append (.append (.append (laid_operand (hfirst rfl)) (laid_text _)) (laid_text _)) hnulls
  | window w => exact laid_window h
  | windowed c w =>
    exact .append (.append (.kid (hfirst rfl)) (laid_text _))
      (laid_windowRef fun n hn => h n (List.mem_cons_of_mem _ hn))
  | labelled c name =>
    exact .append (.append (laid_operand (hfirst rfl)) (laid_text _)) (.same trivial)
  | choice c branches otherwise => exact laid_choice h
  | groupingSet kind columns sets => exact laid_groupingSet h
  | setOperation s => exact laid_statement (laid_setOperationSections h hblock)
  | cte c => exact laid_cte (hfirst rfl)
  | assignment a => exact laid_assignment h
  | join j => exact laid_joined h
  | select s => exact laid_statement (laid_selectSections h)
  | insert s => exact laid_statement (laid_insertSections h)
  | update s => exact laid_statement (laid_updateSections h)
  | delete s => exact laid_statement (laid_deleteSections h)

end Render
end SqlTree
