import SqlTree.Proofs.Lexer
import SqlTree.Proofs.Mention

/-!
# Where the parts of a text meet

Names, values and words next to each other would be read as something else than what was written:
two quoted names as one, a placeholder and a digit as another placeholder. This file shows that a
rendering never lets two of them meet:

* `fixedText` -- the fixed texts that may stand between two seams: no quotes, no placeholders, no
  parentheses or other groups, and a separator wherever something else may meet them;
* `Doc.Spaced` -- texts whose parts only meet at seams that fit, with one rule for each kind of
  part; an OR and the name of a type are parts for the inside of parentheses;
* `Render.stands_formDoc` -- the text of a form is one if those of its written children are;
* `Node.spaced_doc` -- the text of every tree is one, in either layout, if it is put in parentheses.
-/

namespace SqlTree

/-! ## 1. Fixed texts -/

/-- The characters of keywords, operators and punctuation. Slash and minus are operators only by
    themselves, and parentheses never stand in a fixed text. -/
def isFixed (c : Char) : Bool :=
  NameRule.isWordChar c || c ∈ [' ', '\n', '\t', ',', '.', '=', '*', '<', '>', '!', '~', '&', '|',
    '+', '^', '@']

/-- A text fits two seams: it begins with a separator where a token is held, and does not end in a
    word where it leaves a gap. -/
def fitsSeams (e : Seam) (s : String) (e' : Seam) : Bool :=
  let starts := s.toList.head?.all (· ∈ separators)
  let ends := s.toList.getLast?.any fun c => !NameRule.isWordChar c
  match e, e' with
  | .free, .held => true
  | .free, .free => s.toList.isEmpty || ends
  | .held, .held => starts
  | .held, .free => starts && ends

/-- Words that open or close a group, or connect conditions that AND does not keep apart. -/
def groupWords : List String := ["CASE", "END", "BETWEEN", "XOR", "OR"]

/-- No word of a text groups or connects conditions in this way. -/
def groupless (s : String) : Bool :=
  ((Reading.mk .postgres true).lex s).all fun t => !groupWords.any fun word => t.isWord word

/-- A text of fixed characters that fits two seams, without words that group. -/
def fixedText (e : Seam) (s : String) (e' : Seam) : Bool :=
  s.toList.all isFixed && groupless s && fitsSeams e s e'

section FixedText

variable {e e' : Seam} {s : String}

theorem isFixed_of_fixedText (h : fixedText e s e' = true) : ∀ c ∈ s.toList, isFixed c = true :=
  List.all_eq_true.mp (Bool.and_eq_true_iff.mp (Bool.and_eq_true_iff.mp h).1).1

theorem groupless_of_fixedText (h : fixedText e s e' = true) : groupless s = true :=
  (Bool.and_eq_true_iff.mp (Bool.and_eq_true_iff.mp h).1).2

theorem fitsSeams_of_fixedText (h : fixedText e s e' = true) : fitsSeams e s e' = true :=
  (Bool.and_eq_true_iff.mp h).2

end FixedText

/-- The words of a range, which end where its lower end begins. -/
def rangeWords : List String := [" BETWEEN ", " NOT BETWEEN "]

/-- Operators of one character that could open something if another one met them. -/
def loneOperators : List String := ["/", "-"]

/-! ## 2. Texts whose parts fit -/

/-- A text from one seam to another one whose parts meet only at seams that fit. An OR and the names
    of types only stand `inside` parentheses. Lines are moved only in the layout over several
    lines. -/
inductive Doc.Spaced (layout : Layout) : Bool → Seam → Doc → Seam → Prop where
  | text {inside : Bool} {e e' : Seam} {s : String} (h : fixedText e s e' = true) :
    Spaced layout inside e (.text s) e'
  | or : Spaced layout true .held (.text " OR ") .free
  | operator {inside : Bool} {s : String} (h : s ∈ loneOperators) :
    Spaced layout inside .free (.text s) .held
  | name {inside : Bool} (s : String) : Spaced layout inside .free (.name s) .held
  | bare {inside : Bool} {rule : NameRule} (h : inside = true ∨ rule = .function) (s : String) :
    Spaced layout inside .free (.bare rule s) .held
  | value {inside : Bool} (v : Value) : Spaced layout inside .free (.value v) .held
  | raw {inside : Bool} (sql : String) (binds : List Value) :
    Spaced layout inside .free (.raw sql binds) .held
  | comment {inside : Bool} {e' : Seam} {mark : String} (h : mark ∈ commentMarks) (s : String) :
    Spaced layout inside .free (.comment mark s) e'
  | comparison {inside : Bool} {l r : Doc} (op : ComparisonOp)
    (hl : Spaced layout inside .free l .held) (hr : Spaced layout inside .free r .held) :
    Spaced layout inside .free (.comparison op l r) .held
  | paren {inside : Bool} {e e' : Seam} {d : Doc} (h : Spaced layout true .free d .held) :
    Spaced layout inside e (.paren d) e'
  | indented {inside : Bool} {d : Doc} (hl : layout = .lines)
    (h : Spaced layout inside .free d .held) : Spaced layout inside .free (.indented d) .held
  /-- The two words of a range, with its lower end between them. -/
  | range {inside : Bool} {e e' : Seam} {d low : Doc} {word : String} (hw : word ∈ rangeWords)
    (hd : Spaced layout inside e d .held) (hlow : Spaced layout inside .free low .held) :
    Spaced layout inside e (d ++ .text word ++ low ++ .text " AND ") e'
  /-- A CASE from its first word to its last one. -/
  | choice {inside : Bool} {d branches otherwise : Doc} (hd : Spaced layout inside .held d .held)
    (hb : Spaced layout inside .held branches .held)
    (ho : Spaced layout inside .held otherwise .held) :
    Spaced layout inside .free (.text "CASE" ++ d ++ branches ++ otherwise ++ .text " END") .held
  | append {inside : Bool} {e e' e'' : Seam} {l r : Doc} (hl : Spaced layout inside e l e')
    (hr : Spaced layout inside e' r e'') : Spaced layout inside e (.append l r) e''

namespace Doc

/-- A text that may stand at a gap. -/
abbrev Stands (layout : Layout) (inside : Bool) (d : Doc) : Prop :=
  Spaced layout inside .free d .held

namespace Spaced

variable {layout : Layout} {inside : Bool} {e e' : Seam} {d l r : Doc}

/-- What fits outside parentheses fits inside of them, too. -/
theorem sheltered (h : Spaced layout inside e d e') : Spaced layout true e d e' := by
  induction h with
  | text h => exact .text h
  | or => exact .or
  | operator h => exact .operator h
  | name s => exact .name s
  | bare h s => exact .bare (.inl rfl) s
  | value v => exact .value v
  | raw sql binds => exact .raw sql binds
  | comment h s => exact .comment h s
  | comparison op _ _ ihl ihr => exact .comparison op ihl ihr
  | paren h _ => exact .paren h
  | indented hl _ ih => exact .indented hl ih
  | range hw _ _ ihd ihlow => exact .range hw ihd ihlow
  | choice _ _ _ ihd ihb iho => exact .choice ihd ihb iho
  | append _ _ ihl ihr => exact .append ihl ihr

/-- Any text that may stand at a gap may be put in parentheses. -/
theorem enclose {outer : Bool} (h : d.Stands layout inside) : Spaced layout outer e (.paren d) e' :=
  .paren h.sheltered

/-- A fixed text between two parts: it may follow anything, and anything may follow it. -/
theorem between {s : String} (h : fixedText .held s .free = true) :
    Spaced layout inside .held (.text s) .free := .text h

/-- **Texts with a separator between each two fit**, if each of them may stand at a gap. -/
theorem join {separator : Doc} (hs : Spaced layout inside .held separator .free) :
    ∀ {ds : List Doc}, (∀ d ∈ ds, d.Stands layout inside) →
      (Doc.join separator ds).Stands layout inside
  | [], _ => .text rfl
  | [d], h => h d List.mem_cons_self
  | d :: e :: rest, h => by
    have hd : d.Stands layout inside := h d List.mem_cons_self
    have hrest : (Doc.join separator (e :: rest)).Stands layout inside :=
      join hs fun d hd => h d (List.mem_cons_of_mem _ hd)
    exact .append (.append hd hs) hrest

/-- A keyword with a text behind it, or nothing, after a held token. -/
theorem after {word : String} (hw : fixedText .held word .free = true) {d : Option Doc}
    (h : ∀ c ∈ d.toList, c.Stands layout inside) :
    Spaced layout inside .held (Doc.after word d) .held := by
  cases d with
  | none => exact .text rfl
  | some c => exact .append (.text hw) (h c List.mem_cons_self)

end Spaced
end Doc

/-! ## 3. Clauses -/

namespace Render

open Doc Doc.Spaced

variable {layout : Layout} {inside : Bool}

/-- All of these children may stand at a gap. -/
def AllStand (layout : Layout) (inside : Bool) (children : List Child) : Prop :=
  ∀ c ∈ children, c.2.Stands layout inside

theorem AllStand.of_subset {l l' : List Child} (h : AllStand layout inside l') (hs : l ⊆ l') :
    AllStand layout inside l := fun c hc => h c (hs hc)

/-- A comma between two texts. -/
theorem spaced_comma : Spaced layout inside .held (.text ", ") .free := .text rfl

theorem stands_operand {c : Child} (h : c.2.Stands layout inside) :
    (operand c).Stands layout inside := by
  unfold operand
  split
  · exact .enclose h
  · exact h

theorem stands_arithmeticOperand {c : Child} (h : c.2.Stands layout inside) :
    (arithmeticOperand c).Stands layout inside := by
  unfold arithmeticOperand
  split
  · exact .enclose h
  · exact .enclose h
  · exact stands_operand h

theorem stands_unqualified {c : Child} (h : c.2.Stands layout inside) :
    (unqualified c).Stands layout inside := by
  unfold unqualified
  split
  · exact .name _
  · exact h

/-- A word that may be left out, after a held token. -/
theorem spaced_keyword {e : Seam} {present : Bool} {word : String}
    (hw : fixedText e word .held = true) : Spaced layout inside e (keyword present word) .held := by
  cases present with
  | true => exact .text hw
  | false =>
    cases e with
    | free => exact .text rfl
    | held => exact .text rfl

theorem stands_commas {ds : List Doc} (h : ∀ d ∈ ds, d.Stands layout inside) :
    (commas ds).Stands layout inside := Spaced.join spaced_comma h

/-- Texts of children, each written in a way that may stand at a gap if the child may. -/
theorem stands_commas_map {κ : Type} {l : List κ} {write : κ → Doc}
    (h : ∀ c ∈ l, (write c).Stands layout inside) :
    (commas (l.map write)).Stands layout inside := by
  refine stands_commas fun d hd => ?_
  obtain ⟨c, hc, rfl⟩ := List.mem_map.mp hd
  exact h c hc

theorem stands_list {children : List Child} (h : AllStand layout inside children) :
    (list children).Stands layout inside := stands_commas_map h

theorem stands_conjunction {children : List Child} (h : AllStand layout inside children) :
    (conjunction children).Stands layout inside := by
  refine Spaced.join (.text rfl) fun d hd => ?_
  obtain ⟨c, hc, rfl⟩ := List.mem_map.mp hd
  exact h c hc

theorem spaced_columnList {e e' : Seam} {columns : List Child}
    (h : AllStand layout inside columns) : Spaced layout inside e (columnList columns) e' :=
  .enclose (stands_commas_map fun c hc => stands_unqualified (h c hc))

theorem stands_valuesRow {row : List Child} (h : AllStand layout inside row) :
    (valuesRow row).Stands layout inside :=
  .enclose (stands_commas_map fun c hc => stands_operand (h c hc))

theorem stands_bound {b : Bound Child} (h : AllStand layout inside b.children) :
    (bound b).Stands layout inside := by
  have hafter : ∀ {n : Child} {s : String}, n.2.Stands layout inside →
      fixedText .free s .held = true →
      (n.2 ++ " " ++ s : Doc).Stands layout inside :=
    fun hn hs => .append (.append hn (between rfl)) (.text hs)
  cases b with
  | preceding n => exact hafter (h n List.mem_cons_self) (s := "PRECEDING") rfl
  | following n => exact hafter (h n List.mem_cons_self) (s := "FOLLOWING") rfl
  | _ => exact .text rfl

theorem stands_frameUnit (unit : FrameUnit) : (Doc.text unit.word).Stands layout inside := by
  cases unit <;> exact .text rfl

theorem stands_frame {f : Frame Child} (h : AllStand layout inside f.children) :
    (frame f).Stands layout inside := by
  obtain ⟨unit, start, stop⟩ := f
  have hunit : (Doc.text unit.word).Stands layout inside := stands_frameUnit unit
  have hstart : (bound start).Stands layout inside :=
    stands_bound (h.of_subset (List.subset_append_left _ _))
  cases stop with
  | none => exact .append (.append hunit (.text rfl)) hstart
  | some stop =>
    have hstop : (bound stop).Stands layout inside := stands_bound fun c hc =>
      h c (List.mem_append_right _ (List.mem_flatMap.mpr ⟨stop, List.mem_cons_self, hc⟩))
    exact .append (.range (by decide) hunit hstart) hstop

theorem stands_windowBody {w : Window Child} (h : AllStand layout inside w.children) :
    (windowBody w).Stands layout inside := by
  obtain ⟨name, partition, order, fr⟩ := w
  simp only [AllStand, Window.children, List.forall_mem_append, List.forall_mem_flatMap] at h
  obtain ⟨⟨hpartition, horder⟩, hframe⟩ := h
  refine Spaced.join (.text rfl) fun d hd => ?_
  simp only [List.mem_append] at hd
  rcases hd with (hd | hd) | hd
  · cases partition with
    | nil => cases hd
    | cons c rest =>
      rw [List.mem_singleton.mp hd]
      exact .append (.text rfl) (stands_list hpartition)
  · cases order with
    | nil => cases hd
    | cons c rest =>
      rw [List.mem_singleton.mp hd]
      exact .append (.text rfl) (stands_list horder)
  · cases fr with
    | none => cases hd
    | some f =>
      rw [List.mem_singleton.mp hd]
      exact stands_frame (hframe f List.mem_cons_self)

theorem stands_window {w : Window Child} (h : AllStand layout inside w.children) :
    (window w).Stands layout inside := by
  have hbody := stands_windowBody h
  unfold window
  split
  · exact .append (.append (.name _) (between rfl)) (.enclose hbody)
  · exact .enclose hbody

theorem stands_windowRef {w : WindowRef Child} (h : AllStand layout inside w.children) :
    (windowRef w).Stands layout inside := by
  cases w with
  | inline w => exact .enclose (stands_windowBody h)
  | named name => exact .name name

/-- One WHEN with its THEN follows a held token. -/
theorem spaced_branch {b : Branch Child} (h : AllStand layout inside b.children) :
    Spaced layout inside .held (branch b) .held := by
  have hcondition : (operand b.condition).Stands layout inside :=
    stands_operand (h _ List.mem_cons_self)
  have hresult : (operand b.result).Stands layout inside :=
    stands_operand (h _ (List.mem_cons_of_mem _ List.mem_cons_self))
  exact .append (.append (.append (.text rfl) hcondition) (.text rfl)) hresult

theorem spaced_branches {branches : List (Branch Child)}
    (h : ∀ b ∈ branches, AllStand layout inside b.children) :
    Spaced layout inside .held (Doc.join Doc.empty (branches.map branch)) .held := by
  have hnothing : Spaced layout inside .held Doc.empty .held := .text rfl
  induction branches with
  | nil => exact hnothing
  | cons b rest ih =>
    have hb : Spaced layout inside .held (branch b) .held := spaced_branch (h b List.mem_cons_self)
    have hrest := ih fun b' hb' => h b' (List.mem_cons_of_mem _ hb')
    cases rest with
    | nil => exact hb
    | cons b' rest => exact .append (.append hb hnothing) hrest

theorem stands_assignment {a : Assignment Child} (h : AllStand layout inside a.children) :
    (assignment a).Stands layout inside := by
  have htarget : a.target.2.Stands layout inside := h _ List.mem_cons_self
  have hvalue : (operand a.value).Stands layout inside :=
    stands_operand (h _ (List.mem_cons_of_mem _ List.mem_cons_self))
  exact .append (.append htarget (.text rfl)) hvalue

theorem stands_join {j : Join Child} (h : AllStand layout inside j.written) :
    (Render.join j).Stands layout inside := by
  obtain ⟨kind, right, predicate, lateral⟩ := j
  have hplain : ∀ kind : JoinKind, AllStand layout inside (right :: predicate.toList) →
      (kind.word ++ keyword lateral " LATERAL" ++ " " ++ operand right
        ++ Doc.after " ON " (predicate.map (·.2)) : Doc).Stands layout inside := by
    intro kind h
    have hright : (operand right).Stands layout inside := stands_operand (h _ List.mem_cons_self)
    have hkind : (Doc.text kind.word).Stands layout inside := by cases kind <;> exact .text rfl
    have hlateral : Spaced layout inside .held (keyword lateral " LATERAL") .held :=
      spaced_keyword rfl
    have hpredicate : Spaced layout inside .held (Doc.after " ON " (predicate.map (·.2)))
        .held := by
      refine Spaced.after rfl fun d hd => ?_
      cases predicate with
      | none => cases hd
      | some c =>
        rw [List.mem_singleton.mp hd]
        exact h c (List.mem_cons_of_mem _ List.mem_cons_self)
    exact .append (.append (.append (.append hkind hlateral) (.text rfl)) hright) hpredicate
  cases kind with
  | verbatim => exact h right List.mem_cons_self
  | _ => exact hplain _ h

theorem stands_cte {c : Cte Child} (h : c.query.2.Stands layout inside) :
    (cte c).Stands layout inside := by
  have hcolumns : Spaced layout inside .held (if c.columns.isEmpty then Doc.empty
      else " " ++ .paren (commas (c.columns.map Doc.name))) .held := by
    split
    · exact .text rfl
    · exact .append (between rfl) (.paren (stands_commas_map fun n _ => .name n))
  unfold cte
  exact .append (.append (.append (.name _) hcolumns) (between rfl)) (.enclose h)

theorem stands_withClause? {ctes : List (Cte Child)}
    (h : AllStand layout inside (ctes.map (·.query))) :
    ∀ d ∈ (withClause? ctes).toList, d.Stands layout inside := by
  intro d hd
  have hlist : (commas (ctes.map cte)).Stands layout inside :=
    stands_commas_map fun c hc => stands_cte (h _ (List.mem_map_of_mem hc))
  have hword : ∀ recursive : Bool, Spaced layout inside .free
      (Doc.text (if recursive then "WITH RECURSIVE " else "WITH ")) .free := by
    intro recursive
    cases recursive <;> exact .text rfl
  unfold withClause? at hd
  split at hd
  · cases hd
  · rw [List.mem_singleton.mp hd]
    exact .append (hword _) hlist

theorem stands_onConflict {c : OnConflict Child} (h : AllStand layout inside c.children) :
    (onConflict c).Stands layout inside := by
  obtain ⟨columns, action⟩ := c
  have hcolumns : Spaced layout inside .held (if columns.isEmpty then Doc.empty
      else " " ++ columnList columns) .held := by
    split
    · exact .text rfl
    · exact .append (between rfl) (spaced_columnList (h.of_subset (List.subset_append_left _ _)))
  have haction := h.of_subset (List.subset_append_right columns action.children)
  cases action with
  | doNothing => exact .append (.append (.text rfl) hcolumns) (.text rfl)
  | doUpdate assignments wheres =>
    simp only [AllStand, ConflictAction.children, List.forall_mem_append,
      List.forall_mem_flatMap] at haction
    obtain ⟨hassignments, hwheres⟩ := haction
    have hset : (commas (assignments.map assignment)).Stands layout inside :=
      stands_commas_map fun a ha => stands_assignment (hassignments a ha)
    have hwhere : Spaced layout inside .held (if wheres.isEmpty then Doc.empty
        else " WHERE " ++ conjunction wheres) .held := by
      split
      · exact .text rfl
      · exact .append (.text rfl) (stands_conjunction hwheres)
    exact .append (.append (.text rfl) hcolumns) (.append (.append (.text rfl) hset) hwhere)

/-! ## 4. Statements -/

/-- A section whose texts may stand at a gap. -/
def SectionStands (layout : Layout) (inside : Bool) : Section → Prop
  | .line d => d.Stands layout inside
  | .items heading _ items => heading.Stands layout inside ∧ ∀ d ∈ items, d.Stands layout inside
  | .block body => body.Stands layout inside

theorem stands_lay {s : Section} (h : SectionStands layout inside s) :
    (layout.lay s).Stands layout inside := by
  cases s with
  | line text => exact h
  | block body =>
    cases layout with
    | oneLine => exact .enclose h
    | lines => exact .enclose (.append (.append (.text rfl) (.indented rfl h)) (.text rfl))
  | items heading separator items =>
    obtain ⟨hheading, hitems⟩ := h
    have hseparator : Spaced layout inside .held (layout.between separator) .free := by
      cases layout <;> cases separator <;> exact .text rfl
    have hlist : (heading ++ " " ++ Doc.join (layout.between separator) items).Stands layout
        inside :=
      .append (.append hheading (.text rfl)) (Spaced.join hseparator hitems)
    cases layout with
    | oneLine => exact hlist
    | lines =>
      cases items with
      | nil => exact hheading
      | cons d rest => exact hlist

/-- **Sections that may stand at a gap make a statement that may.** -/
theorem stands_statement {sections : List Section}
    (h : ∀ s ∈ sections, SectionStands layout inside s) :
    (layout.statement sections).Stands layout inside := by
  unfold Layout.statement
  refine Spaced.join ?_ fun d hd => ?_
  · cases layout <;> exact .text rfl
  · obtain ⟨s, hs, rfl⟩ := List.mem_map.mp hd
    exact stands_lay (h s hs)

theorem itemsOf_stand {heading : String} (hh : fixedText .free heading .held = true)
    {separator : Separator} {children : List Child} (h : AllStand layout inside children) :
    ∀ s ∈ itemsOf heading separator children, SectionStands layout inside s := by
  intro s hs
  unfold itemsOf at hs
  split at hs
  · cases hs
  · rw [List.mem_singleton.mp hs]
    refine ⟨.text hh, fun d hd => ?_⟩
    obtain ⟨c, hc, rfl⟩ := List.mem_map.mp hd
    exact h c hc

theorem lineOf_stands {heading : String} (hh : fixedText .free heading .free = true)
    {d : Option Doc} (h : ∀ c ∈ d.toList, c.Stands layout inside) :
    ∀ s ∈ lineOf heading d, SectionStands layout inside s := by
  intro s hs
  cases d with
  | none => cases hs
  | some c =>
    rw [List.mem_singleton.mp hs]
    exact .append (.text hh) (h c List.mem_cons_self)

theorem optionalLine_stands {d : Option Doc} (h : ∀ c ∈ d.toList, c.Stands layout inside) :
    ∀ s ∈ (d.map Section.line).toList, SectionStands layout inside s := by
  intro s hs
  cases d with
  | none => cases hs
  | some c =>
    rw [List.mem_singleton.mp hs]
    exact h c List.mem_cons_self

theorem optional_stands {d : Option Child} (h : AllStand layout inside d.toList) :
    ∀ c ∈ (d.map (·.2)).toList, c.Stands layout inside := by
  cases d with
  | none => exact fun c hc => by cases hc
  | some n => exact fun c hc => List.mem_singleton.mp hc ▸ h n List.mem_cons_self

theorem optionalOperand_stands {d : Option Child} (h : AllStand layout inside d.toList) :
    ∀ c ∈ (d.map operand).toList, c.Stands layout inside := by
  cases d with
  | none => exact fun c hc => by cases hc
  | some n =>
    intro c hc
    rw [List.mem_singleton.mp hc]
    exact stands_operand (h n List.mem_cons_self)

theorem stands_selectHead {s : Select Child} (h : AllStand layout inside s.distinctOn) :
    (selectHead s).Stands layout inside := by
  have hhints : Spaced layout inside .held (if s.hints.isEmpty then Doc.empty
      else " " ++ .comment "/*+" (" ".intercalate s.hints)) .held := by
    split
    · exact .text rfl
    · exact .append (between rfl) (.comment (by decide) _)
  have hdistinct : Spaced layout inside .held
      (if s.distinctOn.isEmpty then keyword s.distinct " DISTINCT"
      else " DISTINCT ON " ++ .paren (list s.distinctOn)) .held := by
    split
    · exact spaced_keyword rfl
    · exact .append (between rfl) (.enclose (stands_list h))
  exact .append (.append (.text rfl) hhints) hdistinct

theorem stands_lockClause? (s : Select Child) :
    ∀ d ∈ (lockClause? s).toList, d.Stands layout inside := by
  intro d hd
  unfold lockClause? at hd
  cases hl : s.lock with
  | none =>
    rw [hl] at hd
    cases hd
  | some mode =>
    rw [hl] at hd
    have hword : (Doc.text mode.word).Stands layout inside := by cases mode <;> exact .text rfl
    rw [List.mem_singleton.mp hd]
    exact .append hword (spaced_keyword rfl)

/-- The sections of a SELECT may stand at a gap if its written children may. -/
theorem selectSections_stand {s : Select Child} (h : AllStand layout inside s.written) :
    ∀ sec ∈ selectSections s, SectionStands layout inside sec := by
  simp only [AllStand, Select.written, List.forall_mem_append, List.forall_mem_flatMap] at h
  obtain ⟨⟨⟨⟨⟨⟨⟨⟨⟨⟨⟨hctes, hdistinct⟩, hprojections⟩, hsource⟩, hjoins⟩, hwheres⟩, hgroups⟩,
    hhavings⟩, hwindows⟩, horders⟩, hlimit⟩, hoffset⟩ := h
  have hhead : (selectHead s).Stands layout inside := stands_selectHead hdistinct
  have hprojection : SectionStands layout inside
      (if s.projections.isEmpty then .line (selectHead s ++ " *")
        else .items (selectHead s) .comma (s.projections.map (·.2))) := by
    split
    · exact Spaced.append hhead (.text rfl)
    · refine ⟨hhead, fun d hd => ?_⟩
      obtain ⟨c, hc, rfl⟩ := List.mem_map.mp hd
      exact hprojections c hc
  have hcomment : ∀ sec ∈ (s.comment.map fun text => Section.line (.comment "/*" text)).toList,
      SectionStands layout inside sec := by
    intro sec hsec
    cases hc : s.comment with
    | none =>
      rw [hc] at hsec
      cases hsec
    | some text =>
      rw [hc] at hsec
      rw [List.mem_singleton.mp hsec]
      exact Spaced.comment (by decide) text
  have hjoin : ∀ sec ∈ s.joins.map fun j => Section.line (Render.join j),
      SectionStands layout inside sec := by
    intro sec hsec
    obtain ⟨j, hj, rfl⟩ := List.mem_map.mp hsec
    exact stands_join (hjoins j hj)
  have hwindow : ∀ sec ∈ (if s.windows.isEmpty then []
      else [Section.items "WINDOW" .comma (s.windows.map window)]),
      SectionStands layout inside sec := by
    intro sec hsec
    split at hsec
    · cases hsec
    · rw [List.mem_singleton.mp hsec]
      refine ⟨.text rfl, fun d hd => ?_⟩
      obtain ⟨w, hw, rfl⟩ := List.mem_map.mp hd
      exact stands_window (hwindows w hw)
  unfold selectSections
  simp only [List.forall_mem_append, List.forall_mem_singleton]
  exact ⟨⟨⟨⟨⟨⟨⟨⟨⟨⟨⟨⟨optionalLine_stands (stands_withClause? hctes), hcomment⟩, hprojection⟩,
    lineOf_stands rfl (optionalOperand_stands hsource)⟩, hjoin⟩, itemsOf_stand rfl hwheres⟩,
    itemsOf_stand rfl hgroups⟩, itemsOf_stand rfl hhavings⟩, hwindow⟩,
    itemsOf_stand rfl horders⟩, lineOf_stands rfl (optional_stands hlimit)⟩,
    lineOf_stands rfl (optional_stands hoffset)⟩, optionalLine_stands (stands_lockClause? s)⟩

theorem setOperationSections_stand {s : SetOperation Child}
    (h : AllStand layout inside s.children) :
    ∀ sec ∈ setOperationSections s, SectionStands layout inside sec := by
  simp only [AllStand, SetOperation.children, List.forall_mem_cons, List.forall_mem_append] at h
  obtain ⟨hleft, hright, ⟨horders, hlimit⟩, hoffset⟩ := h
  have hop : (Doc.text s.op.word).Stands layout inside := by cases s.op <;> exact .text rfl
  have hblocks : ∀ sec ∈ [Section.block s.left.2, .line s.op.word, .block s.right.2],
      SectionStands layout inside sec := by
    intro sec hsec
    simp only [List.mem_cons, List.not_mem_nil, or_false] at hsec
    rcases hsec with rfl | rfl | rfl
    · exact hleft
    · exact hop
    · exact hright
  unfold setOperationSections
  simp only [List.forall_mem_append]
  exact ⟨⟨⟨hblocks, itemsOf_stand rfl horders⟩, lineOf_stands rfl (optional_stands hlimit)⟩,
    lineOf_stands rfl (optional_stands hoffset)⟩

theorem insertSource_stands {s : Insert Child} (h : AllStand layout inside s.writtenSource) :
    SectionStands layout inside (insertSource s) := by
  unfold insertSource
  unfold Insert.writtenSource at h
  cases hs : s.select with
  | some query =>
    rw [hs] at h
    exact h query List.mem_cons_self
  | none =>
    rw [hs] at h
    dsimp only
    split
    · exact Spaced.text rfl
    · refine ⟨.text rfl, fun d hd => ?_⟩
      obtain ⟨row, hrow, rfl⟩ := List.mem_map.mp hd
      exact stands_valuesRow fun c hc => h c (List.mem_flatten.mpr ⟨row, hrow, hc⟩)

theorem insertSections_stand {s : Insert Child} (h : AllStand layout inside s.written) :
    ∀ sec ∈ insertSections s, SectionStands layout inside sec := by
  simp only [AllStand, Insert.written, List.forall_mem_cons, List.forall_mem_append,
    List.forall_mem_flatMap] at h
  obtain ⟨htarget, ⟨⟨hcolumns, hsource⟩, hconflict⟩, hreturning⟩ := h
  have hcolumnList : Spaced layout inside .held (if s.columns.isEmpty then Doc.empty
      else " " ++ columnList s.columns) .held := by
    split
    · exact .text rfl
    · exact .append (between rfl) (spaced_columnList hcolumns)
  have hhead : ("INSERT INTO " ++ s.target.2 ++ if s.columns.isEmpty then Doc.empty
      else " " ++ columnList s.columns).Stands layout inside :=
    .append (.append (.text rfl) htarget) hcolumnList
  have honConflict : ∀ sec ∈ (s.onConflict.map fun c => Section.line (onConflict c)).toList,
      SectionStands layout inside sec := by
    intro sec hsec
    cases hc : s.onConflict with
    | none =>
      rw [hc] at hsec
      cases hsec
    | some c =>
      rw [hc] at hsec
      rw [List.mem_singleton.mp hsec]
      exact stands_onConflict (hconflict c (by rw [hc]; exact List.mem_cons_self))
  unfold insertSections
  simp only [List.forall_mem_append, List.forall_mem_cons]
  exact ⟨⟨⟨hhead, insertSource_stands hsource, fun sec hsec => by cases hsec⟩, honConflict⟩,
    itemsOf_stand rfl hreturning⟩

theorem updateSections_stand {s : Update Child} (h : AllStand layout inside s.children) :
    ∀ sec ∈ updateSections s, SectionStands layout inside sec := by
  simp only [AllStand, Update.children, List.forall_mem_cons, List.forall_mem_append,
    List.forall_mem_flatMap] at h
  obtain ⟨htarget, ⟨hassignments, hwheres⟩, hreturning⟩ := h
  have hhead : ("UPDATE " ++ s.target.2 : Doc).Stands layout inside := .append (.text rfl) htarget
  have hset : SectionStands layout inside (.items "SET" .comma (s.assignments.map assignment)) := by
    refine ⟨.text rfl, fun d hd => ?_⟩
    obtain ⟨a, ha, rfl⟩ := List.mem_map.mp hd
    exact stands_assignment (hassignments a ha)
  unfold updateSections
  simp only [List.forall_mem_append, List.forall_mem_cons]
  exact ⟨⟨⟨hhead, hset, fun sec hsec => by cases hsec⟩, itemsOf_stand rfl hwheres⟩,
    itemsOf_stand rfl hreturning⟩

theorem deleteSections_stand {s : Delete Child} (h : AllStand layout inside s.children) :
    ∀ sec ∈ deleteSections s, SectionStands layout inside sec := by
  simp only [AllStand, Delete.children, List.forall_mem_cons, List.forall_mem_append] at h
  obtain ⟨htarget, hwheres, hreturning⟩ := h
  have hhead : ("DELETE FROM " ++ s.target.2 : Doc).Stands layout inside :=
    .append (.text rfl) htarget
  unfold deleteSections
  simp only [List.forall_mem_append, List.forall_mem_singleton]
  exact ⟨⟨hhead, itemsOf_stand rfl hwheres⟩, itemsOf_stand rfl hreturning⟩

/-! ## 5. Expressions -/

theorem stands_qualified {relation : Option String} {d : Doc} (h : d.Stands layout inside) :
    (qualified relation d).Stands layout inside := by
  cases relation with
  | none => exact h
  | some name => exact .append (.append (.name name) (between rfl)) h

theorem stands_membership {c : Child} {values : List Child} {negated : Bool}
    (h : AllStand layout inside (if values.isEmpty then [] else c :: values)) :
    (membership c values negated).Stands layout inside := by
  have hword : Spaced layout inside .held (.text (if negated then " NOT IN " else " IN "))
      .free := by
    cases negated <;> exact .text rfl
  rcases values with _ | ⟨v, _ | ⟨w, rest⟩⟩
  · cases negated <;> exact .text rfl
  · have hc : (operand c).Stands layout inside := stands_operand (h c List.mem_cons_self)
    have hv : v.2.Stands layout inside := h v (List.mem_cons_of_mem _ List.mem_cons_self)
    exact .append (.append hc hword) (.enclose hv)
  · have hc : (operand c).Stands layout inside := stands_operand (h c List.mem_cons_self)
    have hlist : (commas ((v :: w :: rest).map operand)).Stands layout inside :=
      stands_commas_map fun k hk => stands_operand (h k (List.mem_cons_of_mem _ hk))
    exact .append (.append hc hword) (.enclose hlist)

theorem stands_arithmeticOp (op : ArithmeticOp) : (Doc.text op.word).Stands layout inside := by
  cases op with
  | sub => exact .operator (by decide)
  | div => exact .operator (by decide)
  | _ => exact .text rfl

theorem stands_aggregate {func : AggregateFunc} {argument : Option Child} {distinct : Bool}
    {filter : Option Child} (h : AllStand layout inside (argument.toList ++ filter.toList)) :
    (aggregate func argument distinct filter).Stands layout inside := by
  have hfunc : (Doc.text func.word).Stands layout inside := by cases func <;> exact .text rfl
  have hrange : (keyword distinct "DISTINCT " ++ ((argument.map (·.2)).getD "*" : Doc)).Stands
      layout inside := by
    have hword : Spaced layout inside .free (keyword distinct "DISTINCT ") .free := by
      cases distinct <;> exact .text rfl
    cases argument with
    | none => exact .append hword (.text rfl)
    | some c => exact .append hword (h c List.mem_cons_self)
  have hfilter : Spaced layout inside .held
      (Doc.after " FILTER " (filter.map fun c => .paren ("WHERE " ++ c.2))) .held := by
    refine Spaced.after rfl fun d hd => ?_
    cases filter with
    | none => cases hd
    | some c =>
      have hc : c.2.Stands layout inside := h c (List.mem_append_right _ List.mem_cons_self)
      rw [List.mem_singleton.mp hd]
      exact .enclose (.append (.text rfl) hc)
  exact .append (.append hfunc (.enclose hrange)) hfilter

theorem stands_ordering {c : Child} {direction : Direction} {nulls : NullPlacement}
    (h : c.2.Stands layout inside) : (ordering c direction nulls).Stands layout inside := by
  have hdirection : (Doc.text direction.word).Stands layout inside := by
    cases direction <;> exact .text rfl
  have hnulls : Spaced layout inside .held (keyword (nulls != .unstated) (" " ++ nulls.word))
      .held := by
    cases nulls <;> exact .text rfl
  exact .append (.append (.append (stands_operand h) (.text rfl)) hdirection) hnulls

theorem stands_choice {c : Option Child} {branches : List (Branch Child)}
    {otherwise : Option Child}
    (h : AllStand layout inside
      (c.toList ++ branches.flatMap Branch.children ++ otherwise.toList)) :
    (choice c branches otherwise).Stands layout inside := by
  simp only [AllStand, List.forall_mem_append, List.forall_mem_flatMap] at h
  obtain ⟨⟨hoperand, hbranches⟩, hotherwise⟩ := h
  have hhead : Spaced layout inside .held (Doc.after " " (c.map operand)) .held :=
    Spaced.after rfl (optionalOperand_stands hoperand)
  have helse : Spaced layout inside .held (Doc.after " ELSE " (otherwise.map operand)) .held :=
    Spaced.after rfl (optionalOperand_stands hotherwise)
  exact .choice hhead (spaced_branches hbranches) helse

theorem stands_groupingSet {kind : GroupingKind} {columns : List Child} {sets : List (List Child)}
    (h : AllStand layout inside (Form.groupingSet kind columns sets).written) :
    (groupingSet kind columns sets).Stands layout inside := by
  have hkind : (Doc.text kind.word).Stands layout inside := by cases kind <;> exact .text rfl
  cases kind with
  | groupingSets =>
    refine .append hkind (.paren (stands_commas_map fun set hset => ?_))
    exact .enclose (stands_list fun c hc => h c (List.mem_flatten.mpr ⟨set, hset, hc⟩))
  | _ => exact .append hkind (.enclose (stands_list h))

/-- **A form may stand at a gap if its written children may**, and an OR if that is in
    parentheses. -/
theorem stands_formDoc {form : Form Child} (hor : inside = true ∨ ∀ l r, form ≠ .or l r)
    (h : AllStand layout inside form.written) : (formDoc layout form).Stands layout inside := by
  cases form with
  | table name => exact .name name
  | tableAlias relation name =>
    have hr : (operand relation).Stands layout inside := stands_operand (h _ List.mem_cons_self)
    exact .append (.append hr (.text rfl)) (.name name)
  | column relation name typeName => exact stands_qualified (.name name)
  | star relation => exact stands_qualified (.text rfl)
  | literal v => exact .value v
  | bind v => exact .value v
  | cast v typeName =>
    have hinside : (.value v ++ " AS " ++ .bare .type typeName : Doc).Stands layout true :=
      .append (.append (.value v) (.text rfl)) (.bare (.inl rfl) typeName)
    exact .append (.text rfl) (.paren (e := .held) hinside)
  | raw sql binds => exact .raw sql binds
  | comparison left op right =>
    have hleft : (operand left).Stands layout inside := stands_operand (h _ List.mem_cons_self)
    have hright : (operand right).Stands layout inside :=
      stands_operand (h _ (List.mem_cons_of_mem _ List.mem_cons_self))
    exact .comparison op hleft hright
  | nullTest c op =>
    have hc : (operand c).Stands layout inside := stands_operand (h _ List.mem_cons_self)
    have hop : (Doc.text op.word).Stands layout inside := by cases op <;> exact .text rfl
    exact .append (.append hc (between rfl)) hop
  | and left right =>
    exact .append (.append (h _ List.mem_cons_self) (.text rfl))
      (h _ (List.mem_cons_of_mem _ List.mem_cons_self))
  | or left right =>
    obtain rfl : inside = true := hor.resolve_right fun hne => hne left right rfl
    exact .append (.append (h _ List.mem_cons_self) .or)
      (h _ (List.mem_cons_of_mem _ List.mem_cons_self))
  | not c => exact .append (.text rfl) (.enclose (e := .free) (h _ List.mem_cons_self))
  | grouping c => exact .enclose (h _ List.mem_cons_self)
  | membership c values negated => exact stands_membership h
  | between c low high negated =>
    have hc : (operand c).Stands layout inside := stands_operand (h _ List.mem_cons_self)
    have hlow : (operand low).Stands layout inside :=
      stands_operand (h _ (List.mem_cons_of_mem _ List.mem_cons_self))
    have hhigh : (operand high).Stands layout inside :=
      stands_operand (h _ (List.mem_cons_of_mem _ (List.mem_cons_of_mem _ List.mem_cons_self)))
    have hword : (if negated then " NOT BETWEEN " else " BETWEEN ") ∈ rangeWords := by
      cases negated <;> decide
    exact .append (.range hword hc hlow) hhigh
  | existence query negated =>
    have hword : Spaced layout inside .free (.text (if negated then "NOT EXISTS " else "EXISTS "))
        .free := by
      cases negated <;> exact .text rfl
    exact .append hword (.enclose (h _ List.mem_cons_self))
  | arithmetic left op right =>
    have hleft : (arithmeticOperand left).Stands layout inside :=
      stands_arithmeticOperand (h _ List.mem_cons_self)
    have hright : (arithmeticOperand right).Stands layout inside :=
      stands_arithmeticOperand (h _ (List.mem_cons_of_mem _ List.mem_cons_self))
    exact .append (.append (.append (.append hleft (between rfl)) (stands_arithmeticOp op))
      (between rfl)) hright
  | unary op c =>
    have hc : (arithmeticOperand c).Stands layout inside :=
      stands_arithmeticOperand (h _ List.mem_cons_self)
    have hop : Spaced layout inside .free (.text op.word) .free := by cases op; exact .text rfl
    exact .append hop hc
  | call name arguments distinct =>
    have hword : Spaced layout inside .free (keyword distinct "DISTINCT ") .free := by
      cases distinct <;> exact .text rfl
    exact .append (.bare (.inr rfl) name) (.enclose (.append hword (stands_list h)))
  | aggregate func argument distinct filter => exact stands_aggregate h
  | extract field c =>
    have hfield : (Doc.text field.word).Stands layout inside := by cases field <;> exact .text rfl
    have hinside : (field.word ++ " FROM " ++ c.2 : Doc).Stands layout inside :=
      .append (.append hfield (.text rfl)) (h _ List.mem_cons_self)
    exact .append (.text rfl) (.enclose (e := .held) hinside)
  | ordering c direction nulls => exact stands_ordering (h _ List.mem_cons_self)
  | window w => exact stands_window h
  | windowed c w =>
    have hw : (windowRef w).Stands layout inside :=
      stands_windowRef fun k hk => h k (List.mem_cons_of_mem _ hk)
    exact .append (.append (h _ List.mem_cons_self) (.text rfl)) hw
  | labelled c name =>
    have hc : (operand c).Stands layout inside := stands_operand (h _ List.mem_cons_self)
    exact .append (.append hc (.text rfl)) (.name name)
  | choice c branches otherwise => exact stands_choice h
  | groupingSet kind columns sets => exact stands_groupingSet h
  | setOperation s => exact stands_statement (setOperationSections_stand h)
  | cte c => exact stands_cte (h _ List.mem_cons_self)
  | assignment a => exact stands_assignment h
  | join j => exact stands_join h
  | select s => exact stands_statement (selectSections_stand h)
  | insert s => exact stands_statement (insertSections_stand h)
  | update s => exact stands_statement (updateSections_stand h)
  | delete s => exact stands_statement (deleteSections_stand h)

end Render

/-- **The parts of a rendering fit**: in the text of every tree, in either layout, they meet only
    at seams where nothing runs together. -/
theorem Node.spaced_doc (layout : Layout) (n : Node) : (n.doc layout).Stands layout true := by
  induction n using written_induction with
  | step form ih =>
    rw [doc_mk]
    refine Render.stands_formDoc (.inl rfl) fun c hc => ?_
    rw [Form.written_map] at hc
    obtain ⟨m, hm, rfl⟩ := List.mem_map.mp hc
    exact ih m hm

end SqlTree
