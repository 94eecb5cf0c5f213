import SqlTree.Proofs.Formatting

/-!
# Comments end where they are written to end

A block comment ends at the first star directly before a slash, and the texts of comments and hints
may hold any number of these two. This file shows that what is written holds none until the end,
in either layout.

* `Text.commentEnd`, `Text.cut` -- the two characters, and a text up to the first place where they
  stand;
* `Text.sanitizeComment_spec` -- what becomes of the text of a comment;
* `Text.not_commentEnd_commentCore`, `Text.not_commentEnd_shifted` -- neither the marks around a
  text nor moved lines bring an end of a comment about;
* `Doc.Behind`, `Doc.Behind.exists_spell` -- a comment that stands in a text behind some tabs, and
  where it is found in the spelling;
* `Node.Nested`, `Node.behind_blocks` -- how many set operations combine what a SELECT stands in, and
  that its comments stand behind as many tabs;
* `Session.render_comments` -- each comment and each list of hints of a rendering ends at its last
  character and not before.
-/

namespace SqlTree

/-! ## 1. Where a comment ends -/

namespace Text

/-- The end of a comment. -/
def commentEnd : List Char := ['*', '/']

/-- The text in front of the first end of a comment, and the text behind it. -/
def cut : List Char → Option (List Char × List Char)
  | [] => none
  | '*' :: '/' :: rest => some ([], rest)
  | c :: rest => (cut rest).map (Prod.map (c :: ·) id)

variable {c : Char} {s : List Char}

/-- An end of a comment stands at the beginning of a text, or behind its first character. -/
theorem commentEnd_infix_cons :
    commentEnd <:+: c :: s ↔ (c = '*' ∧ s.head? = some '/') ∨ commentEnd <:+: s := by
  have hslash : ['/'] <+: s ↔ s.head? = some '/' := by
    cases s with
    | nil => simp
    | cons d rest => simp [eq_comm]
  unfold commentEnd
  rw [List.infix_cons_iff, List.cons_prefix_cons, hslash, eq_comm (a := c)]

theorem not_commentEnd_nil : ¬ commentEnd <:+: [] := by decide

/-- A character that is no slash ends nothing. -/
theorem not_commentEnd_concat (hc : c ≠ '/') (h : ¬ commentEnd <:+: s) :
    ¬ commentEnd <:+: s ++ [c] := by
  rw [List.infix_concat_iff, not_or]
  refine ⟨fun hsuffix => hc ?_, h⟩
  have hlast := hsuffix.getLast (by decide)
  simpa [commentEnd] using hlast.symm

/-- **A text without an end of a comment reaches up to the first one behind it.** -/
theorem cut_append (h : ¬ commentEnd <:+: s) (back : List Char) :
    cut (s ++ '*' :: '/' :: back) = some (s, back) := by
  induction s with
  | nil => rfl
  | cons c rest ih =>
    rw [commentEnd_infix_cons, not_or] at h
    have hno : ∀ more, c = '*' → rest ++ '*' :: '/' :: back = '/' :: more → False := by
      intro more hc hmore
      cases rest with
      | nil => cases hmore
      | cons d rest => exact h.1 ⟨hc, congrArg List.head? hmore⟩
    rw [List.cons_append, cut.eq_3 c _ hno, ih h.2]
    rfl

/-! ## 2. Comment texts -/

theorem commentBody_cons (h : ¬(c = '*' ∧ s.head? = some '/')) :
    commentBody (c :: s) = c :: commentBody s :=
  commentBody.eq_2 c s fun _ hc hs => h ⟨hc, by rw [hs]; rfl⟩

theorem head?_commentBody (s : List Char) : (commentBody s).head? = s.head? := by
  cases s with
  | nil => rfl
  | cons c rest =>
    by_cases h : c = '*' ∧ rest.head? = some '/'
    · obtain ⟨rfl, hhead⟩ := h
      obtain ⟨more, rfl⟩ := List.head?_eq_some_iff.mp hhead
      rfl
    · rw [commentBody_cons h]
      rfl

/-- **A comment text has no end of a comment.** -/
theorem not_commentEnd_commentBody (s : List Char) : ¬ commentEnd <:+: commentBody s := by
  induction s using commentBody.induct with
  | case1 rest ih =>
    have hbody : commentBody ('*' :: '/' :: rest) = '*' :: ' ' :: '/' :: commentBody rest := rfl
    rw [hbody]
    simp [commentEnd_infix_cons, ih]
  | case2 c rest hno ih =>
    have hend : ¬(c = '*' ∧ rest.head? = some '/') := by
      rintro ⟨hc, hhead⟩
      obtain ⟨more, hmore⟩ := List.head?_eq_some_iff.mp hhead
      exact hno more hc hmore
    rw [commentBody_cons hend, commentEnd_infix_cons, head?_commentBody]
    exact not_or.mpr ⟨hend, ih⟩
  | case3 => exact not_commentEnd_nil

/-- **Only texts with an end of a comment are changed.** -/
theorem commentBody_eq_self_iff (s : List Char) : commentBody s = s ↔ ¬ commentEnd <:+: s := by
  refine ⟨fun h => h ▸ not_commentEnd_commentBody s, fun h => ?_⟩
  induction s with
  | nil => rfl
  | cons c rest ih =>
    rw [commentEnd_infix_cons, not_or] at h
    rw [commentBody_cons h.1, ih h.2]

theorem toList_sanitizeComment (s : String) :
    (sanitizeComment s).toList = commentBody s.toList := String.toList_ofList

/-- What becomes of the text of a comment. -/
theorem sanitizeComment_spec (s : String) :
    ¬ commentEnd <:+: (sanitizeComment s).toList
      ∧ (sanitizeComment s = s ↔ ¬ commentEnd <:+: s.toList)
      ∧ sanitizeComment (sanitizeComment s) = sanitizeComment s := by
  have hclean : ∀ s : String, ¬ commentEnd <:+: (sanitizeComment s).toList := fun s => by
    rw [toList_sanitizeComment]
    exact not_commentEnd_commentBody _
  have hsame : ∀ s : String, sanitizeComment s = s ↔ ¬ commentEnd <:+: s.toList := fun s => by
    rw [← String.toList_inj, toList_sanitizeComment]
    exact commentBody_eq_self_iff _
  exact ⟨hclean s, hsame s, (hsame _).mpr (hclean s)⟩

example : sanitizeComment "/**//*/*" = "/** //* /*" := by decide

/-- A comment between its two slashes. -/
def commentCore (mark s : String) : List Char := '*' :: (commentInside mark s ++ ['*'])

/-- **Between its slashes a comment has no end of one**: neither the star of its opening mark nor
    the blank before its end brings one about. -/
theorem not_commentEnd_commentCore {mark : String} (hmark : mark ∈ commentMarks) (s : String) :
    ¬ commentEnd <:+: commentCore mark s := by
  have hbody : ¬ commentEnd <:+: commentBody s.toList ++ [' '] :=
    not_commentEnd_concat (by decide) (not_commentEnd_commentBody _)
  have hinside : ¬ commentEnd <:+: '*' :: commentInside mark s := by
    unfold commentInside
    rcases List.mem_pair.mp hmark with rfl | rfl
    · simpa [commentEnd_infix_cons] using hbody
    · simpa [commentEnd_infix_cons] using hbody
  exact not_commentEnd_concat (by decide) hinside

/-! ## 3. Moved lines -/

/-- A moved line does not begin with a slash where none stood. -/
theorem head?_shifted (h : (shifted s).head? = some '/') : s.head? = some '/' := by
  cases s using line_induction with
  | nil => cases h
  | feed rest _ =>
    rw [shifted_feed] at h
    cases h
  | return_feed rest _ =>
    rw [shifted_return_feed] at h
    cases h
  | other c rest hc hreturn _ =>
    rw [shifted_cons hc hreturn] at h
    exact h

/-- **Moving lines brings no end of a comment about.** -/
theorem not_commentEnd_shifted (h : ¬ commentEnd <:+: s) : ¬ commentEnd <:+: shifted s := by
  induction s using line_induction with
  | nil => exact h
  | feed rest ih =>
    rw [commentEnd_infix_cons, not_or] at h
    rw [shifted_feed]
    simpa [commentEnd_infix_cons] using ih h.2
  | return_feed rest ih =>
    simp only [commentEnd_infix_cons, not_or] at h
    rw [shifted_return_feed]
    simpa [commentEnd_infix_cons] using ih h.2.2
  | other c rest hc hreturn ih =>
    rw [commentEnd_infix_cons, not_or] at h
    rw [shifted_cons hc hreturn, commentEnd_infix_cons, not_or]
    exact ⟨fun hend => h.1 ⟨hend.1, head?_shifted hend.2⟩, ih h.2⟩

theorem not_commentEnd_iterate_shifted (h : ¬ commentEnd <:+: s) (k : Nat) :
    ¬ commentEnd <:+: shifted^[k] s := by
  induction k with
  | zero => exact h
  | succ k ih =>
    rw [Function.iterate_succ_apply']
    exact not_commentEnd_shifted ih

/-- Moving lines keeps a star or a slash at both ends of a text. -/
theorem iterate_shifted_enclosed {a : Char} (ha : a = '*' ∨ a = '/') (k : Nat) (s : List Char) :
    shifted^[k] (a :: (s ++ [a])) = a :: (shifted^[k] s ++ [a]) := by
  have hfeed : a ≠ '\n' := by rcases ha with rfl | rfl <;> decide
  have hreturn : a ≠ '\r' := by rcases ha with rfl | rfl <;> decide
  induction k generalizing s with
  | zero => rfl
  | succ k ih =>
    rw [Function.iterate_succ_apply, Function.iterate_succ_apply,
      shifted_cons hfeed fun h => absurd h hreturn, shifted_concat s hfeed, ih]

theorem shifted_around_slashes (front s back : List Char) :
    shifted (front ++ '/' :: (s ++ ['/']) ++ back)
      = shifted front ++ '/' :: (shifted s ++ ['/']) ++ shifted back := by
  have hslashes : shifted ('/' :: (s ++ ['/'])) = '/' :: (shifted s ++ ['/']) :=
    iterate_shifted_enclosed (.inr rfl) 1 s
  rw [shifted_append, shifted_append, hslashes]
  · exact fun _ => by simp
  · intro h
    rw [← List.cons_append, ← List.append_assoc, List.getLast?_concat] at h
    cases h

/-- A text that is cut off behind the last place of a character keeps what stands up to there. -/
theorem exists_of_append_eq {front back text rest : List Char}
    (h : front ++ c :: back = text ++ rest) (hc : c ∉ rest) :
    ∃ more, text = front ++ c :: more := by
  rcases List.append_eq_append_iff.mp h with ⟨more, htext, hmore⟩ | ⟨more, -, hrest⟩
  · cases more with
    | nil =>
      have hrest : c :: back = rest := hmore
      exact absurd (hrest ▸ List.mem_cons_self) hc
    | cons d more =>
      obtain ⟨rfl, -⟩ := List.cons.inj hmore
      exact ⟨more, htext⟩
  · exact absurd (hrest ▸ List.mem_append_right _ List.mem_cons_self) hc

/-- **A text between slashes stands in an indented text**, with its lines moved. -/
theorem exists_indent {t : String} {front s back : List Char}
    (ht : t.toList = front ++ '/' :: (s ++ ['/']) ++ back) :
    ∃ front' back', (indent t).toList = front' ++ '/' :: (shifted s ++ ['/']) ++ back' := by
  -- only line feeds and tabs of the moved lines are not written
  obtain ⟨rest, hrest, heq⟩ := tab_shifted t.toList
  have hslash : '/' ∉ rest := fun hmem => absurd (hrest _ hmem) (by decide)
  have hsplit : ('\t' :: shifted front ++ '/' :: shifted s) ++ '/' :: shifted back
      = unlines ((lines t.toList).map ('\t' :: ·)) ++ rest := by
    rw [← heq, ht, shifted_around_slashes]
    simp
  obtain ⟨more, hindent⟩ := exists_of_append_eq hsplit hslash
  refine ⟨'\t' :: shifted front, more, ?_⟩
  unfold indent
  rw [String.toList_ofList, hindent]
  simp

end Text

/-! ## 4. Texts behind tabs -/

/-- A text stands in another one, and its lines are moved by a number of tabs there. -/
inductive Doc.Behind (x : Doc) : Nat → Doc → Prop where
  | here : Behind x 0 x
  | left {k : Nat} {l r : Doc} (h : Behind x k l) : Behind x k (.append l r)
  | right {k : Nat} {l r : Doc} (h : Behind x k r) : Behind x k (.append l r)
  | comparisonLeft {k : Nat} {op : ComparisonOp} {l r : Doc} (h : Behind x k l) :
    Behind x k (.comparison op l r)
  | comparisonRight {k : Nat} {op : ComparisonOp} {l r : Doc} (h : Behind x k r) :
    Behind x k (.comparison op l r)
  | paren {k : Nat} {d : Doc} (h : Behind x k d) : Behind x k (.paren d)
  | indented {k : Nat} {d : Doc} (h : Behind x k d) : Behind x (k + 1) (.indented d)

namespace Doc

variable {x y d d' l r : Doc} {mark s : String} {k : Nat}

/-- A text that stands in another one brings what stands in it along. -/
theorem Within.behind (h : Within y d) (hx : Behind x k y) : Behind x k d := by
  induction h with
  | here => exact hx
  | left _ ih => exact .left ih
  | right _ ih => exact .right ih
  | comparisonLeft _ ih => exact .comparisonLeft ih
  | comparisonRight _ ih => exact .comparisonRight ih
  | paren _ ih => exact .paren ih

namespace Behind

theorem not_text (t : String) : ¬ Behind (.comment mark s) k (.text t) := nofun

theorem of_append (h : Behind (.comment mark s) k (.append l r)) :
    Behind (.comment mark s) k l ∨ Behind (.comment mark s) k r := by
  cases h with
  | left h => exact .inl h
  | right h => exact .inr h

end Behind

/-- **A comment behind tabs stands in the text as it is written, with its lines moved.** -/
theorem Behind.exists_spell (hmark : mark ∈ commentMarks) (how : Spelling)
    (h : Behind (.comment mark s) k d) : ∀ bound, ∃ front back, (how.spell d bound).toList
      = front ++ '/' :: (Text.shifted^[k] (Text.commentCore mark s) ++ ['/']) ++ back := by
  induction h with
  | here =>
    intro bound
    refine ⟨[], [], ?_⟩
    show (mark ++ " " ++ Text.sanitizeComment s ++ " */").toList = _
    rw [toList_comment hmark]
    simp [Text.commentCore]
  | @left k l r _ ih =>
    intro bound
    obtain ⟨front, back, heq⟩ := ih bound
    refine ⟨front, back ++ (how.spell r (bound + l.slots)).toList, ?_⟩
    show (how.spell l bound ++ how.spell r (bound + l.slots)).toList = _
    rw [String.toList_append, heq, List.append_assoc]
  | @right k l r _ ih =>
    intro bound
    obtain ⟨front, back, heq⟩ := ih (bound + l.slots)
    refine ⟨(how.spell l bound).toList ++ front, back, ?_⟩
    show (how.spell l bound ++ how.spell r (bound + l.slots)).toList = _
    rw [String.toList_append, heq]
    simp only [List.append_assoc]
  | @comparisonLeft k op l r _ ih =>
    intro bound
    obtain ⟨front, back, heq⟩ := ih bound
    refine ⟨(how.dialect.comparisonFrame op).before.toList ++ front,
      back ++ (how.dialect.comparisonFrame op).between.toList
        ++ (how.spell r (bound + l.slots)).toList
        ++ (how.dialect.comparisonFrame op).after.toList, ?_⟩
    show (how.dialect.compare op (how.spell l bound) (how.spell r (bound + l.slots))).toList = _
    rw [Dialect.compare_eq]
    simp only [String.toList_append, heq, List.append_assoc]
  | @comparisonRight k op l r _ ih =>
    intro bound
    obtain ⟨front, back, heq⟩ := ih (bound + l.slots)
    refine ⟨(how.dialect.comparisonFrame op).before.toList ++ (how.spell l bound).toList
      ++ (how.dialect.comparisonFrame op).between.toList ++ front,
      back ++ (how.dialect.comparisonFrame op).after.toList, ?_⟩
    show (how.dialect.compare op (how.spell l bound) (how.spell r (bound + l.slots))).toList = _
    rw [Dialect.compare_eq]
    simp only [String.toList_append, heq, List.append_assoc]
  | @paren k d _ ih =>
    intro bound
    obtain ⟨front, back, heq⟩ := ih bound
    refine ⟨'(' :: front, back ++ [')'], ?_⟩
    show ("(" ++ how.spell d bound ++ ")").toList = _
    rw [String.toList_append, String.toList_append, heq]
    simp
  | indented _ ih =>
    intro bound
    obtain ⟨front, back, heq⟩ := ih bound
    rw [Function.iterate_succ_apply']
    exact Text.exists_indent heq

/-- **A comment of a child stands where it stands on one line**, if the form combines no queries. -/
theorem Laid.behind (h : Laid Eq (fun _ _ => False) d d') (hx : Behind (.comment mark s) k d') :
    Behind (.comment mark s) k d := by
  induction h with
  | same _ => exact hx
  | kid h => exact h ▸ hx
  | comparison op hl hr ihl ihr =>
    cases hx with
    | comparisonLeft hx => exact .comparisonLeft (ihl hx)
    | comparisonRight hx => exact .comparisonRight (ihr hx)
  | paren h ih =>
    cases hx with
    | paren hx => exact .paren (ih hx)
  | append hl hr ihl ihr =>
    cases hx with
    | left hx => exact .left (ihl hx)
    | right hx => exact .right (ihr hx)
  | line => exact absurd hx (Behind.not_text _)
  | between s => cases s <;> exact absurd hx (Behind.not_text _)
  | heading h ih =>
    rcases hx.of_append with hx | hx
    · rcases hx.of_append with hx | hx
      · exact ih hx
      · exact absurd hx (Behind.not_text _)
    · exact absurd hx (Behind.not_text _)
  | block h => exact h.elim

end Doc

/-! ## 5. Comments of SELECTs -/

/-- The comments that a SELECT is written with: opening marks and texts. -/
def Select.blocks {ν : Type} (q : Select ν) : List (String × String) :=
  (q.comment.map fun text => ("/*", text)).toList
    ++ if q.hints.isEmpty then [] else [("/*+", " ".intercalate q.hints)]

theorem Select.mark_of_mem_blocks {ν : Type} {q : Select ν} {mark s : String}
    (h : (mark, s) ∈ q.blocks) : mark ∈ commentMarks := by
  unfold blocks at h
  rcases List.mem_append.mp h with h | h
  · obtain ⟨text, -, heq⟩ := Option.map_eq_some_iff.mp (Option.mem_toList.mp h)
    rw [← (Prod.mk.inj heq).1]
    exact List.mem_cons_self
  · split at h
    · cases h
    · rw [(Prod.mk.inj (List.mem_singleton.mp h)).1]
      exact List.mem_cons_of_mem _ List.mem_cons_self

namespace Render

/-- A section stands in its statement. -/
theorem within_section {layout : Layout} {sections : List Section} {sec : Section}
    (h : sec ∈ sections) : Doc.Within (layout.lay sec) (layout.statement sections) :=
  Doc.Within.here.join (List.mem_map_of_mem h)

/-- **The comments of a SELECT stand in its text**, in either layout. -/
theorem within_blocks (layout : Layout) {q : Select Child} {mark s : String}
    (h : (mark, s) ∈ q.blocks) :
    Doc.Within (.comment mark s) (layout.statement (selectSections q)) := by
  unfold Select.blocks at h
  rcases List.mem_append.mp h with h | h
  · obtain ⟨text, hcomment, heq⟩ := Option.map_eq_some_iff.mp (Option.mem_toList.mp h)
    obtain ⟨rfl, rfl⟩ := Prod.mk.inj heq
    have hsec : Section.line (.comment "/*" text) ∈ selectSections q := by
      simp [selectSections, hcomment]
    have hlay : layout.lay (.line (.comment "/*" text)) = .comment "/*" text := rfl
    exact hlay ▸ within_section hsec
  · have hhead : Doc.Within (.comment mark s) (selectHead q) := by
      have hhints : Doc.Within (.comment mark s) (if q.hints.isEmpty then Doc.empty
          else " " ++ .comment "/*+" (" ".intercalate q.hints)) := by
        split at h
        · cases h
        · obtain ⟨rfl, rfl⟩ := Prod.mk.inj (List.mem_singleton.mp h)
          rw [if_neg ‹_›]
          exact .right .here
      exact .left (.right hhints)
    refine Doc.Within.trans ?_ (within_section (mem_selectSections_head q))
    cases hprojections : q.projections with
    | nil => exact .left hhead
    | cons c rest => cases layout <;> exact .left (.left hhead)

end Render

/-! ## 6. Set operations around a node -/

namespace Render

variable {c : Child} {sections : List Section}

theorem within_lines_itemsOf (heading : String) (separator : Separator) {children : List Child}
    (hs : itemsOf heading separator children ⊆ sections) (hc : c ∈ children) :
    Doc.Within c.2 (Layout.lines.statement sections) := by
  cases children with
  | nil => cases hc
  | cons first rest =>
    have hlay : Doc.Within c.2 (Layout.lines.lay
        (.items heading separator ((first :: rest).map (·.2)))) :=
      .right (within_join_map hc .here)
    exact hlay.trans (within_section (hs List.mem_cons_self))

theorem within_lines_lineOf (heading : String) {o : Option Child}
    (hs : lineOf heading (o.map (·.2)) ⊆ sections) (hc : c ∈ o.toList) :
    Doc.Within c.2 (Layout.lines.statement sections) := by
  obtain rfl := Option.mem_toList.mp hc
  have hlay : Doc.Within c.2 (Layout.lines.lay (.line (heading ++ c.2))) := .right .here
  exact hlay.trans (within_section (hs List.mem_cons_self))

/-- What a set operation does not combine stands in its text as on one line. -/
theorem within_uncombined {s : SetOperation Child} (hc : c ∈ s.children)
    (hplain : c ∉ [s.left, s.right]) :
    Doc.Within c.2 (Layout.lines.statement (setOperationSections s)) := by
  simp only [SetOperation.children, List.mem_cons, List.mem_append] at hc
  rcases hc with rfl | rfl | (hc | hc) | hc
  · exact absurd List.mem_cons_self hplain
  · exact absurd (List.mem_cons_of_mem _ List.mem_cons_self) hplain
  · exact within_lines_itemsOf "ORDER BY" .comma
      (fun sec h => by simp [setOperationSections, h]) hc
  · exact within_lines_lineOf "LIMIT " (fun sec h => by simp [setOperationSections, h]) hc
  · exact within_lines_lineOf "OFFSET " (fun sec h => by simp [setOperationSections, h]) hc

/-- What a set operation combines stands behind a tab. -/
theorem behind_combined {x : Doc} {k : Nat} {s : SetOperation Child} (hc : c ∈ [s.left, s.right])
    (hx : Doc.Behind x k c.2) :
    Doc.Behind x (k + 1) (Layout.lines.statement (setOperationSections s)) := by
  have hsec : Section.block c.2 ∈ setOperationSections s := by
    rcases List.mem_pair.mp hc with rfl | rfl <;> simp [setOperationSections]
  have hlay : Doc.Behind x (k + 1) (Layout.lines.lay (.block c.2)) :=
    .paren (.left (.right (.indented hx)))
  exact (within_section hsec).behind hlay

end Render

namespace Node

/-- A node stands in a tree, and in some set operations on the way to it, in what they combine. -/
inductive Nested (n : Node) : Nat → Node → Prop where
  | here : Nested n 0 n
  | written {k : Nat} {form : Form Node} {c : Node} (hc : c ∈ form.written)
    (hplain : c ∉ form.combined) (h : Nested n k c) : Nested n k ⟨form⟩
  | combined {k : Nat} {form : Form Node} {c : Node} (hc : c ∈ form.combined) (h : Nested n k c) :
    Nested n (k + 1) ⟨form⟩

variable {n t : Node} {k : Nat} {mark s : String}

/-- Every visited node is nested in some number of set operations. -/
theorem exists_nested (h : n ∈ t.visited) : ∃ k, Nested n k t := by
  induction t using written_induction with
  | step form ih =>
    rw [visited_mk] at h
    rcases List.mem_cons.mp h with rfl | h
    · exact ⟨0, .here⟩
    · obtain ⟨c, hc, h⟩ := List.mem_flatMap.mp h
      obtain ⟨k, hnested⟩ := ih c hc h
      by_cases hcombined : c ∈ form.combined
      · exact ⟨k + 1, .combined hcombined hnested⟩
      · exact ⟨k, .written hc hcombined hnested⟩

/-- Nothing is written below a column. -/
theorem Nested.ne_column (h : Nested n k t)
    (hn : ∀ relation name typeName, n.form ≠ .column relation name typeName) :
    ∀ relation name typeName, t.form ≠ .column relation name typeName := by
  intro relation name typeName hform
  cases h with
  | here => exact hn relation name typeName hform
  | written hc =>
    obtain rfl : _ = Form.column relation name typeName := hform
    cases hc
  | combined hc =>
    obtain rfl : _ = Form.column relation name typeName := hform
    cases hc

/-- **Over several lines the comments of a node stand behind as many tabs as there are set
    operations around it.** -/
theorem behind_doc (hx : Doc.Within (.comment mark s) (n.doc .lines))
    (hn : ∀ relation name typeName, n.form ≠ .column relation name typeName) (h : Nested n k t) :
    Doc.Behind (.comment mark s) k (t.doc .lines) := by
  induction h with
  | here => exact hx.behind .here
  | @combined k form c hc hnested ih =>
    cases form with
    | setOperation op =>
      have hchild : c.rendered .lines ∈ [op.left.rendered .lines, op.right.rendered .lines] :=
        List.mem_map_of_mem hc
      rw [doc_mk]
      exact Render.behind_combined hchild ih
    | _ => cases hc
  | @written k form c hc hplain hnested ih =>
    have hchild : c.rendered .lines ∈ (form.map (rendered .lines)).written := by
      rw [Form.written_map]
      exact List.mem_map_of_mem hc
    rw [doc_mk]
    by_cases hnone : form.combined = []
    · have hline : Doc.Within (c.doc .lines)
          (Render.formDoc .oneLine (form.map (rendered .lines))) :=
        Render.within_formDoc (Render.unqualified_of_ne_column (hnested.ne_column hn)) hchild
      have hlaid : Doc.Laid Eq (fun _ _ => False)
          (Render.formDoc .lines (form.map (rendered .lines)))
          (Render.formDoc .oneLine (form.map (rendered .lines))) :=
        Render.laid_formDoc (fun _ _ => rfl) fun q hq => by
          rw [hnone] at hq
          cases hq
      exact hlaid.behind (hline.behind ih)
    · cases form with
      | setOperation op =>
        have hother : c.rendered .lines ∉ [op.left, op.right].map (rendered .lines) := by
          intro hmem
          obtain ⟨q, hq, heq⟩ := List.mem_map.mp hmem
          obtain rfl : q = c := congrArg Prod.fst heq
          exact hplain hq
        exact (Render.within_uncombined hchild hother).behind ih
      | _ => exact absurd rfl hnone

/-- A node that is nested in a tree is visited. -/
theorem Nested.mem_visited (h : Nested n k t) : n ∈ t.visited := by
  have hchild : ∀ {form : Form Node} {c : Node}, c ∈ form.written → n ∈ c.visited →
      n ∈ (Node.mk form).visited := by
    intro form c hc hn
    rw [visited_mk]
    exact List.mem_cons_of_mem _ (List.mem_flatMap.mpr ⟨c, hc, hn⟩)
  induction h with
  | here => exact List.mem_cons_self
  | written hc _ _ ih => exact hchild hc ih
  | combined hc _ ih => exact hchild (Form.combined_subset _ hc) ih

end Node

/-! ## 7. Renderings -/

/-- How many tabs a layout writes in front of a line with some set operations around it. -/
def Layout.tabs : Layout → Nat → Nat
  | .oneLine, _ => 0
  | .lines, k => k

/-- **The comments of a SELECT stand in the text of its tree.** -/
theorem Node.behind_blocks (layout : Layout) {q : Select Node} {t : Node} {k : Nat}
    (h : Nested ⟨.select q⟩ k t) {mark s : String} (hblock : (mark, s) ∈ q.blocks) :
    Doc.Behind (.comment mark s) (layout.tabs k) (t.doc layout) := by
  have hselect : ∀ layout, Doc.Within (.comment mark s) ((Node.mk (.select q)).doc layout) := by
    intro layout
    rw [doc_mk]
    exact Render.within_blocks layout (q := q.map (rendered layout)) hblock
  have hcolumn : ∀ relation name typeName,
      (Node.mk (.select q)).form ≠ .column relation name typeName := nofun
  cases layout with
  | oneLine => exact (within_doc h.mem_visited hcolumn).behind ((hselect _).behind .here)
  | lines => exact behind_doc (hselect _) hcolumn h

namespace Session

/-- **No comment and no hint closes its block early.** What becomes of a text has no star directly
    before a slash, is the text itself if that had none, and is left as it is from then on. So in a
    rendering, on one line or over several, for every SELECT in the tree, its comment and its hints
    stand as they are written, with tabs in front of their lines for the set operations around the
    SELECT, and from the star of the opening mark on the first star directly before a slash is that
    of their end. -/
theorem render_comments :
    (∀ s : String, ¬ Text.commentEnd <:+: (Text.sanitizeComment s).toList
        ∧ (Text.sanitizeComment s = s ↔ ¬ Text.commentEnd <:+: s.toList)
        ∧ Text.sanitizeComment (Text.sanitizeComment s) = Text.sanitizeComment s)
      ∧ ∀ {s s' : Session} {t : Node} {text : String}, s.render t = .ok (text, s') →
        ∀ q : Select Node, ⟨.select q⟩ ∈ t.visited → (∃ k, Node.Nested ⟨.select q⟩ k t)
          ∧ ∀ k, Node.Nested ⟨.select q⟩ k t → ∀ mark body, (mark, body) ∈ q.blocks →
            ∃ front inside back,
              Text.shifted^[s.renderer.layout.tabs k]
                  (mark ++ " " ++ Text.sanitizeComment body ++ " */").toList
                = '/' :: '*' :: (inside ++ ['*', '/'])
              ∧ text.toList = front ++ '/' :: '*' :: (inside ++ '*' :: '/' :: back)
              ∧ Text.cut ('*' :: (inside ++ '*' :: '/' :: back)) = some ('*' :: inside, back) := by
  refine ⟨Text.sanitizeComment_spec, fun {s s' t text} h q hq => ⟨Node.exists_nested hq, ?_⟩⟩
  intro k hnested mark body hblock
  have hmark := Select.mark_of_mem_blocks hblock
  obtain ⟨-, htext, -⟩ := render_eq_ok_iff.mp h
  generalize htabs : s.renderer.layout.tabs k = tabs
  have hbehind := Node.behind_blocks s.renderer.layout hnested hblock
  rw [htabs] at hbehind
  obtain ⟨front, back, hspell⟩ := hbehind.exists_spell hmark s.renderer.spelling s.index
  have hcore : Text.shifted^[tabs] (Text.commentCore mark body)
      = '*' :: (Text.shifted^[tabs] (commentInside mark body) ++ ['*']) :=
    Text.iterate_shifted_enclosed (.inl rfl) tabs _
  have hopen : ¬ Text.commentEnd <:+: '*' :: Text.shifted^[tabs] (commentInside mark body) := by
    intro hend
    refine Text.not_commentEnd_iterate_shifted (Text.not_commentEnd_commentCore hmark body) tabs ?_
    rw [hcore]
    exact hend.trans (List.prefix_append _ ['*']).isInfix
  refine ⟨front, Text.shifted^[tabs] (commentInside mark body), back, ?_, ?_, ?_⟩
  · have hblock : (mark ++ " " ++ Text.sanitizeComment body ++ " */").toList
        = '/' :: (Text.commentCore mark body ++ ['/']) := by
      rw [toList_comment hmark]
      simp [Text.commentCore]
    rw [hblock, Text.iterate_shifted_enclosed (.inr rfl), hcore]
    simp
  · rw [htext, hspell, hcore]
    simp
  · exact Text.cut_append hopen back

/-- A query with ends of comments in its comment, and between its hints. -/
def annotatedSelect : Select Node :=
  { source := some ⟨.table "t"⟩
    comment := some "*/ first\n/ second *"
    hints := ["/ all *", "/"] }

/-- It keeps its comments also where a set operation moves its lines. -/
theorem render_comments_annotatedSelect :
    ∃ text s', (Session.mk ⟨.postgres, .lines, true⟩ []).render
        ⟨.setOperation
          { left := ⟨.select annotatedSelect⟩, op := .union, right := everything "b" }⟩
        = .ok (text, s')
      ∧ ∀ mark body, (mark, body) ∈ annotatedSelect.blocks → ∃ front inside back,
        Text.shifted (mark ++ " " ++ Text.sanitizeComment body ++ " */").toList
          = '/' :: '*' :: (inside ++ ['*', '/'])
        ∧ text.toList = front ++ '/' :: '*' :: (inside ++ '*' :: '/' :: back)
        ∧ Text.cut ('*' :: (inside ++ '*' :: '/' :: back)) = some ('*' :: inside, back) := by
  obtain ⟨text, s', h⟩ : ∃ text s', (Session.mk ⟨.postgres, .lines, true⟩ []).render
      ⟨.setOperation { left := ⟨.select annotatedSelect⟩, op := .union, right := everything "b" }⟩
      = .ok (text, s') := ⟨_, _, rfl⟩
  have hnested : Node.Nested ⟨.select annotatedSelect⟩ 1
      ⟨.setOperation
        { left := ⟨.select annotatedSelect⟩, op := .union, right := everything "b" }⟩ :=
    .combined List.mem_cons_self .here
  exact ⟨text, s', h, (render_comments.2 h annotatedSelect hnested.mem_visited).2 1 hnested⟩

end Session
end SqlTree
