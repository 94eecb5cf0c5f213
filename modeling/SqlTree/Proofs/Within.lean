import SqlTree.Proofs.Assembly

/-!
# Where the text of a child stands

What is shown of a clause by itself is only of use if that clause is what stands in the text of the
whole statement. This file finds the text of each node there, and the clauses that list conditions:

* `Doc.Within` -- a text that stands in another one, and `Doc.Within.exists_tokens`, where its
  tokens are;
* `Node.within_doc` -- the text of a visited node stands in the text of the tree, unless it is a
  column, which a column list writes without its relation;
* `Form.conditionLists` -- the lists of conditions of a form, with the word before them;
* `Render.within_conditions` -- they stand in its text with an AND between each two.
-/

namespace SqlTree

/-! ## 1. Texts in texts -/

/-- A text stands in another one. -/
inductive Doc.Within (x : Doc) : Doc → Prop where
  | here : Within x x
  | left {l r : Doc} (h : Within x l) : Within x (.append l r)
  | right {l r : Doc} (h : Within x r) : Within x (.append l r)
  | comparisonLeft {op : ComparisonOp} {l r : Doc} (h : Within x l) :
    Within x (.comparison op l r)
  | comparisonRight {op : ComparisonOp} {l r : Doc} (h : Within x r) :
    Within x (.comparison op l r)
  | paren {d : Doc} (h : Within x d) : Within x (.paren d)

namespace Doc.Within

variable {x y d : Doc}

theorem trans (hx : Within x y) (hy : Within y d) : Within x d := by
  induction hy with
  | here => exact hx
  | left _ ih => exact .left ih
  | right _ ih => exact .right ih
  | comparisonLeft _ ih => exact .comparisonLeft ih
  | comparisonRight _ ih => exact .comparisonRight ih
  | paren _ ih => exact .paren ih

/-- What a text mentions, all that it stands in mentions. -/
theorem mentions_subset (h : Within x d) : x.mentions ⊆ d.mentions := by
  induction h with
  | here => exact List.Subset.refl _
  | left _ ih => exact fun m hm => List.mem_append_left _ (ih hm)
  | right _ ih => exact fun m hm => List.mem_append_right _ (ih hm)
  | comparisonLeft _ ih => exact fun m hm => List.mem_append_left _ (ih hm)
  | comparisonRight _ ih => exact fun m hm => List.mem_append_right _ (ih hm)
  | paren _ ih => exact ih

/-- Each of several texts stands in their list. -/
theorem join {separator : Doc} (h : Within x d) :
    ∀ {ds : List Doc}, d ∈ ds → Within x (Doc.join separator ds)
  | [e], hd => by
    obtain rfl := List.mem_singleton.mp hd
    exact h
  | e :: e' :: rest, hd => by
    rcases List.mem_cons.mp hd with rfl | hd
    · exact .left (.left h)
    · have hrest : Within x (Doc.join separator (e' :: rest)) := h.join hd
      exact .right hrest

/-- **The tokens of a text in another one stand among its tokens**, one behind the other. -/
theorem exists_tokens (h : Within x d) (how : Spelling) (literals : Bool) (bound : Nat) :
    ∃ bound', x.tokens how literals bound' <:+: d.tokens how literals bound := by
  induction h generalizing bound with
  | here => exact ⟨bound, List.infix_rfl⟩
  | left _ ih =>
    obtain ⟨bound', hpart⟩ := ih bound
    exact ⟨bound', hpart.trans (List.prefix_append _ _).isInfix⟩
  | right _ ih =>
    obtain ⟨bound', hpart⟩ := ih _
    exact ⟨bound', hpart.trans (List.suffix_append _ _).isInfix⟩
  | comparisonLeft _ ih =>
    obtain ⟨bound', hpart⟩ := ih bound
    exact ⟨bound', ((hpart.trans (List.infix_append _ _ _)).trans
      (List.prefix_append _ _).isInfix).trans (List.prefix_append _ _).isInfix⟩
  | comparisonRight _ ih =>
    obtain ⟨bound', hpart⟩ := ih _
    exact ⟨bound', hpart.trans (List.infix_append _ _ _)⟩
  | paren _ ih =>
    obtain ⟨bound', hpart⟩ := ih bound
    exact ⟨bound', hpart.trans (List.infix_append [Token.mark '('] _ _)⟩

end Doc.Within

/-! ## 2. Clauses -/

namespace Render

open Doc Doc.Within

variable {x : Doc} {c : Child}

theorem within_operand (c : Child) : Within c.2 (operand c) := by
  unfold operand
  split
  · exact .paren .here
  · exact .here

theorem within_arithmeticOperand (c : Child) : Within c.2 (arithmeticOperand c) := by
  unfold arithmeticOperand
  split
  · exact .paren .here
  · exact .paren .here
  · exact within_operand c

theorem within_join_map {separator : Doc} {κ : Type} {l : List κ} {k : κ} {write : κ → Doc}
    (hk : k ∈ l) (h : Within x (write k)) : Within x (Doc.join separator (l.map write)) :=
  h.join (List.mem_map_of_mem hk)

theorem within_list {children : List Child} (hc : c ∈ children) : Within c.2 (list children) :=
  within_join_map hc .here

theorem within_columnList {columns : List Child} (hu : unqualified c = c.2) (hc : c ∈ columns) :
    Within c.2 (columnList columns) :=
  .paren (within_join_map hc (hu ▸ .here))

theorem within_valuesRow {row : List Child} (hc : c ∈ row) : Within c.2 (valuesRow row) :=
  .paren (within_join_map hc (within_operand c))

theorem within_after {word : String} {o : Option Child} {write : Child → Doc} (hc : c ∈ o.toList)
    (h : Within x (write c)) : Within x (Doc.after word (o.map write)) := by
  obtain rfl := Option.mem_toList.mp hc
  exact .right h

theorem within_bound {b : Bound Child} (hc : c ∈ b.children) : Within c.2 (bound b) := by
  cases b with
  | preceding n =>
    obtain rfl := List.mem_singleton.mp hc
    exact .left (.left .here)
  | following n =>
    obtain rfl := List.mem_singleton.mp hc
    exact .left (.left .here)
  | _ => cases hc

theorem within_frame {f : Frame Child} (hc : c ∈ f.children) : Within c.2 (frame f) := by
  obtain ⟨unit, start, stop⟩ := f
  cases stop with
  | none =>
    have hc : c ∈ start.children := by simpa [Frame.children] using hc
    exact .right (within_bound hc)
  | some stop =>
    have hc : c ∈ start.children ∨ c ∈ stop.children := by simpa [Frame.children] using hc
    rcases hc with hc | hc
    · exact .left (.left (.right (within_bound hc)))
    · exact .right (within_bound hc)

theorem within_windowBody {w : Window Child} (hc : c ∈ w.children) :
    Within c.2 (windowBody w) := by
  obtain ⟨name, partition, order, fr⟩ := w
  have hlist : ∀ {word : Doc} {l : List Child}, c ∈ l →
      ∃ d ∈ (if l.isEmpty then [] else [word ++ list l]), Within c.2 d := by
    intro word l hc
    rw [if_neg (by simpa using List.ne_nil_of_mem hc)]
    exact ⟨_, List.mem_singleton_self _, .right (within_list hc)⟩
  unfold windowBody
  rcases List.mem_append.mp hc with hc | hc
  · rcases List.mem_append.mp hc with hc | hc
    · obtain ⟨d, hd, h⟩ := hlist hc
      exact h.join (List.mem_append_left _ (List.mem_append_left _ hd))
    · obtain ⟨d, hd, h⟩ := hlist hc
      exact h.join (List.mem_append_left _ (List.mem_append_right _ hd))
  · obtain ⟨f, hf, hcf⟩ := List.mem_flatMap.mp hc
    obtain rfl := Option.mem_toList.mp hf
    exact (within_frame hcf).join (List.mem_append_right _ (List.mem_singleton_self _))

theorem within_window {w : Window Child} (hc : c ∈ w.children) : Within c.2 (window w) := by
  unfold window
  split
  · exact .right (.paren (within_windowBody hc))
  · exact .paren (within_windowBody hc)

theorem within_windowRef {w : WindowRef Child} (hc : c ∈ w.children) :
    Within c.2 (windowRef w) := by
  cases w with
  | inline w => exact .paren (within_windowBody hc)
  | named name => cases hc

theorem within_branch {b : Branch Child} (hc : c ∈ b.children) : Within c.2 (branch b) := by
  rcases List.mem_pair.mp hc with rfl | rfl
  · exact .left (.left (.right (within_operand _)))
  · exact .right (within_operand _)

theorem within_assignment {a : Assignment Child} (hc : c ∈ a.children) :
    Within c.2 (assignment a) := by
  rcases List.mem_pair.mp hc with rfl | rfl
  · exact .left (.left .here)
  · exact .right (within_operand _)

theorem within_join {j : Join Child} (hc : c ∈ j.written) : Within c.2 (Render.join j) := by
  obtain ⟨kind, right, predicate, lateral⟩ := j
  have hplain : ∀ kind : JoinKind, c ∈ right :: predicate.toList →
      Within c.2 (kind.word ++ keyword lateral " LATERAL" ++ " " ++ operand right
        ++ Doc.after " ON " (predicate.map (·.2)) : Doc) := by
    intro kind hc
    rcases List.mem_cons.mp hc with rfl | hc
    · exact .left (.right (within_operand _))
    · exact .right (within_after hc .here)
  cases kind with
  | verbatim =>
    obtain rfl := List.mem_singleton.mp hc
    exact .here
  | _ => exact hplain _ hc

theorem within_withClause? {ctes : List (Cte Child)} (hc : c ∈ ctes.map (·.query)) :
    ∃ d ∈ withClause? ctes, Within c.2 d := by
  obtain ⟨e, he, rfl⟩ := List.mem_map.mp hc
  unfold withClause?
  rw [if_neg (by simpa using List.ne_nil_of_mem he)]
  exact ⟨_, rfl, .right (within_join_map he (.right (.paren .here)))⟩

theorem within_onConflict {o : OnConflict Child} (hu : unqualified c = c.2)
    (hc : c ∈ o.children) : Within c.2 (onConflict o) := by
  obtain ⟨columns, action⟩ := o
  rcases List.mem_append.mp hc with hc | hc
  · have hcolumns : Within c.2
        (if columns.isEmpty then Doc.empty else " " ++ columnList columns) := by
      rw [if_neg (by simpa using List.ne_nil_of_mem hc)]
      exact .right (within_columnList hu hc)
    exact .left (.right hcolumns)
  · cases action with
    | doNothing => cases hc
    | doUpdate assignments wheres =>
      rcases List.mem_append.mp hc with hc | hc
      · obtain ⟨a, ha, hc⟩ := List.mem_flatMap.mp hc
        exact .right (.left (.right (within_join_map ha (within_assignment hc))))
      · have hwheres : Within c.2 (if wheres.isEmpty then Doc.empty
            else " WHERE " ++ conjunction wheres) := by
          rw [if_neg (by simpa using List.ne_nil_of_mem hc)]
          exact .right (within_join_map hc .here)
        exact .right (.right hwheres)

/-! ## 3. Statements -/

section Sections

variable {sections : List Section}

/-- What stands in a section stands in its statement. -/
theorem within_statement {sec : Section} (hs : sec ∈ sections)
    (h : Within x (Layout.oneLine.lay sec)) : Within x (Layout.oneLine.statement sections) :=
  within_join_map hs h

theorem within_itemsOf (heading : String) (separator : Separator) {children : List Child}
    (hs : itemsOf heading separator children ⊆ sections) (hc : c ∈ children) :
    Within c.2 (Layout.oneLine.statement sections) := by
  have hitems : itemsOf heading separator children
      = [.items heading separator (children.map (·.2))] :=
    if_neg (by simpa using List.ne_nil_of_mem hc)
  rw [hitems] at hs
  exact within_statement (hs (List.mem_singleton_self _)) (.right (within_join_map hc .here))

theorem within_lineOf (heading : String) (write : Child → Doc) {o : Option Child}
    (hs : lineOf heading (o.map write) ⊆ sections) (hc : c ∈ o.toList)
    (h : Within c.2 (write c)) : Within c.2 (Layout.oneLine.statement sections) := by
  obtain rfl := Option.mem_toList.mp hc
  exact within_statement (hs (List.mem_singleton_self _)) (.right h)

end Sections

theorem within_selectHead {s : Select Child} (hc : c ∈ s.distinctOn) :
    Within c.2 (selectHead s) := by
  have hdistinct : Within c.2 (if s.distinctOn.isEmpty then keyword s.distinct " DISTINCT"
      else " DISTINCT ON " ++ .paren (list s.distinctOn)) := by
    rw [if_neg (by simpa using List.ne_nil_of_mem hc)]
    exact .right (.paren (within_list hc))
  exact .right hdistinct

/-- The section of a SELECT with its head and its projections. -/
theorem mem_selectSections_head (s : Select Child) :
    (if s.projections.isEmpty then Section.line (selectHead s ++ " *")
      else .items (selectHead s) .comma (s.projections.map (·.2))) ∈ selectSections s := by
  simp [selectSections]

theorem mem_selectSections_join {s : Select Child} {j : Join Child} (hj : j ∈ s.joins) :
    .line (Render.join j) ∈ selectSections s := by
  have hmem : Section.line (Render.join j) ∈ s.joins.map fun j => Section.line (Render.join j) :=
    List.mem_map_of_mem hj
  simp only [selectSections, List.mem_append, hmem, or_true, true_or]

theorem within_selectSections {s : Select Child} (hc : c ∈ s.written) :
    Within c.2 (Layout.oneLine.statement (selectSections s)) := by
  simp only [Select.written, List.mem_append] at hc
  rcases hc with ((((((((((hc | hc) | hc) | hc) | hc) | hc) | hc) | hc) | hc) | hc) | hc) | hc
  · obtain ⟨d, hd, h⟩ := within_withClause? hc
    have hsec : Section.line d ∈ selectSections s := by
      have hd' : withClause? s.ctes = some d := hd
      simp [selectSections, hd']
    exact within_statement hsec h
  · refine within_statement (mem_selectSections_head s) ?_
    split
    · exact .left (within_selectHead hc)
    · exact .left (.left (within_selectHead hc))
  · refine within_statement (mem_selectSections_head s) ?_
    rw [if_neg (by simpa using List.ne_nil_of_mem hc)]
    exact .right (within_join_map hc .here)
  · exact within_lineOf "FROM " operand (fun sec h => by simp [selectSections, h]) hc
      (within_operand c)
  · obtain ⟨j, hj, hc⟩ := List.mem_flatMap.mp hc
    exact within_statement (mem_selectSections_join hj) (within_join hc)
  · exact within_itemsOf "WHERE" .conjunction (fun sec h => by simp [selectSections, h]) hc
  · exact within_itemsOf "GROUP BY" .comma (fun sec h => by simp [selectSections, h]) hc
  · exact within_itemsOf "HAVING" .conjunction (fun sec h => by simp [selectSections, h]) hc
  · obtain ⟨w, hw, hc⟩ := List.mem_flatMap.mp hc
    have hsec : Section.items "WINDOW" .comma (s.windows.map window) ∈ selectSections s := by
      have hne : s.windows.isEmpty = false := by simpa using List.ne_nil_of_mem hw
      simp [selectSections, hne]
    exact within_statement hsec (.right (within_join_map hw (within_window hc)))
  · exact within_itemsOf "ORDER BY" .comma (fun sec h => by simp [selectSections, h]) hc
  · exact within_lineOf "LIMIT " (·.2) (fun sec h => by simp [selectSections, h]) hc .here
  · exact within_lineOf "OFFSET " (·.2) (fun sec h => by simp [selectSections, h]) hc .here

theorem within_setOperationSections {s : SetOperation Child} (hc : c ∈ s.children) :
    Within c.2 (Layout.oneLine.statement (setOperationSections s)) := by
  simp only [SetOperation.children, List.mem_cons, List.mem_append] at hc
  rcases hc with rfl | rfl | (hc | hc) | hc
  · have hsec : Section.block s.left.2 ∈ setOperationSections s := by simp [setOperationSections]
    exact within_statement hsec (.paren .here)
  · have hsec : Section.block s.right.2 ∈ setOperationSections s := by simp [setOperationSections]
    exact within_statement hsec (.paren .here)
  · exact within_itemsOf "ORDER BY" .comma (fun sec h => by simp [setOperationSections, h]) hc
  · exact within_lineOf "LIMIT " (·.2) (fun sec h => by simp [setOperationSections, h]) hc .here
  · exact within_lineOf "OFFSET " (·.2) (fun sec h => by simp [setOperationSections, h]) hc .here

theorem within_insertSource {s : Insert Child} (hc : c ∈ s.writtenSource) :
    Within c.2 (Layout.oneLine.lay (insertSource s)) := by
  unfold insertSource
  unfold Insert.writtenSource at hc
  cases hs : s.select with
  | some query =>
    rw [hs] at hc
    obtain rfl := List.mem_singleton.mp hc
    exact .here
  | none =>
    rw [hs] at hc
    obtain ⟨row, hrow, hc⟩ := List.mem_flatten.mp hc
    have hne : s.rows.isEmpty = false := by simpa using List.ne_nil_of_mem hrow
    simp only [hne]
    exact .right (within_join_map hrow (within_valuesRow hc))

theorem within_insertSections {s : Insert Child} (hu : unqualified c = c.2)
    (hc : c ∈ s.written) : Within c.2 (Layout.oneLine.statement (insertSections s)) := by
  have hhead : Section.line ("INSERT INTO " ++ s.target.2 ++ if s.columns.isEmpty then Doc.empty
      else " " ++ columnList s.columns) ∈ insertSections s := by
    simp [insertSections]
  simp only [Insert.written, List.mem_cons, List.mem_append] at hc
  rcases hc with rfl | ((hc | hc) | hc) | hc
  · exact within_statement hhead (.left (.right .here))
  · refine within_statement hhead (.right ?_)
    rw [if_neg (by simpa using List.ne_nil_of_mem hc)]
    exact .right (within_columnList hu hc)
  · exact within_statement (by simp [insertSections]) (within_insertSource hc)
  · obtain ⟨o, ho, hc⟩ := List.mem_flatMap.mp hc
    have hsec : Section.line (onConflict o) ∈ insertSections s := by
      simp [insertSections, Option.mem_toList.mp ho]
    exact within_statement hsec (within_onConflict hu hc)
  · exact within_itemsOf "RETURNING" .comma (fun sec h => by simp [insertSections, h]) hc

theorem within_updateSections {s : Update Child} (hc : c ∈ s.children) :
    Within c.2 (Layout.oneLine.statement (updateSections s)) := by
  simp only [Update.children, List.mem_cons, List.mem_append] at hc
  rcases hc with rfl | (hc | hc) | hc
  · have hsec : Section.line ("UPDATE " ++ s.target.2) ∈ updateSections s := by
      simp [updateSections]
    exact within_statement hsec (.right .here)
  · obtain ⟨a, ha, hc⟩ := List.mem_flatMap.mp hc
    have hsec : Section.items "SET" .comma (s.assignments.map assignment) ∈ updateSections s := by
      simp [updateSections]
    exact within_statement hsec (.right (within_join_map ha (within_assignment hc)))
  · exact within_itemsOf "WHERE" .conjunction (fun sec h => by simp [updateSections, h]) hc
  · exact within_itemsOf "RETURNING" .comma (fun sec h => by simp [updateSections, h]) hc

theorem within_deleteSections {s : Delete Child} (hc : c ∈ s.children) :
    Within c.2 (Layout.oneLine.statement (deleteSections s)) := by
  simp only [Delete.children, List.mem_cons, List.mem_append] at hc
  rcases hc with rfl | hc | hc
  · have hsec : Section.line ("DELETE FROM " ++ s.target.2) ∈ deleteSections s := by
      simp [deleteSections]
    exact within_statement hsec (.right .here)
  · exact within_itemsOf "WHERE" .conjunction (fun sec h => by simp [deleteSections, h]) hc
  · exact within_itemsOf "RETURNING" .comma (fun sec h => by simp [deleteSections, h]) hc

/-! ## 4. Forms -/

theorem within_membership {v : Child} {values : List Child} {negated : Bool}
    (hc : c ∈ if values.isEmpty then [] else v :: values) :
    Within c.2 (membership v values negated) := by
  rcases values with _ | ⟨w, _ | ⟨w', rest⟩⟩
  · cases hc
  · rcases List.mem_pair.mp hc with rfl | rfl
    · exact .left (.left (within_operand _))
    · exact .right (.paren .here)
  · rcases List.mem_cons.mp hc with rfl | hc
    · exact .left (.left (within_operand _))
    · exact .right (.paren (within_join_map hc (within_operand _)))

theorem within_aggregate {func : AggregateFunc} {argument filter : Option Child} {distinct : Bool}
    (hc : c ∈ argument.toList ++ filter.toList) :
    Within c.2 (aggregate func argument distinct filter) := by
  rcases List.mem_append.mp hc with hc | hc
  · obtain rfl := Option.mem_toList.mp hc
    exact .left (.right (.paren (.right .here)))
  · exact .right (within_after hc (.paren (.right .here)))

theorem within_choice {o otherwise : Option Child} {branches : List (Branch Child)}
    (hc : c ∈ o.toList ++ branches.flatMap Branch.children ++ otherwise.toList) :
    Within c.2 (choice o branches otherwise) := by
  rcases List.mem_append.mp hc with hc | hc
  · rcases List.mem_append.mp hc with hc | hc
    · exact .left (.left (.left (.right (within_after hc (within_operand c)))))
    · obtain ⟨b, hb, hc⟩ := List.mem_flatMap.mp hc
      exact .left (.left (.right (within_join_map hb (within_branch hc))))
  · exact .left (.right (within_after hc (within_operand c)))

theorem within_groupingSet {kind : GroupingKind} {columns : List Child} {sets : List (List Child)}
    (hc : c ∈ (Form.groupingSet kind columns sets).written) :
    Within c.2 (groupingSet kind columns sets) := by
  cases kind with
  | groupingSets =>
    obtain ⟨set, hset, hc⟩ := List.mem_flatten.mp hc
    exact .right (.paren (within_join_map hset (.paren (within_list hc))))
  | _ => exact .right (.paren (within_list hc))

/-- **The text of a written child stands in that of its form**, if the child is written the same
    way without its relation. -/
theorem within_formDoc {form : Form Child} (hu : unqualified c = c.2) (hc : c ∈ form.written) :
    Within c.2 (formDoc .oneLine form) := by
  cases form with
  | membership v values negated => exact within_membership hc
  | aggregate func argument distinct filter => exact within_aggregate hc
  | window w => exact within_window hc
  | choice o branches otherwise => exact within_choice hc
  | groupingSet kind columns sets => exact within_groupingSet hc
  | setOperation s => exact within_setOperationSections hc
  | assignment a => exact within_assignment hc
  | join j => exact within_join hc
  | select s => exact within_selectSections hc
  | insert s => exact within_insertSections hu hc
  | update s => exact within_updateSections hc
  | delete s => exact within_deleteSections hc
  | call name arguments distinct => exact .right (.paren (.right (within_list hc)))
  | windowed v w =>
    rcases List.mem_cons.mp hc with rfl | hc
    · exact .left (.left .here)
    · exact .right (within_windowRef hc)
  | tableAlias relation name =>
    obtain rfl := List.mem_singleton.mp hc
    exact .left (.left (within_operand _))
  | comparison left op right =>
    rcases List.mem_pair.mp hc with rfl | rfl
    · exact .comparisonLeft (within_operand _)
    · exact .comparisonRight (within_operand _)
  | nullTest v op =>
    obtain rfl := List.mem_singleton.mp hc
    exact .left (.left (within_operand _))
  | and left right =>
    rcases List.mem_pair.mp hc with rfl | rfl
    · exact .left (.left .here)
    · exact .right .here
  | or left right =>
    rcases List.mem_pair.mp hc with rfl | rfl
    · exact .left (.left .here)
    · exact .right .here
  | not v =>
    obtain rfl := List.mem_singleton.mp hc
    exact .right (.paren .here)
  | grouping v =>
    obtain rfl := List.mem_singleton.mp hc
    exact .paren .here
  | between v low high negated =>
    simp only [Form.written, Form.children, List.mem_cons, List.not_mem_nil, or_false] at hc
    rcases hc with rfl | rfl | rfl
    · exact .left (.left (.left (.left (within_operand _))))
    · exact .left (.left (.right (within_operand _)))
    · exact .right (within_operand _)
  | existence query negated =>
    obtain rfl := List.mem_singleton.mp hc
    exact .right (.paren .here)
  | arithmetic left op right =>
    rcases List.mem_pair.mp hc with rfl | rfl
    · exact .left (.left (.left (.left (within_arithmeticOperand _))))
    · exact .right (within_arithmeticOperand _)
  | unary op v =>
    obtain rfl := List.mem_singleton.mp hc
    exact .right (within_arithmeticOperand _)
  | extract field v =>
    obtain rfl := List.mem_singleton.mp hc
    exact .right (.paren (.right .here))
  | ordering v direction nulls =>
    obtain rfl := List.mem_singleton.mp hc
    exact .left (.left (.left (within_operand _)))
  | labelled v name =>
    obtain rfl := List.mem_singleton.mp hc
    exact .left (.left (within_operand _))
  | cte e =>
    obtain rfl := List.mem_singleton.mp hc
    exact .right (.paren .here)
  | _ => cases hc

end Render

namespace Node

/-- **The text of a visited node stands in that of its tree**, unless the node is a column. -/
theorem within_doc {t n : Node} (hn : n ∈ t.visited)
    (hcolumn : ∀ relation name typeName, n.form ≠ .column relation name typeName) :
    Doc.Within (n.doc .oneLine) (t.doc .oneLine) := by
  induction t using written_induction with
  | step form ih =>
    rw [visited_mk] at hn
    rcases List.mem_cons.mp hn with rfl | hn
    · exact .here
    · obtain ⟨c, hc, hn⟩ := List.mem_flatMap.mp hn
      -- below a column nothing is written, so `n` would be that column
      have hcolumn' : ∀ relation name typeName, c.form ≠ .column relation name typeName := by
        intro relation name typeName hform
        obtain ⟨form⟩ := c
        obtain rfl : form = .column relation name typeName := hform
        obtain rfl := List.mem_singleton.mp hn
        exact hcolumn relation name typeName rfl
      have hchild : c.rendered .oneLine ∈ (form.map (rendered .oneLine)).written := by
        rw [Form.written_map]
        exact List.mem_map_of_mem hc
      have hform : Doc.Within (c.doc .oneLine) ((Node.mk form).doc .oneLine) := by
        rw [doc_mk]
        exact Render.within_formDoc (Render.unqualified_of_ne_column hcolumn') hchild
      exact (ih c hc hn).trans hform

end Node

/-! ## 5. Lists of conditions -/

section Conditions

variable {ν μ : Type}

/-- What a join is made on. A verbatim join writes it itself. -/
def Join.conditions (j : Join ν) : List ν :=
  match j.kind with
  | .verbatim => []
  | _ => j.predicate.toList

/-- What rows are updated on. -/
def ConflictAction.conditions : ConflictAction ν → List ν
  | .doNothing => []
  | .doUpdate _ wheres => wheres

/-- The lists of conditions of a form, each with the word before it. All conditions of a list must
    hold. -/
def Form.conditionLists : Form ν → List (String × List ν)
  | .select s =>
    ("WHERE", s.wheres) :: ("HAVING", s.havings) :: s.joins.map fun j => ("ON", j.conditions)
  | .insert s => s.onConflict.toList.map fun c => ("WHERE", c.action.conditions)
  | .update s => [("WHERE", s.wheres)]
  | .delete s => [("WHERE", s.wheres)]
  | .join j => [("ON", j.conditions)]
  | .aggregate _ _ _ filter => [("WHERE", filter.toList)]
  | _ => []

theorem Join.conditions_map (f : ν → μ) (j : Join ν) :
    (j.map f).conditions = j.conditions.map f := by
  obtain ⟨kind, right, predicate, lateral⟩ := j
  cases kind <;> cases predicate <;> rfl

theorem ConflictAction.conditions_map (f : ν → μ) (a : ConflictAction ν) :
    (a.map f).conditions = a.conditions.map f := by
  cases a <;> rfl

theorem Form.conditionLists_map (f : ν → μ) (form : Form ν) :
    (form.map f).conditionLists = form.conditionLists.map fun p => (p.1, p.2.map f) := by
  cases form with
  | select s =>
    simp [map, conditionLists, Select.map, Join.conditions_map, Function.comp_def]
  | insert s =>
    obtain ⟨target, columns, rows, select, returning, onConflict⟩ := s
    cases onConflict with
    | none => rfl
    | some c =>
      simp [map, conditionLists, Insert.map, OnConflict.map, ConflictAction.conditions_map]
  | join j => simp [map, conditionLists, Join.conditions_map]
  | aggregate func argument distinct filter => cases filter <;> rfl
  | _ => rfl

theorem Join.conditions_subset (j : Join ν) : j.conditions ⊆ j.written := by
  obtain ⟨kind, right, predicate, lateral⟩ := j
  cases kind with
  | verbatim => exact List.nil_subset _
  | _ => exact List.subset_cons_self _ _

/-- Conditions are written children. -/
theorem Form.conditions_subset {form : Form ν} {word : String} {ws : List ν}
    (h : (word, ws) ∈ form.conditionLists) : ws ⊆ form.written := by
  intro w hw
  cases form with
  | select s =>
    simp only [conditionLists, List.mem_cons, Prod.mk.injEq, List.mem_map] at h
    simp only [written, Select.written, List.mem_append, List.mem_flatMap]
    rcases h with ⟨-, rfl⟩ | ⟨-, rfl⟩ | ⟨j, hj, -, rfl⟩
    · simp [hw]
    · simp [hw]
    · have hjoin : ∃ j ∈ s.joins, w ∈ j.written := ⟨j, hj, j.conditions_subset hw⟩
      simp [hjoin]
  | insert s =>
    simp only [conditionLists, List.mem_map, Prod.mk.injEq] at h
    obtain ⟨c, hc, -, rfl⟩ := h
    have hconflict : ∃ c ∈ s.onConflict.toList, w ∈ c.children := by
      refine ⟨c, hc, List.mem_append_right _ ?_⟩
      cases ha : c.action with
      | doNothing =>
        rw [ha] at hw
        cases hw
      | doUpdate assignments wheres =>
        rw [ha] at hw
        exact List.mem_append_right _ hw
    simp only [written, Insert.written, List.mem_cons, List.mem_append, List.mem_flatMap]
    exact .inr (.inl (.inr hconflict))
  | update s =>
    obtain ⟨-, rfl⟩ := Prod.mk.inj (List.mem_singleton.mp h)
    exact List.mem_cons_of_mem _ (List.mem_append_left _ (List.mem_append_right _ hw))
  | delete s =>
    obtain ⟨-, rfl⟩ := Prod.mk.inj (List.mem_singleton.mp h)
    exact List.mem_cons_of_mem _ (List.mem_append_left _ hw)
  | join j =>
    obtain ⟨-, rfl⟩ := Prod.mk.inj (List.mem_singleton.mp h)
    exact j.conditions_subset hw
  | aggregate func argument distinct filter =>
    obtain ⟨-, rfl⟩ := Prod.mk.inj (List.mem_singleton.mp h)
    exact List.mem_append_right _ hw
  | _ => cases h

end Conditions

namespace Render

open Doc Doc.Within

/-- A text that is read as a word. -/
def Says (word : String) (d : Doc) : Prop :=
  ∀ how literals bound, d.tokens how literals bound = [.word word.toList]

variable {word : String} {ws : List Child}

/-- A heading is read as a word, the blank behind it as nothing. -/
theorem says_heading {heading : String} (htame : heading.toList.all isTame = true)
    (hlex : (Reading.mk .postgres true).lex heading = [.word heading.toList]) :
    Says heading (.text heading ++ .text " ") := by
  intro how literals bound
  have hblank : (how.reading literals).lex " " = [] := lex_tame (by decide) _
  show (how.reading literals).lex heading ++ (how.reading literals).lex " " = _
  rw [lex_tame htame, hlex, hblank, List.append_nil]

theorem within_conditions_join {j : Join Child} (hne : j.conditions ≠ []) :
    ∃ d, Says "ON" d ∧ Within (d ++ conjunction j.conditions) (Render.join j) := by
  obtain ⟨kind, right, predicate, lateral⟩ := j
  have hsaid : Says "ON" (.text " ON ") := fun how literals bound => lex_tame (by decide) _
  cases predicate with
  | none =>
    exfalso
    cases kind <;> exact hne rfl
  | some p =>
    cases kind with
    | verbatim => exact absurd rfl hne
    | _ => exact ⟨_, hsaid, .right .here⟩

theorem within_conditions_items {heading : String} {sections : List Section}
    (hs : itemsOf heading .conjunction ws ⊆ sections) (hne : ws ≠ []) :
    Within (.text heading ++ .text " " ++ conjunction ws)
      (Layout.oneLine.statement sections) := by
  have hitems : itemsOf heading .conjunction ws
      = [.items heading .conjunction (ws.map (·.2))] := if_neg (by simpa using hne)
  rw [hitems] at hs
  exact within_statement (hs (List.mem_singleton_self _)) .here

/-- **The conditions of a form stand in its text** behind their word, with an AND between each
    two. -/
theorem within_conditions {form : Form Child} (h : (word, ws) ∈ form.conditionLists)
    (hne : ws ≠ []) :
    ∃ d, Says word d ∧ Within (d ++ conjunction ws) (formDoc .oneLine form) := by
  have hwhere : Says "WHERE" (.text "WHERE" ++ .text " ") := says_heading (by decide) (by decide)
  have hhaving : Says "HAVING" (.text "HAVING" ++ .text " ") :=
    says_heading (by decide) (by decide)
  cases form with
  | select s =>
    simp only [Form.conditionLists, List.mem_cons, Prod.mk.injEq, List.mem_map] at h
    rcases h with ⟨rfl, rfl⟩ | ⟨rfl, rfl⟩ | ⟨j, hj, rfl, rfl⟩
    · exact ⟨_, hwhere, within_conditions_items (fun sec h => by simp [selectSections, h]) hne⟩
    · exact ⟨_, hhaving, within_conditions_items (fun sec h => by simp [selectSections, h]) hne⟩
    · obtain ⟨d, hd, hjoin⟩ := within_conditions_join hne
      exact ⟨d, hd, within_statement (mem_selectSections_join hj) hjoin⟩
  | insert s =>
    simp only [Form.conditionLists, List.mem_map, Prod.mk.injEq] at h
    obtain ⟨c, hc, rfl, rfl⟩ := h
    have hsec : Section.line (onConflict c) ∈ insertSections s := by
      simp [insertSections, Option.mem_toList.mp hc]
    have hsaid : Says "WHERE" (.text " WHERE ") := fun how literals bound =>
      lex_tame (by decide) _
    refine ⟨_, hsaid, within_statement hsec ?_⟩
    obtain ⟨columns, action⟩ := c
    cases action with
    | doNothing => exact absurd rfl hne
    | doUpdate assignments wheres =>
      have hne : wheres ≠ [] := hne
      have hwheres : Within (.text " WHERE " ++ conjunction wheres)
          (if wheres.isEmpty then Doc.empty else " WHERE " ++ conjunction wheres) := by
        rw [if_neg (by simpa using hne)]
        exact .here
      exact .right (.right hwheres)
  | update s =>
    obtain ⟨rfl, rfl⟩ := Prod.mk.inj (List.mem_singleton.mp h)
    exact ⟨_, hwhere, within_conditions_items (fun sec h => by simp [updateSections, h]) hne⟩
  | delete s =>
    obtain ⟨rfl, rfl⟩ := Prod.mk.inj (List.mem_singleton.mp h)
    exact ⟨_, hwhere, within_conditions_items (fun sec h => by simp [deleteSections, h]) hne⟩
  | join j =>
    obtain ⟨rfl, rfl⟩ := Prod.mk.inj (List.mem_singleton.mp h)
    exact within_conditions_join hne
  | aggregate func argument distinct filter =>
    obtain ⟨rfl, rfl⟩ := Prod.mk.inj (List.mem_singleton.mp h)
    have hsaid : Says "WHERE" (.text "WHERE ") := fun how literals bound => lex_tame (by decide) _
    cases filter with
    | none => exact absurd rfl hne
    | some c => exact ⟨_, hsaid, .right (.right (.paren .here))⟩
  | _ => cases h

end Render
end SqlTree
