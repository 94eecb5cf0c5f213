import SqlTree.Proofs.Building
import SqlTree.Proofs.ParameterTrace

/-!
# When a rendering is refused

Function names and type names are checked where a node is built, and again where it is rendered.
This file says what the second check comes to, and that the first makes it superfluous:

* `NameRule.Fits` -- what a bare name consists of, in terms of its characters;
* `Form.skipped`, `Form.children_perm` -- the children that a rendering leaves out, which together
  with the written ones are all children;
* `Node.Misnames` -- a call or a cast with a name that does not fit, and the misuse that it is;
* `Node.fault?_doc` -- the text of a tree is at fault for the first such node that is visited;
* `Node.Checked`, `Node.Checked.wellNamed` -- what checked calls build, and that no node of it is
  one of these;
* `Session.render_refused` -- all of this for any tree and any session.
-/

namespace SqlTree

/-! ## 1. Names -/

namespace NameRule

/-- What a bare name may hold besides letters, digits and the underscore. -/
def punctuation : NameRule → List Char
  | .function => []
  | .type => [' ', '(', ')', ',']

/-- A bare name is not empty and consists of ASCII letters, ASCII digits, underscores and the
    punctuation of its rule. -/
def Fits (rule : NameRule) (name : String) : Prop :=
  name ≠ "" ∧ ∀ c ∈ name.toList, c.isAlphanum = true ∨ c = '_' ∨ c ∈ rule.punctuation

theorem isWordChar_iff {c : Char} : isWordChar c = true ↔ c.isAlphanum = true ∨ c = '_' := by
  have hupper : c.isUpper = ('A' ≤ c && c ≤ 'Z') := Bool.decide_and _ _
  have hlower : c.isLower = ('a' ≤ c && c ≤ 'z') := rfl
  have hdigit : c.isDigit = ('0' ≤ c && c ≤ '9') := rfl
  show _ ↔ ((c.isUpper || c.isLower) || c.isDigit) = true ∨ c = '_'
  rw [hupper, hlower, hdigit, isWordChar]
  simp only [Bool.or_eq_true, beq_iff_eq]
  tauto

theorem allows_iff {rule : NameRule} {c : Char} :
    rule.allows c = true ↔ c.isAlphanum = true ∨ c = '_' ∨ c ∈ rule.punctuation := by
  cases rule with
  | function =>
    show isWordChar c = true ↔ _
    rw [isWordChar_iff]
    simp [punctuation]
  | type => simp [allows, punctuation, isWordChar_iff, or_assoc]

/-- **The check of a name accepts exactly the names that fit.** -/
theorem accepts_iff {rule : NameRule} {name : String} :
    rule.accepts name = true ↔ rule.Fits name := by
  unfold accepts Fits
  rw [Bool.and_eq_true, List.all_eq_true, Bool.not_eq_true', List.isEmpty_eq_false_iff]
  refine and_congr (not_congr ?_) (forall₂_congr fun c _ => allows_iff)
  exact String.toList_eq_nil_iff

theorem fits_of_check {rule : NameRule} {name : String} {u : Unit} (h : rule.check name = .ok u) :
    rule.Fits name := by
  unfold check at h
  split at h
  · exact accepts_iff.mp ‹_›
  · cases h

end NameRule

theorem Mention.fault?_bare_iff {rule : NameRule} {name : String} {misuse : Misuse} :
    (Mention.bare rule name).fault? = some misuse
      ↔ ¬ rule.Fits name ∧ .invalidName rule name = misuse := by
  show (if rule.accepts name then none else some (Misuse.invalidName rule name)) = some misuse ↔ _
  by_cases h : rule.accepts name = true
  · rw [if_pos h]
    exact iff_of_false (fun h => by cases h) fun ⟨hfits, _⟩ => hfits (NameRule.accepts_iff.mp h)
  · rw [if_neg h, Option.some.injEq, ← NameRule.accepts_iff]
    exact ⟨fun heq => ⟨h, heq⟩, fun ⟨_, heq⟩ => heq⟩

/-! ## 2. The children that are left out -/

section Skipped

variable {ν : Type}

/-- A verbatim join leaves its predicate out. -/
def Join.skipped (j : Join ν) : List ν :=
  match j.kind with
  | .verbatim => j.predicate.toList
  | _ => []

/-- The children of a form that are not written: the relation of a column or star, the operand of
    an empty membership, the columns of grouping sets and the sets of every other grouping, the
    predicate of a verbatim join, and the rows of an INSERT that has a query. -/
def Form.skipped : Form ν → List ν
  | .column relation _ _ => [relation]
  | .star relation => relation.toList
  | .membership operand values _ => if values.isEmpty then [operand] else []
  | .groupingSet .groupingSets columns _ => columns
  | .groupingSet _ _ sets => sets.flatten
  | .join j => j.skipped
  | .select s => s.joins.flatMap Join.skipped
  | .insert s => if s.select.isSome then s.rows.flatten else []
  | _ => []

theorem Join.children_eq (j : Join ν) : j.children = j.written ++ j.skipped := by
  obtain ⟨kind, right, predicate, lateral⟩ := j
  cases kind <;> simp [children, written, skipped]

theorem Join.children_perm (js : List (Join ν)) :
    (js.flatMap Join.children).Perm (js.flatMap Join.written ++ js.flatMap Join.skipped) := by
  induction js with
  | nil => exact .nil
  | cons j rest ih =>
    rw [List.flatMap_cons, List.flatMap_cons, List.flatMap_cons, Join.children_eq,
      List.append_assoc, List.append_assoc]
    refine .append_left _ ((ih.append_left _).trans ?_)
    rw [← List.append_assoc, ← List.append_assoc]
    exact .append_right _ List.perm_append_comm

/-- What is left out in the middle may as well be left out at the end. -/
theorem perm_middle_last (front mid out back : List ν) :
    (front ++ (mid ++ out) ++ back).Perm (front ++ mid ++ back ++ out) := by
  rw [List.append_assoc, List.append_assoc, List.append_assoc, List.append_assoc]
  exact .append_left _ (.append_left _ List.perm_append_comm)

/-- **Every child of a form is written or left out**, and none is both. -/
theorem Form.children_perm (form : Form ν) : form.children.Perm (form.written ++ form.skipped) := by
  cases form with
  | column relation name typeName => exact .refl _
  | star relation => exact .refl _
  | membership operand values negated =>
    cases values with
    | nil => exact .refl _
    | cons v rest => exact .of_eq (List.append_nil _).symm
  | groupingSet kind columns sets =>
    cases kind with
    | groupingSets => exact List.perm_append_comm
    | _ => exact .refl _
  | join j => exact .of_eq j.children_eq
  | select s =>
    have hjoins := (Join.children_perm s.joins).append_left
      (s.ctes.map (·.query) ++ s.distinctOn ++ s.projections ++ s.source.toList)
    have hall := (hjoins.append_right (s.wheres ++ s.groups ++ s.havings
      ++ s.windows.flatMap Window.children ++ s.orders ++ s.limit.toList ++ s.offset.toList)).trans
      (perm_middle_last _ _ _ _)
    simpa only [children, written, skipped, Select.children, Select.written, List.append_assoc]
      using hall
  | insert s =>
    have hsource : (s.rows.flatten ++ s.select.toList).Perm
        (s.writtenSource ++ Form.skipped (.insert s)) := by
      unfold Insert.writtenSource
      cases hs : s.select with
      | none => simp [skipped, hs]
      | some query => simp [skipped, hs]
    have hall := ((hsource.append_left (s.target :: s.columns)).append_right
      (s.onConflict.toList.flatMap OnConflict.children ++ s.returning)).trans
      (perm_middle_last _ _ _ _)
    simpa only [children, written, Insert.children, Insert.written, List.append_assoc,
      List.cons_append] using hall
  | _ => exact .of_eq (List.append_nil _).symm

end Skipped

/-! ## 3. The node that a rendering is refused for -/

namespace Node

/-- A node misnames if it is a call or a cast whose name does not fit. The misuse says which. -/
inductive Misnames : Node → Misuse → Prop where
  | call {name : String} {arguments : List Node} {distinct : Bool}
      (h : ¬ NameRule.function.Fits name) :
      Misnames ⟨.call name arguments distinct⟩ (.invalidName .function name)
  | cast {v : Value} {typeName : String} (h : ¬ NameRule.type.Fits typeName) :
      Misnames ⟨.cast v typeName⟩ (.invalidName .type typeName)

theorem misnames_iff {n : Node} {misuse : Misuse} :
    n.Misnames misuse ↔ n.mentioned.findSome? Mention.fault? = some misuse := by
  obtain ⟨form⟩ := n
  cases form with
  | call name arguments distinct =>
    show _ ↔ [Mention.bare .function name].findSome? Mention.fault? = some misuse
    rw [List.findSome?_singleton, Mention.fault?_bare_iff]
    constructor
    · intro h
      cases h with
      | call h => exact ⟨h, rfl⟩
    · rintro ⟨h, rfl⟩
      exact .call h
  | cast v typeName =>
    show _ ↔ [Mention.value v, .bare .type typeName].findSome? Mention.fault? = some misuse
    rw [List.findSome?_cons_of_isNone rfl, List.findSome?_singleton, Mention.fault?_bare_iff]
    constructor
    · intro h
      cases h with
      | cast h => exact ⟨h, rfl⟩
    · rintro ⟨h, rfl⟩
      exact .cast h
  | _ => exact iff_of_false (fun h => by cases h) (fun h => by cases h)

/-- **The text of a tree is at fault for the first node that misnames**, in either layout. -/
theorem fault?_doc (layout : Layout) (t : Node) :
    (t.doc layout).fault? = t.visited.findSome? fun n => n.mentioned.findSome? Mention.fault? := by
  rw [Doc.fault?_eq, mentions_doc, findSome?_flatMap]

end Node

/-! ## 4. What checked calls build -/

namespace Node

/-- What any number of calls builds if they check every name: no call and no cast is put around
    its children directly, but each comes from the function that checks its name, or from a call
    over distinct arguments that is itself checked. -/
inductive Checked : Node → Prop where
  | made {given : List Node} {n : Node} (h : Makes given n) (hn : n.form.isNamed = false)
      (hgiven : ∀ m ∈ given, Checked m) : Checked n
  | cast {v : Value} {typeName : String} {n : Node} (h : Node.cast v typeName = .ok n) : Checked n
  | call {name : String} {l : List Node} {distinct : Bool} {n : Node}
      (h : Node.call name l distinct = .ok n) (hl : ∀ m ∈ l, Checked m) : Checked n
  | distinct {n m : Node} (h : n.distinct = .ok m) (hn : Checked n) : Checked m

/-- No node of a tree misnames, whether it is written or left out. -/
def WellNamed (t : Node) : Prop := ∀ n ∈ t.parts, ∀ misuse, ¬ n.Misnames misuse

theorem wellNamed_mk {form : Form Node} : WellNamed ⟨form⟩
    ↔ (∀ misuse, ¬ (Node.mk form).Misnames misuse) ∧ Each WellNamed form.children := by
  unfold WellNamed Each
  rw [parts_mk, List.forall_mem_cons, List.forall_mem_flatMap]

theorem wellNamed_of_not_named {form : Form Node} (hform : form.isNamed = false)
    (h : Each WellNamed form.children) : WellNamed ⟨form⟩ := by
  refine wellNamed_mk.mpr ⟨fun misuse hmis => ?_, h⟩
  cases hmis <;> cases hform

/-- **Checked calls keep names well**, in each way in which they put nodes together. -/
theorem lasting_wellNamed : Lasting WellNamed where
  layer _ hform h := wellNamed_of_not_named hform h
  cast h := by
    obtain ⟨_, hcheck, h⟩ := exists_of_bind_eq_ok h
    obtain rfl := Except.ok.inj h
    refine wellNamed_mk.mpr ⟨fun misuse hmis => ?_, each_nil⟩
    cases hmis with
    | cast hfits => exact hfits (NameRule.fits_of_check hcheck)
  call h hl := by
    obtain ⟨_, hcheck, h⟩ := exists_of_bind_eq_ok h
    obtain rfl := Except.ok.inj h
    refine wellNamed_mk.mpr ⟨fun misuse hmis => ?_, hl⟩
    cases hmis with
    | call hfits => exact hfits (NameRule.fits_of_check hcheck)
  calledAgain h := by
    -- the name is not checked again, but it is the one that was
    obtain ⟨hown, hchildren⟩ := wellNamed_mk.mp h
    refine wellNamed_mk.mpr ⟨fun misuse hmis => ?_, hchildren⟩
    cases hmis with
    | call hfits => exact hown _ (.call hfits)
  anyOf {l n} h hl := by
    cases l with
    | nil => cases h
    | cons first rest =>
      obtain rfl := Option.some.inj h
      obtain ⟨hfirst, hrest⟩ := each_cons.mp hl
      have hany : WellNamed (rest.foldl (fun l r => ⟨.or l r⟩) first) :=
        List.foldlRecOn rest _ hfirst fun l hl r hr =>
          wellNamed_of_not_named rfl (by simp [Form.children, hl, hrest r hr])
      exact wellNamed_of_not_named rfl (List.forall_mem_singleton.mpr hany)
  under _ h := (wellNamed_mk.mp h).2

/-- **No node of what checked calls build misnames.** -/
theorem Checked.wellNamed {t : Node} (h : t.Checked) : t.WellNamed := by
  induction h with
  | made h hn _ ih =>
    refine lasting_wellNamed.makes h ih fun form hform _ hchildren => ?_
    subst hform
    exact wellNamed_of_not_named hn hchildren
  | cast h => exact lasting_wellNamed.cast h
  | call h _ ih => exact lasting_wellNamed.call h ih
  | distinct h _ ih => exact lasting_wellNamed.distinct h ih

end Node

/-! ## 5. Any tree in any session -/

namespace Session

/-- **When a rendering is refused.** A tree is visited node by node, below each node through every
    child but those that are left out. A session of whatever dialect, layout, choice of
    placeholders and parameters refuses the tree exactly if a visited node misnames; and what it
    answers is the misuse of the first one that does, hence the same in all sessions. What checked
    calls build is never refused. -/
theorem render_refused (t : Node) :
    t.visited = t :: t.form.written.flatMap Node.visited
      ∧ t.form.children.Perm (t.form.written ++ t.form.skipped)
      ∧ (∀ s : Session, (∃ misuse, s.render t = .error misuse)
        ↔ ∃ n ∈ t.visited, ∃ misuse, n.Misnames misuse)
      ∧ (∀ (s : Session) (misuse : Misuse), s.render t = .error misuse
        ↔ ∃ before n after, t.visited = before ++ n :: after
          ∧ (∀ m ∈ before, ∀ other, ¬ m.Misnames other) ∧ n.Misnames misuse)
      ∧ (t.Checked → ∀ s : Session, ∃ text s', s.render t = .ok (text, s')) := by
  have hfirst : ∀ (s : Session) (misuse : Misuse), s.render t = .error misuse
      ↔ ∃ before n after, t.visited = before ++ n :: after
        ∧ (∀ m ∈ before, ∀ other, ¬ m.Misnames other) ∧ n.Misnames misuse := by
    intro s misuse
    rw [render_eq_error_iff, Node.fault?_doc, List.findSome?_eq_some_iff]
    have hnone : ∀ m : Node, m.mentioned.findSome? Mention.fault? = none
        ↔ ∀ other, ¬ m.Misnames other := by
      intro m
      rw [Option.eq_none_iff_forall_ne_some]
      exact forall_congr' fun other => not_congr Node.misnames_iff.symm
    constructor
    · rintro ⟨before, n, after, hvisited, hn, hbefore⟩
      exact ⟨before, n, after, hvisited, fun m hm => (hnone m).mp (hbefore m hm),
        Node.misnames_iff.mpr hn⟩
    · rintro ⟨before, n, after, hvisited, hbefore, hn⟩
      exact ⟨before, n, after, hvisited, Node.misnames_iff.mp hn,
        fun m hm => (hnone m).mpr (hbefore m hm)⟩
  have hsome : ∀ s : Session, (∃ misuse, s.render t = .error misuse)
      ↔ ∃ n ∈ t.visited, ∃ misuse, n.Misnames misuse := by
    intro s
    have hexists : (∃ misuse, s.render t = .error misuse)
        ↔ (t.visited.findSome? fun n => n.mentioned.findSome? Mention.fault?).isSome = true := by
      rw [Option.isSome_iff_exists, ← Node.fault?_doc s.renderer.layout]
      exact exists_congr fun misuse => render_eq_error_iff
    rw [hexists, List.findSome?_isSome_iff]
    refine exists_congr fun n => and_congr_right fun _ => ?_
    rw [Option.isSome_iff_exists]
    exact exists_congr fun misuse => Node.misnames_iff.symm
  refine ⟨?_, t.form.children_perm, hsome, hfirst, fun hchecked s => ?_⟩
  · obtain ⟨form⟩ := t
    exact Node.visited_mk form
  · cases hrender : s.render t with
    | ok pair => exact ⟨pair.1, pair.2, rfl⟩
    | error misuse =>
      -- only nodes of the tree are visited, and none of them misnames
      obtain ⟨n, hn, other, hmis⟩ := (hsome s).mp ⟨misuse, hrender⟩
      exact absurd hmis (hchecked.wellNamed n (t.visited_subset hn) other)

/-- A query with three names that do not fit. The first of them is left out of the text. -/
def misnamedQuery : Node :=
  ⟨.select { wheres := [⟨.membership ⟨.call "now()" [] false⟩ [] false⟩,
    ⟨.cast (.int 1) "int[]"⟩, ⟨.call "" [] false⟩] }⟩

/-- A typed column. -/
def age : Node := ⟨.column ⟨.table "users"⟩ "age" (some "integer")⟩

/-- The column compared with a constant, which becomes a cast. -/
def agedOver : Node := ⟨.comparison age .gt ⟨.cast (.int 18) "integer"⟩⟩

/-- Every session refuses the query for its cast, and no session refuses the comparison. -/
theorem render_refused_misnamedQuery :
    (∀ s : Session, s.render misnamedQuery = .error (.invalidName .type "int[]"))
      ∧ agedOver.Checked
      ∧ ∀ s : Session, ∃ text s', s.render agedOver = .ok (text, s') := by
  have hchecked : agedOver.Checked := by
    have htable : (Node.table "users").Checked := .made (.table "users") rfl (List.forall_mem_nil _)
    have hattr : (Node.table "users").typedAttr "age" "integer" = .ok age := rfl
    have hcolumn : age.Checked :=
      .made (.typedAttr hattr) rfl (List.forall_mem_singleton.mpr htable)
    have hliteral : (Node.literal (.int 18)).Checked :=
      .made (.literal _) rfl (List.forall_mem_nil _)
    have hcompare : age.compare .gt (.literal (.int 18)) = .ok agedOver := rfl
    exact .made (.compare hcompare) rfl
      (List.forall_mem_cons.mpr ⟨hcolumn, List.forall_mem_singleton.mpr hliteral⟩)
  obtain ⟨-, -, -, hfirst, -⟩ := render_refused misnamedQuery
  obtain ⟨-, -, -, -, hnever⟩ := render_refused agedOver
  refine ⟨fun s => (hfirst s _).mpr ?_, hchecked, hnever hchecked⟩
  refine ⟨[misnamedQuery, ⟨.membership ⟨.call "now()" [] false⟩ [] false⟩],
    ⟨.cast (.int 1) "int[]"⟩, [⟨.call "" [] false⟩], rfl, fun m hm other hmis => ?_, ?_⟩
  · rcases List.mem_pair.mp hm with rfl | rfl <;> cases hmis
  · refine .cast fun hfits => ?_
    have haccepts := NameRule.accepts_iff.mpr hfits
    cases haccepts

end Session

end SqlTree
