import SqlTree.Guard.TenantScope
import SqlTree.Proofs.Answers
import SqlTree.Proofs.Wholeness

/-!
# What a WHERE clause denotes

A WHERE clause lists its predicates with AND between each two and looks at none of them. This file
says when that is their conjunction, and what happens otherwise:

* `Form.wheres?` -- the predicates of a SELECT, UPDATE or DELETE;
* `Renderer.items`, `Renderer.whereClause` -- the texts of predicates and of the clause they make,
  behind some parameters;
* `Node.spell_wheres` -- where the clause stands in the text of a statement;
* `Guard.wheres_of_statement` -- a guard adds its predicates behind those of the statement;
* `Session.render_where` -- the clause denotes the conjunction of its predicates exactly as long
  as none of several shows an OR outside all groups.
-/

namespace SqlTree

open Reading

/-! ## 1. Texts after each other -/

theorem Doc.bindings_join (separator : String) (ds : List Doc) :
    (Doc.join separator ds).bindings = ds.flatMap Doc.bindings := by
  rw [Doc.bindings_eq, Doc.mentions_join_text, List.flatMap_assoc]
  exact List.flatMap_congr fun d _ => d.bindings_eq.symm

namespace Spelling

variable (how : Spelling)

/-- Texts spelled one after the other, each behind the values of those before it. -/
def spellEach : List Doc → Nat → List String
  | [], _ => []
  | d :: rest, bound => how.spell d bound :: spellEach rest (bound + d.slots)

variable {how}

theorem spell_join_cons (separator : String) (d e : Doc) (rest : List Doc) (bound : Nat) :
    how.spell (Doc.join separator (d :: e :: rest)) bound
      = how.spell d bound ++ separator
        ++ how.spell (Doc.join separator (e :: rest)) (bound + d.slots) := by
  have hslots : (d ++ Doc.text separator).slots = d.slots := by
    show (d.bindings ++ []).length = d.bindings.length
    rw [List.append_nil]
  show how.spell d bound ++ separator
    ++ how.spell (Doc.join separator (e :: rest)) (bound + (d ++ Doc.text separator).slots) = _
  rw [hslots]

/-- Texts with a separator between each two are spelled one after the other. -/
theorem spell_join (separator : String) : ∀ (ds : List Doc) (bound : Nat),
    how.spell (Doc.join separator ds) bound = separator.intercalate (how.spellEach ds bound)
  | [], _ => rfl
  | [_], _ => String.intercalate_singleton.symm
  | d :: e :: rest, bound => by
    rw [spell_join_cons, spell_join separator (e :: rest)]
    exact String.intercalate_cons_cons.symm

/-- A text in the middle of others is spelled between what stands before and after it, behind the
    values of what stands before it. -/
theorem spell_join_middle (separator : String) (d : Doc) (right : List Doc) :
    ∀ (left : List Doc) (bound : Nat), ∃ before after,
      how.spell (Doc.join separator (left ++ d :: right)) bound
        = before ++ how.spell d (bound + (left.flatMap Doc.bindings).length) ++ after
  | [], bound => by
    cases right with
    | nil => exact ⟨"", "", by simp [Doc.join]⟩
    | cons e rest =>
      refine ⟨"", separator ++ how.spell (Doc.join separator (e :: rest)) (bound + d.slots), ?_⟩
      rw [List.nil_append, spell_join_cons, String.empty_append, String.append_assoc]
      rfl
  | e :: left, bound => by
    obtain ⟨before, after, ih⟩ := spell_join_middle separator d right left (bound + e.slots)
    refine ⟨how.spell e bound ++ separator ++ before, after, ?_⟩
    obtain ⟨f, rest, hrest⟩ : ∃ f rest, left ++ d :: right = f :: rest :=
      List.exists_cons_of_ne_nil (by simp)
    have hbound : bound + e.slots + (left.flatMap Doc.bindings).length
        = bound + ((e :: left).flatMap Doc.bindings).length := by
      rw [List.flatMap_cons, List.length_append, Doc.slots]
      omega
    rw [List.cons_append, hrest, spell_join_cons, ← hrest, ih, hbound]
    simp only [String.append_assoc]

theorem exists_of_mem_spellEach {s : String} :
    ∀ {ds : List Doc} {bound : Nat}, s ∈ how.spellEach ds bound →
      ∃ d ∈ ds, ∃ bound', s = how.spell d bound'
  | d :: rest, bound, h => by
    rcases List.mem_cons.mp h with rfl | h
    · exact ⟨d, List.mem_cons_self, bound, rfl⟩
    · obtain ⟨e, he, bound', hs⟩ := exists_of_mem_spellEach h
      exact ⟨e, List.mem_cons_of_mem _ he, bound', hs⟩

end Spelling

/-! ## 2. Predicates after each other -/

namespace Renderer

variable (r : Renderer)

/-- The reading of what a renderer writes. -/
def reading : Reading := ⟨r.dialect, true⟩

/-- The texts of predicates, behind some parameters. -/
def items (ws : List Node) (bound : Nat) : List String :=
  r.spelling.spellEach (ws.map (Node.doc r.layout)) bound

/-- The text of the WHERE clause that predicates make, behind some parameters. -/
def whereClause (ws : List Node) (bound : Nat) : String :=
  r.spelling.spell (Doc.join (r.layout.between .conjunction) (ws.map (Node.doc r.layout))) bound

end Renderer

/-- The word between two predicates, in either layout. -/
theorem reads_conjunction (r : Reading) {s : String} (hs : s = " AND " ∨ s = "\n\tAND ") :
    Reads r s.toList .held [andToken] .free := by
  have hlex : r.lex s = [andToken] := by
    obtain ⟨dialect, literals⟩ := r
    rcases hs with rfl | rfl <;> cases dialect <;> cases literals <;> rfl
  have htame : s.toList.all isTame = true := by
    rcases hs with rfl | rfl <;> rfl
  have hfit : fitsSeams .held s .free = true := by
    rcases hs with rfl | rfl <;> decide
  rw [← hlex]
  exact reads_of_tame r (List.all_eq_true.mp htame) hfit

/-- **Texts with a word between each two** are read one after the other, with the token of the word
    between them, if each can end where its text does. -/
theorem reads_intercalate {r : Reading} {separator : String} {t : Token}
    (ht : Reads r separator.toList .held [t] .free) :
    ∀ {texts : List String}, (∀ s ∈ texts, (r.read .gap s.toList).1.settled = true) →
      Reads r (separator.intercalate texts).toList .free ([t].intercalate (texts.map r.lex)) .held
  | [], _ => Reads.nil.held
  | [s], h => by
    rw [String.intercalate_singleton, List.map_singleton, List.intercalate_singleton]
    exact reads_lex (h s List.mem_cons_self)
  | s :: s' :: rest, h => by
    have hs : Reads r s.toList .free (r.lex s) .held := reads_lex (h s List.mem_cons_self)
    have hrest := reads_intercalate ht fun u hu => h u (List.mem_cons_of_mem s hu)
    rw [String.intercalate_cons_cons, String.toList_append, String.toList_append, List.map_cons,
      List.map_cons, List.intercalate_cons_cons, List.append_assoc, List.append_assoc]
    exact hs.append (ht.append hrest)

theorem conjoined_eq : ∀ conditions : List (List Token),
    conjoined conditions = [andToken].intercalate conditions
  | [] => rfl
  | [ts] => (List.intercalate_singleton ..).symm
  | ts :: us :: rest => by
    rw [conjoined, conjoined_eq (us :: rest), List.intercalate_cons_cons, List.append_assoc]
    rfl

/-- **A clause is read as its items** with an AND between each two, if each item can end where its
    text does. -/
theorem reads_join {how : Spelling} {r : Reading} {separator : String}
    (hs : separator = " AND " ∨ separator = "\n\tAND ") {ds : List Doc} {bound : Nat}
    (h : ∀ s ∈ how.spellEach ds bound, (r.read .gap s.toList).1.settled = true) :
    Reads r (how.spell (Doc.join separator ds) bound).toList .free
      (conjoined ((how.spellEach ds bound).map r.lex)) .held := by
  rw [Spelling.spell_join, conjoined_eq]
  exact reads_intercalate (reads_conjunction r hs) h

/-! ## 3. Where the clause stands -/

/-- The predicates of a statement that has a WHERE clause. -/
def Form.wheres? {ν : Type} : Form ν → Option (List ν)
  | .select s => some s.wheres
  | .update s => some s.wheres
  | .delete s => some s.wheres
  | _ => none

namespace Render

/-- The sections of a SELECT before its predicates. -/
def sectionsBeforeWheres (s : Select Child) : List Section :=
  ((withClause? s.ctes).map Section.line).toList
    ++ (s.comment.map fun text => Section.line (.comment "/*" text)).toList
    ++ [if s.projections.isEmpty then .line (selectHead s ++ " *")
        else .items (selectHead s) .comma (s.projections.map (·.2))]
    ++ lineOf "FROM " (s.source.map operand)
    ++ s.joins.map (fun j => .line (join j))

/-- The sections of a SELECT after its predicates. -/
def sectionsAfterWheres (s : Select Child) : List Section :=
  itemsOf "GROUP BY" .comma s.groups
    ++ itemsOf "HAVING" .conjunction s.havings
    ++ (if s.windows.isEmpty then [] else [.items "WINDOW" .comma (s.windows.map window)])
    ++ itemsOf "ORDER BY" .comma s.orders
    ++ lineOf "LIMIT " (s.limit.map (·.2))
    ++ lineOf "OFFSET " (s.offset.map (·.2))
    ++ ((lockClause? s).map Section.line).toList

theorem selectSections_eq (s : Select Child) :
    selectSections s = sectionsBeforeWheres s ++ itemsOf "WHERE" .conjunction s.wheres
      ++ sectionsAfterWheres s := by
  unfold selectSections sectionsBeforeWheres sectionsAfterWheres
  simp only [List.append_assoc]

/-- The sections of a statement with predicates, the clause among them. -/
theorem formDoc_wheres (layout : Layout) {form : Form Child} {ws : List Child}
    (hw : form.wheres? = some ws) :
    ∃ front back, formDoc layout form
      = layout.statement (front ++ itemsOf "WHERE" .conjunction ws ++ back) := by
  cases form with
  | select s =>
    obtain rfl : s.wheres = ws := Option.some.inj hw
    exact ⟨_, _, congrArg layout.statement (selectSections_eq s)⟩
  | update s =>
    obtain rfl : s.wheres = ws := Option.some.inj hw
    exact ⟨_, _, rfl⟩
  | delete s =>
    obtain rfl : s.wheres = ws := Option.some.inj hw
    exact ⟨_, _, rfl⟩
  | _ => cases hw

end Render

theorem Form.wheres?_map {ν μ : Type} (f : ν → μ) (form : Form ν) :
    (form.map f).wheres? = form.wheres?.map (List.map f) := by
  cases form <;> rfl

/-- **The clause stands in the text of its statement**, behind the word WHERE, and numbers its
    parameters behind those of what stands before it. -/
theorem Node.spell_wheres (r : Renderer) {t : Node} {ws : List Node}
    (hw : t.form.wheres? = some ws) (hne : ws ≠ []) (bound : Nat) :
    ∃ before after front back, t.collect = front ++ ws.flatMap Node.collect ++ back
      ∧ r.spelling.spell (t.doc r.layout) bound
        = before ++ "WHERE " ++ r.whereClause ws (bound + front.length) ++ after := by
  obtain ⟨form⟩ := t
  have hchildren : (form.map (rendered r.layout)).wheres?
      = some (ws.map (rendered r.layout)) := by
    have hform : form.wheres? = some ws := hw
    rw [Form.wheres?_map, hform]
    rfl
  obtain ⟨front, back, hdoc⟩ := Render.formDoc_wheres r.layout hchildren
  have hitems : Render.itemsOf "WHERE" .conjunction (ws.map (rendered r.layout))
      = [.items "WHERE" .conjunction (ws.map (Node.doc r.layout))] := by
    obtain ⟨w, rest, rfl⟩ := List.exists_cons_of_ne_nil hne
    unfold Render.itemsOf
    rw [List.map_map]
    rfl
  obtain ⟨conjunction, hconjunction⟩ : ∃ separator : String,
      r.layout.between .conjunction = Doc.text separator := by
    cases r.layout with
    | oneLine => exact ⟨_, rfl⟩
    | lines => exact ⟨_, rfl⟩
  have hlay : r.layout.lay (.items "WHERE" .conjunction (ws.map (Node.doc r.layout)))
      = "WHERE" ++ " " ++ Doc.join (r.layout.between .conjunction)
        (ws.map (Node.doc r.layout)) := by
    obtain ⟨w, rest, rfl⟩ := List.exists_cons_of_ne_nil hne
    cases r.layout <;> rfl
  obtain ⟨separator, hjoin⟩ : ∃ separator : String, ∀ sections, r.layout.statement sections
      = Doc.join separator (sections.map r.layout.lay) := by
    cases r.layout with
    | oneLine => exact ⟨" ", fun _ => rfl⟩
    | lines => exact ⟨"\n", fun _ => rfl⟩
  have hsections : (Node.mk form).doc r.layout = Doc.join separator (front.map r.layout.lay
      ++ ("WHERE" ++ " " ++ Doc.join (r.layout.between .conjunction) (ws.map (Node.doc r.layout)))
      :: back.map r.layout.lay) := by
    rw [doc_mk, hdoc, hitems, hjoin, List.map_append, List.map_append, List.append_assoc,
      List.map_singleton, hlay, List.singleton_append]
  have hclause : ("WHERE" ++ " " ++ Doc.join (r.layout.between .conjunction)
      (ws.map (Node.doc r.layout)) : Doc).bindings = ws.flatMap Node.collect := by
    show (Doc.join (r.layout.between .conjunction) (ws.map (Node.doc r.layout))).bindings = _
    rw [hconjunction, Doc.bindings_join, List.flatMap_map]
    exact List.flatMap_congr fun w _ => w.bindings_doc r.layout
  obtain ⟨before, after, hspell⟩ := r.spelling.spell_join_middle separator
    ("WHERE" ++ " " ++ Doc.join (r.layout.between .conjunction) (ws.map (Node.doc r.layout)))
    (back.map r.layout.lay) (front.map r.layout.lay) bound
  refine ⟨before, after, (front.map r.layout.lay).flatMap Doc.bindings,
    (back.map r.layout.lay).flatMap Doc.bindings, ?_, ?_⟩
  · rw [← Node.bindings_doc r.layout, hsections, Doc.bindings_join, List.flatMap_append,
      List.flatMap_cons, hclause, List.append_assoc]
  · have hword : ∀ n, r.spelling.spell ("WHERE" ++ " "
        ++ Doc.join (r.layout.between .conjunction) (ws.map (Node.doc r.layout))) n
          = "WHERE " ++ r.whereClause ws n := fun n => rfl
    rw [hsections, hspell, hword]
    simp only [String.append_assoc]

/-! ## 4. What the clause denotes -/

/-- The tokens of predicates behind some parameters, each predicate read by itself. -/
def Renderer.conditions (r : Renderer) (ws : List Node) (bound : Nat) : List (List Token) :=
  (r.items ws bound).map r.reading.lex

section Clause

variable {r : Renderer} {ws : List Node} {bound : Nat}

/-- **The clause is read as its predicates** with an AND between each two. -/
theorem Renderer.lex_whereClause_of_settled
    (h : ∀ item ∈ r.items ws bound, (r.reading.read .gap item.toList).1.settled = true) :
    r.reading.lex (r.whereClause ws bound) = conjoined (r.conditions ws bound) := by
  obtain ⟨separator, hlayout, hs⟩ : ∃ separator : String,
      r.layout.between .conjunction = Doc.text separator
        ∧ (separator = " AND " ∨ separator = "\n\tAND ") := by
    cases r.layout with
    | oneLine => exact ⟨_, rfl, .inl rfl⟩
    | lines => exact ⟨_, rfl, .inr rfl⟩
  unfold Renderer.whereClause
  rw [hlayout]
  exact (reads_join hs h).lex_eq

theorem Renderer.lex_whereClause
    (h : ∀ item ∈ r.items ws bound, r.reading.Whole item) :
    r.reading.lex (r.whereClause ws bound) = conjoined (r.conditions ws bound) :=
  Renderer.lex_whereClause_of_settled fun item hitem => (h item hitem).settled

/-- Predicates are whole on one line if their verbatim texts and their bare names are. -/
theorem Renderer.whole_items (hl : r.layout = .oneLine)
    (h : ∀ w ∈ ws, ∀ m ∈ w.visited.flatMap Node.mentioned, m.Whole r.reading) :
    ∀ item ∈ r.items ws bound, r.reading.Whole item := by
  intro item hitem
  obtain ⟨d, hd, bound', rfl⟩ := Spelling.exists_of_mem_spellEach hitem
  obtain ⟨w, hw, rfl⟩ := List.mem_map.mp hd
  rw [hl]
  exact @Node.whole_spell r.spelling w (h w hw) bound'

theorem Renderer.complete_conditions
    (h : ∀ item ∈ r.items ws bound, r.reading.Whole item) :
    ∀ ts ∈ r.conditions ws bound, Complete ts := by
  intro ts hts
  obtain ⟨item, hitem, rfl⟩ := List.mem_map.mp hts
  exact (h item hitem).complete

theorem Renderer.conditions_ne_nil (r : Renderer) (hne : ws ≠ []) (bound : Nat) :
    r.conditions ws bound ≠ [] := by
  obtain ⟨w, rest, rfl⟩ := List.exists_cons_of_ne_nil hne
  exact List.cons_ne_nil _ _

end Clause

/-! ## 5. Guards -/

namespace Guard

/-- A statement with the predicates that a guard adds. What has no WHERE clause stays as it is. -/
def statement (g : Guard) : Node → Except Failure Node
  | ⟨.select q⟩ => (g.select q).map fun q => ⟨.select q⟩
  | ⟨.update q⟩ => (g.update q).map fun q => ⟨.update q⟩
  | ⟨.delete q⟩ => (g.delete q).map fun q => ⟨.delete q⟩
  | t => .ok t

/-- The predicates that a guard adds to a statement. -/
def added (g : Guard) : Node → Except Failure (List Node)
  | ⟨.select q⟩ => g.predicates .select q.tables
  | ⟨.update q⟩ => g.predicates .update (tablesAmong [q.target])
  | ⟨.delete q⟩ => g.predicates .delete (tablesAmong [q.target])
  | _ => .ok []

section Kinds

variable (g : Guard)

theorem select_eq (q : Select Node) :
    g.select q = (g.predicates .select q.tables).map fun new =>
      { q with wheres := q.wheres ++ new } := by
  unfold select
  cases g.predicates .select q.tables <;> rfl

theorem update_eq (q : Update Node) :
    g.update q = (g.predicates .update (tablesAmong [q.target])).map fun new =>
      { q with wheres := q.wheres ++ new } := by
  unfold update
  cases g.predicates .update (tablesAmong [q.target]) <;> rfl

theorem delete_eq (q : Delete Node) :
    g.delete q = (g.predicates .delete (tablesAmong [q.target])).map fun new =>
      { q with wheres := q.wheres ++ new } := by
  unfold delete
  cases g.predicates .delete (tablesAmong [q.target]) <;> rfl

end Kinds

/-- **A guard adds its predicates behind those of the statement.** -/
theorem wheres_of_statement {g : Guard} {t t' : Node} {ws : List Node}
    (h : g.statement t = .ok t') (hw : t'.form.wheres? = some ws) :
    ∃ old new, t.form.wheres? = some old ∧ g.added t = .ok new ∧ ws = old ++ new := by
  obtain ⟨form⟩ := t
  cases form with
  | select q =>
    obtain ⟨q', hq, rfl⟩ := exists_of_map_eq_ok h
    rw [select_eq] at hq
    obtain ⟨new, hnew, rfl⟩ := exists_of_map_eq_ok hq
    exact ⟨q.wheres, new, rfl, hnew, (Option.some.inj hw).symm⟩
  | update q =>
    obtain ⟨q', hq, rfl⟩ := exists_of_map_eq_ok h
    rw [update_eq] at hq
    obtain ⟨new, hnew, rfl⟩ := exists_of_map_eq_ok hq
    exact ⟨q.wheres, new, rfl, hnew, (Option.some.inj hw).symm⟩
  | delete q =>
    obtain ⟨q', hq, rfl⟩ := exists_of_map_eq_ok h
    rw [delete_eq] at hq
    obtain ⟨new, hnew, rfl⟩ := exists_of_map_eq_ok hq
    exact ⟨q.wheres, new, rfl, hnew, (Option.some.inj hw).symm⟩
  | _ =>
    obtain rfl := Except.ok.inj h
    cases hw

end Guard

/-! ## 6. What a statement accepts -/

namespace Session

/-- **What the WHERE clause of a statement denotes.** It stands in the text behind the word WHERE,
    numbered behind the parameters before it. Its predicates are whole if what the caller writes
    into them is. Then its pieces are theirs; and it denotes their conjunction, whatever the truths
    of the pieces are, exactly if the predicates are separate: there is only one, or none shows an
    OR outside all groups. Exactly then each row that the clause accepts satisfies each predicate,
    those that a guard added among them. -/
theorem render_where {s s' : Session} {t : Node} {ws : List Node} {text : String}
    (hw : t.form.wheres? = some ws) (hne : ws ≠ []) (h : s.render t = .ok (text, s')) :
    ∃ before after front back,
      let bound := s.index + front.length
      t.collect = front ++ ws.flatMap Node.collect ++ back
        ∧ text = before ++ "WHERE " ++ s.renderer.whereClause ws bound ++ after
        ∧ (s.renderer.layout = .oneLine →
          (∀ w ∈ ws, ∀ m ∈ w.visited.flatMap Node.mentioned, m.Whole s.renderer.reading) →
          ∀ item ∈ s.renderer.items ws bound, s.renderer.reading.Whole item)
        ∧ ((∀ item ∈ s.renderer.items ws bound, s.renderer.reading.Whole item) →
          let clause := s.renderer.reading.lex (s.renderer.whereClause ws bound)
          let conditions := s.renderer.conditions ws bound
          pieces clause = conditions.flatMap pieces
            ∧ (Separate conditions ↔ ∀ truths, Valued conditions truths →
                denote truths.flatten clause = Truth.all (List.zipWith denote truths conditions))
            ∧ (Separate conditions ↔ ∀ truths, Valued conditions truths →
                denote truths.flatten clause = .yes →
                ∀ v ∈ List.zipWith denote truths conditions, v = .yes)
            ∧ (Separate conditions → ∀ (g : Guard) (t₀ : Node), g.statement t₀ = .ok t →
                ∃ old new, t₀.form.wheres? = some old ∧ g.added t₀ = .ok new ∧ ws = old ++ new
                  ∧ ∀ truths, Valued conditions truths → denote truths.flatten clause = .yes →
                    ∀ v ∈ (List.zipWith denote truths conditions).drop old.length, v = .yes)) := by
  obtain ⟨-, htext, -⟩ := render_eq_ok_iff.mp h
  obtain ⟨before, after, front, back, hcollect, hspell⟩ :=
    Node.spell_wheres s.renderer hw hne s.index
  refine ⟨before, after, front, back, hcollect, htext.trans hspell,
    fun hl => Renderer.whole_items hl, fun hitems => ?_⟩
  have hcomplete := Renderer.complete_conditions hitems
  have hconditions : s.renderer.conditions ws (s.index + front.length) ≠ [] :=
    s.renderer.conditions_ne_nil hne _
  have henforced := separate_iff_enforced hcomplete hconditions
  rw [Renderer.lex_whereClause hitems]
  refine ⟨pieces_conjoined hcomplete hconditions, separate_iff_denote hcomplete hconditions,
    henforced, fun hs g t₀ hg => ?_⟩
  obtain ⟨old, new, hold, hnew, hsplit⟩ := Guard.wheres_of_statement hg hw
  refine ⟨old, new, hold, hnew, hsplit, fun truths hv hyes v hmem => ?_⟩
  exact henforced.mp hs truths hv hyes v (List.mem_of_mem_drop hmem)

/-- A query of users with some predicates. -/
def usersWhere (ws : List Node) : Node :=
  ⟨.select { source := some ⟨.table "users"⟩, wheres := ws }⟩

/-- Two alternatives, in the words of the caller. -/
def alternatives : Node := ⟨.raw "a = 1 OR b = 2" []⟩

/-- The guard that confines statements to a tenant. -/
def tenantGuard : Guard := TenantScope.guard { tenant := .int 42 }

/-- The predicate that this guard adds for users. -/
def tenantPredicate : Node :=
  ⟨.comparison ⟨.column ⟨.table "users"⟩ "tenant_id" none⟩ .eq ⟨.bind (.int 42)⟩⟩

/-- A session for PostgreSQL without parameters. -/
def fresh : Session := ⟨⟨.postgres, .oneLine, true⟩, []⟩

/-- In parentheses the alternatives are separate, and rows are held to the tenant. -/
theorem render_where_groupedAlternatives :
    tenantGuard.statement (usersWhere [⟨.grouping alternatives⟩])
        = .ok (usersWhere [⟨.grouping alternatives⟩, tenantPredicate])
      ∧ fresh.render (usersWhere [⟨.grouping alternatives⟩, tenantPredicate])
        = .ok ("SELECT * FROM \x22users\x22 "
          ++ "WHERE (a = 1 OR b = 2) AND \x22users\x22.\x22tenant_id\x22 = $1",
          { fresh with params := [.int 42] })
      ∧ ∀ truths, Valued (fresh.renderer.conditions [⟨.grouping alternatives⟩, tenantPredicate] 0)
          truths →
        denote truths.flatten (fresh.renderer.reading.lex
          (fresh.renderer.whereClause [⟨.grouping alternatives⟩, tenantPredicate] 0)) = .yes →
        ∀ v ∈ (List.zipWith denote truths
          (fresh.renderer.conditions [⟨.grouping alternatives⟩, tenantPredicate] 0)).drop 1,
          v = .yes := by
  have hguard : tenantGuard.statement (usersWhere [⟨.grouping alternatives⟩])
      = .ok (usersWhere [⟨.grouping alternatives⟩, tenantPredicate]) := rfl
  have hrender : fresh.render (usersWhere [⟨.grouping alternatives⟩, tenantPredicate])
      = .ok ("SELECT * FROM \x22users\x22 "
        ++ "WHERE (a = 1 OR b = 2) AND \x22users\x22.\x22tenant_id\x22 = $1",
        { fresh with params := [.int 42] }) := rfl
  refine ⟨hguard, hrender, ?_⟩
  obtain ⟨_, _, front, back, hcollect, _, _, hwhole⟩ :=
    render_where rfl (List.cons_ne_nil _ _) hrender
  obtain rfl : front = [] := by
    have hlen : 1 = (front.length + 1) + back.length := by
      have h := congrArg List.length hcollect
      rw [List.length_append, List.length_append] at h
      exact h
    exact List.length_eq_zero_iff.mp (by omega)
  obtain ⟨_, _, _, hguarded⟩ := hwhole (by decide)
  obtain ⟨old, _, hold, _, _, henforced⟩ := hguarded (.inr (by decide)) tenantGuard _ hguard
  obtain rfl : [⟨.grouping alternatives⟩] = old := Option.some.inj hold
  exact henforced

/-- Without parentheses they are not: a row of another tenant is accepted. -/
theorem tenant_bypassed_by_alternatives :
    tenantGuard.statement (usersWhere [alternatives])
        = .ok (usersWhere [alternatives, tenantPredicate])
      ∧ fresh.render (usersWhere [alternatives, tenantPredicate])
        = .ok ("SELECT * FROM \x22users\x22 "
          ++ "WHERE a = 1 OR b = 2 AND \x22users\x22.\x22tenant_id\x22 = $1",
          { fresh with params := [.int 42] })
      ∧ (∀ item ∈ fresh.renderer.items [alternatives, tenantPredicate] 0,
        fresh.renderer.reading.Whole item)
      ∧ ∃ truths, Valued (fresh.renderer.conditions [alternatives, tenantPredicate] 0) truths
        ∧ denote truths.flatten (fresh.renderer.reading.lex
          (fresh.renderer.whereClause [alternatives, tenantPredicate] 0)) = .yes
        ∧ List.zipWith denote truths (fresh.renderer.conditions [alternatives, tenantPredicate] 0)
          = [.yes, .no] := by
  refine ⟨rfl, rfl, by decide, [[.yes, .no], [.no]], ?_, rfl, rfl⟩
  exact .cons rfl (.cons rfl .nil)

end Session

end SqlTree
