import SqlTree.Proofs.Enclosure
import SqlTree.Proofs.Nesting
import SqlTree.Proofs.WhereClause
import SqlTree.Proofs.Within

/-!
# Conditions that stay conjuncts

A tree that encloses its ORs is written with each OR in parentheses, whatever else the tree holds.
So a list of conditions with AND between each two is their conjunction.

* `Token.group?`, `Grouping` -- what ends a group: parentheses, or CASE and END as well;
* `Covered`, `Shelters` -- tokens among which another one stands only in groups, in a form that
  parts hand on to the text they make;
* `exposesOr_eq_false_of_covered` -- a condition whose ORs stand in groups exposes none;
* `Node.stands_doc` -- the text of a tree that encloses its ORs may stand outside parentheses;
* `Session.render_covers_ors` -- no sequence of calls lets an OR out of its parentheses, in the text
  of such a tree ORs stand in parentheses only, and each list of conditions denotes the conjunction
  of what its items denote.
-/

namespace SqlTree

open Reading

/-! ## 1. Groups -/

/-- The end of a group that a token is, if it is one. -/
def Token.group? (t : Token) : Option Bracket :=
  match t.role with
  | .opens => some .opens
  | .closes => some .closes
  | _ => none

/-- A way to tell what ends a group. Parentheses do so, CASE and END may, and nothing does that is
    inert or stands between conditions. -/
structure Grouping (ends : Token → Option Bracket) : Prop where
  opens : ends (.mark '(') = some .opens
  closes : ends (.mark ')') = some .closes
  choice : (ends (.word "CASE".toList) = none ∧ ends (.word "END".toList) = none)
    ∨ (ends (.word "CASE".toList) = some .opens ∧ ends (.word "END".toList) = some .closes)
  range : ends (.word "BETWEEN".toList) = none
  or : ends orToken = none
  inert : ∀ t : Token, t.isInert = true → ends t = none

theorem grouping_bracket? : Grouping Token.bracket? where
  opens := rfl
  closes := rfl
  choice := .inl ⟨rfl, rfl⟩
  range := rfl
  or := rfl
  inert _ := Token.bracket?_of_isInert

theorem grouping_group? : Grouping Token.group? where
  opens := rfl
  closes := rfl
  choice := .inr ⟨rfl, rfl⟩
  range := rfl
  or := rfl
  inert t ht := by
    have hrole := Token.role_of_isInert ht
    unfold Token.group?
    split
    · rename_i h
      rw [h] at hrole
      exact absurd hrole (by decide)
    · rename_i h
      rw [h] at hrole
      exact absurd hrole (by decide)
    · rfl

/-! ## 2. Tokens in groups -/

/-- A token stands among others only where a group is open. -/
def Covered (ends : Token → Option Bracket) (t : Token) (ts : List Token) : Prop :=
  ∀ front back, ts = front ++ t :: back →
    ∃ depth, depthAfter 0 (front.filterMap ends) = some (depth + 1)

/-- Tokens close the groups that they open and no others, and outside parentheses a token stands
    among them in these groups only. -/
structure Shelters (ends : Token → Option Bracket) (t : Token) (inside : Bool)
    (ts : List Token) : Prop where
  balanced : Balanced (ts.filterMap ends)
  covered : inside = false → Covered ends t ts

section Groups

variable {ends : Token → Option Bracket} {t l r : Token} {ts us : List Token} {inside : Bool}

theorem Covered.of_not_mem (h : t ∉ ts) : Covered ends t ts := by
  rintro front back rfl
  exact absurd (List.mem_append_right _ List.mem_cons_self) h

theorem Covered.append (hb : Balanced (ts.filterMap ends)) (ht : Covered ends t ts)
    (hu : Covered ends t us) : Covered ends t (ts ++ us) := by
  intro front back hsplit
  rcases List.append_eq_append_iff.mp hsplit with ⟨rest, rfl, hus⟩ | ⟨rest, hts, hrest⟩
  · obtain ⟨depth, hdepth⟩ := hu rest back hus
    refine ⟨depth, ?_⟩
    rw [List.filterMap_append, depthAfter_append, hb.depthAfter, Option.bind_some, hdepth]
  · cases rest with
    | nil =>
      -- then `us` would begin with the token, where no group is open
      obtain ⟨depth, hdepth⟩ := hu [] back hrest.symm
      cases hdepth
    | cons u rest =>
      obtain ⟨rfl, -⟩ := List.cons.inj hrest
      exact ht front rest hts

/-- In a group every other token is covered. -/
theorem Covered.enclosed (hl : ends l = some .opens) (hb : Balanced (ts.filterMap ends))
    (htl : t ≠ l) (htr : t ≠ r) : Covered ends t (l :: (ts ++ [r])) := by
  intro front back hsplit
  cases front with
  | nil => exact absurd (List.cons.inj hsplit).1.symm htl
  | cons u front =>
    obtain ⟨rfl, hrest⟩ := List.cons.inj hsplit
    obtain ⟨rest, rfl⟩ : ∃ rest, ts = front ++ rest := by
      rcases List.append_eq_append_iff.mp hrest with ⟨rest, -, hlast⟩ | ⟨rest, hts, -⟩
      · have hmem : t ∈ [r] := by
          rw [hlast]
          exact List.mem_append_right _ List.mem_cons_self
        exact absurd (List.mem_singleton.mp hmem) htr
      · exact ⟨rest, hts⟩
    rw [List.filterMap_append] at hb
    obtain ⟨depth, hdepth⟩ := hb.prefix_depth
    refine ⟨depth, ?_⟩
    rw [List.filterMap_cons_some hl, Nat.add_comm depth 1]
    exact depthAfter_add hdepth 1

namespace Shelters

theorem append (ht : Shelters ends t inside ts) (hu : Shelters ends t inside us) :
    Shelters ends t inside (ts ++ us) where
  balanced := by
    rw [List.filterMap_append]
    exact ht.balanced.append hu.balanced
  covered hinside := (ht.covered hinside).append ht.balanced (hu.covered hinside)

/-- Other tokens that end no group. -/
theorem of_forall (h : ∀ u ∈ ts, ends u = none ∧ t ≠ u) : Shelters ends t inside ts where
  balanced := by
    rw [List.filterMap_eq_nil_iff.mpr fun u hu => (h u hu).1]
    exact .nil
  covered _ := .of_not_mem fun hmem => (h t hmem).2 rfl

/-- A group. -/
theorem enclosed (hl : ends l = some .opens) (hr : ends r = some .closes) (htl : t ≠ l)
    (htr : t ≠ r) (h : Balanced (ts.filterMap ends)) :
    Shelters ends t inside (l :: (ts ++ [r])) where
  balanced := by
    rw [List.filterMap_cons_some hl, List.filterMap_append, List.filterMap_cons_some hr]
    exact h.enclosed
  covered _ := .enclosed hl h htl htr

/-- Two tokens that end no group, with others between them. -/
theorem between (hl : ends l = none) (hr : ends r = none) (htl : t ≠ l) (htr : t ≠ r)
    (h : Shelters ends t inside ts) : Shelters ends t inside (l :: (ts ++ [r])) := by
  have hleft : Shelters ends t inside [l] := of_forall (List.forall_mem_singleton.mpr ⟨hl, htl⟩)
  have hright : Shelters ends t inside [r] := of_forall (List.forall_mem_singleton.mpr ⟨hr, htr⟩)
  exact hleft.append (h.append hright)

end Shelters

theorem Token.ne_of_isWord (ht : t.isWord "OR" = true) {u : Token} (hu : u.isWord "OR" = false) :
    t ≠ u := by
  rintro rfl
  rw [ht] at hu
  cases hu

theorem Token.isWord_or_of_isInert {u : Token} (h : u.isInert = true) :
    u.isWord "OR" = false := by
  have hwords := (Bool.and_eq_true_iff.mp h).2
  simp only [groupWords, List.any_cons, List.any_nil, Bool.or_false, Bool.not_eq_true',
    Bool.or_eq_false_iff] at hwords
  exact hwords.2.2.2.2

/-- **That an OR stands in groups only is kept** when a text is put together. -/
theorem kept_shelters (hends : Grouping ends) (ht : t.isWord "OR" = true) :
    Kept (Shelters ends t) where
  append := Shelters.append
  range h := h.between hends.range (hends.inert andToken rfl) (Token.ne_of_isWord ht rfl)
    (Token.ne_of_isWord ht rfl)
  choice h := by
    have hcase : t ≠ .word "CASE".toList := Token.ne_of_isWord ht rfl
    have hend : t ≠ .word "END".toList := Token.ne_of_isWord ht rfl
    rcases hends.choice with ⟨hl, hr⟩ | ⟨hl, hr⟩
    · exact h.between hl hr hcase hend
    · exact .enclosed hl hr hcase hend h.balanced
  paren h := .enclosed hends.opens hends.closes (Token.ne_of_isWord ht rfl)
    (Token.ne_of_isWord ht rfl) h.balanced
  sheltered h := ⟨h.balanced, Bool.noConfusion⟩
  inert h := .of_forall fun u hu =>
    ⟨hends.inert u (h u hu), Token.ne_of_isWord ht (Token.isWord_or_of_isInert (h u hu))⟩
  or := by
    refine ⟨?_, Bool.noConfusion⟩
    rw [List.filterMap_cons_none hends.or]
    exact .nil

end Groups

/-! ## 3. ORs that a condition does not expose -/

/-- One token changes the depth of a scan as it changes that of the groups. -/
theorem Scan.depthAfter_cons (s : Scan) (t : Token) (rest : List Token) :
    depthAfter s.depth ((t :: rest).filterMap Token.group?)
      = (s.next? t).bind fun s' => depthAfter s'.depth (rest.filterMap Token.group?) := by
  obtain ⟨depth, waiting⟩ := s
  have hgroup : t.group? = match t.role with
    | .opens => some .opens
    | .closes => some .closes
    | _ => none := rfl
  rw [List.filterMap_cons, hgroup]
  unfold next?
  cases t.role with
  | opens =>
    rw [after?_opens]
    rfl
  | _ => cases depth <;> rfl

theorem Scan.depthAfter_of_run? {ts : List Token} {s s' : Scan} (h : s.run? ts = some s') :
    depthAfter s.depth (ts.filterMap Token.group?) = some s'.depth := by
  induction ts generalizing s with
  | nil =>
    obtain rfl := Option.some.inj h
    rfl
  | cons t rest ih =>
    obtain ⟨s₁, hnext, hrest⟩ := Option.bind_eq_some_iff.mp h
    rw [depthAfter_cons, hnext]
    exact ih hrest

/-- A complete condition closes the groups that it opens and no others. -/
theorem Complete.balanced {ts : List Token} (h : Complete ts) :
    Balanced (ts.filterMap Token.group?) := Scan.depthAfter_of_run? h

theorem Scan.eq_of_connective?_eq_or {s : Scan} {t : Token} (h : s.connective? t = some .or) :
    t.role = .or ∧ s.depth = 0 := by
  unfold connective? at h
  split at h
  · exact ⟨‹_›, ‹_›⟩
  · cases h
  · cases h

/-- A scan meets no OR outside groups if each OR behind it stands in one. -/
theorem Scan.hasOr_chain_eq_false {ts : List Token} {s : Scan}
    (h : ∀ front t back, ts = front ++ t :: back → t.role = .or →
      ∃ depth, depthAfter s.depth (front.filterMap Token.group?) = some (depth + 1)) :
    (s.chain ts).hasOr = false := by
  induction ts generalizing s with
  | nil => rfl
  | cons t rest ih =>
    have hrest : ((s.next t).chain rest).hasOr = false := by
      refine ih fun front u back hsplit hu => ?_
      obtain ⟨depth, hdepth⟩ := h (t :: front) u back (congrArg (t :: ·) hsplit) hu
      rw [depthAfter_cons] at hdepth
      obtain ⟨s', hnext, hdepth⟩ := Option.bind_eq_some_iff.mp hdepth
      have hs' : s.next t = s' := by
        unfold next
        rw [hnext]
        rfl
      exact ⟨depth, hs' ▸ hdepth⟩
    cases hk : s.connective? t with
    | none =>
      rw [chain_cons_none hk]
      exact hrest
    | some k =>
      rw [chain_cons_some hk]
      cases k with
      | and => exact hrest
      | or =>
        obtain ⟨hrole, hzero⟩ := eq_of_connective?_eq_or hk
        obtain ⟨depth, hdepth⟩ := h [] t rest rfl hrole
        have hdepth : s.depth = depth + 1 := Option.some.inj hdepth
        rw [hzero] at hdepth
        cases hdepth

/-- **A condition whose ORs stand in groups exposes none.** -/
theorem exposesOr_eq_false_of_covered {ts : List Token}
    (h : ∀ t : Token, t.role = .or → Covered Token.group? t ts) : exposesOr ts = false :=
  Scan.hasOr_chain_eq_false fun front t back hsplit ht => h t ht front back hsplit

theorem Token.isWord_of_role {t : Token} (h : t.role = .or) : t.isWord "OR" = true := by
  unfold role at h
  split_ifs at h
  assumption

/-! ## 4. Texts -/

/-- A function name is read as one word. -/
theorem lex_of_function {name : String} (h : NameRule.function.accepts name = true)
    (r : Reading) : r.lex name = [.word name.toList] := by
  obtain ⟨hne, hallows⟩ := Bool.and_eq_true_iff.mp h
  have hword : ∀ c ∈ name.toList, NameRule.isWordChar c = true := List.all_eq_true.mp hallows
  have hread : ∀ {rest w : List Char}, (∀ c ∈ rest, NameRule.isWordChar c = true) →
      r.read (.word w) rest = (.word (w ++ rest), []) := by
    intro rest
    induction rest with
    | nil =>
      intro w _
      rw [List.append_nil]
      rfl
    | cons c rest ih =>
      intro w hc
      have hstep : r.step (.word w) c = (.word (w ++ [c]), []) := if_pos (hc c List.mem_cons_self)
      rw [read_cons, hstep, ih fun a ha => hc a (List.mem_cons_of_mem _ ha), List.append_assoc]
      rfl
  unfold lex
  cases hlist : name.toList with
  | nil => simp [hlist] at hne
  | cons c rest =>
    rw [hlist] at hword hallows
    have hc : NameRule.isWordChar c = true := hword c List.mem_cons_self
    have hstart : r.step .gap c = (.word [c], []) := by
      show r.start c = _
      rw [start_of_tame (@isTame_of_allows .function c hc), if_pos hc]
    rw [read_cons, hstart, hread fun a ha => hword a (List.mem_cons_of_mem _ ha)]
    rfl

/-- What a text may mention if a token is to stand in groups only. -/
def Mention.Shelters (r : Reading) (ends : Token → Option Bracket) (t : Token) : Mention → Prop
  | .value _ => True
  | .verbatim _ _ => False
  | .bare rule s => rule.accepts s = true ∧ Balanced ((r.lex s).filterMap ends)
    ∧ (rule = .function → t ≠ .word s.toList)

section Spelled

variable {how : Spelling} {ends : Token → Option Bracket} {t : Token} {inside : Bool}

theorem Mention.Shelters.satisfies {m : Mention} (hends : Grouping ends)
    (ht : t.isWord "OR" = true) (h : m.Shelters (how.reading true) ends t)
    (hopen : inside = true ∨ m.isOpen = true) :
    m.Satisfies how true (SqlTree.Shelters ends t inside) := by
  cases m with
  | value v => exact fun bound => (kept_shelters hends ht).inert (how.inert_value v bound).2
  | verbatim sql binds => cases h
  | bare rule s =>
    obtain ⟨haccepts, hbalanced, hname⟩ := h
    refine ⟨hbalanced, fun hinside => ?_⟩
    cases rule with
    | type =>
      rw [hinside] at hopen
      rcases hopen with hopen | hopen <;> cases hopen
    | function =>
      rw [lex_of_function haccepts]
      exact .of_not_mem fun hmem => hname rfl (List.mem_singleton.mp hmem)

/-- **In a text whose parts fit, an OR stands in groups only**, if it does so in what the text
    mentions. -/
theorem Doc.Spaced.shelters {e e' : Seam} {d : Doc} (hends : Grouping ends)
    (ht : t.isWord "OR" = true) (h : Doc.Spaced .oneLine inside e d e')
    (hm : ∀ m ∈ d.mentions, m.Shelters (how.reading true) ends t) :
    ∀ bound, SqlTree.Shelters ends t inside (d.tokens how true bound) :=
  h.tokens_kept (kept_shelters hends ht) fun m hm' _ hopen => (hm m hm').satisfies hends ht hopen

end Spelled

namespace Node

variable {t n : Node}

/-- **The text of a tree that encloses its ORs may stand outside parentheses.** -/
theorem stands_doc (layout : Layout) (h : t.EnclosesOrs) : (t.doc layout).Stands layout false := by
  induction t using written_induction with
  | step form ih =>
    rw [doc_mk]
    cases hgroup : form.isGrouping with
    | true =>
      -- in parentheses anything may stand
      cases form with
      | grouping c => exact .paren (c.spaced_doc layout)
      | _ => cases hgroup
    | false =>
      have hor : form.isOr = false := (enclosesOrs_iff.mp h).1
      have hholds : form.holdsOrs = false := Bool.or_eq_false_iff.mpr ⟨hgroup, hor⟩
      refine Render.stands_formDoc (.inr fun l r hform => ?_) fun c hc => ?_
      · cases form with
        | or left right => cases hor
        | _ => cases hform
      · rw [Form.written_map] at hc
        obtain ⟨m, hm, rfl⟩ := List.mem_map.mp hc
        exact ih m hm (h.children hholds m (form.written_subset hm))

end Node

/-! ## 5. ORs of a tree -/

namespace Node

variable {t : Node} {or : Token}

/-- A function of this name is written in a tree. -/
def Calls (t : Node) (name : String) : Prop :=
  ∃ n ∈ t.visited, ∃ arguments distinct, n.form = .call name arguments distinct

/-- A token is the word OR, in letters of either case, and no function of the tree is called so. -/
def SpellsOr (t : Node) (or : Token) : Prop :=
  or.isWord "OR" = true ∧ ∀ name, t.Calls name → or ≠ .word name.toList

/-- The functions of a tree are those that it mentions. -/
theorem calls_iff {name : String} :
    t.Calls name ↔ Mention.bare .function name ∈ t.visited.flatMap mentioned := by
  refine ⟨fun ⟨n, hn, arguments, distinct, hform⟩ => ?_, fun h => ?_⟩
  · refine List.mem_flatMap.mpr ⟨n, hn, ?_⟩
    rw [mentioned, hform]
    exact List.mem_cons_self
  · obtain ⟨n, hn, hmention⟩ := List.mem_flatMap.mp h
    rcases Form.eq_of_bare_mem_mentioned hmention with ⟨hrule, -⟩ | ⟨-, hform⟩
    · cases hrule
    · exact ⟨n, hn, hform⟩

/-- What a tree mentions shelters its ORs if the bare names close the groups that they open. -/
theorem shelters_of_balanced {r : Reading} {ends : Token → Option Bracket}
    (hpaired : ∀ m ∈ t.visited.flatMap mentioned, m.Paired) (hor : t.SpellsOr or)
    (hb : ∀ rule s, Mention.bare rule s ∈ t.visited.flatMap mentioned →
      Balanced ((r.lex s).filterMap ends)) :
    ∀ m ∈ t.visited.flatMap mentioned, m.Shelters r ends or := by
  intro m hm
  have hm' := hpaired m hm
  cases m with
  | value v => trivial
  | verbatim sql binds => cases hm'
  | bare rule s =>
    refine ⟨hm'.1, hb rule s hm, ?_⟩
    rintro rfl
    exact hor.2 s (calls_iff.mpr hm)

/-- What is paired lets no OR out of its parentheses. -/
theorem shelters_brackets (hpaired : ∀ m ∈ t.visited.flatMap mentioned, m.Paired)
    (hor : t.SpellsOr or) (r : Reading) :
    ∀ m ∈ t.visited.flatMap mentioned, m.Shelters r Token.bracket? or :=
  shelters_of_balanced hpaired hor fun _ _ hm =>
    (Sealed.of_accepts (hpaired _ hm).1 (hpaired _ hm).2 r).balanced

/-- What is whole as well lets none out of its groups. -/
theorem shelters_groups {r : Reading} (hpaired : ∀ m ∈ t.visited.flatMap mentioned, m.Paired)
    (hwhole : ∀ m ∈ t.visited.flatMap mentioned, m.Whole r) (hor : t.SpellsOr or) :
    ∀ m ∈ t.visited.flatMap mentioned, m.Shelters r Token.group? or :=
  shelters_of_balanced hpaired hor fun _ s hm =>
    Complete.balanced (Reading.Whole.complete (s := s) (hwhole _ hm))

/-- **The text of a tree that encloses its ORs shelters them**, if what it mentions does. -/
theorem shelters_tokens {how : Spelling} {ends : Token → Option Bracket} (hends : Grouping ends)
    (hor : or.isWord "OR" = true) (h : t.EnclosesOrs)
    (hm : ∀ m ∈ t.visited.flatMap mentioned, m.Shelters (how.reading true) ends or)
    (bound : Nat) : Shelters ends or false ((t.doc .oneLine).tokens how true bound) := by
  have hdoc : ∀ m ∈ (t.doc .oneLine).mentions, m.Shelters (how.reading true) ends or := by
    rw [t.mentions_doc]
    exact hm
  exact (stands_doc .oneLine h).shelters hends hor hdoc bound

end Node

/-! ## 6. Conditions of a tree -/

section Conditions

variable {t n : Node} {word : String} {ws : List Node}

/-- A form with conditions holds no ORs. -/
theorem Form.holdsOrs_of_conditions {ν : Type} {form : Form ν} {ws : List ν}
    (h : (word, ws) ∈ form.conditionLists) : form.holdsOrs = false := by
  cases form with
  | grouping c => cases h
  | or left right => cases h
  | _ => rfl

/-- What is mentioned below a visited node is mentioned in the tree. -/
theorem Node.mentioned_subset (hn : n ∈ t.visited) :
    n.visited.flatMap mentioned ⊆ t.visited.flatMap mentioned := by
  intro m hm
  obtain ⟨v, hv, hm⟩ := List.mem_flatMap.mp hm
  exact List.mem_flatMap.mpr ⟨v, visited_subset_visited hn hv, hm⟩

/-- The conditions of a visited node are visited. -/
theorem Node.conditions_subset_visited (hn : n ∈ t.visited)
    (h : (word, ws) ∈ n.form.conditionLists) : ws ⊆ t.visited := by
  intro w hw
  obtain ⟨form⟩ := n
  refine visited_subset_visited hn ?_
  rw [visited_mk]
  exact List.mem_cons_of_mem _
    (List.mem_flatMap.mpr ⟨w, Form.conditions_subset h hw, List.mem_cons_self⟩)

/-- The conditions in a tree that encloses its ORs enclose theirs. -/
theorem Node.EnclosesOrs.conditions (ht : t.EnclosesOrs) (hn : n ∈ t.visited)
    (h : (word, ws) ∈ n.form.conditionLists) : ∀ w ∈ ws, w.EnclosesOrs := by
  intro w hw
  obtain ⟨form⟩ := n
  have hform : form.holdsOrs = false := Form.holdsOrs_of_conditions h
  have hholds : (Node.mk form).HoldsOrs := ht.holdsOrs.of_mem_parts (t.visited_subset hn)
  have hnode : (Node.mk form).EnclosesOrs :=
    enclosesOrs_iff.mpr ⟨(Bool.or_eq_false_iff.mp hform).2, hholds⟩
  exact hnode.children hform w (form.written_subset (Form.conditions_subset h hw))

/-- The conditions of a visited node stand in the text of the tree. -/
theorem Node.within_conditions (hn : n ∈ t.visited) (h : (word, ws) ∈ n.form.conditionLists)
    (hne : ws ≠ []) :
    ∃ d, Render.Says word d ∧ Doc.Within
      (d ++ Render.conjunction (ws.map (Node.rendered .oneLine))) (t.doc .oneLine) := by
  obtain ⟨form⟩ := n
  have hcolumn : ∀ relation name typeName,
      (Node.mk form).form ≠ .column relation name typeName := by
    rintro relation name typeName hform
    rw [hform] at h
    cases h
  have hlist : (word, ws.map (rendered .oneLine))
      ∈ (form.map (rendered .oneLine)).conditionLists := by
    rw [Form.conditionLists_map]
    exact List.mem_map_of_mem h
  obtain ⟨d, hsaid, hwithin⟩ := Render.within_conditions hlist (by simpa using hne)
  rw [← doc_mk] at hwithin
  exact ⟨d, hsaid, hwithin.trans (within_doc hn hcolumn)⟩

variable {r : Renderer}

/-- **Conditions are read as the texts of their nodes**, and what all of these texts have, whatever
    stands before them, each condition has. -/
theorem Renderer.forall_conditions (hl : r.layout = .oneLine)
    (hws : ∀ w ∈ ws, ∀ m ∈ w.visited.flatMap Node.mentioned, m.Paired) {p : List Token → Prop}
    (h : ∀ w ∈ ws, ∀ bound, p ((w.doc .oneLine).tokens r.spelling true bound)) (bound : Nat) :
    ∀ ts ∈ r.conditions ws bound, p ts := by
  intro ts hts
  obtain ⟨item, hitem, rfl⟩ := List.mem_map.mp hts
  obtain ⟨d, hd, bound', rfl⟩ := Spelling.exists_of_mem_spellEach hitem
  obtain ⟨w, hw, rfl⟩ := List.mem_map.mp hd
  have hlex : r.reading.lex (r.spelling.spell (w.doc .oneLine) bound')
      = (w.doc .oneLine).tokens r.spelling true bound' :=
    @Node.lex_spell r.spelling true .oneLine w (fun m hm => (hws w hw m hm).legible) bound'
  rw [hl, hlex]
  exact h w hw bound'

/-- **The conditions of a visited node are read in the text of the tree**, behind their word and
    with an AND between each two. -/
theorem Renderer.exists_conditions (hl : r.layout = .oneLine)
    (hpaired : ∀ m ∈ t.visited.flatMap Node.mentioned, m.Paired) (hn : n ∈ t.visited)
    (h : (word, ws) ∈ n.form.conditionLists) (hne : ws ≠ []) (bound : Nat) :
    ∃ bound', .word word.toList :: conjoined (r.conditions ws bound')
      <:+: (t.doc .oneLine).tokens r.spelling true bound := by
  obtain ⟨d, hsaid, hwithin⟩ := Node.within_conditions hn h hne
  obtain ⟨bound', hpart⟩ := hwithin.exists_tokens r.spelling true bound
  have hmentions : ∀ m ∈ (Render.conjunction (ws.map (Node.rendered .oneLine))).mentions,
      m.Paired := by
    intro m hm
    refine hpaired m ?_
    rw [← t.mentions_doc .oneLine]
    exact hwithin.mentions_subset (List.mem_append_right _ hm)
  have hstands : (Render.conjunction (ws.map (Node.rendered .oneLine))).Stands .oneLine true := by
    refine Render.stands_conjunction fun c hc => ?_
    obtain ⟨w, -, rfl⟩ := List.mem_map.mp hc
    exact w.spaced_doc .oneLine
  have hclause : ∀ b, r.spelling.spell (Render.conjunction (ws.map (Node.rendered .oneLine))) b
      = r.whereClause ws b := by
    intro b
    unfold Renderer.whereClause Render.conjunction
    rw [hl, List.map_map]
    rfl
  have hsettled : ∀ b, ∀ item ∈ r.items ws b,
      (r.reading.read .gap item.toList).1.settled = true := by
    intro b item hitem
    obtain ⟨e, he, b', rfl⟩ := Spelling.exists_of_mem_spellEach hitem
    obtain ⟨w, hw, rfl⟩ := List.mem_map.mp he
    rw [hl]
    have hw' := Node.conditions_subset_visited hn h hw
    exact (Node.read_spell r.spelling (fun m hm => hpaired m (Node.mentioned_subset hw' hm)) b').1
  refine ⟨bound' + d.slots, ?_⟩
  have htokens : (d ++ Render.conjunction (ws.map (Node.rendered .oneLine))).tokens r.spelling true
      bound' = .word word.toList :: conjoined (r.conditions ws (bound' + d.slots)) := by
    have hread := (Doc.Stands.read r.spelling hstands hmentions (bound' + d.slots)).2
    rw [hclause] at hread
    show d.tokens r.spelling true bound' ++ _ = _
    rw [hsaid, ← hread]
    exact congrArg _ (Renderer.lex_whereClause_of_settled (hsettled _))
  rw [← htokens]
  exact hpart

end Conditions

namespace Session

/-- **No OR leaves its parentheses.** Whatever is built from nodes without OR, by any number of
    calls, encloses its ORs. If a tree does so and holds no verbatim SQL, and its type names have
    balanced parentheses, then each dialect writes it with the word OR in parentheses only, unless
    a function is called so. Each list of conditions in it is read behind its word with an AND
    between each two, and each condition closes its parentheses and has ORs only in them. So if the
    type and function names are no words that group, and none of the functions is called OR, the
    list denotes the conjunction of what its conditions denote. -/
theorem render_covers_ors :
    (∀ n : Node, n.Built → n.EnclosesOrs)
      ∧ ∀ (s s' : Session) (t : Node) (text : String), s.renderer.layout = .oneLine →
        t.EnclosesOrs → t.NoVerbatim → t.BalancedTypes → s.render t = .ok (text, s') →
        let r := s.renderer.reading
        (∀ or, t.SpellsOr or → Covered Token.bracket? or (r.lex text))
          ∧ ∀ n ∈ t.visited, ∀ word ws, (word, ws) ∈ n.form.conditionLists → ws ≠ [] →
            ∃ bound, let conditions := s.renderer.conditions ws bound
              .word word.toList :: conjoined conditions <:+: r.lex text
                ∧ (∀ ts ∈ conditions, Balanced (brackets ts)
                  ∧ ∀ or, t.SpellsOr or → Covered Token.bracket? or ts)
                ∧ ((∀ m ∈ t.visited.flatMap Node.mentioned, m.Whole r) →
                  (∀ or : Token, or.isWord "OR" = true → t.SpellsOr or) →
                  (∀ ts ∈ conditions, Complete ts ∧ exposesOr ts = false)
                    ∧ ∀ truths, Valued conditions truths →
                      denote truths.flatten (conjoined conditions)
                        = Truth.all (List.zipWith denote truths conditions)) := by
  refine ⟨fun n => Node.Built.enclosesOrs, fun s s' t text hl ht hverbatim htypes h => ?_⟩
  intro r
  obtain ⟨hpaired, -, hlex⟩ := read_of_render hl hverbatim htypes h
  have hlex : r.lex text = (t.doc .oneLine).tokens s.renderer.spelling true s.index := hlex
  refine ⟨fun or hor => ?_, fun n hn word ws hlist hne => ?_⟩
  · rw [hlex]
    exact (Node.shelters_tokens grouping_bracket? hor.1 ht
      (Node.shelters_brackets hpaired hor _) s.index).covered rfl
  · obtain ⟨bound, hpart⟩ := Renderer.exists_conditions hl hpaired hn hlist hne s.index
    have hsubset : ∀ w ∈ ws,
        w.visited.flatMap Node.mentioned ⊆ t.visited.flatMap Node.mentioned :=
      fun w hw => Node.mentioned_subset (Node.conditions_subset_visited hn hlist hw)
    have hforall := fun p => @Renderer.forall_conditions ws s.renderer hl
      (fun w hw m hm => hpaired m (hsubset w hw hm)) p
    have hbalanced : ∀ ts ∈ s.renderer.conditions ws bound, Balanced (brackets ts) := by
      refine hforall _ (fun w hw bound' => ?_) bound
      exact (Node.sealed_tokens (fun m hm => hpaired m (hsubset w hw hm)) bound').balanced
    have hcovered : ∀ {ends or}, Grouping ends → or.isWord "OR" = true →
        (∀ m ∈ t.visited.flatMap Node.mentioned, m.Shelters r ends or) →
        ∀ ts ∈ s.renderer.conditions ws bound, Covered ends or ts := by
      intro ends or hends hor hm
      refine hforall _ (fun w hw bound' => ?_) bound
      exact (@Node.shelters_tokens w or s.renderer.spelling ends hends hor
        (ht.conditions hn hlist w hw) (fun m hm' => hm m (hsubset w hw hm')) bound').covered rfl
    refine ⟨bound, hlex ▸ hpart, fun ts hts => ⟨hbalanced ts hts, fun or hor => ?_⟩,
      fun hwhole hnone => ?_⟩
    · exact hcovered grouping_bracket? hor.1 (Node.shelters_brackets hpaired hor _) ts hts
    · have hcomplete : ∀ ts ∈ s.renderer.conditions ws bound, Complete ts :=
        Renderer.complete_conditions (Renderer.whole_items hl fun w hw m hm =>
          hwhole m (hsubset w hw hm))
      have hmute : ∀ ts ∈ s.renderer.conditions ws bound, exposesOr ts = false := by
        refine fun ts hts => exposesOr_eq_false_of_covered fun or hor => ?_
        have hspells := hnone or (Token.isWord_of_role hor)
        exact hcovered grouping_group? hspells.1 (Node.shelters_groups hpaired hwhole hspells) ts
          hts
      refine ⟨fun ts hts => ⟨hcomplete ts hts, hmute ts hts⟩, fun truths hv => ?_⟩
      exact denote_conjoined hv hcomplete (s.renderer.conditions_ne_nil hne bound) hmute

/-- Products of a price or a name, with ORs in the values as well. -/
def priceOrName : List Node :=
  [⟨.comparison ⟨.column ⟨.table "products"⟩ "price" none⟩ .eq
      ⟨.cast (.text "1 OR 1") "NUMERIC(10, 2)"⟩⟩,
    ⟨.comparison ⟨.column ⟨.table "products"⟩ "name" none⟩ .eq
      ⟨.call "lower" [⟨.bind (.text "OR")⟩] false⟩⟩]

/-- Those of them that are on sale. -/
def productsOnSale : Node :=
  ⟨.select
    { source := some ⟨.table "products"⟩
      wheres := (Node.anyOf priceOrName).toList ++ [⟨.column ⟨.table "products"⟩ "sale" none⟩] }⟩

/-- Their query in PostgreSQL, with literals. -/
def productsOnSaleText : String :=
  "SELECT * FROM \x22products\x22 WHERE (\x22products\x22.\x22price\x22 "
    ++ "= CAST(\x271 OR 1\x27 AS NUMERIC(10, 2)) OR "
    ++ "\x22products\x22.\x22name\x22 = lower(\x27OR\x27)) AND \x22products\x22.\x22sale\x22"

/-- A session for PostgreSQL that writes literals. -/
def literally : Session := ⟨⟨.postgres, .oneLine, false⟩, []⟩

/-- The alternatives do not reach the products that are not on sale. -/
theorem render_covers_ors_productsOnSale :
    productsOnSale.Built ∧ productsOnSale.EnclosesOrs
      ∧ literally.render productsOnSale = .ok (productsOnSaleText, literally)
      ∧ Covered Token.bracket? orToken (literally.renderer.reading.lex productsOnSaleText)
      ∧ ∃ bound, ∀ truths,
        let conditions := literally.renderer.conditions
          ((Node.anyOf priceOrName).toList ++ [⟨.column ⟨.table "products"⟩ "sale" none⟩]) bound
        Valued conditions truths → denote truths.flatten (conjoined conditions)
          = Truth.all (List.zipWith denote truths conditions) := by
  have hbuilt : productsOnSale.Built := by
    have hnames : ∀ n ∈ priceOrName, n.Built := by
      have hall : ∀ n ∈ priceOrName, ∀ m ∈ n.parts, m.form.isOr = false := by decide
      exact fun n hn => .start (hall n hn)
    have hothers : ∀ n ∈ [⟨.table "products"⟩, ⟨.column ⟨.table "products"⟩ "sale" none⟩],
        Node.Built n := by
      have hall : ∀ n ∈ [⟨.table "products"⟩, ⟨.column ⟨.table "products"⟩ "sale" none⟩],
          ∀ m ∈ Node.parts n, m.form.isOr = false := by decide
      exact fun n hn => .start (hall n hn)
    obtain ⟨htable, hsale⟩ := List.forall_mem_cons.mp hothers
    refine .call (.form rfl) (List.forall_mem_cons.mpr ⟨htable, ?_⟩)
    refine List.forall_mem_cons.mpr ⟨?_, hsale⟩
    exact .call (.anyOf rfl) hnames
  have henclosed : productsOnSale.EnclosesOrs := render_covers_ors.1 _ hbuilt
  have hverbatim : productsOnSale.NoVerbatim := Node.noVerbatim_of_parts (by decide)
  have hmentioned : productsOnSale.visited.flatMap Node.mentioned
      = [.value (.text "1 OR 1"), .bare .type "NUMERIC(10, 2)", .bare .function "lower",
        .value (.text "OR")] := rfl
  have htypes : productsOnSale.BalancedTypes := by
    refine Node.balancedTypes_of_mentioned fun s hs => ?_
    rw [hmentioned] at hs
    obtain rfl : s = "NUMERIC(10, 2)" := by simpa using hs
    decide
  have hspells : ∀ or : Token, or.isWord "OR" = true → productsOnSale.SpellsOr or := by
    refine fun or hor => ⟨hor, fun name hname => ?_⟩
    rw [Node.calls_iff, hmentioned] at hname
    obtain rfl : name = "lower" := by simpa using hname
    exact Token.ne_of_isWord hor rfl
  have hwhole : ∀ m ∈ productsOnSale.visited.flatMap Node.mentioned,
      m.Whole literally.renderer.reading := by
    have htype : (Reading.mk .postgres true).Whole "NUMERIC(10, 2)" := by decide
    have hname : (Reading.mk .postgres true).Whole "lower" := by decide
    rw [hmentioned]
    simp only [List.forall_mem_cons]
    exact ⟨trivial, htype, hname, trivial, List.forall_mem_nil _⟩
  have hrender : literally.render productsOnSale = .ok (productsOnSaleText, literally) := rfl
  obtain ⟨hcovered, hlists⟩ :=
    render_covers_ors.2 _ _ _ _ rfl henclosed hverbatim htypes hrender
  obtain ⟨bound, -, -, hdenotes⟩ := hlists _ List.mem_cons_self "WHERE" _ List.mem_cons_self
    (List.cons_ne_nil _ _)
  exact ⟨hbuilt, henclosed, hrender, hcovered orToken (hspells _ rfl), bound,
    (hdenotes hwhole hspells).2⟩

end Session
end SqlTree
