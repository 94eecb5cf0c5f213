import SqlTree.Proofs.ConditionTruth
import SqlTree.Proofs.Succession

/-!
# Predicates over several inputs

An operand can be tested against several inputs at once: compared with each of several values, or
looked up in each of several lists, with OR or AND between the tests and parentheses around them
all. The tree of such a predicate leans to the left; this file says that nothing of that is left in
its text and in its truth:

* `Connective.grouped` -- predicates with a connective between each two, in parentheses;
* `Connective.Joins` -- what a predicate owes to those that it is made of: its text, its parameters,
  its truth in every row, and what its text denotes by the precedence of SQL;
* `Connective.joins_grouped` -- predicates with a connective between them are joined by it;
* `Inputs`, `Node.composite` -- the inputs, and the predicate over them;
* `Node.composite_joins` -- the main statement.
-/

namespace SqlTree

open Reading

/-! ## 1. Predicates with a connective between them -/

theorem Truth.any_eq_yes_iff {l : List Truth} : any l = .yes ↔ ∃ a ∈ l, a = .yes := by
  induction l with
  | nil => exact ⟨fun h => (by cases h), fun ⟨_, ha, _⟩ => by cases ha⟩
  | cons a rest ih =>
    have hor : a.or (any rest) = .yes ↔ a = .yes ∨ any rest = .yes := by
      cases a <;> cases any rest <;> decide
    rw [any, hor, ih, List.exists_mem_cons_iff]

namespace Connective

/-- The word between predicates. -/
def word : Connective → String
  | .and => " AND "
  | .or => " OR "

/-- The token of the word. -/
def token : Connective → Token
  | .and => andToken
  | .or => orToken

/-- Two predicates with the connective between them. -/
def node : Connective → Node → Node → Node
  | .and, l, r => ⟨.and l r⟩
  | .or, l, r => ⟨.or l r⟩

/-- Predicates joined from the left, in parentheses; no predicate if there is none. -/
def grouped (k : Connective) : List Node → Option Node
  | [] => none
  | first :: rest => some (.grouping (rest.foldl k.node first))

/-- The truth of several conditions, given that of each. -/
def truth : Connective → List Truth → Truth
  | .and => Truth.all
  | .or => Truth.any

/-- Every one of some predicates has a property, or some one does. -/
def Holds (k : Connective) (parts : List Node) (P : Node → Prop) : Prop :=
  match k with
  | .and => ∀ p ∈ parts, P p
  | .or => ∃ p ∈ parts, P p

/-- A predicate is others with a connective between each two, in parentheses. -/
structure Joins (k : Connective) (parts : List Node) (n : Node) : Prop where
  /-- It is rendered as the others are, one after the other, and refused when one of them is. -/
  render : ∀ s : Session, s.render n = (s.renderEach parts).map fun (texts, s') =>
    ("(" ++ k.word.intercalate texts ++ ")", s')
  /-- Its parameters are those of the others, in their order. -/
  params : ∀ (s s' : Session) (texts : List String), s.renderEach parts = .ok (texts, s') →
    texts = s.renderer.items parts s.index ∧ s'.renderer = s.renderer
      ∧ s'.params = s.params
        ++ if s.renderer.parameterise then parts.flatMap Node.collect else []
  /-- Its truth is that of the others, taken together. -/
  truth : ∀ {δ : Type} (E : Engine δ) (db : Database δ) (row : Binding δ),
    E.test db n row = k.truth (parts.map fun p => E.test db p row)
      ∧ (E.test db n row = .yes ↔ k.Holds parts fun p => E.test db p row = .yes)
  /-- If the texts of the others are whole, its text is one group. What stands in it denotes them
      taken together: for OR always, and for AND exactly if none of several shows an OR. -/
  precedence : ∀ s : Session,
    (∀ item ∈ s.renderer.items parts s.index, s.renderer.reading.Whole item) →
    let conditions := s.renderer.conditions parts s.index
    ∃ inside, s.renderer.reading.lex
          ("(" ++ k.word.intercalate (s.renderer.items parts s.index) ++ ")")
        = .mark '(' :: (inside ++ [.mark ')'])
      ∧ (k = .or ∨ Separate conditions ↔ ∀ truths, Valued conditions truths →
          denote truths.flatten inside = k.truth (List.zipWith denote truths conditions))

variable {k : Connective}

theorem grouped_or (ns : List Node) : or.grouped ns = Node.anyOf ns := by cases ns <;> rfl

theorem grouped_and (ns : List Node) : and.grouped ns = Node.allOf ns := by cases ns <;> rfl

theorem grouped_eq_none_iff {ns : List Node} : k.grouped ns = none ↔ ns = [] := by
  cases ns with
  | nil => exact iff_of_true rfl rfl
  | cons first rest => exact iff_of_false (fun h => by cases h) (fun h => by cases h)

/-! The text. -/

section Text

variable (layout : Layout)

theorem doc_node (l r : Node) : (k.node l r).doc layout
    = l.doc layout ++ Doc.text k.word ++ r.doc layout := by
  cases k <;> exact Node.doc_mk ..

theorem mentions_foldl (rest : List Node) (first : Node) :
    ((rest.foldl k.node first).doc layout).mentions
      = (first :: rest).flatMap fun p => (p.doc layout).mentions := by
  induction rest generalizing first with
  | nil => exact (List.append_nil _).symm
  | cons n more ih =>
    rw [List.foldl_cons, ih, List.flatMap_cons, List.flatMap_cons, List.flatMap_cons, doc_node,
      Doc.mentions_append, Doc.mentions_append, Doc.mentions_text, List.append_nil,
      List.append_assoc]

/-- **A tree that leans to the left is written flat**: its parts with the word between each two. -/
theorem spell_foldl (how : Spelling) (rest : List Node) (first : Node) (bound : Nat) :
    how.spell ((rest.foldl k.node first).doc layout) bound
      = k.word.intercalate (how.spellEach ((first :: rest).map (Node.doc layout)) bound) := by
  induction rest generalizing first with
  | nil => exact String.intercalate_singleton.symm
  | cons n more ih =>
    have hslots : (first.doc layout ++ Doc.text k.word).slots = (first.doc layout).slots :=
      congrArg List.length (List.append_nil _)
    have hboth : ((k.node first n).doc layout).slots
        = (first.doc layout).slots + (n.doc layout).slots := by
      rw [doc_node]
      show ((first.doc layout ++ Doc.text k.word).bindings ++ (n.doc layout).bindings).length = _
      rw [List.length_append]
      exact congrArg (· + _) hslots
    have hspell : how.spell ((k.node first n).doc layout) bound
        = how.spell (first.doc layout) bound ++ k.word
          ++ how.spell (n.doc layout) (bound + (first.doc layout).slots) := by
      rw [doc_node, ← hslots]
      rfl
    rw [List.foldl_cons, ih, List.map_cons, Spelling.spellEach, hspell, hboth,
      String.intercalate_cons_append, ← Nat.add_assoc]
    exact String.intercalate_cons_cons.symm

end Text

/-! The truth. -/

theorem test_node {δ : Type} (E : Engine δ) (db : Database δ) (row : Binding δ)
    (ns : List Node) {n : Node} (h : k.grouped ns = some n) :
    E.test db n row = k.truth (ns.map fun p => E.test db p row) := by
  cases ns with
  | nil => cases h
  | cons first rest =>
    obtain rfl := Option.some.inj h
    rw [Node.grouping, Engine.test_grouping]
    cases k with
    | and =>
      exact (Condition.test_foldl E db row Truth.and (fun l r => E.test_and db row l r) rest
        first).trans (Truth.foldl_and _ _)
    | or =>
      exact (Condition.test_foldl E db row Truth.or (fun l r => E.test_or db row l r) rest
        first).trans (Truth.foldl_or _ _)

theorem truth_eq_yes_iff (parts : List Node) (value : Node → Truth) :
    k.truth (parts.map value) = .yes ↔ k.Holds parts fun p => value p = .yes := by
  cases k with
  | and => exact Truth.all_eq_yes_iff.trans List.forall_mem_map
  | or =>
    refine Truth.any_eq_yes_iff.trans ⟨fun ⟨a, ha, hyes⟩ => ?_, fun ⟨p, hp, hyes⟩ => ?_⟩
    · obtain ⟨p, hp, rfl⟩ := List.mem_map.mp ha
      exact ⟨p, hp, hyes⟩
    · exact ⟨_, List.mem_map_of_mem hp, hyes⟩

/-! The precedence. -/

theorem reads_word (r : Reading) : Reads r k.word.toList .held [k.token] .free := by
  cases k with
  | and => exact reads_conjunction r (.inl rfl)
  | or =>
    have hlex : r.lex " OR " = [orToken] := lex_tame (by decide) r
    show Reads r " OR ".toList .held [orToken] .free
    rw [← hlex]
    exact reads_of_tame r (List.all_eq_true.mp (by decide)) (by decide)

theorem chain_append_or {ts us : List Token} (h : Complete ts) :
    chain (ts ++ orToken :: us) = (chain ts).link .or (chain us) :=
  Scan.chain_append (by decide) (by decide) h

/-- **Conditions denote any of them** when an OR stands between each two, whatever they show. There
    is one truth value for each of their pieces. -/
theorem denote_alternatives : ∀ {conditions : List (List Token)} {truths : List (List Truth)},
    Valued conditions truths → (∀ ts ∈ conditions, Complete ts) → conditions ≠ [] →
    truths.flatten.length = (pieces ([orToken].intercalate conditions)).length
      ∧ denote truths.flatten ([orToken].intercalate conditions)
        = Truth.any (List.zipWith denote truths conditions)
  | [], _, _, _, hne => absurd rfl hne
  | [ts], _, hv, _, _ => by
    obtain ⟨vs, _, hvs, hrest, rfl⟩ := List.forall₂_cons_left_iff.mp hv
    obtain rfl := List.forall₂_nil_left_iff.mp hrest
    rw [List.intercalate_singleton, List.flatten_cons, List.flatten_nil, List.append_nil]
    exact ⟨hvs, (Truth.or_no _).symm⟩
  | ts :: us :: rest, vs :: truths, hv, h, _ => by
    obtain ⟨hvs, hrest⟩ := List.forall₂_cons.mp hv
    obtain ⟨hts, hothers⟩ := List.forall_mem_cons.mp h
    obtain ⟨hlength, ih⟩ := denote_alternatives hrest hothers (List.cons_ne_nil us rest)
    have hchain : chain ([orToken].intercalate (ts :: us :: rest))
        = (chain ts).link .or (chain ([orToken].intercalate (us :: rest))) := by
      rw [List.intercalate_cons_cons, List.append_assoc]
      exact chain_append_or hts
    unfold pieces denote at *
    rw [hchain, Chain.pieces_link, List.flatten_cons, List.length_append, List.length_append,
      Chain.valued_link .or hvs hlength, hvs, hlength]
    refine ⟨rfl, ?_⟩
    show (((chain ts).valued vs).link .or _).eval = _
    exact (Chain.evalFrom_append_or ..).trans (congrArg _ ih)

/-- Conditions with a connective between each two denote them taken together: for OR always, and
    for AND exactly if they are separate. -/
theorem or_separate_iff_denote {conditions : List (List Token)}
    (h : ∀ ts ∈ conditions, Complete ts) (hne : conditions ≠ []) :
    k = .or ∨ Separate conditions ↔ ∀ truths, Valued conditions truths →
      denote truths.flatten ([k.token].intercalate conditions)
        = k.truth (List.zipWith denote truths conditions) := by
  cases k with
  | and =>
    have hseparate := separate_iff_denote h hne
    rw [conjoined_eq] at hseparate
    exact ⟨fun hor => hseparate.mp (hor.resolve_left (by decide)),
      fun hall => .inr (hseparate.mpr hall)⟩
  | or => exact iff_of_true (.inl rfl) fun truths hv => (denote_alternatives hv h hne).2

/-! ## 2. What they come to -/

/-- **Predicates with a connective between them, in parentheses, are joined by it.** -/
theorem joins_grouped {parts : List Node} {n : Node} (h : k.grouped parts = some n) :
    k.Joins parts n := by
  have htest := fun {δ : Type} (E : Engine δ) (db : Database δ) (row : Binding δ) =>
    test_node E db row parts h
  obtain ⟨first, rest, rfl⟩ : ∃ first rest, parts = first :: rest :=
    List.exists_cons_of_ne_nil fun hnil => by
      rw [hnil] at h
      cases h
  obtain rfl := Option.some.inj h
  have hdoc : ∀ layout, (Node.grouping (rest.foldl k.node first)).doc layout
      = .paren ((rest.foldl k.node first).doc layout) := fun layout => Node.doc_mk ..
  refine ⟨fun s => ?_, fun s s' texts hrender => ?_, fun E db row => ?_, fun s hwhole => ?_⟩
  · refine @Session.render_of_parts s _ (first :: rest)
      (fun texts => "(" ++ k.word.intercalate texts ++ ")") ?_ ?_
    · rw [hdoc]
      exact mentions_foldl _ rest first
    · rw [hdoc]
      exact congrArg (fun text => "(" ++ text ++ ")") (spell_foldl _ _ rest first s.index)
  · rw [Session.renderEach_eq] at hrender
    split at hrender
    · cases hrender
    · obtain ⟨rfl, rfl⟩ := Prod.mk.inj (Except.ok.inj hrender)
      refine ⟨rfl, s.renderer_bindAll _, ?_⟩
      unfold Session.bindAll
      split
      · rfl
      · exact (List.append_nil _).symm
  · rw [htest E db row]
    exact ⟨rfl, truth_eq_yes_iff _ _⟩
  · have hcomplete := Renderer.complete_conditions hwhole
    have hne := s.renderer.conditions_ne_nil (List.cons_ne_nil first rest) s.index
    refine ⟨[k.token].intercalate (s.renderer.conditions (first :: rest) s.index), ?_,
      or_separate_iff_denote hcomplete hne⟩
    have hinside := reads_intercalate (reads_word (k := k) s.renderer.reading)
      fun item hitem => (hwhole item hitem).settled
    have htext : ∀ text : String, ("(" ++ text ++ ")").toList = '(' :: (text.toList ++ [')']) :=
      fun text => by rw [String.toList_append, String.toList_append]; rfl
    have hgroup := reads_paren .free .held hinside
    rw [← htext] at hgroup
    exact hgroup.lex_eq

end Connective

/-! ## 3. An operand and its inputs -/

/-- What an operand is tested against. -/
inductive Inputs where
  /-- Expressions that it is compared with. -/
  | values (op : ComparisonOp) (items : List Node)
  /-- Lists that it is looked up in. -/
  | lists (items : List (List Node))

/-- There is nothing to test against. -/
def Inputs.isEmpty : Inputs → Bool
  | .values _ items => items.isEmpty
  | .lists items => items.isEmpty

namespace Node

variable (operand : Node)

/-- One test for each input. -/
def tests : Inputs → Except Misuse (List Node)
  | .values op items => items.mapM (operand.compare op)
  | .lists items => items.mapM operand.inList

/-- The predicate over all inputs. -/
def composite : Connective → Inputs → Except Misuse (Option Node)
  | .or, .values op items => operand.compareAny op items
  | .and, .values op items => operand.compareAll op items
  | .or, .lists items => operand.inAny items
  | .and, .lists items => operand.inAll items

theorem composite_eq (k : Connective) (inputs : Inputs) :
    operand.composite k inputs = (operand.tests inputs).map k.grouped := by
  have hor : Connective.or.grouped = anyOf := funext Connective.grouped_or
  have hand : Connective.and.grouped = allOf := funext Connective.grouped_and
  cases k with
  | or =>
    rw [hor]
    cases inputs <;> exact bind_pure_comp ..
  | and =>
    rw [hand]
    cases inputs <;> exact bind_pure_comp ..

variable {operand} (h : operand.WellTyped)

include h

/-- No test is refused, and there is one for each input. -/
theorem tests_eq (inputs : Inputs) :
    ∃ parts, operand.tests inputs = .ok parts ∧ (parts = [] ↔ inputs.isEmpty = true) := by
  cases inputs with
  | values op items =>
    exact ⟨_, mapM_eq_ok (compare_eq h op) items,
      List.map_eq_nil_iff.trans List.isEmpty_iff.symm⟩
  | lists items =>
    exact ⟨_, mapM_eq_ok (fun values => inList_eq h values false) items,
      List.map_eq_nil_iff.trans List.isEmpty_iff.symm⟩

/-- In the empty list there is nothing: that test is a constant. -/
theorem inList_nil : ∃ n, operand.inList [] = .ok n
    ∧ (∀ s : Session, s.render n = .ok ("1=0", s))
    ∧ ∀ {δ : Type} (E : Engine δ) (db : Database δ) (row : Binding δ),
        E.test db n row = .no ∧ E.test db (.raw "1=0") row = .no := by
  refine ⟨⟨.membership operand [] false⟩, inList_eq h [] false, fun s => ?_, fun E db row => ?_⟩
  · have hdoc : (Node.mk (.membership operand [] false)).doc s.renderer.layout = .text "1=0" :=
      Node.doc_mk ..
    have hrender := @Session.render_of_parts s ⟨.membership operand [] false⟩ [] (fun _ => "1=0")
      (by rw [hdoc]; rfl) (by rw [hdoc]; rfl)
    exact hrender
  · refine ⟨E.test_membership db row operand rfl false, ?_⟩
    rw [Engine.test, Node.raw, Engine.eval_raw, E.raw_false]
    exact congrArg Truth.ofBool (E.holds_bool false)

/-- **A predicate over several inputs joins the tests of them one by one**; there is none without
    inputs. A list among them may be empty: nothing passes the test of that one. -/
theorem composite_joins (k : Connective) (inputs : Inputs) :
    ∃ parts answer, operand.tests inputs = .ok parts ∧ operand.composite k inputs = .ok answer
      ∧ (answer = none ↔ inputs.isEmpty = true)
      ∧ (∀ n, answer = some n → k.Joins parts n)
      ∧ ∃ nowhere, operand.inList [] = .ok nowhere
        ∧ (∀ s : Session, s.render nowhere = .ok ("1=0", s))
        ∧ ∀ {δ : Type} (E : Engine δ) (db : Database δ) (row : Binding δ),
          E.test db nowhere row = .no ∧ E.test db (.raw "1=0") row = .no := by
  obtain ⟨parts, htests, hempty⟩ := tests_eq h inputs
  have hcomposite : operand.composite k inputs = .ok (k.grouped parts) := by
    rw [composite_eq, htests]
    rfl
  exact ⟨parts, k.grouped parts, htests, hcomposite,
    Connective.grouped_eq_none_iff.trans hempty, fun n hn => Connective.joins_grouped hn,
    inList_nil h⟩

end Node

/-- A session with one parameter. -/
def Session.behindOne : Session := ⟨⟨.postgres, .oneLine, true⟩, [.text "a"]⟩

namespace Node

/-- A column with a type. -/
def statusColumn : Node := ⟨.column (.table "orders") "status" (some "integer")⟩

theorem wellTyped_statusColumn : statusColumn.WellTyped := wellTyped_column (by decide)

/-- Its tests in two lists, of which one is empty. -/
def statusTests : List Node :=
  [⟨.membership statusColumn [⟨.cast (.int 1) "integer"⟩, .null] false⟩,
    ⟨.membership statusColumn [] false⟩]

/-- The constant is cast and becomes the second parameter; the empty list keeps its place. -/
theorem composite_joins_statusTests :
    statusColumn.WellTyped ∧ ∃ n, statusColumn.tests (.lists [[.literal (.int 1), .null], []])
        = .ok statusTests
      ∧ statusColumn.composite .or (.lists [[.literal (.int 1), .null], []]) = .ok (some n)
      ∧ Connective.or.Joins statusTests n
      ∧ Session.behindOne.render n
        = .ok ("(\x22orders\x22.\x22status\x22 IN (CAST($2 AS integer), NULL) OR 1=0)",
          Session.behindOne.push (.int 1)) := by
  obtain ⟨parts, answer, htests, hcomposite, -, hjoins, -⟩ :=
    composite_joins wellTyped_statusColumn .or (.lists [[.literal (.int 1), .null], []])
  obtain rfl : statusTests = parts := Except.ok.inj htests
  obtain ⟨n, rfl⟩ : ∃ n, answer = some n := ⟨_, Except.ok.inj (hcomposite.symm.trans rfl)⟩
  have hn := hjoins n rfl
  have heach : Session.behindOne.renderEach statusTests
      = .ok (["\x22orders\x22.\x22status\x22 IN (CAST($2 AS integer), NULL)", "1=0"],
        Session.behindOne.push (.int 1)) := rfl
  refine ⟨wellTyped_statusColumn, n, htests, hcomposite, hn, ?_⟩
  rw [hn.render, heach]
  rfl

end Node
end SqlTree
