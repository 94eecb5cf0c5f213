import SqlTree.Proofs.Composites
import SqlTree.Proofs.TypeNames

/-!
# Predicates over typed columns

A column may have a type, and then the constants that it is compared with are converted to it. This
file says that nothing else changes: the predicate over the typed column is the one over the column
without a type, with a cast around some of its arguments.

* `Mould` -- fixed texts with places for others between them;
* `Doc.Recast` -- two texts that differ in some parts at most; `Doc.Recast.exists_mould`, the mould
  that both have in common;
* `Predication` -- the predicates that an operand can begin, with their arguments;
* `Predication.recast` -- a predicate with other arguments differs in these;
* `Session.renderEach_castTo` -- arguments converted to a type, rendered one after the other;
* `Predication.typed_casts` -- the main statement.
-/

namespace SqlTree

/-! ## 1. Texts that differ in their parts -/

/-- Fixed texts, and places for others between them. -/
abbrev Mould := List (Option String)

namespace Mould

/-- The number of places. -/
def places (m : Mould) : Nat := m.count none

/-- The whole text, given those in the places. -/
def fill : Mould → List String → String
  | [], _ => ""
  | some s :: rest, texts => s ++ fill rest texts
  | none :: rest, text :: texts => text ++ fill rest texts
  | none :: _, [] => ""

theorem places_append (m m' : Mould) : (m ++ m').places = m.places + m'.places :=
  List.count_append

theorem fill_append : ∀ {m : Mould} {texts : List String}, m.places = texts.length →
    ∀ (m' : Mould) (texts' : List String),
      (m ++ m').fill (texts ++ texts') = m.fill texts ++ m'.fill texts'
  | [], [], _, _, _ => String.empty_append.symm
  | [], _ :: _, h, _, _ => by cases h
  | some s :: rest, texts, h, m', texts' => by
    have hrest : places rest = texts.length := by rwa [places, List.count_cons_of_ne (by simp)] at h
    show s ++ fill (rest ++ m') (texts ++ texts') = s ++ fill rest texts ++ fill m' texts'
    rw [fill_append hrest, String.append_assoc]
  | none :: rest, [], h, _, _ => by rw [places, List.count_cons_self] at h; cases h
  | none :: rest, text :: texts, h, m', texts' => by
    have hrest : places rest = texts.length := by
      rw [places, List.count_cons_self] at h
      exact Nat.succ_inj.mp h
    show text ++ fill (rest ++ m') (texts ++ texts') = text ++ fill rest texts ++ fill m' texts'
    rw [fill_append hrest, String.append_assoc]

end Mould

theorem Spelling.length_spellEach (how : Spelling) (ds : List Doc) (bound : Nat) :
    (how.spellEach ds bound).length = ds.length := by
  induction ds generalizing bound with
  | nil => rfl
  | cons d rest ih => rw [spellEach, List.length_cons, ih, List.length_cons]

theorem Spelling.spellEach_append (how : Spelling) (ds es : List Doc) (bound : Nat) :
    how.spellEach (ds ++ es) bound
      = how.spellEach ds bound ++ how.spellEach es (bound + (ds.flatMap Doc.bindings).length) := by
  induction ds generalizing bound with
  | nil => rfl
  | cons d rest ih =>
    rw [List.cons_append, spellEach, ih, spellEach, List.flatMap_cons, List.length_append,
      Nat.add_assoc, List.cons_append]
    rfl

/-- In a dialect, a text is a mould with other texts in its places. -/
structure Mould.Shapes (dialect : Dialect) (m : Mould) (d : Doc) (parts : List Doc) : Prop where
  places : m.places = parts.length
  mentions : d.mentions = parts.flatMap Doc.mentions
  spell : ∀ parameterise bound, Spelling.spell ⟨dialect, parameterise⟩ d bound
    = m.fill (Spelling.spellEach ⟨dialect, parameterise⟩ parts bound)

namespace Mould.Shapes

variable {dialect : Dialect} {m m' : Mould} {l r : Doc} {ps qs : List Doc}

theorem slots (h : m.Shapes dialect l ps) : l.slots = (ps.flatMap Doc.bindings).length := by
  unfold Doc.slots
  rw [Doc.bindings_eq, h.mentions, List.flatMap_assoc]
  exact congrArg List.length (List.flatMap_congr fun d _ => d.bindings_eq.symm)

theorem fixed (s : String) : Shapes dialect [some s] (.text s) [] :=
  ⟨rfl, rfl, fun _ _ => String.append_empty.symm⟩

theorem name (s : String) : Shapes dialect [some (dialect.quote s)] (.name s) [] :=
  ⟨rfl, rfl, fun _ _ => String.append_empty.symm⟩

theorem part (d : Doc) : Shapes dialect [none] d [d] :=
  ⟨rfl, (List.append_nil _).symm, fun _ _ => String.append_empty.symm⟩

theorem append (hl : m.Shapes dialect l ps) (hr : m'.Shapes dialect r qs) :
    Shapes dialect (m ++ m') (l ++ r) (ps ++ qs) := by
  refine ⟨?_, ?_, fun parameterise bound => ?_⟩
  · rw [places_append, hl.places, hr.places, List.length_append]
  · rw [Doc.mentions_append, hl.mentions, hr.mentions, List.flatMap_append]
  · rw [Spelling.spellEach_append, ← hl.slots,
      fill_append (hl.places.trans (Spelling.length_spellEach ..).symm), ← hl.spell, ← hr.spell]
    rfl

theorem paren (h : m.Shapes dialect l ps) :
    Shapes dialect ([some "("] ++ (m ++ [some ")"])) (.paren l) ps := by
  have hshapes := (fixed "(").append (h.append (fixed ")"))
  rw [List.append_nil, List.nil_append] at hshapes
  refine ⟨hshapes.places, h.mentions, fun parameterise bound => ?_⟩
  rw [← hshapes.spell, Spelling.spell, String.append_assoc]
  rfl

theorem comparison (op : ComparisonOp) (hl : m.Shapes dialect l ps) (hr : m'.Shapes dialect r qs) :
    Shapes dialect ([some (dialect.comparisonFrame op).before] ++ (m
      ++ ([some (dialect.comparisonFrame op).between] ++ (m'
        ++ [some (dialect.comparisonFrame op).after])))) (.comparison op l r) (ps ++ qs) := by
  have hshapes := (fixed (dialect.comparisonFrame op).before).append
    (hl.append ((fixed (dialect.comparisonFrame op).between).append
      (hr.append (fixed (dialect.comparisonFrame op).after))))
  rw [List.append_nil, List.nil_append, List.nil_append] at hshapes
  refine ⟨hshapes.places, ?_, fun parameterise bound => ?_⟩
  · rw [Doc.mentions, hl.mentions, hr.mentions, List.flatMap_append]
  · rw [← hshapes.spell, Spelling.spell, Dialect.compare_eq]
    simp only [String.append_assoc]
    rfl

end Mould.Shapes

/-- Two texts are the same but for some parts of them. -/
inductive Doc.Recast : Doc → Doc → List Doc → List Doc → Prop where
  | text (s : String) : Recast (.text s) (.text s) [] []
  | name (s : String) : Recast (.name s) (.name s) [] []
  | part (d d' : Doc) : Recast d d' [d] [d']
  | comparison (op : ComparisonOp) {l l' r r' : Doc} {ps ps' qs qs' : List Doc}
    (hl : Recast l l' ps ps') (hr : Recast r r' qs qs') :
    Recast (.comparison op l r) (.comparison op l' r') (ps ++ qs) (ps' ++ qs')
  | paren {d d' : Doc} {ps ps' : List Doc} (h : Recast d d' ps ps') :
    Recast (.paren d) (.paren d') ps ps'
  | append {l l' r r' : Doc} {ps ps' qs qs' : List Doc} (hl : Recast l l' ps ps')
    (hr : Recast r r' qs qs') : Recast (l ++ r) (l' ++ r') (ps ++ qs) (ps' ++ qs')

namespace Doc.Recast

variable {d d' : Doc} {ps ps' qs qs' : List Doc}

/-- **Such texts have one mould in common**, with their parts in its places. -/
theorem exists_mould (h : Recast d d' ps ps') (dialect : Dialect) :
    ∃ m : Mould, m.Shapes dialect d ps ∧ m.Shapes dialect d' ps' := by
  induction h with
  | text s => exact ⟨_, .fixed s, .fixed s⟩
  | name s => exact ⟨_, .name s, .name s⟩
  | part d d' => exact ⟨_, .part d, .part d'⟩
  | comparison op _ _ ihl ihr =>
    obtain ⟨m, hl, hl'⟩ := ihl
    obtain ⟨m', hr, hr'⟩ := ihr
    exact ⟨_, hl.comparison op hr, hl'.comparison op hr'⟩
  | paren _ ih =>
    obtain ⟨m, h, h'⟩ := ih
    exact ⟨_, h.paren, h'.paren⟩
  | append _ _ ihl ihr =>
    obtain ⟨m, hl, hl'⟩ := ihl
    obtain ⟨m', hr, hr'⟩ := ihr
    exact ⟨_, hl.append hr, hl'.append hr'⟩

/-- A fixed text between the two. -/
theorem between (hl : Recast d d' ps ps') (s : String) {r r' : Doc} (hr : Recast r r' qs qs') :
    Recast (d ++ .text s ++ r) (d' ++ .text s ++ r') (ps ++ qs) (ps' ++ qs') := by
  have h := (hl.append (.text s)).append hr
  rwa [List.append_nil, List.append_nil] at h

variable {α : Type} {p p' : α → List Doc}

/-- Texts with a separator between each two. -/
theorem join_map (separator : String) {g g' : α → Doc} : ∀ {l : List α},
    (∀ a ∈ l, Recast (g a) (g' a) (p a) (p' a)) →
    Recast (Doc.join separator (l.map g)) (Doc.join separator (l.map g')) (l.flatMap p)
      (l.flatMap p')
  | [], _ => .text ""
  | [a], h => by
    rw [List.flatMap_singleton, List.flatMap_singleton]
    exact h a List.mem_cons_self
  | a :: b :: rest, h => by
    obtain ⟨ha, hrest⟩ := List.forall_mem_cons.mp h
    exact ha.between separator (join_map separator hrest)

/-- Predicates with a connective between them. -/
theorem foldl_map (k : Connective) (layout : Layout) {g g' : α → Node} {rest : List α}
    (h : ∀ a ∈ rest, Recast ((g a).doc layout) ((g' a).doc layout) (p a) (p' a))
    {first first' : Node} (hfirst : Recast (first.doc layout) (first'.doc layout) ps ps') :
    Recast (((rest.map g).foldl k.node first).doc layout)
      (((rest.map g').foldl k.node first').doc layout) (ps ++ rest.flatMap p)
      (ps' ++ rest.flatMap p') := by
  induction rest generalizing first first' ps ps' with
  | nil =>
    rw [List.flatMap_nil, List.flatMap_nil, List.append_nil, List.append_nil]
    exact hfirst
  | cons a more ih =>
    obtain ⟨ha, hmore⟩ := List.forall_mem_cons.mp h
    have hnode : Recast ((k.node first (g a)).doc layout) ((k.node first' (g' a)).doc layout)
        (ps ++ p a) (ps' ++ p' a) := by
      rw [Connective.doc_node, Connective.doc_node]
      exact hfirst.between k.word ha
    rw [List.flatMap_cons, List.flatMap_cons, ← List.append_assoc, ← List.append_assoc]
    exact ih hmore hnode

/-- Predicates with a connective between them, in parentheses. -/
theorem grouped (k : Connective) (layout : Layout) {g g' : α → Node} {l : List α}
    (h : ∀ a ∈ l, Recast ((g a).doc layout) ((g' a).doc layout) (p a) (p' a)) {n n' : Node}
    (hn : k.grouped (l.map g) = some n) (hn' : k.grouped (l.map g') = some n') :
    Recast (n.doc layout) (n'.doc layout) (l.flatMap p) (l.flatMap p') := by
  cases l with
  | nil => cases hn
  | cons a rest =>
    obtain ⟨ha, hrest⟩ := List.forall_mem_cons.mp h
    obtain rfl := Option.some.inj hn
    obtain rfl := Option.some.inj hn'
    rw [Node.grouping, Node.grouping, Node.doc_mk, Node.doc_mk]
    exact (foldl_map k layout hrest ha).paren

end Doc.Recast

/-! ## 2. Predicates and their arguments -/

/-- A predicate that an operand begins. -/
inductive Predication where
  | comparison (op : ComparisonOp) (argument : Node)
  /-- Membership in a list, or in a query if that is the only argument. -/
  | membership (arguments : List Node) (negated : Bool)
  | range (low high : Node) (negated : Bool)
  | composite (k : Connective) (inputs : Inputs)

/-- The same tests of other expressions. -/
def Inputs.map (f : Node → Node) : Inputs → Inputs
  | .values op items => .values op (items.map f)
  | .lists items => .lists (items.map fun values => values.map f)

namespace Predication

/-- The predicate over an operand; there is none over no inputs. -/
def build (operand : Node) : Predication → Except Misuse (Option Node)
  | .comparison op argument => some <$> operand.compare op argument
  | .membership arguments negated => some <$> operand.inList arguments negated
  | .range low high negated => some <$> operand.between low high negated
  | .composite k inputs => operand.composite k inputs

/-- The arguments, in order. -/
def arguments : Predication → List Node
  | .comparison _ argument => [argument]
  | .membership arguments _ => arguments
  | .range low high _ => [low, high]
  | .composite _ (.values _ items) => items
  | .composite _ (.lists items) => items.flatten

/-- The same predicate with other arguments. -/
def map (f : Node → Node) : Predication → Predication
  | .comparison op argument => .comparison op (f argument)
  | .membership arguments negated => .membership (arguments.map f) negated
  | .range low high negated => .range (f low) (f high) negated
  | .composite k inputs => .composite k (inputs.map f)

/-- The tree over an operand, with the arguments as they are. -/
def tree (operand : Node) : Predication → Option Node
  | .comparison op argument => some ⟨.comparison operand op argument⟩
  | .membership arguments negated => some ⟨.membership operand arguments negated⟩
  | .range low high negated => some ⟨.between operand low high negated⟩
  | .composite k (.values op items) =>
    k.grouped (items.map fun argument => ⟨.comparison operand op argument⟩)
  | .composite k (.lists items) =>
    k.grouped (items.map fun values => ⟨.membership operand values false⟩)

/-- **A predicate is built from what its arguments become** beside the operand. -/
theorem build_eq {operand : Node} (h : operand.WellTyped) (p : Predication) :
    p.build operand = .ok ((p.map operand.coerced).tree operand) := by
  cases p with
  | comparison op argument => rw [build, Node.compare_eq h]; rfl
  | membership arguments negated => rw [build, Node.inList_eq h]; rfl
  | range low high negated => rw [build, Node.between_eq h]; rfl
  | composite k inputs =>
    rw [build, Node.composite_eq]
    cases inputs with
    | values op items =>
      rw [Node.tests, mapM_eq_ok (Node.compare_eq h op), map, Inputs.map, tree, List.map_map]
      rfl
    | lists items =>
      rw [Node.tests, mapM_eq_ok fun values => Node.inList_eq h values false, map, Inputs.map, tree,
        List.map_map]
      rfl

theorem map_id (p : Predication) : p.map (fun a => a) = p := by
  cases p with
  | composite k inputs => cases inputs <;> simp [map, Inputs.map]
  | membership values negated => simp [map]
  | _ => rfl

theorem map_map (f g : Node → Node) (p : Predication) :
    (p.map f).map g = p.map fun a => g (f a) := by
  cases p with
  | composite k inputs => cases inputs <;> simp [map, Inputs.map, Function.comp_def]
  | membership values negated => simp [map, Function.comp_def]
  | _ => rfl

/-- Whether there is a predicate depends on nothing but the number of inputs. -/
theorem tree_map_eq_none_iff (f : Node → Node) (operand operand' : Node) (p : Predication) :
    (p.map f).tree operand' = none ↔ p.tree operand = none := by
  cases p with
  | composite k inputs =>
    cases inputs <;>
      simp only [map, Inputs.map, tree, Connective.grouped_eq_none_iff, List.map_eq_nil_iff]
  | _ => exact iff_of_false (fun h => by cases h) (fun h => by cases h)

/-! What other arguments do to the text. -/

/-- The type of a column is not written. -/
theorem recast_column (layout : Layout) (relation : Node) (name : String)
    (typeName typeName' : Option String) :
    Doc.Recast ((Node.mk (.column relation name typeName)).doc layout)
      ((Node.mk (.column relation name typeName')).doc layout) [] [] := by
  rw [Node.doc_mk, Node.doc_mk]
  show Doc.Recast (Render.qualified relation.relationName? (.name name))
    (Render.qualified relation.relationName? (.name name)) [] []
  unfold Render.qualified
  split
  · exact (Doc.Recast.name _).between "." (.name name)
  · exact .name name

section Recast

open Render

variable {layout : Layout} {f : Node → Node} (hf : ∀ a, (f a).isQuery = a.isQuery)
  {operand operand' : Node} (hquery : operand.isQuery = false) (hquery' : operand'.isQuery = false)
  (hoperand : Doc.Recast (operand.doc layout) (operand'.doc layout) [] [])

include hf

/-- An argument keeps its parentheses, if it has any. -/
theorem recast_argument (a : Node) :
    Doc.Recast (Render.operand (a.rendered layout)) (Render.operand ((f a).rendered layout))
      [a.doc layout] [(f a).doc layout] := by
  unfold Render.operand Node.rendered
  rw [hf a]
  split
  · exact (Doc.Recast.part ..).paren
  · exact .part ..

theorem recast_list (values : List Node) :
    Doc.Recast (commas ((values.map (Node.rendered layout)).map Render.operand))
      (commas (((values.map f).map (Node.rendered layout)).map Render.operand))
      (values.map (Node.doc layout)) ((values.map f).map (Node.doc layout)) := by
  have hlist := Doc.Recast.join_map ", " (l := values)
    fun a _ => @recast_argument layout f hf a
  rw [← List.map_eq_flatMap, ← List.map_eq_flatMap] at hlist
  unfold commas
  rw [List.map_map, List.map_map, List.map_map, List.map_map]
  exact hlist

omit hf

include hquery hquery' hoperand in
theorem recast_operand : Doc.Recast (Render.operand (operand.rendered layout))
    (Render.operand (operand'.rendered layout)) [] [] := by
  unfold Render.operand Node.rendered
  rw [hquery, hquery']
  exact hoperand

include hf hquery hquery' hoperand

theorem recast_comparison (op : ComparisonOp) (a : Node) :
    Doc.Recast ((Node.mk (.comparison operand op a)).doc layout)
      ((Node.mk (.comparison operand' op (f a))).doc layout) [a.doc layout] [(f a).doc layout] := by
  rw [Node.doc_mk, Node.doc_mk]
  exact (recast_operand hquery hquery' hoperand).comparison op (recast_argument hf a)

theorem recast_membership (values : List Node) (negated : Bool) :
    Doc.Recast ((Node.mk (.membership operand values negated)).doc layout)
      ((Node.mk (.membership operand' (values.map f) negated)).doc layout)
      (values.map (Node.doc layout)) ((values.map f).map (Node.doc layout)) := by
  rw [Node.doc_mk, Node.doc_mk]
  have hleft := recast_operand hquery hquery' hoperand
  have hword : ∀ ps ps' d d', Doc.Recast d d' ps ps' →
      Doc.Recast (Render.operand (operand.rendered layout)
          ++ (if negated then " NOT IN " else " IN ") ++ .paren d)
        (Render.operand (operand'.rendered layout)
          ++ (if negated then " NOT IN " else " IN ") ++ .paren d') ps ps' := by
    intro ps ps' d d' h
    cases negated <;> exact hleft.between _ h.paren
  match values with
  | [] => cases negated <;> exact .text _
  | [a] => exact hword _ _ _ _ (.part ..)
  | a :: b :: rest =>
    exact hword _ _ _ _ (recast_list hf (a :: b :: rest))

theorem recast_range (low high : Node) (negated : Bool) :
    Doc.Recast ((Node.mk (.between operand low high negated)).doc layout)
      ((Node.mk (.between operand' (f low) (f high) negated)).doc layout)
      [low.doc layout, high.doc layout] [(f low).doc layout, (f high).doc layout] := by
  rw [Node.doc_mk, Node.doc_mk]
  have hleft := recast_operand hquery hquery' hoperand
  have hlow := @recast_argument layout f hf low
  have hhigh := @recast_argument layout f hf high
  cases negated
  · exact (hleft.between " BETWEEN " hlow).between " AND " hhigh
  · exact (hleft.between " NOT BETWEEN " hlow).between " AND " hhigh

/-- **A predicate with other arguments differs from it in these**, whatever the predicate is. -/
theorem recast (p : Predication) {n n' : Node} (hn : p.tree operand = some n)
    (hn' : (p.map f).tree operand' = some n') :
    Doc.Recast (n.doc layout) (n'.doc layout) (p.arguments.map (Node.doc layout))
      ((p.arguments.map f).map (Node.doc layout)) := by
  cases p with
  | comparison op a =>
    obtain rfl := Option.some.inj hn
    obtain rfl := Option.some.inj hn'
    exact recast_comparison hf hquery hquery' hoperand op a
  | membership values negated =>
    obtain rfl := Option.some.inj hn
    obtain rfl := Option.some.inj hn'
    exact recast_membership hf hquery hquery' hoperand values negated
  | range low high negated =>
    obtain rfl := Option.some.inj hn
    obtain rfl := Option.some.inj hn'
    exact recast_range hf hquery hquery' hoperand low high negated
  | composite k inputs =>
    cases inputs with
    | values op items =>
      rw [map, Inputs.map, tree, List.map_map] at hn'
      have hgrouped := Doc.Recast.grouped k layout
        (fun a _ => recast_comparison hf hquery hquery' hoperand op a) hn hn'
      rw [← List.map_eq_flatMap, ← List.map_eq_flatMap] at hgrouped
      rw [List.map_map]
      exact hgrouped
    | lists items =>
      rw [map, Inputs.map, tree, List.map_map] at hn'
      have hgrouped := Doc.Recast.grouped k layout
        (fun values _ => recast_membership hf hquery hquery' hoperand values false) hn hn'
      rw [arguments, List.map_flatten, List.map_flatten, List.map_flatten, List.map_map]
      rw [List.flatMap_def, List.flatMap_def] at hgrouped
      exact hgrouped

end Recast
end Predication

/-! ## 3. Arguments that are cast -/

namespace Node

/-- A constant that is not null. -/
def isConstant (n : Node) : Bool :=
  match n.form with
  | .literal v => !v.isNull
  | _ => false

/-- The text of an expression once it is converted to a type: constants are cast. -/
def castText (typeName : String) (n : Node) (text : String) : String :=
  if n.isConstant then "CAST(" ++ text ++ " AS " ++ typeName ++ ")" else text

variable {typeName : String}

theorem castTo_cases (n : Node) : n.isConstant = false ∧ n.castTo typeName = n
    ∨ ∃ v, v.isNull = false ∧ n = ⟨.literal v⟩ ∧ n.castTo typeName = ⟨.cast v typeName⟩ := by
  obtain ⟨form⟩ := n
  cases form with
  | literal v =>
    cases hnull : v.isNull with
    | true => exact .inl ⟨congrArg Bool.not hnull, if_pos hnull⟩
    | false => exact .inr ⟨v, hnull, rfl, if_neg (by rw [hnull]; exact Bool.false_ne_true)⟩
  | _ => exact .inl ⟨rfl, rfl⟩

theorem isQuery_castTo (n : Node) : (n.castTo typeName).isQuery = n.isQuery := by
  obtain ⟨-, h⟩ | ⟨v, -, rfl, h⟩ := n.castTo_cases
  · rw [h]
  · rw [h]
    rfl

/-- What is cast is not cast again. -/
theorem castTo_castTo (n : Node) : (n.castTo typeName).castTo typeName = n.castTo typeName := by
  obtain ⟨-, h⟩ | ⟨v, -, rfl, h⟩ := n.castTo_cases
  · rw [h, h]
  · rw [h]
    rfl

end Node

namespace Session

variable {typeName : String} (haccepts : NameRule.type.accepts typeName = true)

include haccepts

/-- A conversion to a type that may be written keeps the parameters, and casts constants. -/
theorem render_castTo (s : Session) (n : Node) : s.render (n.castTo typeName)
    = (s.render n).map fun answer => (n.castText typeName answer.1, answer.2) := by
  obtain ⟨hconstant, h⟩ | ⟨v, hnull, rfl, h⟩ := n.castTo_cases
  · rw [h]
    unfold Node.castText
    rw [hconstant]
    cases s.render n <;> rfl
  · have hliteral : (Node.mk (.literal v)).doc s.renderer.layout = .value v := Node.doc_mk ..
    have hcollect : (Node.mk (.cast v typeName)).collect = (Node.mk (.literal v)).collect := by
      rw [Node.collect_mk, Node.collect_mk]
      rfl
    have hconstant : (Node.mk (.literal v)).isConstant = true := congrArg Bool.not hnull
    rw [h, render_eq, render_eq, fault?_cast _ v haccepts, spell_cast, hliteral, hcollect]
    unfold Node.castText
    rw [hconstant]
    rfl

/-- **Arguments converted to a type are rendered as they were**, with casts around the constants. -/
theorem renderEach_castTo (ns : List Node) : ∀ s : Session,
    s.renderEach (ns.map (Node.castTo typeName)) = (s.renderEach ns).map fun answer =>
      (List.zipWith (Node.castText typeName) ns answer.1, answer.2) := by
  induction ns with
  | nil => exact fun s => rfl
  | cons n rest ih =>
    intro s
    rw [List.map_cons, renderEach, renderEach, render_castTo haccepts]
    cases s.render n with
    | error misuse => rfl
    | ok answer =>
      obtain ⟨text, s'⟩ := answer
      show ((s'.renderEach _).bind _) = ((s'.renderEach rest).bind _).map _
      rw [ih s']
      cases s'.renderEach rest <;> rfl

end Session

/-- **A typed column only adds casts.** For every relation, name and type that may be written, and
    for every predicate with any arguments: there is the predicate over the typed column if and only
    if there is the one over the column without a type. Both are refused, or leave the same
    parameters, as their arguments do that are rendered one after the other. Both texts are one
    mould around the texts of these arguments; but over the typed column the constants are cast.
    What is cast already stays as it is. -/
theorem Predication.typed_casts {relation : Node} (hrelation : relation.isRelation = true)
    {typeName : String} (haccepts : NameRule.type.accepts typeName = true) (name : String)
    (p : Predication) :
    ∃ plain typed, relation.attr name = .ok plain ∧ relation.typedAttr name typeName = .ok typed
      ∧ ∃ answer answer', p.build plain = .ok answer ∧ p.build typed = .ok answer'
        ∧ (answer' = none ↔ answer = none)
        ∧ (p.map (Node.castTo typeName)).build typed = .ok answer'
        ∧ ∀ n n', answer = some n → answer' = some n' → ∀ r : Renderer,
          ∃ m : Mould, m.places = p.arguments.length ∧ ∀ params : List Value,
            let arguments := (Session.mk r params).renderEach p.arguments
            (Session.mk r params).render n
                = arguments.map (fun (texts, s) => (m.fill texts, s))
              ∧ (Session.mk r params).render n'
                = arguments.map fun (texts, s) =>
                  (m.fill (List.zipWith (Node.castText typeName) p.arguments texts), s) := by
  have hcheck : relation.checkRelation = .ok () := if_pos hrelation
  have hplain : relation.attr name = .ok (relation.columnOf name) := by
    rw [Node.attr, hcheck]
    rfl
  have htyped : relation.typedAttr name typeName = .ok ⟨.column relation name (some typeName)⟩ := by
    rw [Node.typedAttr, hcheck]
    unfold Node.typedColumnOf NameRule.check
    rw [if_pos haccepts]
    rfl
  have hbuild : p.build (relation.columnOf name) = .ok (p.tree (relation.columnOf name)) := by
    rw [build_eq (fun typeName htypeName => by cases htypeName)]
    exact congrArg (fun p : Predication => Except.ok (p.tree (relation.columnOf name))) p.map_id
  have hwellTyped : (Node.mk (.column relation name (some typeName))).WellTyped :=
    Node.wellTyped_column haccepts
  have htwice : (p.map (Node.castTo typeName)).map (Node.castTo typeName)
      = p.map (Node.castTo typeName) := by
    rw [map_map]
    exact congrArg p.map (funext Node.castTo_castTo)
  have hagain := build_eq hwellTyped (p.map (Node.castTo typeName))
  refine ⟨_, _, hplain, htyped, _, _, hbuild, build_eq hwellTyped p, tree_map_eq_none_iff ..,
    hagain.trans (congrArg (fun p : Predication => Except.ok (p.tree _)) htwice), ?_⟩
  intro n n' hn hn' r
  have hrecast := recast (f := Node.castTo typeName) Node.isQuery_castTo rfl rfl
    (recast_column r.layout relation name none (some typeName)) p hn hn'
  obtain ⟨m, hm, hm'⟩ := hrecast.exists_mould r.dialect
  refine ⟨m, hm.places.trans (List.length_map _), fun params => ?_⟩
  intro arguments
  refine ⟨?_, ?_⟩
  · refine @Session.render_of_parts ⟨r, params⟩ n p.arguments m.fill ?_ (hm.spell _ _)
    rw [hm.mentions, List.flatMap_map]
  · have hrender : (Session.mk r params).render n'
        = ((Session.mk r params).renderEach (p.arguments.map (Node.castTo typeName))).map
          fun answer => (m.fill answer.1, answer.2) := by
      refine @Session.render_of_parts ⟨r, params⟩ n' _ m.fill ?_ (hm'.spell _ _)
      rw [hm'.mentions, List.flatMap_map]
    rw [hrender, Session.renderEach_castTo haccepts]
    show Except.map _ (Except.map _ arguments) = _
    cases arguments <;> rfl

/-- A range from a constant to a parameter, behind one parameter. -/
theorem Predication.typed_casts_openRange :
    (Node.table "orders").isRelation = true ∧ NameRule.type.accepts "integer" = true
      ∧ ∃ plain typed n n', (Node.table "orders").attr "status" = .ok plain
        ∧ (Node.table "orders").typedAttr "status" "integer" = .ok typed
        ∧ plain.between (.literal (.int 1)) (.bind (.int 2)) = .ok n
        ∧ typed.between (.literal (.int 1)) (.bind (.int 2)) = .ok n'
        ∧ (∃ m : Mould, m.places = 2
          ∧ Session.behindOne.render n
            = .ok (m.fill ["$2", "$3"], (Session.behindOne.push (.int 1)).push (.int 2))
          ∧ Session.behindOne.render n'
            = .ok (m.fill ["CAST($2 AS integer)", "$3"],
              (Session.behindOne.push (.int 1)).push (.int 2)))
        ∧ Session.behindOne.render n'
          = .ok ("\x22orders\x22.\x22status\x22 BETWEEN CAST($2 AS integer) AND $3",
            (Session.behindOne.push (.int 1)).push (.int 2)) := by
  have haccepts : NameRule.type.accepts "integer" = true := by decide
  obtain ⟨plain, typed, hplain, htyped, answer, answer', hbuild, hbuild', -, -, hrender⟩ :=
    @Predication.typed_casts (.table "orders") rfl "integer" haccepts "status"
      (.range (.literal (.int 1)) (.bind (.int 2)) false)
  obtain rfl := Except.ok.inj hplain
  obtain rfl := Except.ok.inj htyped
  obtain rfl := Except.ok.inj hbuild
  obtain rfl := Except.ok.inj hbuild'
  obtain ⟨m, hplaces, hboth⟩ := hrender _ _ rfl rfl ⟨.postgres, .oneLine, true⟩
  obtain ⟨hn, hn'⟩ := hboth [.text "a"]
  exact ⟨rfl, haccepts, _, _, _, _, rfl, rfl, rfl, rfl, ⟨m, hplaces, hn, hn'⟩, rfl⟩

end SqlTree
