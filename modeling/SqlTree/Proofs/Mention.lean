import SqlTree.Proofs.Survey

/-!
# What a text mentions

Three things in a statement are not fixed words: values, verbatim SQL, and names written bare.
What a rendering does to the parameters, and whether it is refused, depends on these alone.

* `Doc.mentions` -- what a text mentions, in the order of the text;
* `Form.mentioned`, `Node.mentioned` -- what a node mentions itself, by its form;
* `mentions_doc` -- in either layout the text of a tree mentions what the visited nodes mention,
  in the order of the visit.
-/

namespace SqlTree

/-- A part of a text that is no fixed word and no quoted name. -/
inductive Mention where
  | value (v : Value)
  | verbatim (sql : String) (binds : List Value)
  | bare (rule : NameRule) (name : String)

namespace Mention

/-- The values that become parameters. -/
def bound : Mention → List Value
  | .value v => if v.isNull then [] else [v]
  | .verbatim _ binds => binds
  | .bare _ _ => []

def fault? : Mention → Option Misuse
  | .bare rule name => if rule.accepts name then none else some (.invalidName rule name)
  | _ => none

end Mention

/-! ## 1. Mentions of a text -/

/-- The first hit in lists put together is that of the first list with one. -/
theorem findSome?_flatMap {α β γ : Type} (f : α → List β) (g : β → Option γ) (l : List α) :
    (l.flatMap f).findSome? g = l.findSome? fun a => (f a).findSome? g := by
  induction l with
  | nil => rfl
  | cons a rest ih =>
    rw [List.flatMap_cons, List.findSome?_append, ih, List.findSome?_cons]
    cases (f a).findSome? g <;> rfl

namespace Doc

/-- What a text mentions, from left to right. -/
def mentions : Doc → List Mention
  | .text _ => []
  | .name _ => []
  | .bare rule s => [.bare rule s]
  | .value v => [.value v]
  | .raw sql binds => [.verbatim sql binds]
  | .comment _ _ => []
  | .comparison _ left right => left.mentions ++ right.mentions
  | .paren body => body.mentions
  | .indented body => body.mentions
  | .append left right => left.mentions ++ right.mentions

/-- **The parameters of a text are those of its mentions.** -/
theorem bindings_eq (d : Doc) : d.bindings = d.mentions.flatMap Mention.bound := by
  induction d with
  | comparison op l r ihl ihr =>
    rw [bindings, mentions, List.flatMap_append, ihl, ihr]
  | append l r ihl ihr =>
    rw [bindings, mentions, List.flatMap_append, ihl, ihr]
  | paren body ih => exact ih
  | indented body ih => exact ih
  | _ => simp [bindings, mentions, Mention.bound]

/-- **A text is refused for the first of its mentions that is at fault.** -/
theorem fault?_eq (d : Doc) : d.fault? = d.mentions.findSome? Mention.fault? := by
  induction d with
  | comparison op l r ihl ihr =>
    rw [fault?, mentions, List.findSome?_append, ihl, ihr]
  | append l r ihl ihr =>
    rw [fault?, mentions, List.findSome?_append, ihl, ihr]
  | paren body ih => exact ih
  | indented body ih => exact ih
  | bare rule s => cases h : rule.accepts s <;> simp [fault?, mentions, Mention.fault?, h]
  | _ => rfl

theorem mentions_text (s : String) : (Doc.text s).mentions = [] := rfl

theorem mentions_append (l r : Doc) : (l ++ r).mentions = l.mentions ++ r.mentions := rfl

/-- Mentions are notes: each part is noted as it is, and a comparison only for its operands. -/
def mentionSurvey : Survey Mention where
  bare rule s := [.bare rule s]
  value v := [.value v]
  raw sql binds := [.verbatim sql binds]
  comparison _ := []

theorem mentions_eq_survey (d : Doc) : d.mentions = d.survey mentionSurvey := by
  induction d with
  | comparison op l r ihl ihr =>
    rw [mentions, ihl, ihr]
    rfl
  | append l r ihl ihr =>
    rw [mentions, ihl, ihr]
    rfl
  | paren body ih => exact ih
  | indented body ih => exact ih
  | _ => rfl

theorem mentions_join_text (s : String) (ds : List Doc) :
    (Doc.join (.text s) ds).mentions = ds.flatMap mentions := by
  rw [mentions_eq_survey, survey_join_text]
  exact List.flatMap_congr fun d _ => (mentions_eq_survey d).symm

end Doc

/-! ## 2. Mentions of a tree -/

/-- What a form mentions itself, apart from its children. -/
def Form.mentioned {ν : Type} : Form ν → List Mention
  | .literal v => [.value v]
  | .bind v => [.value v]
  | .cast v typeName => [.value v, .bare .type typeName]
  | .raw sql binds => [.verbatim sql binds]
  | .call name _ _ => [.bare .function name]
  | _ => []

/-- Only the types of casts and the names of functions are written bare. -/
theorem Form.eq_of_bare_mem_mentioned {ν : Type} {form : Form ν} {rule : NameRule} {s : String}
    (h : Mention.bare rule s ∈ form.mentioned) :
    (rule = .type ∧ ∃ v, form = .cast v s)
      ∨ (rule = .function ∧ ∃ arguments distinct, form = .call s arguments distinct) := by
  cases form with
  | cast v typeName =>
    have hs : Mention.bare rule s = .bare .type typeName := by simpa [mentioned] using h
    cases hs
    exact .inl ⟨rfl, v, rfl⟩
  | call name arguments distinct =>
    have hs : Mention.bare rule s = .bare .function name := by simpa [mentioned] using h
    cases hs
    exact .inr ⟨rfl, arguments, distinct, rfl⟩
  | _ => simp [mentioned] at h

namespace Node

/-- What a node mentions itself. -/
def mentioned (n : Node) : List Mention := n.form.mentioned

/-- **The text of a tree mentions what its visited nodes mention**, in the order of the visit and
    whatever the layout. -/
theorem mentions_doc (layout : Layout) (n : Node) :
    (n.doc layout).mentions = n.visited.flatMap mentioned := by
  rw [Doc.mentions_eq_survey, survey_doc]
  refine List.flatMap_congr fun m _ => ?_
  obtain ⟨form⟩ := m
  cases form <;> rfl

end Node
end SqlTree
