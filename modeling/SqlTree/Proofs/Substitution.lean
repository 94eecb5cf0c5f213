import SqlTree.Proofs.ParameterTrace
import SqlTree.Proofs.Placeholders

/-!
# Literals in the place of placeholders

Whether values become placeholders or literals changes nothing but the text at their places. So the
text with literals shows what a database executes for the text with placeholders and its parameters.

* `Template` -- text with gaps for values, and `Template.fill`, which writes something into each;
* `Doc.Flat` -- a text whose lines are not moved, as every text of a tree on one line is;
* `Doc.template`, `Doc.Flat.spell_eq_fill` -- either spelling of a text fills the gaps of one
  template;
* `Session.render_template` -- the two renderings of a tree, from any parameter on.
-/

namespace SqlTree

/-! ## 1. Texts with gaps -/

/-- Text with gaps for values: each value with the text before it, and the text behind them all. -/
inductive Template where
  | last (s : String)
  | gap (s : String) (v : Value) (rest : Template)

namespace Template

/-- The values of the gaps, in order. -/
def values : Template → List Value
  | .last _ => []
  | .gap _ v rest => v :: rest.values

/-- The whole text: `write` says what stands in a gap, for its position and its value. -/
def fill (write : Nat → Value → String) : Template → Nat → String
  | .last s, _ => s
  | .gap s v rest, i => s ++ write i v ++ rest.fill write (i + 1)

/-- Text in front of a template. -/
def behind (s : String) : Template → Template
  | .last s' => .last (s ++ s')
  | .gap s' v rest => .gap (s ++ s') v rest

/-- A template behind another one. -/
def append : Template → Template → Template
  | .last s, t => t.behind s
  | .gap s v rest, t => .gap s v (rest.append t)

instance : Append Template := ⟨append⟩

variable (write : Nat → Value → String)

@[simp] theorem values_last (s : String) : (Template.last s).values = [] := rfl

@[simp] theorem fill_last (s : String) (i : Nat) : (Template.last s).fill write i = s := rfl

theorem values_behind (s : String) (t : Template) : (t.behind s).values = t.values := by
  cases t <;> rfl

theorem fill_behind (s : String) (t : Template) (i : Nat) :
    (t.behind s).fill write i = s ++ t.fill write i := by
  cases t with
  | last s' => rfl
  | gap s' v rest =>
    show s ++ s' ++ write i v ++ rest.fill write (i + 1)
      = s ++ (s' ++ write i v ++ rest.fill write (i + 1))
    simp only [String.append_assoc]

theorem values_append (t u : Template) : (t ++ u).values = t.values ++ u.values := by
  induction t with
  | last s => exact values_behind s u
  | gap s v rest ih => exact congrArg (v :: ·) ih

/-- **Two templates are filled one after the other.** -/
theorem fill_append (t u : Template) (i : Nat) :
    (t ++ u).fill write i = t.fill write i ++ u.fill write (i + t.values.length) := by
  induction t generalizing i with
  | last s => exact fill_behind write s u i
  | gap s v rest ih =>
    have hrest := ih (i + 1)
    have hlength : i + 1 + rest.values.length = i + (rest.values.length + 1) := by omega
    show s ++ write i v ++ (rest ++ u).fill write (i + 1) = _
    rw [hrest, hlength, ← String.append_assoc]
    rfl

/-- A template with the same text in every gap has no positions. -/
theorem fill_const (s : String) (t : Template) (i j : Nat) :
    t.fill (fun _ _ => s) i = t.fill (fun _ _ => s) j := by
  induction t generalizing i j with
  | last s' => rfl
  | gap s' v rest ih =>
    show s' ++ s ++ rest.fill _ (i + 1) = s' ++ s ++ rest.fill _ (j + 1)
    rw [ih (i + 1) (j + 1)]

end Template

/-! ## 2. The template of a text -/

/-- What a spelling writes for a value that is not null, behind some parameters. -/
def Spelling.slot (how : Spelling) (bound : Nat) (v : Value) : String :=
  if how.parameterise then how.dialect.placeholder (bound + 1) else v.inline

namespace Doc

/-- No lines of the text are moved. -/
def Flat : Doc → Prop
  | .comparison _ left right => left.Flat ∧ right.Flat
  | .paren body => body.Flat
  | .indented _ => False
  | .append left right => left.Flat ∧ right.Flat
  | _ => True

/-- On one line no lines are moved. -/
theorem Spaced.flat {inside : Bool} {e e' : Seam} {d : Doc} (h : Spaced .oneLine inside e d e') :
    d.Flat := by
  induction h with
  | comparison op hl hr ihl ihr => exact ⟨ihl, ihr⟩
  | paren h ih => exact ih
  | indented hl h ih => cases hl
  | range hw hd hlow ihd ihlow => exact ⟨⟨⟨ihd, trivial⟩, ihlow⟩, trivial⟩
  | choice hd hb ho ihd ihb iho => exact ⟨⟨⟨⟨trivial, ihd⟩, ihb⟩, iho⟩, trivial⟩
  | append hl hr ihl ihr => exact ⟨ihl, ihr⟩
  | _ => exact trivial

/-- The text in a dialect, with gaps for its values. -/
def template (dialect : Dialect) : Doc → Template
  | .text s => .last s
  | .name s => .last (dialect.quote s)
  | .bare _ s => .last s
  | .value v => if v.isNull then .last "NULL" else .gap "" v (.last "")
  | .raw sql _ => .last sql
  | .comment mark s => .last (mark ++ " " ++ Text.sanitizeComment s ++ " */")
  | .comparison op left right =>
    .last (dialect.comparisonFrame op).before ++ left.template dialect
      ++ .last (dialect.comparisonFrame op).between ++ right.template dialect
      ++ .last (dialect.comparisonFrame op).after
  | .paren body => .last "(" ++ body.template dialect ++ .last ")"
  | .indented body => body.template dialect
  | .append left right => left.template dialect ++ right.template dialect

/-- Verbatim SQL brings no values into the text. -/
def Unbound (d : Doc) : Prop := ∀ sql binds, .verbatim sql binds ∈ d.mentions → binds = []

theorem Unbound.of_append {l r : Doc} {ms : List Mention} (hms : ms = l.mentions ++ r.mentions)
    (h : ∀ sql binds, .verbatim sql binds ∈ ms → binds = []) : l.Unbound ∧ r.Unbound := by
  subst hms
  exact ⟨fun sql binds hmem => h sql binds (List.mem_append_left _ hmem),
    fun sql binds hmem => h sql binds (List.mem_append_right _ hmem)⟩

/-- **The gaps of a text are for the values that it binds.** -/
theorem Unbound.values_template {d : Doc} (h : d.Unbound) (dialect : Dialect) :
    (d.template dialect).values = d.bindings := by
  induction d with
  | value v =>
    unfold template bindings
    cases v.isNull <;> rfl
  | raw sql binds => exact (h sql binds List.mem_cons_self).symm
  | comparison op l r ihl ihr =>
    obtain ⟨hl, hr⟩ := Unbound.of_append rfl h
    unfold template bindings
    simp only [Template.values_append, Template.values_last, ihl hl, ihr hr, List.nil_append,
      List.append_nil]
  | paren body ih =>
    unfold template bindings
    simp only [Template.values_append, Template.values_last, ih h, List.nil_append,
      List.append_nil]
  | indented body ih => exact ih h
  | append l r ihl ihr =>
    obtain ⟨hl, hr⟩ := Unbound.of_append rfl h
    unfold template bindings
    rw [Template.values_append, ihl hl, ihr hr]
  | _ => rfl

/-- No gap is for a null. -/
theorem not_isNull_of_mem_template (d : Doc) (dialect : Dialect) :
    ∀ v ∈ (d.template dialect).values, v.isNull = false := by
  induction d with
  | value v =>
    unfold template
    intro w hw
    cases hv : v.isNull with
    | true =>
      rw [hv] at hw
      cases hw
    | false =>
      rw [hv] at hw
      rw [List.mem_singleton.mp hw]
      exact hv
  | comparison op l r ihl ihr =>
    unfold template
    simp only [Template.values_append, Template.values_last, List.nil_append, List.append_nil,
      List.forall_mem_append]
    exact ⟨ihl, ihr⟩
  | paren body ih =>
    unfold template
    simp only [Template.values_append, Template.values_last, List.nil_append, List.append_nil]
    exact ih
  | indented body ih => exact ih
  | append l r ihl ihr =>
    unfold template
    simp only [Template.values_append, List.forall_mem_append]
    exact ⟨ihl, ihr⟩
  | _ => exact fun _ hv => by cases hv

/-- **Either spelling of a text fills the gaps of its template**, if no lines of it are moved and
    verbatim SQL brings no values into it. -/
theorem Flat.spell_eq_fill {d : Doc} (how : Spelling) (hd : d.Flat) (hu : d.Unbound) (bound : Nat) :
    how.spell d bound = (d.template how.dialect).fill how.slot bound := by
  induction d generalizing bound with
  | value v =>
    unfold template Spelling.spell Spelling.value
    cases v.isNull with
    | true => rfl
    | false =>
      show how.slot bound v = "" ++ how.slot bound v ++ ""
      rw [String.empty_append, String.append_empty]
  | comparison op l r ihl ihr =>
    obtain ⟨hl, hr⟩ := Unbound.of_append rfl hu
    unfold template Spelling.spell
    rw [Dialect.compare_eq, ihl hd.1 hl, ihr hd.2 hr]
    simp only [Template.fill_append, Template.fill_last, Template.values_append,
      Template.values_last, hl.values_template, List.nil_append, List.append_nil, List.length_nil,
      Nat.add_zero]
    rfl
  | paren body ih =>
    unfold template Spelling.spell
    rw [ih hd hu]
    simp only [Template.fill_append, Template.fill_last, Template.values_last, List.length_nil,
      Nat.add_zero]
  | indented body ih => exact hd.elim
  | append l r ihl ihr =>
    obtain ⟨hl, hr⟩ := Unbound.of_append rfl hu
    unfold template Spelling.spell
    rw [ihl hd.1 hl, ihr hd.2 hr, Template.fill_append, hl.values_template]
    rfl
  | _ => rfl

end Doc

/-! ## 3. The two renderings of a tree -/

/-- Verbatim SQL that is written below a node brings no values along. -/
def Node.Unbound (t : Node) : Prop :=
  ∀ n ∈ t.visited, ∀ sql binds, n.form = .raw sql binds → binds = []

theorem Node.Unbound.doc {t : Node} (h : t.Unbound) (layout : Layout) :
    (t.doc layout).Unbound := by
  intro sql binds hmem
  rw [t.mentions_doc] at hmem
  obtain ⟨n, hn, hmention⟩ := List.mem_flatMap.mp hmem
  have hraw := h n hn
  unfold mentioned at hmention
  cases hform : n.form with
  | raw sql' binds' =>
    rw [hform] at hmention
    cases List.mem_singleton.mp hmention
    exact hraw sql binds hform
  | _ =>
    rw [hform] at hmention
    simp [Form.mentioned] at hmention

namespace Session

/-- **A rendering with literals is the one with placeholders, the parameters put in their place.**
    In each dialect a tree whose verbatim SQL brings no values along is refused by both for the same
    reason, whatever parameters there are before it; or it has one template, with gaps for values
    that are not null. Behind any parameters the one rendering writes the placeholders of the next
    positions into the gaps and adds the values to the parameters, in order, and the other writes
    the values themselves and adds nothing. Where placeholders have no numbers, the former
    parameters do not show in the text. -/
theorem render_template {t : Node} (ht : t.Unbound) (dialect : Dialect) :
    (∃ misuse, ∀ parameterise params,
        (Session.mk ⟨dialect, .oneLine, parameterise⟩ params).render t = .error misuse)
      ∨ ∃ template : Template,
        (∀ v ∈ template.values, v.isNull = false)
          ∧ (∀ params, (Session.mk ⟨dialect, .oneLine, true⟩ params).render t
            = .ok (template.fill (fun i _ => dialect.placeholder (i + 1)) params.length,
              ⟨⟨dialect, .oneLine, true⟩, params ++ template.values⟩))
          ∧ (∀ params, (Session.mk ⟨dialect, .oneLine, false⟩ params).render t
            = .ok (template.fill (fun _ v => v.inline) params.length,
              ⟨⟨dialect, .oneLine, false⟩, params⟩))
          ∧ (dialect ≠ .postgres → ∃ text, ∀ params,
            (Session.mk ⟨dialect, .oneLine, true⟩ params).render t
              = .ok (text, ⟨⟨dialect, .oneLine, true⟩, params ++ template.values⟩)) := by
  have hunbound : (t.doc .oneLine).Unbound := ht.doc .oneLine
  have hspell := fun how => (t.spaced_doc .oneLine).flat.spell_eq_fill how hunbound
  have hvalues : ((t.doc .oneLine).template dialect).values = t.collect := by
    rw [hunbound.values_template, Node.bindings_doc]
  cases hfault : (t.doc .oneLine).fault? with
  | some misuse =>
    refine .inl ⟨misuse, fun parameterise params => ?_⟩
    simp only [render, write, hfault]
  | none =>
    have hplaceholders : ∀ params, (Session.mk ⟨dialect, .oneLine, true⟩ params).render t
        = .ok (((t.doc .oneLine).template dialect).fill (fun i _ => dialect.placeholder (i + 1))
          params.length, ⟨⟨dialect, .oneLine, true⟩,
            params ++ ((t.doc .oneLine).template dialect).values⟩) := by
      intro params
      refine render_eq_ok_iff.mpr ⟨hfault, (hspell ⟨dialect, true⟩ params.length).symm, ?_⟩
      rw [hvalues]
      rfl
    refine .inr ⟨(t.doc .oneLine).template dialect, Doc.not_isNull_of_mem_template _ _,
      hplaceholders, fun params => ?_, fun hdialect => ?_⟩
    · exact render_eq_ok_iff.mpr ⟨hfault, (hspell ⟨dialect, false⟩ params.length).symm, rfl⟩
    · have hquestion : ∀ i, dialect.placeholder i = "?" := by
        intro i
        cases dialect with
        | postgres => exact absurd rfl hdialect
        | _ => rfl
      refine ⟨((t.doc .oneLine).template dialect).fill (fun _ _ => "?") 0, fun params => ?_⟩
      rw [hplaceholders]
      simp only [hquestion]
      rw [Template.fill_const "?" _ params.length 0]

/-- A query of two values and a null, beside verbatim SQL without values. -/
def threeValues : Node :=
  ⟨.select
    { source := some ⟨.table "t"⟩
      wheres := [⟨.raw "a > 0" []⟩,
        ⟨.between ⟨.column ⟨.table "t"⟩ "b" none⟩ ⟨.bind (.text "it\x27s")⟩ ⟨.literal .null⟩ false⟩,
        ⟨.comparison ⟨.column ⟨.table "t"⟩ "c" none⟩ .caseInsensitiveEq ⟨.literal (.int (-3))⟩⟩] }⟩

/-- `threeValues` behind one parameter, and with its values in the text. -/
theorem render_template_threeValues :
    ∃ template : Template, template.values = [.text "it\x27s", .int (-3)]
      ∧ template.fill (fun i _ => Dialect.postgres.placeholder (i + 1)) 1
        = "SELECT * FROM \x22t\x22 WHERE a > 0 AND \x22t\x22.\x22b\x22 BETWEEN $2 AND NULL "
          ++ "AND LOWER(\x22t\x22.\x22c\x22) = LOWER($3)"
      ∧ template.fill (fun _ v => v.inline) 1
        = "SELECT * FROM \x22t\x22 WHERE a > 0 AND \x22t\x22.\x22b\x22 BETWEEN \x27it\x27\x27s\x27 "
          ++ "AND NULL AND LOWER(\x22t\x22.\x22c\x22) = LOWER(-3)" := by
  have hunbound : threeValues.Unbound := by
    intro n hn sql binds hform
    have hparts : ∀ n ∈ threeValues.visited, n.collect.length = 0 ∨ n.variant ≠ "Raw" := by decide
    rcases hparts n hn with hnone | hother
    · obtain ⟨form⟩ := n
      obtain rfl : form = .raw sql binds := hform
      rw [Node.collect_mk] at hnone
      exact (List.append_eq_nil_iff.mp (List.length_eq_zero_iff.mp hnone)).1
    · refine absurd ?_ hother
      rw [Node.variant, hform]
      rfl
  have hplaceholders : (Session.mk ⟨.postgres, .oneLine, true⟩ [.null]).render threeValues
      = .ok ("SELECT * FROM \x22t\x22 WHERE a > 0 AND \x22t\x22.\x22b\x22 BETWEEN $2 AND NULL "
        ++ "AND LOWER(\x22t\x22.\x22c\x22) = LOWER($3)",
        ⟨⟨.postgres, .oneLine, true⟩, [.null, .text "it\x27s", .int (-3)]⟩) := rfl
  have hliterals : (Session.mk ⟨.postgres, .oneLine, false⟩ [.null]).render threeValues
      = .ok ("SELECT * FROM \x22t\x22 WHERE a > 0 AND \x22t\x22.\x22b\x22 BETWEEN "
        ++ "\x27it\x27\x27s\x27 AND NULL AND LOWER(\x22t\x22.\x22c\x22) = LOWER(-3)",
        ⟨⟨.postgres, .oneLine, false⟩, [.null]⟩) := rfl
  rcases render_template hunbound .postgres with ⟨misuse, h⟩ | ⟨template, -, hwith, hwithout, -⟩
  · rw [h] at hplaceholders
    cases hplaceholders
  · rw [hwith] at hplaceholders
    rw [hwithout] at hliterals
    simp only [Except.ok.injEq, Prod.mk.injEq, Session.mk.injEq, true_and, List.singleton_append,
      List.cons.injEq] at hplaceholders hliterals
    exact ⟨template, hplaceholders.2, hplaceholders.1, hliterals.1⟩

end Session
end SqlTree
