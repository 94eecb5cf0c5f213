import SqlTree.Proofs.Substitution

/-!
# One script for all dialects

Dialects quote names, write values and spell comparisons in their own ways, and nothing else. So
the text of a tree is one script for all of them, and where no comparison depends on the dialect,
the texts differ in quotation marks and placeholders only.

* `Script` -- fixed text, names, values and comparisons in order, and `Script.write`, which writes
  them for given `Hooks`;
* `Doc.script`, `Spelling.spell_eq_write` -- the script of a text, which every spelling writes;
* `Script.write_of_compare` -- hooks matter only for the comparisons that a script has;
* `Node.ComparesAlike`, `Dialect.compare_eq_spaced` -- comparisons that all dialects spell alike;
* `Session.render_script` -- the renderings of a tree in all dialects, side by side.
-/

namespace SqlTree

/-! ## 1. Scripts -/

/-- What is left to a dialect: how a name is quoted, how the value at a position is written, and
    how a comparison of two written operands is spelled. -/
structure Hooks where
  quote : String → String
  value : Nat → Value → String
  compare : ComparisonOp → String → String → String

/-- A sequence of items. A comparison has a script for each operand, and text whose lines are
    moved to the right has a script of its own. -/
inductive Script where
  | done
  | fixed (s : String) (rest : Script)
  | name (s : String) (rest : Script)
  | value (position : Nat) (v : Value) (rest : Script)
  | comparison (op : ComparisonOp) (left right rest : Script)
  | moved (body rest : Script)

namespace Script

/-- A script as text. -/
def write (hooks : Hooks) : Script → String
  | done => ""
  | fixed s rest => s ++ rest.write hooks
  | name s rest => hooks.quote s ++ rest.write hooks
  | value position v rest => hooks.value position v ++ rest.write hooks
  | comparison op left right rest =>
    hooks.compare op (left.write hooks) (right.write hooks) ++ rest.write hooks
  | moved body rest => Text.indent (body.write hooks) ++ rest.write hooks

/-- A script behind another one. -/
def append : Script → Script → Script
  | done, t => t
  | fixed s rest, t => fixed s (rest.append t)
  | name s rest, t => name s (rest.append t)
  | value position v rest, t => value position v (rest.append t)
  | comparison op left right rest, t => comparison op left right (rest.append t)
  | moved body rest, t => moved body (rest.append t)

instance : Append Script := ⟨append⟩

/-- The comparisons of a script, those inside operands among them. -/
def comparisons : Script → List ComparisonOp
  | done => []
  | fixed _ rest => rest.comparisons
  | name _ rest => rest.comparisons
  | value _ _ rest => rest.comparisons
  | comparison op left right rest =>
    op :: (left.comparisons ++ right.comparisons ++ rest.comparisons)
  | moved body rest => body.comparisons ++ rest.comparisons

/-- No lines of a script are moved. -/
def Unmoved : Script → Prop
  | done => True
  | fixed _ rest => rest.Unmoved
  | name _ rest => rest.Unmoved
  | value _ _ rest => rest.Unmoved
  | comparison _ left right rest => left.Unmoved ∧ right.Unmoved ∧ rest.Unmoved
  | moved _ _ => False

variable {hooks : Hooks}

/-- **Scripts behind each other are written behind each other.** -/
theorem write_append (s t : Script) : (s ++ t).write hooks = s.write hooks ++ t.write hooks := by
  induction s with
  | done => exact String.empty_append.symm
  | fixed s rest ih =>
    show s ++ (rest ++ t).write hooks = s ++ rest.write hooks ++ t.write hooks
    rw [ih, String.append_assoc]
  | name s rest ih =>
    show hooks.quote s ++ (rest ++ t).write hooks
      = hooks.quote s ++ rest.write hooks ++ t.write hooks
    rw [ih, String.append_assoc]
  | value position v rest ih =>
    show hooks.value position v ++ (rest ++ t).write hooks
      = hooks.value position v ++ rest.write hooks ++ t.write hooks
    rw [ih, String.append_assoc]
  | comparison op l r rest _ _ ih =>
    show hooks.compare op (l.write hooks) (r.write hooks) ++ (rest ++ t).write hooks
      = hooks.compare op (l.write hooks) (r.write hooks) ++ rest.write hooks ++ t.write hooks
    rw [ih, String.append_assoc]
  | moved body rest _ ih =>
    show Text.indent (body.write hooks) ++ (rest ++ t).write hooks
      = Text.indent (body.write hooks) ++ rest.write hooks ++ t.write hooks
    rw [ih, String.append_assoc]

theorem comparisons_append (s t : Script) :
    (s ++ t).comparisons = s.comparisons ++ t.comparisons := by
  induction s with
  | done => rfl
  | fixed s rest ih => exact ih
  | name s rest ih => exact ih
  | value position v rest ih => exact ih
  | comparison op l r rest _ _ ih =>
    show op :: (l.comparisons ++ r.comparisons ++ (rest ++ t).comparisons)
      = op :: (l.comparisons ++ r.comparisons ++ rest.comparisons) ++ t.comparisons
    rw [ih, List.cons_append, List.append_assoc (l.comparisons ++ r.comparisons)]
  | moved body rest _ ih =>
    show body.comparisons ++ (rest ++ t).comparisons
      = body.comparisons ++ rest.comparisons ++ t.comparisons
    rw [ih, List.append_assoc]

theorem Unmoved.append {s t : Script} (hs : s.Unmoved) (ht : t.Unmoved) : (s ++ t).Unmoved := by
  induction s with
  | done => exact ht
  | fixed s rest ih => exact ih hs
  | name s rest ih => exact ih hs
  | value position v rest ih => exact ih hs
  | comparison op l r rest _ _ ih => exact ⟨hs.1, hs.2.1, ih hs.2.2⟩
  | moved body rest _ _ => exact hs.elim

/-- **Only the comparisons that a script has matter** for how it is written. -/
theorem write_of_compare {compare : ComparisonOp → String → String → String} {s : Script}
    (h : ∀ op ∈ s.comparisons, ∀ l r, hooks.compare op l r = compare op l r) :
    s.write hooks = s.write { hooks with compare := compare } := by
  induction s with
  | done => rfl
  | fixed s rest ih =>
    show s ++ rest.write hooks = s ++ _
    rw [ih h]
  | name s rest ih =>
    show hooks.quote s ++ rest.write hooks = hooks.quote s ++ _
    rw [ih h]
  | value position v rest ih =>
    show hooks.value position v ++ rest.write hooks = hooks.value position v ++ _
    rw [ih h]
  | comparison op l r rest ihl ihr ih =>
    obtain ⟨hop, hbelow⟩ := List.forall_mem_cons.mp h
    obtain ⟨hoperands, hrest⟩ := List.forall_mem_append.mp hbelow
    obtain ⟨hl, hr⟩ := List.forall_mem_append.mp hoperands
    show hooks.compare op (l.write hooks) (r.write hooks) ++ rest.write hooks = compare op _ _ ++ _
    rw [hop, ihl hl, ihr hr, ih hrest]
  | moved body rest ihb ih =>
    obtain ⟨hbody, hrest⟩ := List.forall_mem_append.mp h
    show Text.indent (body.write hooks) ++ rest.write hooks = Text.indent _ ++ _
    rw [ihb hbody, ih hrest]

end Script

/-! ## 2. The script of a text -/

/-- What a spelling leaves to its dialect and to the parameters before it. -/
def Spelling.hooks (how : Spelling) (bound : Nat) : Hooks where
  quote := how.dialect.quote
  value position v := how.slot (bound + position) v
  compare := how.dialect.compare

namespace Doc

/-- The script of a text, some of whose parameters stand before it. -/
def script : Doc → Nat → Script
  | .text s, _ => .fixed s .done
  | .name s, _ => .name s .done
  | .bare _ s, _ => .fixed s .done
  | .value v, bound => if v.isNull then .fixed "NULL" .done else .value bound v .done
  | .raw sql _, _ => .fixed sql .done
  | .comment mark s, _ => .fixed (mark ++ " " ++ Text.sanitizeComment s ++ " */") .done
  | .comparison op left right, bound =>
    .comparison op (left.script bound) (right.script (bound + left.slots)) .done
  | .paren body, bound => .fixed "(" (body.script bound ++ .fixed ")" .done)
  | .indented body, bound => .moved (body.script bound) .done
  | .append left right, bound => left.script bound ++ right.script (bound + left.slots)

/-- The comparisons of a text are noted from left to right. -/
def comparisonSurvey : Survey ComparisonOp where
  bare _ _ := []
  value _ := []
  raw _ _ := []
  comparison op := [op]

theorem comparisons_script (d : Doc) (bound : Nat) :
    (d.script bound).comparisons = d.survey comparisonSurvey := by
  induction d generalizing bound with
  | value v =>
    unfold script
    cases v.isNull <;> rfl
  | comparison op l r ihl ihr =>
    show op :: ((l.script bound).comparisons ++ (r.script _).comparisons ++ [])
      = op :: (l.survey comparisonSurvey ++ r.survey comparisonSurvey)
    rw [ihl, ihr, List.append_nil]
  | paren body ih =>
    show (body.script bound ++ Script.fixed ")" .done).comparisons = body.survey comparisonSurvey
    rw [Script.comparisons_append, ih]
    exact List.append_nil _
  | indented body ih =>
    show (body.script bound).comparisons ++ [] = body.survey comparisonSurvey
    rw [ih, List.append_nil]
  | append l r ihl ihr =>
    show (l.script bound ++ r.script _).comparisons = _
    rw [Script.comparisons_append, ihl, ihr]
    rfl
  | _ => rfl

theorem Flat.unmoved {d : Doc} (h : d.Flat) (bound : Nat) : (d.script bound).Unmoved := by
  induction d generalizing bound with
  | value v =>
    unfold script
    cases v.isNull <;> exact trivial
  | comparison op l r ihl ihr => exact ⟨ihl h.1 _, ihr h.2 _, trivial⟩
  | paren body ih =>
    have hclose : (Script.fixed ")" .done).Unmoved := trivial
    exact (ih h bound).append hclose
  | indented body ih => exact h.elim
  | append l r ihl ihr => exact (ihl h.1 _).append (ihr h.2 _)
  | _ => exact trivial

end Doc

/-- **Every spelling of a text writes its script.** -/
theorem Spelling.spell_eq_write (how : Spelling) (d : Doc) (bound start : Nat) :
    how.spell d (bound + start) = (d.script start).write (how.hooks bound) := by
  -- positions count from the start of the whole text, so `start` moves and `bound` stays
  induction d generalizing start with
  | value v =>
    unfold spell value Doc.script
    cases v.isNull with
    | true => rfl
    | false => exact String.append_empty.symm
  | comparison op l r ihl ihr =>
    show how.dialect.compare op (how.spell l (bound + start))
        (how.spell r (bound + start + l.slots))
      = how.dialect.compare op ((l.script start).write _) ((r.script (start + l.slots)).write _)
        ++ ""
    rw [ihl, Nat.add_assoc, ihr, String.append_empty]
  | paren body ih =>
    show "(" ++ how.spell body (bound + start) ++ ")"
      = "(" ++ (body.script start ++ Script.fixed ")" .done).write (how.hooks bound)
    rw [ih, Script.write_append, String.append_assoc]
    rfl
  | indented body ih =>
    show Text.indent (how.spell body (bound + start)) = Text.indent _ ++ ""
    rw [ih, String.append_empty]
  | append l r ihl ihr =>
    show how.spell l (bound + start) ++ how.spell r (bound + start + l.slots)
      = (l.script start ++ r.script (start + l.slots)).write (how.hooks bound)
    rw [ihl, Nat.add_assoc, ihr, Script.write_append]
  | _ => exact String.append_empty.symm

/-! ## 3. Comparisons that all dialects spell alike -/

namespace ComparisonOp

/-- The comparisons that each dialect spells in its own way. -/
def ofDialects : List ComparisonOp :=
  [.regexMatch, .regexNotMatch, .caseSensitiveEq, .caseInsensitiveEq]

/-- The operands with the word between them. -/
def spaced (op : ComparisonOp) (left right : String) : String :=
  left ++ " " ++ op.word ++ " " ++ right

end ComparisonOp

theorem Dialect.compare_eq_spaced {op : ComparisonOp} (h : op ∉ ComparisonOp.ofDialects)
    (dialect : Dialect) (left right : String) :
    dialect.compare op left right = op.spaced left right := by
  cases op with
  | regexMatch => exact absurd (by decide) h
  | regexNotMatch => exact absurd (by decide) h
  | caseSensitiveEq => exact absurd (by decide) h
  | caseInsensitiveEq => exact absurd (by decide) h
  | _ => cases dialect <;> rfl

namespace Node

/-- No comparison in the text of a tree is one that dialects spell in their own ways. -/
def ComparesAlike (t : Node) : Prop :=
  ∀ n ∈ t.visited, ∀ left op right, n.form = .comparison left op right →
    op ∉ ComparisonOp.ofDialects

/-- The comparisons in the script of a tree are those of its visited nodes. -/
theorem exists_of_mem_comparisons {t : Node} {layout : Layout} {bound : Nat} {op : ComparisonOp}
    (h : op ∈ ((t.doc layout).script bound).comparisons) :
    ∃ n ∈ t.visited, ∃ left right, n.form = .comparison left op right := by
  rw [Doc.comparisons_script, survey_doc] at h
  obtain ⟨⟨form⟩, hn, hop⟩ := List.mem_flatMap.mp h
  cases form with
  | comparison left op' right =>
    obtain rfl : op = op' := List.mem_singleton.mp hop
    exact ⟨_, hn, left, right, rfl⟩
  | cast v typeName => exact absurd hop List.not_mem_nil
  | _ => cases hop

theorem ComparesAlike.spaced {t : Node} (h : t.ComparesAlike) {layout : Layout} {bound : Nat} :
    ∀ op ∈ ((t.doc layout).script bound).comparisons, op ∉ ComparisonOp.ofDialects := by
  intro op hop
  obtain ⟨n, hn, left, right, hform⟩ := exists_of_mem_comparisons hop
  exact h n hn left op right hform

end Node

/-! ## 4. All dialects side by side -/

namespace Session

/-- A rendering that is not refused, and its text. -/
def Writes (s : Session) (t : Node) (text : String) : Prop := ∃ s', s.render t = .ok (text, s')

theorem Writes.unique {s : Session} {t : Node} {text text' : String} (h : s.Writes t text)
    (h' : s.Writes t text') : text = text' := by
  obtain ⟨_, hrender⟩ := h
  obtain ⟨_, hrender'⟩ := h'
  rw [hrender] at hrender'
  exact (Prod.mk.inj (Except.ok.inj hrender')).1

/-- **The renderings of a tree in all dialects.** They are all refused for the same misuse; or the
    tree has one script, in which nothing is moved if it stands on one line. Each dialect writes it
    with its own quotes, with its placeholders for the positions behind the former parameters or
    with literals, and with comparisons that it spells from the two operands as they are written.
    If the dialects spell all comparisons of the tree alike, PostgreSQL and SQLite write the same
    text with literals; with placeholders the text for SQLite is that for PostgreSQL with a question
    mark for each placeholder; and in either mode the text for MySQL is that for SQLite with
    backticks around names. -/
theorem render_script (t : Node) (layout : Layout) :
    (∃ misuse, ∀ dialect parameterise params,
        (Session.mk ⟨dialect, layout, parameterise⟩ params).render t = .error misuse)
      ∨ ∃ script : Script,
        (∀ dialect parameterise params,
          (Session.mk ⟨dialect, layout, parameterise⟩ params).Writes t
            (script.write
              { quote := dialect.quote
                value := fun position v =>
                  if parameterise then dialect.placeholder (params.length + position + 1)
                  else v.inline
                compare := dialect.compare }))
        ∧ (layout = .oneLine → script.Unmoved)
        ∧ (t.ComparesAlike → ∀ params,
          (Session.mk ⟨.postgres, layout, false⟩ params).Writes t (script.write
            ⟨Text.quote '\x22', fun _ v => v.inline, ComparisonOp.spaced⟩)
          ∧ (Session.mk ⟨.sqlite, layout, false⟩ params).Writes t (script.write
            ⟨Text.quote '\x22', fun _ v => v.inline, ComparisonOp.spaced⟩)
          ∧ (Session.mk ⟨.mysql, layout, false⟩ params).Writes t (script.write
            ⟨Text.quote '\x60', fun _ v => v.inline, ComparisonOp.spaced⟩)
          ∧ (Session.mk ⟨.postgres, layout, true⟩ params).Writes t (script.write
            ⟨Text.quote '\x22', fun position _ => "$" ++ toString (params.length + position + 1),
              ComparisonOp.spaced⟩)
          ∧ (Session.mk ⟨.sqlite, layout, true⟩ params).Writes t (script.write
            ⟨Text.quote '\x22', fun _ _ => "?", ComparisonOp.spaced⟩)
          ∧ (Session.mk ⟨.mysql, layout, true⟩ params).Writes t (script.write
            ⟨Text.quote '\x60', fun _ _ => "?", ComparisonOp.spaced⟩)) := by
  cases hfault : (t.doc layout).fault? with
  | some misuse =>
    exact .inl ⟨misuse, fun dialect parameterise params => render_eq_error_iff.mpr hfault⟩
  | none =>
    have hwrites : ∀ dialect parameterise params,
        (Session.mk ⟨dialect, layout, parameterise⟩ params).Writes t
          (((t.doc layout).script 0).write ((Spelling.mk dialect parameterise).hooks
            params.length)) := by
      intro dialect parameterise params
      have hspell := Spelling.spell_eq_write ⟨dialect, parameterise⟩ (t.doc layout) params.length 0
      exact ⟨_, render_eq_ok_iff.mpr ⟨hfault, hspell.symm, rfl⟩⟩
    have hunmoved : layout = .oneLine → ((t.doc layout).script 0).Unmoved := by
      rintro rfl
      exact (t.spaced_doc .oneLine).flat.unmoved 0
    refine .inr ⟨(t.doc layout).script 0, hwrites, hunmoved, fun halike => ?_⟩
    have hspaced : ∀ dialect parameterise params,
        (Session.mk ⟨dialect, layout, parameterise⟩ params).Writes t
          (((t.doc layout).script 0).write
            { (Spelling.mk dialect parameterise).hooks params.length with
              compare := ComparisonOp.spaced }) := by
      intro dialect parameterise params
      rw [← Script.write_of_compare fun op hop =>
        Dialect.compare_eq_spaced (halike.spaced op hop) dialect]
      exact hwrites dialect parameterise params
    exact fun params => ⟨hspaced .postgres false params, hspaced .sqlite false params,
      hspaced .mysql false params, hspaced .postgres true params, hspaced .sqlite true params,
      hspaced .mysql true params⟩

/-- Two queries over a table with a quotation mark in its name, each with a value. -/
def markedUnion : Node :=
  let half (op : ComparisonOp) (v : Value) : Node :=
    ⟨.select { source := some ⟨.table "a\x60b"⟩
               wheres := [⟨.comparison ⟨.raw "x" []⟩ op ⟨.bind v⟩⟩] }⟩
  ⟨.setOperation { left := half .eq (.int 1), op := .union, right := half .lt (.int 2) }⟩

theorem comparesAlike_markedUnion : markedUnion.ComparesAlike := by
  have hops : ∀ n ∈ markedUnion.visited,
      ∀ op ∈ n.form.surveyed Doc.comparisonSurvey, op ∉ ComparisonOp.ofDialects := by decide
  intro n hn left op right hform
  refine hops n hn op ?_
  rw [hform]
  exact List.mem_singleton.mpr rfl

/-- The same script in three dialects, behind one parameter and over several lines. -/
theorem render_script_markedUnion :
    markedUnion.ComparesAlike ∧ ∃ script : Script,
      script.write ⟨Text.quote '\x22', fun position _ => "$" ++ toString (1 + position + 1),
          ComparisonOp.spaced⟩
        = "(\n\tSELECT *\n\tFROM \x22a\x60b\x22\n\tWHERE x = $2\n)\nUNION\n"
          ++ "(\n\tSELECT *\n\tFROM \x22a\x60b\x22\n\tWHERE x < $3\n)"
      ∧ script.write ⟨Text.quote '\x22', fun _ _ => "?", ComparisonOp.spaced⟩
        = "(\n\tSELECT *\n\tFROM \x22a\x60b\x22\n\tWHERE x = ?\n)\nUNION\n"
          ++ "(\n\tSELECT *\n\tFROM \x22a\x60b\x22\n\tWHERE x < ?\n)"
      ∧ script.write ⟨Text.quote '\x60', fun _ _ => "?", ComparisonOp.spaced⟩
        = "(\n\tSELECT *\n\tFROM \x60a\x60\x60b\x60\n\tWHERE x = ?\n)\nUNION\n"
          ++ "(\n\tSELECT *\n\tFROM \x60a\x60\x60b\x60\n\tWHERE x < ?\n)" := by
  refine ⟨comparesAlike_markedUnion, ?_⟩
  rcases render_script markedUnion .lines with ⟨misuse, hrefused⟩ | ⟨script, -, -, hscript⟩
  · have hrender := hrefused .postgres true []
    cases hrender
  · obtain ⟨-, -, -, hpostgres, hsqlite, hmysql⟩ :=
      hscript comparesAlike_markedUnion [.text "a"]
    exact ⟨script, hpostgres.unique ⟨_, rfl⟩, hsqlite.unique ⟨_, rfl⟩, hmysql.unique ⟨_, rfl⟩⟩

end Session

end SqlTree
