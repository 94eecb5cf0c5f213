import SqlTree.Draft
import SqlTree.Guard.TenantScope
import SqlTree.Proofs.Answers
import SqlTree.Proofs.ParameterTrace

/-!
# What an output remembers of its history

An output is used again and again, for statements that are written and for others that are not.
Nothing of that can be seen in the next statement:

* `Medium`, `Medium.fresh`, `Medium.holding` -- what an output is made for, with nothing on it and
  with one tree on it;
* `Output.Step`, `Output.Reached` -- one use of an output, and where any number of them leads;
* `Output.Step.medium_eq`, `Output.Reached.medium_eq` -- a use never changes what the output is
  made for, so no number of them does;
* `Output.present_of_medium` -- and presenting a tree depends on nothing else;
* `AnyDraft.write_of_refused`, `AnyDraft.write_of_blank` -- what is not written leaves no trace;
* `AnyDraft.write_of_reached` -- whatever an output went through, a draft is written to it as to a
  fresh one, or leaves it alone.
-/

namespace SqlTree

/-! ## 1. What outputs are made for -/

/-- What an output is made for: SQL text, written in one way, or drawings. -/
inductive Medium where
  | sql (renderer : Renderer)
  | drawing

namespace Medium

/-- An output with nothing on it. -/
def fresh : Medium → Output
  | .sql r => .sql ⟨r, []⟩
  | .drawing => .drawing {}

/-- An output with one tree on it: a session holds the values of the tree if it binds values, and
    a graph holds the drawing of the tree. -/
def holding (tree : Node) : Medium → Output
  | .sql r => .sql ⟨r, if r.parameterise then tree.collect else []⟩
  | .drawing => .drawing (Graph.ofNode tree)

end Medium

namespace Output

def medium : Output → Medium
  | .sql s => .sql s.renderer
  | .drawing _ => .drawing

theorem medium_fresh (m : Medium) : m.fresh.medium = m := by
  cases m <;> rfl

/-- Starting afresh keeps what the output is made for and nothing else. -/
theorem reset_eq (out : Output) : out.reset = out.medium.fresh := by
  cases out <;> rfl

/-- **Presenting a tree depends on the medium only.** -/
theorem present_of_medium {m : Medium} {out : Output} (h : out.medium = m) (tree : Node) :
    out.present tree = m.fresh.present tree := by
  unfold present
  rw [reset_eq, reset_eq, h, medium_fresh]

end Output

theorem Session.renderer_of_write {s s' : Session} {d : Doc} {text : String}
    (h : s.write d = .ok (text, s')) : s'.renderer = s.renderer := by
  unfold Session.write at h
  cases hf : d.fault? with
  | some misuse =>
    rw [hf] at h
    cases h
  | none =>
    rw [hf] at h
    obtain ⟨-, rfl⟩ := Prod.mk.inj (Except.ok.inj h)
    split <;> rfl

namespace Medium

variable {m : Medium} {tree : Node} {text : String} {out : Output}

/-- **What a fresh output holds behind a tree** that was rendered to it. -/
theorem holding_of_render (h : m.fresh.render tree = .ok (text, out)) : out = m.holding tree := by
  cases m with
  | sql r =>
    obtain ⟨⟨text', s'⟩, hrender, hout⟩ := exists_of_map_eq_ok h
    obtain ⟨-, -, rfl⟩ := Session.render_eq_ok_iff.mp hrender
    obtain ⟨-, rfl⟩ := Prod.mk.inj hout
    show Output.sql (if r.parameterise = true then _ else _) = Output.sql _
    cases hp : r.parameterise with
    | false => rfl
    | true => rfl
  | drawing =>
    obtain ⟨-, rfl⟩ := Prod.mk.inj (Except.ok.inj h)
    rfl

/-- Behind a fresh session the text and the values are those of a writing that pushes one value
    at a time and counts with a counter of its own. -/
theorem emit_of_render {r : Renderer} (h : (fresh (.sql r)).render tree = .ok (text, out)) :
    ∃ s, out = .sql s ∧ (tree.doc r.layout).emit r.spelling .fresh = (text, s.tally) := by
  obtain ⟨⟨text', s'⟩, hrender, hout⟩ := exists_of_map_eq_ok h
  obtain ⟨rfl, rfl⟩ := Prod.mk.inj hout
  exact ⟨s', rfl, (Session.render_collects hrender).2.2.2.1⟩

end Medium

/-! ## 2. Drafts of any kind -/

/-- A draft of one of the four kinds of statements. -/
inductive AnyDraft where
  | select (d : Draft (Select Node))
  | insert (d : Draft (Insert Node))
  | update (d : Draft (Update Node))
  | delete (d : Draft (Delete Node))

/-- Whether there is something to write: an UPDATE has to assign something. -/
def Statement.Writable : Statement → Prop
  | .update s => s.assignments ≠ []
  | _ => True

namespace Draft

variable {σ : Type} [Transformable σ] {d : Draft σ} {out : Output} {s : σ} {failure : Failure}

theorem write_of_error (h : d.pipeline.apply d.statement = .error failure) :
    d.write out = (.error failure, out) := by
  unfold write final
  rw [h]
  rfl

theorem final_of_ok (h : d.pipeline.apply d.statement = .ok s) :
    d.final = match Transformable.defect? s with
      | some failure => .error failure
      | none => .ok (Transformable.statement s).node := by
  unfold final
  rw [h]
  show (match Transformable.defect? s with
    | some failure => throw failure
    | none => return (Transformable.statement s).node) = _
  cases Transformable.defect? s <;> rfl

theorem write_of_defect (h : d.pipeline.apply d.statement = .ok s)
    (hs : Transformable.defect? s = some failure) : d.write out = (.error failure, out) := by
  unfold write
  rw [final_of_ok h, hs]

theorem write_of_sound (h : d.pipeline.apply d.statement = .ok s)
    (hs : Transformable.defect? s = none) :
    d.write out = out.present (Transformable.statement s).node := by
  unfold write
  rw [final_of_ok h, hs]

end Draft

namespace AnyDraft

/-- Writes a draft. -/
def write : AnyDraft → Output → Except Failure Rendered × Output
  | .select d => d.write
  | .insert d => d.write
  | .update d => d.write
  | .delete d => d.write

/-- What the transformers make of the statement. -/
def transformed : AnyDraft → Except Failure Statement
  | .select d => (d.pipeline.apply d.statement).map .select
  | .insert d => (d.pipeline.apply d.statement).map .insert
  | .update d => (d.pipeline.apply d.statement).map .update
  | .delete d => (d.pipeline.apply d.statement).map .delete

variable {d : AnyDraft} {out : Output} {failure : Failure}

/-- **A failure of a transformer leaves the output alone.** -/
theorem write_of_refused (h : d.transformed = .error failure) :
    d.write out = (.error failure, out) := by
  cases d with
  | select d => exact Draft.write_of_error (eq_error_of_map_eq_error h)
  | insert d => exact Draft.write_of_error (eq_error_of_map_eq_error h)
  | update d => exact Draft.write_of_error (eq_error_of_map_eq_error h)
  | delete d => exact Draft.write_of_error (eq_error_of_map_eq_error h)

/-- **So does an UPDATE that assigns nothing.** -/
theorem write_of_blank {s : Update Node} (h : d.transformed = .ok (.update s))
    (hs : s.assignments = []) :
    d.write out = (.error (.missingConfiguration "UPDATE without SET assignments"), out) := by
  cases d with
  | update d =>
    obtain ⟨s', hs', heq⟩ := exists_of_map_eq_ok h
    obtain rfl := Statement.update.inj heq
    refine Draft.write_of_defect hs' ?_
    show (if s'.assignments.isEmpty then _ else none) = _
    rw [hs]
    rfl
  | select d =>
    obtain ⟨_, _, heq⟩ := exists_of_map_eq_ok h
    cases heq
  | insert d =>
    obtain ⟨_, _, heq⟩ := exists_of_map_eq_ok h
    cases heq
  | delete d =>
    obtain ⟨_, _, heq⟩ := exists_of_map_eq_ok h
    cases heq

/-- Everything else is presented. -/
theorem write_of_writable {s : Statement} (h : d.transformed = .ok s) (hs : s.Writable) :
    d.write out = out.present s.node := by
  cases d with
  | select d =>
    obtain ⟨s', hs', rfl⟩ := exists_of_map_eq_ok h
    exact Draft.write_of_sound hs' rfl
  | insert d =>
    obtain ⟨s', hs', rfl⟩ := exists_of_map_eq_ok h
    exact Draft.write_of_sound hs' rfl
  | update d =>
    obtain ⟨s', hs', rfl⟩ := exists_of_map_eq_ok h
    refine Draft.write_of_sound hs' ?_
    show (if s'.assignments.isEmpty then _ else none) = none
    have hne : s'.assignments ≠ [] := hs
    rw [if_neg (fun hempty => hne (List.isEmpty_iff.mp hempty))]
  | delete d =>
    obtain ⟨s', hs', rfl⟩ := exists_of_map_eq_ok h
    exact Draft.write_of_sound hs' rfl

end AnyDraft

/-! ## 3. Uses of an output -/

namespace Output

/-- One use of an output that breaks no rule of a tree. A session writes texts, among them those
    of trees and of their parts, and takes values; a graph draws trees, with or without credits;
    and either may be started afresh, take a tree, or be what a draft is written to, successfully
    or not. -/
inductive Step : Output → Output → Prop where
  | text {s s' : Session} {d : Doc} {text : String} :
      s.write d = .ok (text, s') → Step (.sql s) (.sql s')
  | push (s : Session) (v : Value) : Step (.sql s) (.sql (s.push v))
  | visit (g : Graph) (tree : Node) : Step (.drawing g) (.drawing (g.visit tree).2)
  | credit (g : Graph) (tree : Node) (credits : List Attribution) :
      Step (.drawing g) (.drawing (Graph.ofAttributed tree credits))
  | reset (out : Output) : Step out out.reset
  | tree {out out' : Output} {tree : Node} {text : String} :
      out.render tree = .ok (text, out') → Step out out'
  | written {out out' : Output} {d : AnyDraft} {rendered : Rendered} :
      d.write out = (.ok rendered, out') → Step out out'
  | refused {out out' : Output} {d : AnyDraft} {failure : Failure} :
      d.write out = (.error failure, out') → (∀ fault, failure ≠ .misuse fault) → Step out out'

/-- Where any number of uses leads. -/
inductive Reached (start : Output) : Output → Prop where
  | start : Reached start start
  | step {out out' : Output} : Reached start out → Step out out' → Reached start out'

theorem medium_of_render {out out' : Output} {tree : Node} {text : String}
    (h : out.render tree = .ok (text, out')) : out'.medium = out.medium := by
  cases out with
  | sql s =>
    obtain ⟨⟨text', s'⟩, hrender, hout⟩ := exists_of_map_eq_ok h
    obtain ⟨-, rfl⟩ := Prod.mk.inj hout
    exact congrArg Medium.sql (Session.renderer_of_write hrender)
  | drawing g =>
    obtain ⟨-, rfl⟩ := Prod.mk.inj (Except.ok.inj h)
    rfl

theorem medium_present (out : Output) (tree : Node) : (out.present tree).2.medium = out.medium := by
  unfold present
  cases h : out.reset.render tree with
  | error fault =>
    show out.reset.medium = out.medium
    rw [reset_eq, medium_fresh]
  | ok pair =>
    obtain ⟨text, out'⟩ := pair
    show out'.medium = out.medium
    rw [medium_of_render h, reset_eq, medium_fresh]

theorem medium_write (d : AnyDraft) (out : Output) : (d.write out).2.medium = out.medium := by
  cases h : d.transformed with
  | error failure => rw [AnyDraft.write_of_refused h]
  | ok s =>
    by_cases hs : s.Writable
    · rw [AnyDraft.write_of_writable h hs, medium_present]
    · cases s with
      | update s => rw [AnyDraft.write_of_blank h (Classical.not_not.mp hs)]
      | select s => exact absurd trivial hs
      | insert s => exact absurd trivial hs
      | delete s => exact absurd trivial hs

/-- **A use keeps the medium**, the choice of placeholders in it. -/
theorem Step.medium_eq {out out' : Output} (h : Step out out') : out'.medium = out.medium := by
  cases h with
  | text hwrite => exact congrArg Medium.sql (Session.renderer_of_write hwrite)
  | push s v => rfl
  | visit g tree => rfl
  | credit g tree credits => rfl
  | reset => rw [reset_eq, medium_fresh]
  | tree hrender => exact medium_of_render hrender
  | written hwrite =>
    rw [← medium_write _ out, hwrite]
  | refused hwrite _ =>
    rw [← medium_write _ out, hwrite]

theorem Reached.medium_eq {start out : Output} (h : Reached start out) :
    out.medium = start.medium := by
  induction h with
  | start => rfl
  | step _ hstep ih => rw [hstep.medium_eq, ih]

end Output

/-! ## 4. Writing behind any history -/

namespace AnyDraft

/-- **Writing a draft behind any history.** Whatever a once fresh output went through, it is made
    for what it was made for. A draft whose transformers fail, and an UPDATE that they leave
    without assignments, are answered with that failure and leave the output as it is. Any other
    draft is written as to a fresh output: text and parameters are the same, and behind them the
    output holds what a fresh one would, which for SQL is what one writing with a counter of its
    own leaves and in particular nothing but the parameters of the statement. -/
theorem write_of_reached {m : Medium} {out : Output} (h : Output.Reached m.fresh out)
    (d : AnyDraft) :
    out.medium = m
      ∧ (∀ failure, d.transformed = .error failure → d.write out = (.error failure, out))
      ∧ (∀ s, d.transformed = .ok (.update s) → s.assignments = [] →
        d.write out = (.error (.missingConfiguration "UPDATE without SET assignments"), out))
      ∧ ∀ s, d.transformed = .ok s → s.Writable →
        d.write out = d.write m.fresh
          ∧ ∀ text out', m.fresh.render s.node = .ok (text, out') →
            d.write out = (.ok ⟨text, out'.params⟩, out')
              ∧ out' = m.holding s.node
              ∧ ∀ r, m = .sql r → ∃ session, out' = .sql session
                ∧ (s.node.doc r.layout).emit r.spelling .fresh = (text, session.tally) := by
  have hmedium : out.medium = m := h.medium_eq.trans (Output.medium_fresh m)
  refine ⟨hmedium, fun _ => write_of_refused, fun _ => write_of_blank, fun s hs hwritable => ?_⟩
  rw [write_of_writable hs hwritable, write_of_writable hs hwritable,
    Output.present_of_medium hmedium]
  refine ⟨rfl, fun text out' hrender => ⟨?_, Medium.holding_of_render hrender, ?_⟩⟩
  · unfold Output.present
    rw [Output.reset_eq, Output.medium_fresh, hrender]
  · rintro r rfl
    exact Medium.emit_of_render hrender

/-- A query that binds a value. -/
def lookup : AnyDraft := .select { statement := { wheres := [⟨.bind (.int 7)⟩] } }

/-- A query that needs a tenant and has none. -/
def tenantless : AnyDraft :=
  .select { statement := { source := some ⟨.table "users"⟩ },
            pipeline := [TenantScope.transformer {}] }

/-- An UPDATE without assignments. -/
def blank : AnyDraft := .update { statement := { target := ⟨.table "users"⟩ } }

/-- PostgreSQL text on several lines. -/
def postgresLines : Medium := .sql ⟨.postgres, .lines, true⟩

/-- A session for such text with two values. -/
def used : Output := .sql ⟨⟨.postgres, .lines, true⟩, [.text "a", .int 7]⟩

theorem reached_used : Output.Reached postgresLines.fresh used := by
  have hpush : Output.Step postgresLines.fresh
      (.sql ⟨⟨.postgres, .lines, true⟩, [.text "a"]⟩) := .push ⟨⟨.postgres, .lines, true⟩, []⟩ _
  have hrefused : Output.Step (.sql ⟨⟨.postgres, .lines, true⟩, [.text "a"]⟩)
      (.sql ⟨⟨.postgres, .lines, true⟩, [.text "a"]⟩) :=
    .refused (d := tenantless) rfl fun _ h => by cases h
  have htree : Output.Step (.sql ⟨⟨.postgres, .lines, true⟩, [.text "a"]⟩) used :=
    @Output.Step.tree _ _ ⟨.bind (.int 7)⟩ "$2" rfl
  exact .step (.step (.step .start hpush) hrefused) htree

/-- A session that took a value, refused a query and rendered a tree still refuses as before and
    writes as a fresh one. -/
theorem write_of_reached_used :
    Output.Reached postgresLines.fresh used
      ∧ tenantless.write used = (.error (.missingConfiguration
        "tenant scope on column \x27tenant_id\x27 has no tenant"), used)
      ∧ blank.write used
        = (.error (.missingConfiguration "UPDATE without SET assignments"), used)
      ∧ lookup.write used = (.ok ⟨"SELECT *\nWHERE $1", some [.int 7]⟩,
        .sql ⟨⟨.postgres, .lines, true⟩, [.int 7]⟩) := by
  obtain ⟨-, hrefused, -, -⟩ := write_of_reached reached_used tenantless
  obtain ⟨-, -, hblank, -⟩ := write_of_reached reached_used blank
  obtain ⟨-, -, -, hwritten⟩ := write_of_reached reached_used lookup
  obtain ⟨-, hlookup⟩ := hwritten _ rfl trivial
  exact ⟨reached_used, hrefused _ rfl, hblank _ rfl rfl, (hlookup _ _ rfl).1⟩

end AnyDraft

end SqlTree
