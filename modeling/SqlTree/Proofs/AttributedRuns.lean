import SqlTree.Guard.SoftDelete
import SqlTree.Guard.TenantScope
import SqlTree.Proofs.Answers

/-!
# What attributions credit

A pipeline runs over a SELECT in two ways, with attributions and without. Both ways are one run,
and when transformers only append, the stretches that they are credited with divide what was
appended:

* `Pipeline.Run` -- a run as the changes it consists of, apart from both functions;
* `Pipeline.applyAttributed_eq_ok_iff`, `Pipeline.map_fst_applyAttributed` -- the attributed run
  credits the changes of a run, one by one, and without its credits it is the plain run;
* `Pipeline.apply_append`, `Pipeline.applyAttributed_append` -- two pipelines behind each other;
* `Stretch.Tile` -- stretches that follow each other without gap or overlap;
* `Pipeline.Run.tile`, `Pipeline.Run.slice`, `Pipeline.Run.eq_append` -- the credits of appending
  changes tile what was appended, and each selects what its change appended;
* `Pipeline.applyAttributed_credits` -- all of this for any pipeline and any SELECT.
-/

namespace SqlTree

/-! ## 1. Stretches that follow each other -/

namespace Stretch

/-- Stretches from one position up to another, each beginning where the one before it ends. -/
def Tile : Nat → List Stretch → Nat → Prop
  | low, [], high => low = high
  | low, s :: rest, high => s.start = low ∧ low ≤ s.stop ∧ Tile s.stop rest high

variable {α : Type}

/-- What stands between two prefixes of a list is a slice of it. -/
theorem slice_of_prefixes {before appended items : List α} (h : before ++ appended <+: items) :
    slice ⟨before.length, (before ++ appended).length⟩ items = appended := by
  obtain ⟨rest, rfl⟩ := h
  unfold slice
  have hlen : (before ++ appended).length - before.length = appended.length := by
    rw [List.length_append]
    omega
  show ((before ++ appended ++ rest).drop before.length).take
    ((before ++ appended).length - before.length) = appended
  rw [hlen, List.append_assoc, List.drop_left, List.take_left]

/-- **The slices of a tiling are everything behind its beginning.** -/
theorem Tile.flatMap_slice {items : List α} {low : Nat} {stretches : List Stretch}
    (h : Tile low stretches items.length) :
    stretches.flatMap (slice · items) = items.drop low := by
  induction stretches generalizing low with
  | nil =>
    obtain rfl : low = items.length := h
    exact List.drop_length.symm
  | cons s rest ih =>
    obtain ⟨rfl, hle, hrest⟩ := h
    rw [List.flatMap_cons, ih hrest]
    show (items.drop s.start).take (s.stop - s.start) ++ items.drop s.stop = items.drop s.start
    have hstop : items.drop s.stop = (items.drop s.start).drop (s.stop - s.start) := by
      rw [List.drop_drop]
      congr 1
      omega
    rw [hstop, List.take_append_drop]

end Stretch

/-! ## 2. Runs and their changes -/

/-- What one transformer did to a SELECT. -/
structure Change where
  transformer : Transformer
  before : Select Node
  after : Select Node

namespace Change

/-- What the transformer is credited with for the change. -/
def credit (c : Change) : Attribution := Pipeline.attribution c.transformer c.before c.after

section Items

variable {α : Type} (items : Select Node → List α)

/-- The part of the credit that is about one list of the SELECT. -/
def stretch (c : Change) : Stretch :=
  ⟨(items c.before).length, max (items c.after).length (items c.before).length⟩

/-- The change keeps a list and appends to it. -/
def Grows (c : Change) : Prop := items c.before <+: items c.after

variable {items}

theorem stretch_of_grows {c : Change} (h : c.Grows items) :
    c.stretch items = ⟨(items c.before).length, (items c.after).length⟩ := by
  have hle : (items c.before).length ≤ (items c.after).length := h.length_le
  unfold stretch
  rw [Nat.max_eq_left hle]

end Items

end Change

namespace Pipeline

/-- A run over a SELECT: each transformer changes what the one before it left behind. -/
inductive Run : Select Node → List Change → Select Node → Prop where
  | done (s : Select Node) : Run s [] s
  | pass {t : Transformer} {s next last : Select Node} {changes : List Change} :
      t.select s = .ok next → Run next changes last → Run s (⟨t, s, next⟩ :: changes) last

/-- **The attributed run succeeds** exactly with what a run over all its transformers ends in, and
    credits the changes of that run in order. -/
theorem applyAttributed_eq_ok_iff {p : Pipeline} {s last : Select Node}
    {credits : List Attribution} :
    p.applyAttributed s = .ok (last, credits) ↔
      ∃ changes, Run s changes last ∧ changes.map (·.transformer) = p
        ∧ changes.map Change.credit = credits := by
  induction p generalizing s credits with
  | nil =>
    constructor
    · intro h
      obtain ⟨rfl, rfl⟩ := Prod.mk.inj (Except.ok.inj h)
      exact ⟨[], .done s, rfl, rfl⟩
    · rintro ⟨changes, hrun, hp, rfl⟩
      cases hrun with
      | done => rfl
      | pass => cases hp
  | cons t rest ih =>
    rw [applyAttributed]
    constructor
    · intro h
      obtain ⟨next, hnext, h⟩ := exists_of_bind_eq_ok h
      obtain ⟨⟨last', later⟩, hlater, h⟩ := exists_of_bind_eq_ok h
      obtain ⟨rfl, rfl⟩ := Prod.mk.inj (Except.ok.inj h)
      obtain ⟨changes, hrun, hp, rfl⟩ := ih.mp hlater
      exact ⟨⟨t, s, next⟩ :: changes, .pass hnext hrun, congrArg (t :: ·) hp, rfl⟩
    · rintro ⟨changes, hrun, hp, rfl⟩
      cases hrun with
      | done => cases hp
      | pass hnext hrun =>
        obtain ⟨rfl, hrest⟩ := List.cons.inj hp
        rw [hnext]
        show applyAttributed rest _ >>= _ = _
        rw [ih.mpr ⟨_, hrun, hrest, rfl⟩]
        rfl

/-- **Without its credits the attributed run is the plain run**, failures included. -/
theorem map_fst_applyAttributed (p : Pipeline) (s : Select Node) :
    (p.applyAttributed s).map Prod.fst = p.apply s := by
  induction p generalizing s with
  | nil => rfl
  | cons t rest ih =>
    show _ = t.select s >>= Pipeline.apply rest
    rw [applyAttributed]
    -- both runs stop at the first failure, before either looks at what comes after
    cases t.select s with
    | error failure => rfl
    | ok next =>
      show _ = Pipeline.apply rest next
      rw [← ih next]
      show (applyAttributed rest next >>= _).map Prod.fst = _
      cases applyAttributed rest next <;> rfl

theorem applyAttributed_eq_error_iff {p : Pipeline} {s : Select Node} {failure : Failure} :
    p.applyAttributed s = .error failure ↔ p.apply s = .error failure := by
  rw [← map_fst_applyAttributed]
  cases p.applyAttributed s with
  | error f =>
    show Except.error f = Except.error failure ↔ Except.error f = Except.error failure
    rw [Except.error.injEq, Except.error.injEq]
  | ok pair => exact iff_of_false (fun h => by cases h) (fun h => by cases h)

theorem exists_applyAttributed_iff {p : Pipeline} {s last : Select Node} :
    (∃ credits, p.applyAttributed s = .ok (last, credits)) ↔ p.apply s = .ok last := by
  rw [← map_fst_applyAttributed]
  constructor
  · rintro ⟨credits, h⟩
    rw [h]
    rfl
  · intro h
    obtain ⟨⟨last', credits⟩, hpair, rfl⟩ := exists_of_map_eq_ok h
    exact ⟨credits, hpair⟩

/-! ## 3. Two pipelines behind each other -/

theorem apply_append {σ : Type} [Transformable σ] (p q : Pipeline) (s : σ) :
    (p ++ q).apply s = p.apply s >>= q.apply := List.foldlM_append

/-- The attributions of the second pipeline come behind those of the first. -/
theorem applyAttributed_append (p q : Pipeline) (s : Select Node) :
    (p ++ q).applyAttributed s = do
      let (middle, front) ← p.applyAttributed s
      let (last, back) ← q.applyAttributed middle
      return (last, front ++ back) := by
  induction p generalizing s with
  | nil =>
    show q.applyAttributed s = q.applyAttributed s >>= _
    cases q.applyAttributed s <;> rfl
  | cons t rest ih =>
    show applyAttributed (t :: (rest ++ q)) s = _
    rw [applyAttributed, applyAttributed]
    cases t.select s with
    | error failure => rfl
    | ok next =>
      show applyAttributed (rest ++ q) next >>= _ = applyAttributed rest next >>= _ >>= _
      rw [ih next]
      cases applyAttributed rest next with
      | error failure => rfl
      | ok pair =>
        obtain ⟨middle, front⟩ := pair
        show applyAttributed q middle >>= _ >>= _ = applyAttributed q middle >>= _
        cases applyAttributed q middle <;> rfl

/-! ## 4. What appending changes are credited with -/

section Items

variable {α : Type} {items : Select Node → List α} {s last : Select Node} {changes : List Change}

theorem Run.keeps (h : Run s changes last) (hc : ∀ c ∈ changes, c.Grows items) :
    items s <+: items last := by
  induction h with
  | done => exact List.prefix_rfl
  | pass _ _ ih =>
    obtain ⟨hfirst, hrest⟩ := List.forall_mem_cons.mp hc
    exact hfirst.trans (ih hrest)

/-- **Credits of appending changes tile** what the run appended. -/
theorem Run.tile (h : Run s changes last) (hc : ∀ c ∈ changes, c.Grows items) :
    Stretch.Tile (items s).length (changes.map (Change.stretch items)) (items last).length := by
  induction h with
  | done => rfl
  | pass _ _ ih =>
    obtain ⟨hfirst, hrest⟩ := List.forall_mem_cons.mp hc
    rw [List.map_cons, Change.stretch_of_grows hfirst]
    exact ⟨rfl, hfirst.length_le, ih hrest⟩

/-- **A credit selects what its change appended**, also among the items of the last SELECT. -/
theorem Run.slice (h : Run s changes last) (hc : ∀ c ∈ changes, c.Grows items) :
    ∀ c ∈ changes, items c.after = items c.before ++ (c.stretch items).slice (items last) := by
  induction h with
  | done => exact fun c hmem => by cases hmem
  | pass _ hrun ih =>
    obtain ⟨hfirst, hrest⟩ := List.forall_mem_cons.mp hc
    refine List.forall_mem_cons.mpr ⟨?_, ih hrest⟩
    obtain ⟨appended, happended⟩ := hfirst
    -- what comes later leaves this change's items in place, so they are still where it put them
    have hlast := hrun.keeps hrest
    rw [Change.stretch_of_grows ⟨appended, happended⟩]
    show items _ = items _ ++ Stretch.slice ⟨_, _⟩ _
    dsimp only at happended hlast ⊢
    rw [← happended] at hlast ⊢
    rw [Stretch.slice_of_prefixes hlast]

/-- **Nothing that was appended is left over.** -/
theorem Run.eq_append (h : Run s changes last) (hc : ∀ c ∈ changes, c.Grows items) :
    items last
      = items s ++ (changes.map (Change.stretch items)).flatMap (·.slice (items last)) := by
  rw [(h.tile hc).flatMap_slice]
  obtain ⟨appended, happended⟩ := h.keeps hc
  rw [← happended, List.drop_left]

end Items

end Pipeline

/-! ## 5. Transformers that append -/

/-- A transformer leaves the WHERE items and the joins of a SELECT where they are and only puts
    more behind them. -/
def Transformer.Appends (t : Transformer) : Prop :=
  ∀ s s', t.select s = .ok s' → s.wheres <+: s'.wheres ∧ s.joins <+: s'.joins

theorem Guard.appends_transformer (g : Guard) (name : String) : (g.transformer name).Appends := by
  intro s s' h
  have hguard : g.select s = .ok s' := h
  obtain ⟨new, -, hnew⟩ := exists_of_bind_eq_ok hguard
  obtain rfl := Except.ok.inj hnew
  exact ⟨List.prefix_append _ _, List.prefix_rfl⟩

theorem Pipeline.Run.grows {s last : Select Node} {changes : List Change}
    (h : Run s changes last) (ht : ∀ c ∈ changes, c.transformer.Appends) :
    ∀ c ∈ changes, c.Grows Select.wheres ∧ c.Grows Select.joins := by
  induction h with
  | done => exact fun c hmem => by cases hmem
  | pass hnext _ ih =>
    obtain ⟨hfirst, hrest⟩ := List.forall_mem_cons.mp ht
    exact List.forall_mem_cons.mpr ⟨hfirst _ _ hnext, ih hrest⟩

/-! ## 6. Any pipeline and any SELECT -/

namespace Pipeline

/-- **What an attributed run answers.** It fails exactly when the plain run does and with the same
    failure, and otherwise it ends in the same SELECT. Two pipelines behind each other are one
    pipeline, for every kind of statement, and their attributions stand behind each other. A run
    that succeeds credits its changes one by one, under the names of the transformers. If all of
    them append, their stretches follow each other from the end of the former list to the end of
    the last one, and each selects from the last SELECT what its transformer appended: there is
    nothing else behind the former list. -/
theorem applyAttributed_credits (p q : Pipeline) (s : Select Node) :
    (∀ failure, p.applyAttributed s = .error failure ↔ p.apply s = .error failure)
      ∧ (∀ last, (∃ credits, p.applyAttributed s = .ok (last, credits)) ↔ p.apply s = .ok last)
      ∧ (∀ (σ : Type) [Transformable σ] (x : σ), (p ++ q).apply x = p.apply x >>= q.apply)
      ∧ ((p ++ q).applyAttributed s = do
        let (middle, front) ← p.applyAttributed s
        let (last, back) ← q.applyAttributed middle
        return (last, front ++ back))
      ∧ ∀ last credits, p.applyAttributed s = .ok (last, credits) →
        credits.map (·.name) = p.names
          ∧ ∃ changes, Run s changes last ∧ changes.map (·.transformer) = p
            ∧ credits = changes.map Change.credit
            ∧ ((∀ t ∈ p, t.Appends) →
              Stretch.Tile s.wheres.length (credits.map (·.wheres)) last.wheres.length
              ∧ Stretch.Tile s.joins.length (credits.map (·.joins)) last.joins.length
              ∧ (∀ c ∈ changes,
                c.after.wheres = c.before.wheres ++ c.credit.wheres.slice last.wheres
                ∧ c.after.joins = c.before.joins ++ c.credit.joins.slice last.joins)
              ∧ last.wheres = s.wheres
                ++ (credits.map (·.wheres)).flatMap (·.slice last.wheres)
              ∧ last.joins = s.joins ++ (credits.map (·.joins)).flatMap (·.slice last.joins)) := by
  refine ⟨fun failure => applyAttributed_eq_error_iff, fun last => exists_applyAttributed_iff,
    fun σ _ x => apply_append p q x, applyAttributed_append p q s, fun last credits h => ?_⟩
  obtain ⟨changes, hrun, hp, rfl⟩ := applyAttributed_eq_ok_iff.mp h
  refine ⟨?_, changes, hrun, hp, rfl, fun happends => ?_⟩
  · rw [← hp]
    unfold names
    rw [List.map_map, List.map_map]
    rfl
  · have hgrows := hrun.grows fun c hc =>
      happends c.transformer (hp ▸ List.mem_map_of_mem hc)
    have hwheres : ∀ c ∈ changes, c.Grows Select.wheres := fun c hc => (hgrows c hc).1
    have hjoins : ∀ c ∈ changes, c.Grows Select.joins := fun c hc => (hgrows c hc).2
    rw [List.map_map, List.map_map]
    exact ⟨hrun.tile hwheres, hrun.tile hjoins,
      fun c hc => ⟨hrun.slice hwheres c hc, hrun.slice hjoins c hc⟩,
      hrun.eq_append hwheres, hrun.eq_append hjoins⟩

/-- A transformer that joins orders. -/
def joiningOrders : Transformer where
  name := "orders"
  select s := .ok { s with joins := s.joins ++ [{ kind := .cross, right := ⟨.table "orders"⟩ }] }

/-- It makes soft deletion cover the orders too. -/
def joinedAndSpared : Pipeline := [joiningOrders, SoftDelete.transformer {}]

/-- Users with a predicate of their own. -/
def activeUsers : Select Node where
  source := some ⟨.table "users"⟩
  wheres := [⟨.raw "active" []⟩]

/-- The join is credited to the first transformer, both predicates to the second. Behind them a
    tenant scope without a tenant fails, in either way of running it. -/
theorem applyAttributed_activeUsers :
    (∀ t ∈ joinedAndSpared, t.Appends)
      ∧ ∃ last, joinedAndSpared.apply activeUsers = .ok last
        ∧ joinedAndSpared.applyAttributed activeUsers = .ok (last,
          [⟨"orders", ⟨1, 1⟩, ⟨0, 1⟩⟩, ⟨"soft_delete", ⟨1, 3⟩, ⟨1, 1⟩⟩])
        ∧ Stretch.Tile 1 [⟨1, 1⟩, ⟨1, 3⟩] last.wheres.length
        ∧ Stretch.Tile 0 [⟨0, 1⟩, ⟨1, 1⟩] last.joins.length
        ∧ (joinedAndSpared ++ [TenantScope.transformer {}]).applyAttributed activeUsers
          = .error (.missingConfiguration
            "tenant scope on column \x27tenant_id\x27 has no tenant") := by
  have happends : ∀ t ∈ joinedAndSpared, t.Appends := by
    refine List.forall_mem_cons.mpr ⟨fun s s' h => ?_, List.forall_mem_singleton.mpr ?_⟩
    · obtain rfl := Except.ok.inj h
      exact ⟨List.prefix_rfl, List.prefix_append _ _⟩
    · exact Guard.appends_transformer _ _
  have hrun : ∃ last, joinedAndSpared.applyAttributed activeUsers = .ok (last,
      [⟨"orders", ⟨1, 1⟩, ⟨0, 1⟩⟩, ⟨"soft_delete", ⟨1, 3⟩, ⟨1, 1⟩⟩]) := ⟨_, rfl⟩
  obtain ⟨last, hlast⟩ := hrun
  obtain ⟨-, hplain, -, -, hcredits⟩ := applyAttributed_credits joinedAndSpared [] activeUsers
  obtain ⟨-, _, -, -, -, htile⟩ := hcredits _ _ hlast
  obtain ⟨hwheres, hjoins, -⟩ := htile happends
  exact ⟨happends, last, (hplain last).mp ⟨_, hlast⟩, hlast, hwheres, hjoins, rfl⟩

end Pipeline

end SqlTree
