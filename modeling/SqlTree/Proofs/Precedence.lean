import Mathlib.Data.List.Forall2
import SqlTree.Proofs.Lexer

/-!
# Conditions and their precedence

A condition is read with the precedence of SQL: NOT before AND, AND before OR. This file says what
the tokens of a condition denote, and what becomes of several conditions with AND between them:

* `Scan`, `Complete` -- how deep a token stands in parentheses and CASE, whether the next AND
  belongs to a BETWEEN, and the conditions that leave nothing of that open;
* `Complete.steady` -- a complete condition may stand anywhere, in any group and any range;
* `Chain`, `chain` -- a condition as its pieces, the parts between the outermost ANDs and ORs; a
  NOT stands in its piece, and so does everything in parentheses;
* `denote` -- the truth of a condition from those of its pieces;
* `denote_conjoined` -- without an outermost OR, conditions with AND between them denote their
  conjunction;
* `bypassed_of_not_separate` -- with one, the first or the last condition is bypassed.
-/

namespace SqlTree

/-! ## 1. Truth values -/

/-- The truth of a condition for a row. A WHERE clause accepts the rows for which it is `yes`. -/
inductive Truth where
  | no
  | unknown
  | yes
  deriving DecidableEq

namespace Truth

def and : Truth → Truth → Truth
  | .yes, b => b
  | .no, _ => .no
  | .unknown, .no => .no
  | .unknown, _ => .unknown

def or : Truth → Truth → Truth
  | .no, b => b
  | .yes, _ => .yes
  | .unknown, .yes => .yes
  | .unknown, _ => .unknown

/-- All of several conditions. -/
def all : List Truth → Truth
  | [] => .yes
  | a :: rest => a.and (all rest)

theorem and_assoc (a b c : Truth) : (a.and b).and c = a.and (b.and c) := by
  cases a <;> cases b <;> cases c <;> rfl

theorem or_assoc (a b c : Truth) : (a.or b).or c = a.or (b.or c) := by
  cases a <;> cases b <;> cases c <;> rfl

@[simp] theorem and_yes (a : Truth) : a.and .yes = a := by cases a <;> rfl

@[simp] theorem or_yes (a : Truth) : a.or .yes = .yes := by cases a <;> rfl

theorem and_eq_yes {a b : Truth} (h : a.and b = .yes) : a = .yes ∧ b = .yes := by
  cases a <;> cases b <;> first | exact ⟨rfl, rfl⟩ | cases h

/-- **What all of several conditions accept, each of them accepts.** -/
theorem eq_yes_of_all {l : List Truth} (h : all l = .yes) : ∀ a ∈ l, a = .yes := by
  induction l with
  | nil => exact fun a ha => by cases ha
  | cons b rest ih =>
    obtain ⟨hb, hrest⟩ := and_eq_yes h
    intro a ha
    rcases List.mem_cons.mp ha with rfl | ha
    · exact hb
    · exact ih hrest a ha

end Truth

/-! ## 2. Where a token stands -/

/-- What a token does in a condition: it opens or closes a group, which is in parentheses or from
    CASE to END, it stands between pieces, or neither. -/
inductive Role where
  | opens
  | closes
  | between
  | and
  | or
  | other
  deriving DecidableEq

def Token.role (t : Token) : Role :=
  if t = .mark '(' ∨ t.isWord "CASE" then .opens
  else if t = .mark ')' ∨ t.isWord "END" then .closes
  else if t.isWord "BETWEEN" then .between
  else if t.isWord "AND" then .and
  else if t.isWord "OR" then .or
  else .other

/-- How many groups are open, and how many BETWEENs outside of them still wait for their AND. -/
structure Scan where
  depth : Nat
  waiting : Nat
  deriving DecidableEq

/-- The connectives between the pieces of a condition. -/
inductive Connective where
  | and
  | or
  deriving DecidableEq

namespace Scan

/-- The beginning of a condition. -/
def start : Scan := ⟨0, 0⟩

/-- One more token in a role. A token that closes what is not open belongs to no condition. -/
def after? : Scan → Role → Option Scan
  | ⟨depth, waiting⟩, .opens => some ⟨depth + 1, waiting⟩
  | ⟨0, _⟩, .closes => none
  | ⟨depth + 1, waiting⟩, .closes => some ⟨depth, waiting⟩
  | ⟨0, waiting⟩, .between => some ⟨0, waiting + 1⟩
  | ⟨0, waiting⟩, .and => some ⟨0, waiting - 1⟩
  | s, _ => some s

/-- One more token. -/
def next? (s : Scan) (t : Token) : Option Scan := s.after? t.role

/-- One more token, also one that closes too much. -/
def next (s : Scan) (t : Token) : Scan := (s.next? t).getD s

/-- The connective that a token is where it stands, if it is one. -/
def connective? (s : Scan) (t : Token) : Option Connective :=
  match t.role, s.depth, s.waiting with
  | .or, 0, _ => some .or
  | .and, 0, 0 => some .and
  | _, _, _ => none

/-- Several tokens after each other. -/
def run? (s : Scan) : List Token → Option Scan
  | [] => some s
  | t :: rest => (s.next? t).bind fun s' => run? s' rest

theorem after?_opens (depth waiting : Nat) :
    (Scan.mk depth waiting).after? .opens = some ⟨depth + 1, waiting⟩ := by
  cases depth <;> rfl

theorem run?_cons (s : Scan) (t : Token) (rest : List Token) :
    s.run? (t :: rest) = (s.after? t.role).bind fun s' => s'.run? rest := rfl

theorem run?_append (s : Scan) (ts us : List Token) :
    s.run? (ts ++ us) = (s.run? ts).bind fun s' => s'.run? us := by
  induction ts generalizing s with
  | nil => rfl
  | cons t rest ih =>
    show ((s.next? t).bind fun s' => s'.run? (rest ++ us))
      = ((s.next? t).bind fun s' => s'.run? rest).bind fun s' => s'.run? us
    cases s.next? t with
    | none => rfl
    | some s' => exact ih s'

end Scan

/-- A condition that closes all it opens and nothing else. -/
def Complete (ts : List Token) : Prop := Scan.start.run? ts = some .start

instance (ts : List Token) : Decidable (Complete ts) := inferInstanceAs (Decidable (_ = _))

/-! ## 3. Complete conditions inside others -/

/-- Tokens that, wherever they stand, leave open what was open and wait for no more ANDs than were
    waited for. -/
def Steady (ts : List Token) : Prop :=
  ∀ s : Scan, ∃ waiting, waiting ≤ s.waiting ∧ s.run? ts = some ⟨s.depth, waiting⟩

namespace Steady

variable {ts us : List Token}

theorem nil : Steady [] := fun s => ⟨s.waiting, Nat.le_refl _, rfl⟩

theorem append (ht : Steady ts) (hu : Steady us) : Steady (ts ++ us) := by
  intro s
  obtain ⟨m, hm, hts⟩ := ht s
  obtain ⟨n, hn, hus⟩ := hu ⟨s.depth, m⟩
  refine ⟨n, Nat.le_trans hn hm, ?_⟩
  rw [Scan.run?_append, hts]
  exact hus

/-- The roles of tokens that may stand anywhere. -/
def roles : List Role := [.and, .or, .other]

theorem singleton {t : Token} (ht : t.role ∈ roles) : Steady [t] := by
  rintro ⟨depth, waiting⟩
  rw [Scan.run?_cons]
  cases hrole : t.role with
  | and =>
    cases depth with
    | zero => exact ⟨waiting - 1, Nat.sub_le _ _, rfl⟩
    | succ depth => exact ⟨waiting, Nat.le_refl _, rfl⟩
  | or => exact ⟨waiting, Nat.le_refl _, by cases depth <;> rfl⟩
  | other => exact ⟨waiting, Nat.le_refl _, by cases depth <;> rfl⟩
  | _ =>
    rw [hrole] at ht
    exact absurd ht (by decide)

theorem of_forall (h : ∀ t ∈ ts, t.role ∈ roles) : Steady ts := by
  induction ts with
  | nil => exact nil
  | cons t rest ih =>
    have hrest : Steady rest := ih fun u hu => h u (List.mem_cons_of_mem _ hu)
    exact (singleton (h t List.mem_cons_self)).append hrest

/-- A steady group may stand anywhere. -/
theorem group {l r : Token} (hl : l.role = .opens) (hr : r.role = .closes) (h : Steady ts) :
    Steady (l :: (ts ++ [r])) := by
  rintro ⟨depth, waiting⟩
  obtain ⟨w, hw, hrun⟩ := h ⟨depth + 1, waiting⟩
  have hclose : (Scan.mk (depth + 1) w).run? [r] = some ⟨depth, w⟩ := by
    rw [Scan.run?_cons, hr]
    rfl
  refine ⟨w, hw, ?_⟩
  rw [Scan.run?_cons, hl, Scan.after?_opens, Option.bind_some, Scan.run?_append, hrun]
  exact hclose

/-- A steady lower end of a range may stand anywhere, with the words of the range around it. -/
theorem range {l r : Token} (hl : l.role = .between) (hr : r.role = .and) (h : Steady ts) :
    Steady (l :: (ts ++ [r])) := by
  rintro ⟨depth, waiting⟩
  cases depth with
  | zero =>
    obtain ⟨w, hw, hrun⟩ := h ⟨0, waiting + 1⟩
    have hclose : (Scan.mk 0 w).run? [r] = some ⟨0, w - 1⟩ := by
      rw [Scan.run?_cons, hr]
      rfl
    refine ⟨w - 1, Nat.sub_le_of_le_add hw, ?_⟩
    rw [Scan.run?_cons, hl, Scan.after?, Option.bind_some, Scan.run?_append, hrun]
    exact hclose
  | succ depth =>
    obtain ⟨w, hw, hrun⟩ := h ⟨depth + 1, waiting⟩
    have hclose : (Scan.mk (depth + 1) w).run? [r] = some ⟨depth + 1, w⟩ := by
      rw [Scan.run?_cons, hr]
      rfl
    have hopen : (Scan.mk (depth + 1) waiting).after? .between = some ⟨depth + 1, waiting⟩ := rfl
    refine ⟨w, hw, ?_⟩
    rw [Scan.run?_cons, hl, hopen, Option.bind_some, Scan.run?_append, hrun]
    exact hclose

theorem complete (h : Steady ts) : Complete ts := by
  obtain ⟨w, hw, hrun⟩ := h .start
  obtain rfl : w = 0 := Nat.le_zero.mp hw
  exact hrun

end Steady

/-- One token more for a scan that stands deeper: the ANDs that it waits for stay bounded by those
    that the other one waits for and `w` others. Inside a group no AND is waited for. -/
theorem Scan.after?_deeper {s s' : Scan} {role : Role} (h : s.after? role = some s')
    {depth m w : Nat} (hm : m ≤ w + if depth = 0 then s.waiting else 0) :
    ∃ n, n ≤ w + (if depth = 0 then s'.waiting else 0)
      ∧ (Scan.mk (depth + s.depth) m).after? role = some ⟨depth + s'.depth, n⟩ := by
  obtain ⟨inner, waiting⟩ := s
  cases role with
  | opens =>
    obtain rfl := Option.some.inj h
    exact ⟨m, hm, after?_opens _ _⟩
  | closes =>
    cases inner with
    | zero => cases h
    | succ inner =>
      obtain rfl := Option.some.inj h
      exact ⟨m, hm, rfl⟩
  | between =>
    cases inner with
    | zero =>
      obtain rfl := Option.some.inj h
      cases depth with
      | zero => exact ⟨m + 1, Nat.succ_le_succ hm, rfl⟩
      | succ depth => exact ⟨m, hm, rfl⟩
    | succ inner =>
      obtain rfl := Option.some.inj h
      exact ⟨m, hm, rfl⟩
  | and =>
    cases inner with
    | zero =>
      obtain rfl := Option.some.inj h
      cases depth with
      | zero =>
        refine ⟨m - 1, ?_, rfl⟩
        simp only [if_true] at hm ⊢
        omega
      | succ depth => exact ⟨m, hm, rfl⟩
    | succ inner =>
      obtain rfl := Option.some.inj h
      exact ⟨m, hm, rfl⟩
  | _ =>
    obtain rfl : s' = ⟨inner, waiting⟩ := by
      cases inner <;> exact (Option.some.inj h).symm
    exact ⟨m, hm, by cases depth + inner <;> rfl⟩

/-- **A complete condition may stand anywhere**: in any group and in any range. -/
theorem Complete.steady {ts : List Token} (h : Complete ts) : Steady ts := by
  have hdeeper : ∀ {ts : List Token} {s s' : Scan}, s.run? ts = some s' → ∀ {depth m w : Nat},
      m ≤ w + (if depth = 0 then s.waiting else 0) →
      ∃ n, n ≤ w + (if depth = 0 then s'.waiting else 0)
        ∧ (Scan.mk (depth + s.depth) m).run? ts = some ⟨depth + s'.depth, n⟩ := by
    intro ts
    induction ts with
    | nil =>
      intro s s' h depth m w hm
      obtain rfl := Option.some.inj h
      exact ⟨m, hm, rfl⟩
    | cons t rest ih =>
      intro s s' h depth m w hm
      obtain ⟨s₁, hnext, hrest⟩ := Option.bind_eq_some_iff.mp h
      obtain ⟨n, hn, hnext'⟩ := Scan.after?_deeper hnext hm
      obtain ⟨k, hk, hrest'⟩ := ih hrest hn
      refine ⟨k, hk, ?_⟩
      rw [Scan.run?_cons, hnext']
      exact hrest'
  intro s
  have hstart : s.waiting ≤ s.waiting + if s.depth = 0 then Scan.start.waiting else 0 :=
    Nat.le_add_right _ _
  obtain ⟨n, hn, hrun⟩ := hdeeper h hstart
  refine ⟨n, ?_, hrun⟩
  have hzero : (if s.depth = 0 then Scan.start.waiting else 0) = 0 := by split <;> rfl
  rw [hzero] at hn
  exact hn

/-! ## 4. Pieces -/

/-- A first piece and further ones, each behind a connective. The pieces of a condition are texts;
    for a row, they are truth values. -/
structure Chain (α : Type) where
  first : α
  rest : List (Connective × α)

namespace Chain

variable {α : Type}

/-- All pieces of a chain. -/
def pieces (c : Chain α) : List α := c.first :: c.rest.map (·.2)

/-- Some pieces are alternatives of each other. -/
def hasOr (c : Chain α) : Bool := c.rest.any fun p => p.1 == .or

/-- Two chains with an AND between them, as one chain: it reads as if there had never been two. -/
def conjoin (a b : Chain α) : Chain α := ⟨a.first, a.rest ++ (.and, b.first) :: b.rest⟩

/-- Two chains with a connective between them, as one chain. -/
def link (k : Connective) (a b : Chain α) : Chain α := ⟨a.first, a.rest ++ (k, b.first) :: b.rest⟩

/-- The chain with truth values in place of its pieces. -/
def valued (c : Chain α) (truths : List Truth) : Chain Truth :=
  ⟨truths.headD .unknown, (c.rest.map (·.1)).zip truths.tail⟩

/-- The truth of the pieces behind a conjunction that denotes `acc` so far. -/
def evalFrom (acc : Truth) : List (Connective × Truth) → Truth
  | [] => acc
  | (.and, v) :: rest => evalFrom (acc.and v) rest
  | (.or, v) :: rest => acc.or (evalFrom v rest)

/-- The truth of a chain: AND binds tighter than OR. -/
def eval (c : Chain Truth) : Truth := evalFrom c.first c.rest

end Chain

/-- The chain of a condition that is read from a scan on. -/
def Scan.chain : Scan → List Token → Chain (List Token)
  | _, [] => ⟨[], []⟩
  | s, t :: ts =>
    let c := chain (s.next t) ts
    match s.connective? t with
    | some k => ⟨[], (k, c.first) :: c.rest⟩
    | none => ⟨t :: c.first, c.rest⟩

/-- The chain of a condition. -/
def chain (ts : List Token) : Chain (List Token) := Scan.start.chain ts

/-- The pieces of a condition. -/
def pieces (ts : List Token) : List (List Token) := (chain ts).pieces

/-- An OR stands outside all parentheses. -/
def exposesOr (ts : List Token) : Bool := (chain ts).hasOr

/-- The truth of a condition for a row, given the truths of its pieces from left to right. -/
def denote (truths : List Truth) (ts : List Token) : Truth := ((chain ts).valued truths).eval

theorem Scan.chain_cons_none {s : Scan} {t : Token} (h : s.connective? t = none)
    (ts : List Token) :
    s.chain (t :: ts) = ⟨t :: ((s.next t).chain ts).first, ((s.next t).chain ts).rest⟩ := by
  show (match s.connective? t with | some k => _ | none => _ : Chain (List Token)) = _
  rw [h]

theorem Scan.chain_cons_some {s : Scan} {t : Token} {k : Connective} (h : s.connective? t = some k)
    (ts : List Token) :
    s.chain (t :: ts)
      = ⟨[], (k, ((s.next t).chain ts).first) :: ((s.next t).chain ts).rest⟩ := by
  show (match s.connective? t with | some k => _ | none => _ : Chain (List Token)) = _
  rw [h]

/-! ## 5. Two conditions with a connective between them -/

/-- The word between conditions. -/
def andToken : Token := .word "AND".toList

/-- **A complete condition ends where its tokens do**: a connective behind it is one. -/
theorem Scan.chain_append {t : Token} {k : Connective} (hk : Scan.start.connective? t = some k)
    (hnext : Scan.start.next t = .start) {ts us : List Token} :
    ∀ {s : Scan}, s.run? ts = some .start →
      s.chain (ts ++ t :: us) = (s.chain ts).link k (Scan.start.chain us) := by
  induction ts with
  | nil =>
    intro s hs
    obtain rfl : s = .start := Option.some.inj hs
    rw [List.nil_append, chain_cons_some hk, hnext]
    rfl
  | cons u rest ih =>
    intro s hs
    obtain ⟨s', hafter, hrest⟩ := Option.bind_eq_some_iff.mp hs
    have hs' : s.next u = s' := by
      unfold next
      rw [hafter]
      rfl
    have hchain := ih hrest
    rw [← hs'] at hchain
    cases hu : s.connective? u with
    | none =>
      rw [List.cons_append, chain_cons_none hu, chain_cons_none hu, hchain]
      rfl
    | some j =>
      rw [List.cons_append, chain_cons_some hu, chain_cons_some hu, hchain]
      rfl

theorem chain_append_and {ts us : List Token} (h : Complete ts) :
    chain (ts ++ andToken :: us) = (chain ts).conjoin (chain us) :=
  Scan.chain_append (by decide) (by decide) h

namespace Chain

section Shape

variable {α : Type} {a b : Chain α}

theorem hasOr_conjoin (a b : Chain α) : (a.conjoin b).hasOr = (a.hasOr || b.hasOr) := by
  unfold hasOr conjoin
  rw [List.any_append, List.any_cons]
  rfl

theorem conjoin_assoc (a b c : Chain α) :
    (a.conjoin b).conjoin c = a.conjoin (b.conjoin c) := by
  unfold conjoin
  rw [List.append_assoc]
  rfl

theorem pieces_link (k : Connective) (a b : Chain α) :
    (a.link k b).pieces = a.pieces ++ b.pieces := by
  unfold pieces link
  rw [List.map_append, List.map_cons, List.cons_append]

theorem pieces_conjoin (a b : Chain α) : (a.conjoin b).pieces = a.pieces ++ b.pieces :=
  pieces_link .and a b

/-- One truth value for each piece: a first one and one for each further piece. -/
theorem truths_of_length {truths : List Truth} (h : truths.length = a.pieces.length) :
    ∃ v vs, truths = v :: vs ∧ (a.rest.map (·.1)).length = vs.length := by
  cases truths with
  | nil => cases h
  | cons v vs =>
    refine ⟨v, vs, rfl, ?_⟩
    have hlen : vs.length = (a.rest.map (·.2)).length := Nat.succ.inj h
    rw [hlen, List.length_map, List.length_map]

theorem valued_link (k : Connective) {us vs : List Truth} (hu : us.length = a.pieces.length)
    (hv : vs.length = b.pieces.length) :
    (a.link k b).valued (us ++ vs) = (a.valued us).link k (b.valued vs) := by
  obtain ⟨u, us', rfl, hu'⟩ := truths_of_length hu
  obtain ⟨v, vs', rfl, -⟩ := truths_of_length hv
  unfold valued link
  show (⟨u, ((a.rest ++ (k, b.first) :: b.rest).map (·.1)).zip (us' ++ v :: vs')⟩ : Chain Truth)
    = _
  rw [List.map_append, List.zip_append hu']
  rfl

theorem valued_conjoin {us vs : List Truth} (hu : us.length = a.pieces.length)
    (hv : vs.length = b.pieces.length) :
    (a.conjoin b).valued (us ++ vs) = (a.valued us).conjoin (b.valued vs) :=
  valued_link .and hu hv

theorem hasOr_valued {truths : List Truth} (h : truths.length = a.pieces.length) :
    (a.valued truths).hasOr = a.hasOr := by
  obtain ⟨v, vs, rfl, hlen⟩ := truths_of_length h
  have hkeys : ((a.rest.map (·.1)).zip vs).map (·.1) = a.rest.map (·.1) :=
    List.map_fst_zip (Nat.le_of_eq hlen)
  have hany : ∀ {β : Type} (l : List (Connective × β)),
      (l.any fun p => p.1 == .or) = (l.map (·.1)).any (· == .or) := by
    intro β l
    rw [List.any_map]
    rfl
  show (((a.rest.map (·.1)).zip vs).any fun p => p.1 == .or) = a.rest.any fun p => p.1 == .or
  rw [hany, hany, hkeys]

/-- Truth values that are all the same are the pieces of their chain. -/
theorem valued_of_forall {truths : List Truth} {v : Truth} (h : truths.length = a.pieces.length)
    (hv : ∀ u ∈ truths, u = v) : ∀ p ∈ (a.valued truths).pieces, p = v := by
  obtain ⟨u, us, rfl, hlen⟩ := truths_of_length h
  intro p hp
  refine hv p ?_
  have hpieces : (a.valued (u :: us)).pieces = u :: us := by
    show u :: ((a.rest.map (·.1)).zip us).map (·.2) = u :: us
    rw [List.map_snd_zip (Nat.le_of_eq hlen.symm)]
  rw [hpieces] at hp
  exact hp

end Shape

/-- **An OR splits the truth of a chain** into that of what stands before it and behind it. -/
theorem evalFrom_append_or (v : Truth) (right : List (Connective × Truth)) :
    ∀ (left : List (Connective × Truth)) (acc : Truth),
      evalFrom acc (left ++ (.or, v) :: right) = (evalFrom acc left).or (evalFrom v right)
  | [], _ => rfl
  | (.and, u) :: left, acc => evalFrom_append_or v right left (acc.and u)
  | (.or, u) :: left, acc => by
    have ih := evalFrom_append_or v right left u
    show acc.or (evalFrom u (left ++ (.or, v) :: right)) = _
    rw [ih, ← Truth.or_assoc]
    rfl

/-- Without an OR the truth of what came before is one conjunct more. -/
theorem evalFrom_and (a b : Truth) :
    ∀ {rest : List (Connective × Truth)}, (rest.any fun p => p.1 == .or) = false →
      evalFrom (a.and b) rest = a.and (evalFrom b rest)
  | [], _ => rfl
  | (.and, v) :: rest, h => by
    have hrest : (rest.any fun p => p.1 == .or) = false := (Bool.or_eq_false_iff.mp h).2
    show evalFrom ((a.and b).and v) rest = _
    rw [Truth.and_assoc]
    exact evalFrom_and a (b.and v) hrest
  | (.or, v) :: rest, h => by cases (Bool.or_eq_false_iff.mp h).1

theorem evalFrom_append_and (v : Truth) {right : List (Connective × Truth)}
    (hr : (right.any fun p => p.1 == .or) = false) :
    ∀ {left : List (Connective × Truth)} (acc : Truth),
      (left.any fun p => p.1 == .or) = false →
      evalFrom acc (left ++ (.and, v) :: right) = (evalFrom acc left).and (evalFrom v right)
  | [], acc, _ => evalFrom_and acc v hr
  | (.and, u) :: left, acc, h =>
    evalFrom_append_and v hr (acc.and u) (Bool.or_eq_false_iff.mp h).2
  | (.or, u) :: left, acc, h => by cases (Bool.or_eq_false_iff.mp h).1

/-- Pieces that are all true make a true chain, whatever connects them. -/
theorem evalFrom_yes :
    ∀ {rest : List (Connective × Truth)}, (∀ p ∈ rest, p.2 = .yes) → evalFrom .yes rest = .yes
  | [], _ => rfl
  | (.and, v) :: rest, h => by
    have hv : v = .yes := h _ List.mem_cons_self
    show evalFrom (Truth.yes.and v) rest = .yes
    rw [hv]
    exact evalFrom_yes fun q hq => h q (List.mem_cons_of_mem _ hq)
  | (.or, v) :: rest, h => rfl

/-- Pieces that are all false make a false chain. -/
theorem evalFrom_no :
    ∀ {rest : List (Connective × Truth)}, (∀ p ∈ rest, p.2 = .no) → evalFrom .no rest = .no
  | [], _ => rfl
  | (.and, v) :: rest, h => by
    show evalFrom .no rest = .no
    exact evalFrom_no fun q hq => h q (List.mem_cons_of_mem _ hq)
  | (.or, v) :: rest, h => by
    have hv : v = .no := h _ List.mem_cons_self
    have ih : evalFrom .no rest = .no := evalFrom_no fun q hq => h q (List.mem_cons_of_mem _ hq)
    show Truth.no.or (evalFrom v rest) = .no
    rw [hv, ih]
    rfl

variable {a b : Chain Truth}

theorem eval_conjoin (ha : a.hasOr = false) (hb : b.hasOr = false) :
    (a.conjoin b).eval = a.eval.and b.eval := evalFrom_append_and b.first hb a.first ha

/-- The first alternative of `a` is one of the conjunction: if the pieces of `a` are true, the
    conjunction is, whatever `b` denotes. -/
theorem eval_conjoin_of_left (ha : a.hasOr = true) (h : ∀ v ∈ a.pieces, v = .yes)
    (b : Chain Truth) : (a.conjoin b).eval = .yes := by
  obtain ⟨⟨k, v⟩, hv, hor⟩ := List.any_eq_true.mp ha
  obtain rfl : k = .or := eq_of_beq hor
  obtain ⟨left, right, hrest⟩ := List.append_of_mem hv
  have hleft : evalFrom .yes left = .yes := evalFrom_yes fun q hq => by
    have hmem : q ∈ a.rest := by
      rw [hrest]
      exact List.mem_append_left _ hq
    exact h _ (List.mem_cons_of_mem _ (List.mem_map_of_mem hmem))
  have hfirst : a.first = .yes := h _ List.mem_cons_self
  have hsplit : (a.conjoin b).rest = left ++ (.or, v) :: (right ++ (.and, b.first) :: b.rest) := by
    show a.rest ++ (.and, b.first) :: b.rest = _
    rw [hrest, List.append_assoc]
    rfl
  unfold eval
  rw [hsplit, evalFrom_append_or]
  show (evalFrom a.first left).or _ = .yes
  rw [hfirst, hleft]
  rfl

/-- The last alternative of `b` is one of the conjunction: if the pieces of `b` are true, the
    conjunction is, whatever `a` denotes. -/
theorem eval_conjoin_of_right (hb : b.hasOr = true) (h : ∀ v ∈ b.pieces, v = .yes)
    (a : Chain Truth) : (a.conjoin b).eval = .yes := by
  obtain ⟨⟨k, v⟩, hv, hor⟩ := List.any_eq_true.mp hb
  obtain rfl : k = .or := eq_of_beq hor
  obtain ⟨left, right, hrest⟩ := List.append_of_mem hv
  have hmem : ∀ q, q = (.or, v) ∨ q ∈ right → q.2 = .yes := by
    intro q hq
    have hin : q ∈ b.rest := by
      rw [hrest]
      exact List.mem_append_right _ (List.mem_cons.mpr hq)
    exact h _ (List.mem_cons_of_mem _ (List.mem_map_of_mem hin))
  have hpiece : v = .yes := hmem _ (.inl rfl)
  have hright : evalFrom .yes right = .yes := evalFrom_yes fun q hq => hmem q (.inr hq)
  have hsplit : (a.conjoin b).rest
      = (a.rest ++ (.and, b.first) :: left) ++ (.or, v) :: right := by
    show a.rest ++ (.and, b.first) :: b.rest = _
    rw [hrest, List.append_assoc]
    rfl
  unfold eval
  rw [hsplit, evalFrom_append_or, hpiece, hright, Truth.or_yes]

theorem eval_no (h : ∀ v ∈ a.pieces, v = .no) : a.eval = .no := by
  have hfirst : a.first = .no := h _ List.mem_cons_self
  unfold eval
  rw [hfirst]
  exact evalFrom_no fun q hq => h _ (List.mem_cons_of_mem _ (List.mem_map_of_mem hq))

end Chain

/-! ## 6. Many conditions -/

/-- The tokens of several conditions with AND between each two. -/
def conjoined : List (List Token) → List Token
  | [] => []
  | [ts] => ts
  | ts :: us :: rest => ts ++ andToken :: conjoined (us :: rest)

/-- Truth values for several conditions: one for each piece of each. -/
def Valued (conditions : List (List Token)) (truths : List (List Truth)) : Prop :=
  List.Forall₂ (fun ts vs => vs.length = (pieces ts).length) conditions truths

section Conjoined

variable {conditions front : List (List Token)} {ts us : List Token} {truths : List (List Truth)}

theorem chain_conjoined_cons (h : Complete ts) (rest : List (List Token)) :
    chain (conjoined (ts :: us :: rest)) = (chain ts).conjoin (chain (conjoined (us :: rest))) :=
  chain_append_and h

/-- The last of several conditions is conjoined with all before it. -/
theorem chain_conjoined_concat :
    ∀ {front : List (List Token)}, (∀ ts ∈ front, Complete ts) → front ≠ [] →
      chain (conjoined (front ++ [us])) = (chain (conjoined front)).conjoin (chain us)
  | [], _, hne => absurd rfl hne
  | [ts], h, _ => chain_append_and (h ts List.mem_cons_self)
  | ts :: ts' :: rest, h, _ => by
    have hts : Complete ts := h ts List.mem_cons_self
    have ih : chain (conjoined (ts' :: rest ++ [us]))
        = (chain (conjoined (ts' :: rest))).conjoin (chain us) :=
      chain_conjoined_concat (fun t ht => h t (List.mem_cons_of_mem _ ht)) (List.cons_ne_nil _ _)
    have hcons : chain (conjoined (ts :: ts' :: rest ++ [us]))
        = (chain ts).conjoin (chain (conjoined (ts' :: rest ++ [us]))) :=
      chain_conjoined_cons hts (rest ++ [us])
    rw [hcons, ih, chain_conjoined_cons hts, Chain.conjoin_assoc]

/-- The pieces of several conditions are those of each of them. -/
theorem pieces_conjoined :
    ∀ {conditions : List (List Token)}, (∀ ts ∈ conditions, Complete ts) → conditions ≠ [] →
      pieces (conjoined conditions) = conditions.flatMap pieces
  | [], _, hne => absurd rfl hne
  | [ts], _, _ => (List.append_nil (pieces ts)).symm
  | ts :: us :: rest, h, _ => by
    have ih : pieces (conjoined (us :: rest)) = (us :: rest).flatMap pieces :=
      pieces_conjoined (fun t ht => h t (List.mem_cons_of_mem _ ht)) (List.cons_ne_nil _ _)
    unfold pieces
    rw [chain_conjoined_cons (h ts List.mem_cons_self), Chain.pieces_conjoin]
    show pieces ts ++ pieces (conjoined (us :: rest)) = _
    rw [ih]
    rfl

/-- Several conditions expose an OR if one of them does. -/
theorem exposesOr_conjoined :
    ∀ {conditions : List (List Token)}, (∀ ts ∈ conditions, Complete ts) → conditions ≠ [] →
      exposesOr (conjoined conditions) = conditions.any exposesOr
  | [], _, hne => absurd rfl hne
  | [ts], _, _ => (Bool.or_false (exposesOr ts)).symm
  | ts :: us :: rest, h, _ => by
    have ih : exposesOr (conjoined (us :: rest)) = (us :: rest).any exposesOr :=
      exposesOr_conjoined (fun t ht => h t (List.mem_cons_of_mem _ ht)) (List.cons_ne_nil _ _)
    unfold exposesOr
    rw [chain_conjoined_cons (h ts List.mem_cons_self), Chain.hasOr_conjoin]
    show (exposesOr ts || exposesOr (conjoined (us :: rest))) = _
    rw [ih]
    rfl

/-- The truth values for several conditions are one for each piece of their conjunction. -/
theorem Valued.length_flatten (hv : Valued conditions truths) (h : ∀ ts ∈ conditions, Complete ts)
    (hne : conditions ≠ []) :
    truths.flatten.length = (pieces (conjoined conditions)).length := by
  rw [pieces_conjoined h hne, List.length_flatMap, List.length_flatten]
  congr 1
  clear h hne
  induction hv with
  | nil => rfl
  | cons hts _ ih => rw [List.map_cons, List.map_cons, hts, ih]

theorem denote_singleton (hv : Valued [ts] truths) :
    denote truths.flatten (conjoined [ts]) = Truth.all (List.zipWith denote truths [ts]) := by
  obtain ⟨vs, rest, -, hrest, rfl⟩ := List.forall₂_cons_left_iff.mp hv
  obtain rfl := List.forall₂_nil_left_iff.mp hrest
  show denote (vs ++ []) ts = (denote vs ts).and .yes
  rw [List.append_nil, Truth.and_yes]

/-- **Conditions that expose no OR denote their conjunction** when an AND stands between each
    two. -/
theorem denote_conjoined :
    ∀ {conditions : List (List Token)} {truths : List (List Truth)},
      Valued conditions truths → (∀ ts ∈ conditions, Complete ts) → conditions ≠ [] →
      (∀ ts ∈ conditions, exposesOr ts = false) →
      denote truths.flatten (conjoined conditions)
        = Truth.all (List.zipWith denote truths conditions)
  | [], _, _, _, hne, _ => absurd rfl hne
  | [ts], _, hv, _, _, _ => denote_singleton hv
  | ts :: us :: rest, vs :: truths, hv, h, _, hor => by
    obtain ⟨hvs, hrest⟩ := List.forall₂_cons.mp hv
    have hcomplete : ∀ t ∈ us :: rest, Complete t := fun t ht => h t (List.mem_cons_of_mem _ ht)
    have hor' : ∀ t ∈ us :: rest, exposesOr t = false :=
      fun t ht => hor t (List.mem_cons_of_mem _ ht)
    have hne : us :: rest ≠ [] := List.cons_ne_nil _ _
    have ih := denote_conjoined hrest hcomplete hne hor'
    have hlen : truths.flatten.length = (chain (conjoined (us :: rest))).pieces.length :=
      Valued.length_flatten hrest hcomplete hne
    have hright : (chain (conjoined (us :: rest))).hasOr = false := by
      have hexposes := exposesOr_conjoined hcomplete hne
      rw [List.any_eq_false.mpr fun t ht => by rw [hor' t ht]; decide] at hexposes
      exact hexposes
    show ((chain (conjoined (ts :: us :: rest))).valued (vs ++ truths.flatten)).eval
      = (denote vs ts).and (Truth.all (List.zipWith denote truths (us :: rest)))
    rw [chain_conjoined_cons (h ts List.mem_cons_self), Chain.valued_conjoin hvs hlen,
      Chain.eval_conjoin, ← ih]
    · rfl
    · rw [Chain.hasOr_valued hvs]
      exact hor ts List.mem_cons_self
    · rw [Chain.hasOr_valued hlen]
      exact hright

/-- No condition has to be kept apart from the others: there is at most one, or none exposes an
    OR. -/
def Separate (conditions : List (List Token)) : Prop :=
  conditions.length ≤ 1 ∨ ∀ ts ∈ conditions, exposesOr ts = false

/-- An OR before the last condition lets it be bypassed: if all pieces before it are true, the
    whole is. -/
theorem denote_of_or_before (hcomplete : ∀ t ∈ front, Complete t) (hts : ts ∈ front)
    (hor : exposesOr ts = true) (hv : Valued front truths)
    (hyes : ∀ vs ∈ truths, ∀ v ∈ vs, v = .yes) {last : List Token} {vs : List Truth}
    (hlast : vs.length = (pieces last).length) :
    denote (truths.flatten ++ vs) (conjoined (front ++ [last])) = .yes := by
  have hne : front ≠ [] := List.ne_nil_of_mem hts
  have hlen : truths.flatten.length = (chain (conjoined front)).pieces.length :=
    hv.length_flatten hcomplete hne
  have hhas : ((chain (conjoined front)).valued truths.flatten).hasOr = true := by
    rw [Chain.hasOr_valued hlen]
    show exposesOr (conjoined front) = true
    rw [exposesOr_conjoined hcomplete hne]
    exact List.any_eq_true.mpr ⟨ts, hts, hor⟩
  have hall : ∀ v ∈ truths.flatten, v = .yes := by
    intro v hmem
    obtain ⟨vs', hvs', hin⟩ := List.mem_flatten.mp hmem
    exact hyes vs' hvs' v hin
  unfold denote
  rw [chain_conjoined_concat hcomplete hne, Chain.valued_conjoin hlen hlast]
  exact Chain.eval_conjoin_of_left hhas (Chain.valued_of_forall hlen hall) _

/-- An OR behind the first condition lets it be bypassed: if all pieces behind it are true, the
    whole is. -/
theorem denote_of_or_behind {first : List Token} {rest : List (List Token)}
    (hfirst : Complete first) (hcomplete : ∀ t ∈ rest, Complete t) (hts : ts ∈ rest)
    (hor : exposesOr ts = true) (hv : Valued rest truths)
    (hyes : ∀ vs ∈ truths, ∀ v ∈ vs, v = .yes) {vs : List Truth}
    (hlen : vs.length = (pieces first).length) :
    denote (vs ++ truths.flatten) (conjoined (first :: rest)) = .yes := by
  have hne : rest ≠ [] := List.ne_nil_of_mem hts
  have hrest : truths.flatten.length = (chain (conjoined rest)).pieces.length :=
    hv.length_flatten hcomplete hne
  have hhas : ((chain (conjoined rest)).valued truths.flatten).hasOr = true := by
    rw [Chain.hasOr_valued hrest]
    show exposesOr (conjoined rest) = true
    rw [exposesOr_conjoined hcomplete hne]
    exact List.any_eq_true.mpr ⟨ts, hts, hor⟩
  have hall : ∀ v ∈ truths.flatten, v = .yes := by
    intro v hmem
    obtain ⟨vs', hvs', hin⟩ := List.mem_flatten.mp hmem
    exact hyes vs' hvs' v hin
  have hchain : chain (conjoined (first :: rest))
      = (chain first).conjoin (chain (conjoined rest)) := by
    obtain ⟨us, others, rfl⟩ := List.exists_cons_of_ne_nil hne
    exact chain_conjoined_cons hfirst others
  unfold denote
  rw [hchain, Chain.valued_conjoin hlen hrest]
  exact Chain.eval_conjoin_of_right hhas (Chain.valued_of_forall hrest hall) _

/-- The same truth for all pieces of a condition. -/
def constantly (v : Truth) (ts : List Token) : List Truth := List.replicate (pieces ts).length v

theorem valued_constantly (v : Truth) (conditions : List (List Token)) :
    Valued conditions (conditions.map (constantly v)) := by
  unfold Valued
  rw [List.forall₂_map_right_iff]
  exact List.forall₂_same.mpr fun ts _ => List.length_replicate

theorem denote_constantly_no (ts : List Token) : denote (constantly .no ts) ts = .no := by
  have hlen : (constantly .no ts).length = (chain ts).pieces.length := List.length_replicate
  exact Chain.eval_no (Chain.valued_of_forall hlen fun v hv => List.eq_of_mem_replicate hv)

/-- **An exposed OR lets a condition be bypassed.** If conditions are not separate, a row may be
    accepted for which the last or the first of them is false. -/
theorem bypassed_of_not_separate (h : ∀ ts ∈ conditions, Complete ts)
    (hs : ¬ Separate conditions) :
    ∃ truths, Valued conditions truths ∧ denote truths.flatten (conjoined conditions) = .yes
      ∧ .no ∈ List.zipWith denote truths conditions := by
  obtain ⟨hlen, hor⟩ := not_or.mp hs
  obtain ⟨ts, hts, hexposes⟩ : ∃ ts ∈ conditions, exposesOr ts = true := by
    by_contra hnone
    refine hor fun ts hts => Bool.eq_false_iff.mpr fun ht => hnone ⟨ts, hts, ht⟩
  have hyes : ∀ l : List (List Token), ∀ vs ∈ l.map (constantly .yes), ∀ v ∈ vs, v = .yes := by
    intro l vs hvs v hv
    obtain ⟨us, -, rfl⟩ := List.mem_map.mp hvs
    exact List.eq_of_mem_replicate hv
  obtain ⟨first, rest, rfl⟩ : ∃ first rest, conditions = first :: rest :=
    List.exists_cons_of_ne_nil (List.ne_nil_of_mem hts)
  obtain ⟨front, last, hsplit⟩ : ∃ front last, first :: rest = front ++ [last] :=
    ⟨_, _, (List.dropLast_append_getLast (List.cons_ne_nil first rest)).symm⟩
  -- either the OR stands behind the first condition, or the last one stands behind the OR
  rcases List.mem_cons.mp hts with rfl | hin
  · have hfront : ts ∈ front := by
      cases front with
      | nil =>
        rw [hsplit] at hlen
        exact absurd (Nat.le_refl 1) hlen
      | cons t front =>
        obtain ⟨rfl, -⟩ := List.cons.inj hsplit
        exact List.mem_cons_self
    rw [hsplit] at h ⊢
    refine ⟨front.map (constantly .yes) ++ [constantly .no last], ?_, ?_, ?_⟩
    · exact List.rel_append (valued_constantly .yes front) (.cons List.length_replicate .nil)
    · rw [List.flatten_append, List.flatten_singleton]
      exact denote_of_or_before (fun t ht => h t (List.mem_append_left _ ht)) hfront hexposes
        (valued_constantly .yes front) (hyes front) List.length_replicate
    · rw [List.zipWith_append (List.length_map _)]
      refine List.mem_append_right _ ?_
      show Truth.no ∈ [denote (constantly .no last) last]
      rw [denote_constantly_no]
      exact List.mem_cons_self
  · refine ⟨constantly .no first :: rest.map (constantly .yes), ?_, ?_, ?_⟩
    · exact .cons List.length_replicate (valued_constantly .yes rest)
    · exact denote_of_or_behind (h first List.mem_cons_self)
        (fun t ht => h t (List.mem_cons_of_mem _ ht)) hin hexposes (valued_constantly .yes rest)
        (hyes rest) List.length_replicate
    · show Truth.no ∈ denote (constantly .no first) first :: _
      rw [denote_constantly_no]
      exact List.mem_cons_self

/-- **Conditions denote their conjunction exactly if they are separate.** -/
theorem separate_iff_denote (h : ∀ ts ∈ conditions, Complete ts) (hne : conditions ≠ []) :
    Separate conditions ↔ ∀ truths, Valued conditions truths →
      denote truths.flatten (conjoined conditions)
        = Truth.all (List.zipWith denote truths conditions) := by
  refine ⟨fun hs truths hv => ?_, fun hall => ?_⟩
  · rcases hs with hlen | hor
    · obtain ⟨ts, rest, rfl⟩ := List.exists_cons_of_ne_nil hne
      have hrest : rest = [] :=
        List.length_eq_zero_iff.mp (Nat.le_zero.mp (Nat.le_of_succ_le_succ hlen))
      rw [hrest] at hv ⊢
      exact denote_singleton hv
    · exact denote_conjoined hv h hne hor
  · by_contra hs
    obtain ⟨truths, hv, hyes, hno⟩ := bypassed_of_not_separate h hs
    rw [hall truths hv] at hyes
    cases Truth.eq_yes_of_all hyes _ hno

/-- **Rows are held to each of several conditions exactly if they are separate.** -/
theorem separate_iff_enforced (h : ∀ ts ∈ conditions, Complete ts) (hne : conditions ≠ []) :
    Separate conditions ↔ ∀ truths, Valued conditions truths →
      denote truths.flatten (conjoined conditions) = .yes →
      ∀ v ∈ List.zipWith denote truths conditions, v = .yes := by
  refine ⟨fun hs truths hv hyes => ?_, fun hall => ?_⟩
  · rw [(separate_iff_denote h hne).mp hs truths hv] at hyes
    exact Truth.eq_yes_of_all hyes
  · by_contra hs
    obtain ⟨truths, hv, hyes, hno⟩ := bypassed_of_not_separate h hs
    cases hall truths hv hyes _ hno

end Conjoined

end SqlTree
