import SqlTree.Proofs.Literals

/-!
# Parentheses in a rendering

Outside names, literals and comments, the parentheses of a rendering are paired, and nothing in it
ends the statement or begins a comment to the end of the line. Names, comments, hints and text
values are arbitrary; only type names, which are written as they are, have to pair their own
parentheses.

* `depthAfter`, `Balanced` -- how deep a text stands in parentheses, and texts that close what they
  open and nothing else;
* `brackets_lex_of_tame` -- a text without quotes and operators has the parentheses of its
  characters;
* `Sealed` -- balanced tokens that end nothing, in a form that parts hand on to the text they make;
* `Session.render_sealed` -- every rendering on one line is sealed, with placeholders and with
  literals.
-/

namespace SqlTree

open Reading

/-! ## 1. Depths -/

/-- A parenthesis. -/
inductive Bracket where
  | opens
  | closes
  deriving DecidableEq

/-- The depth after some parentheses. A parenthesis that closes where none is open has no depth
    behind it, so neither has anything after it. -/
def depthAfter : Nat → List Bracket → Option Nat
  | depth, [] => some depth
  | depth, .opens :: rest => depthAfter (depth + 1) rest
  | 0, .closes :: _ => none
  | depth + 1, .closes :: rest => depthAfter depth rest

/-- Each parenthesis that is opened is closed, and no other one. -/
def Balanced (bs : List Bracket) : Prop := depthAfter 0 bs = some 0

instance (bs : List Bracket) : Decidable (Balanced bs) := inferInstanceAs (Decidable (_ = _))

theorem depthAfter_append (depth : Nat) (bs cs : List Bracket) :
    depthAfter depth (bs ++ cs) = (depthAfter depth bs).bind fun d => depthAfter d cs := by
  induction bs generalizing depth with
  | nil => rfl
  | cons b rest ih =>
    cases b with
    | opens => exact ih (depth + 1)
    | closes =>
      cases depth with
      | zero => rfl
      | succ depth => exact ih depth

/-- What has a depth has it at any other depth, too. -/
theorem depthAfter_add {depth after : Nat} {bs : List Bracket}
    (h : depthAfter depth bs = some after) (outer : Nat) :
    depthAfter (outer + depth) bs = some (outer + after) := by
  induction bs generalizing depth with
  | nil =>
    obtain rfl := Option.some.inj h
    rfl
  | cons b rest ih =>
    cases b with
    | opens => exact ih h
    | closes =>
      cases depth with
      | zero => cases h
      | succ depth => exact ih h

namespace Balanced

variable {bs cs : List Bracket}

theorem nil : Balanced [] := rfl

/-- Balanced parentheses leave the depth as it is. -/
theorem depthAfter (h : Balanced bs) (depth : Nat) : SqlTree.depthAfter depth bs = some depth :=
  depthAfter_add h depth

theorem append (hb : Balanced bs) (hc : Balanced cs) : Balanced (bs ++ cs) := by
  unfold Balanced
  rw [depthAfter_append, hb.depthAfter, Option.bind_some, hc.depthAfter]

theorem enclosed (h : Balanced bs) : Balanced (.opens :: (bs ++ [.closes])) := by
  show SqlTree.depthAfter 1 (bs ++ [.closes]) = some 0
  rw [depthAfter_append, h.depthAfter, Option.bind_some]
  rfl

/-- Every part of balanced parentheses from the left has a depth. -/
theorem prefix_depth (h : Balanced (bs ++ cs)) : ∃ depth, SqlTree.depthAfter 0 bs = some depth := by
  unfold Balanced at h
  rw [depthAfter_append] at h
  obtain ⟨depth, hdepth, _⟩ := Option.bind_eq_some_iff.mp h
  exact ⟨depth, hdepth⟩

end Balanced

/-! ## 2. Parentheses of texts and of tokens -/

/-- The parenthesis that a character is, if it is one. -/
def bracketOf (c : Char) : Option Bracket :=
  if c = '(' then some .opens else if c = ')' then some .closes else none

/-- The parenthesis that a token is, if it is one. In names, literals and comments there is none. -/
def Token.bracket? : Token → Option Bracket
  | .mark c => bracketOf c
  | _ => none

/-- The parentheses of a text, quoted ones among them. -/
def Text.brackets (s : String) : List Bracket := s.toList.filterMap bracketOf

/-- The parentheses of tokens. -/
def brackets (ts : List Token) : List Bracket := ts.filterMap Token.bracket?

theorem brackets_append (ts us : List Token) : brackets (ts ++ us) = brackets ts ++ brackets us :=
  List.filterMap_append

theorem bracketOf_of_wordChar {c : Char} (hc : NameRule.isWordChar c = true) :
    bracketOf c = none := by
  unfold bracketOf
  rw [if_neg (by rintro rfl; cases hc), if_neg (by rintro rfl; cases hc)]

theorem bracketOf_of_blank {c : Char} (hc : isBlank c = true) : bracketOf c = none := by
  unfold bracketOf
  rw [if_neg (by rintro rfl; cases hc), if_neg (by rintro rfl; cases hc)]

/-- An inert token is no parenthesis. -/
theorem Token.bracket?_of_isInert {t : Token} (h : t.isInert = true) : t.bracket? = none := by
  have hmarks := of_decide_eq_true (Bool.and_eq_true_iff.mp h).1
  simp only [List.mem_cons, List.not_mem_nil, or_false, not_or] at hmarks
  obtain ⟨hopen, hclose, -⟩ := hmarks
  cases t with
  | mark c =>
    have hopen' : c ≠ '(' := fun hc => hopen (congrArg Token.mark hc)
    have hclose' : c ≠ ')' := fun hc => hclose (congrArg Token.mark hc)
    exact (if_neg hopen').trans (if_neg hclose')
  | _ => rfl

/-- A tame character is read with its parenthesis. -/
theorem brackets_step_of_tame {c : Char} (hc : isTame c = true) (r : Reading) {s : List Char}
    {m : Mode} (hm : m.tameIn s) : brackets (r.step m c).2 = [c].filterMap bracketOf := by
  have hstart : brackets (r.start c).2 = [c].filterMap bracketOf := by
    rw [start_of_tame hc, List.filterMap_cons]
    by_cases hword : NameRule.isWordChar c = true
    · rw [if_pos hword, bracketOf_of_wordChar hword]
      rfl
    · rw [if_neg hword]
      unfold separatorTokens
      by_cases hblank : isBlank c = true
      · rw [if_pos hblank, bracketOf_of_blank hblank]
        rfl
      · rw [if_neg hblank]
        rfl
  cases m with
  | gap => exact hstart
  | word w =>
    by_cases hword : NameRule.isWordChar c = true
    · have hstep : r.step (.word w) c = (.word (w ++ [c]), []) := if_pos hword
      rw [hstep, List.filterMap_cons, bracketOf_of_wordChar hword]
      rfl
    · have hstep : r.step (.word w) c = ((r.start c).1, [.word w] ++ (r.start c).2) :=
        if_neg hword
      rw [hstep, brackets_append, hstart]
      rfl
  | _ => cases hm

/-- **A tame text is read with the parentheses of its characters.** -/
theorem brackets_lex_of_tame (r : Reading) {s : String} (hs : ∀ c ∈ s.toList, isTame c = true) :
    brackets (r.lex s) = Text.brackets s := by
  have hread : ∀ {t : List Char}, (∀ c ∈ t, isTame c = true) → ∀ {s : List Char} {m : Mode},
      m.tameIn s → brackets (r.read m t).2 = t.filterMap bracketOf := by
    intro t
    induction t with
    | nil => exact fun _ _ _ _ => rfl
    | cons c rest ih =>
      intro ht s m hm
      have hc := ht c List.mem_cons_self
      have hrest := ih (fun a ha => ht a (List.mem_cons_of_mem _ ha)) (step_of_tame hc r hm).1
      have hsplit : (c :: rest).filterMap bracketOf
          = [c].filterMap bracketOf ++ rest.filterMap bracketOf :=
        List.filterMap_append (l := [c])
      rw [read_cons, brackets_append, hrest, brackets_step_of_tame hc r hm, hsplit]
  have hgap : Mode.tameIn [] .gap := trivial
  have hfinish : brackets (r.read .gap s.toList).1.finish = [] := by
    have hmode := (read_of_tame r hs hgap).1
    cases hm : (r.read .gap s.toList).1 with
    | gap => rfl
    | word w => rfl
    | _ =>
      rw [hm] at hmode
      cases hmode
  unfold lex
  rw [brackets_append, hfinish, List.append_nil]
  exact hread hs hgap

/-! ## 3. Sealed tokens -/

/-- Tokens that close the parentheses they open and no others, and of which none ends a statement
    or begins a comment to the end of the line. -/
structure Sealed (ts : List Token) : Prop where
  balanced : Balanced (brackets ts)
  endless : ∀ t ∈ ts, t ≠ .mark ';' ∧ t ≠ .dashes

namespace Sealed

variable {ts us : List Token}

theorem append (ht : Sealed ts) (hu : Sealed us) : Sealed (ts ++ us) := by
  refine ⟨?_, List.forall_mem_append.mpr ⟨ht.endless, hu.endless⟩⟩
  rw [brackets_append]
  exact ht.balanced.append hu.balanced

theorem paren (h : Sealed ts) : Sealed (.mark '(' :: (ts ++ [.mark ')'])) := by
  refine ⟨?_, ?_⟩
  · have hbrackets : brackets (.mark '(' :: (ts ++ [.mark ')']))
        = .opens :: (brackets ts ++ [.closes]) :=
      congrArg (Bracket.opens :: ·) (brackets_append ts [.mark ')'])
    rw [hbrackets]
    exact h.balanced.enclosed
  · simp only [List.forall_mem_cons, List.forall_mem_append]
    exact ⟨by decide, h.endless, by decide, fun t ht => by cases ht⟩

/-- Tokens that are no parentheses and end nothing. -/
theorem of_forall (h : ∀ t ∈ ts, t.bracket? = none ∧ t ≠ .mark ';' ∧ t ≠ .dashes) :
    Sealed ts := by
  refine ⟨?_, fun t ht => (h t ht).2⟩
  have hnone : brackets ts = [] := List.filterMap_eq_nil_iff.mpr fun t ht => (h t ht).1
  rw [hnone]
  exact .nil

theorem of_inert (h : ∀ t ∈ ts, t.isInert = true) : Sealed ts := by
  refine of_forall fun t ht => ⟨Token.bracket?_of_isInert (h t ht), ?_⟩
  have hmarks := of_decide_eq_true (Bool.and_eq_true_iff.mp (h t ht)).1
  simp only [List.mem_cons, List.not_mem_nil, or_false, not_or] at hmarks
  exact ⟨hmarks.2.2.1, hmarks.2.2.2.2⟩

/-- Two words around sealed tokens. -/
theorem between (h : Sealed ts) (l r : List Char) : Sealed (.word l :: (ts ++ [.word r])) := by
  have hword : ∀ w, Sealed [.word w] := fun w => of_forall (List.forall_mem_singleton.mpr
    ⟨rfl, Token.noConfusion, Token.noConfusion⟩)
  exact (hword l).append (h.append (hword r))

/-- A bare name that its rule accepts is sealed if its parentheses are balanced. -/
theorem of_accepts {rule : NameRule} {s : String} (h : rule.accepts s = true)
    (hb : Balanced (Text.brackets s)) (r : Reading) : Sealed (r.lex s) := by
  have hallows := List.all_eq_true.mp (Bool.and_eq_true_iff.mp h).2
  have htame : ∀ c ∈ s.toList, isTame c = true := isTame_of_accepts h
  refine ⟨?_, fun t ht => ?_⟩
  · rw [brackets_lex_of_tame r htame]
    exact hb
  · have hin := (lex_of_tame r htame).2 t ht
    cases t with
    | word w => exact ⟨Token.noConfusion, Token.noConfusion⟩
    | mark c =>
      refine ⟨fun heq => ?_, Token.noConfusion⟩
      obtain rfl := Token.mark.inj heq
      have hsemicolon := hallows ';' hin.1
      cases rule <;> cases hsemicolon
    | _ => cases hin

end Sealed

/-- A function name has no parentheses. -/
theorem balanced_of_function {s : String} (h : NameRule.function.accepts s = true) :
    Balanced (Text.brackets s) := by
  have hallows := List.all_eq_true.mp (Bool.and_eq_true_iff.mp h).2
  have hnone : Text.brackets s = [] :=
    List.filterMap_eq_nil_iff.mpr fun c hc => bracketOf_of_wordChar (hallows c hc)
  rw [hnone]
  exact .nil

theorem kept_sealed : Kept fun _ => Sealed where
  append := Sealed.append
  range h := h.between _ _
  choice h := h.between _ _
  paren := Sealed.paren
  sheltered := id
  inert := Sealed.of_inert
  or := .of_forall (List.forall_mem_singleton.mpr ⟨rfl, Token.noConfusion, Token.noConfusion⟩)

/-! ## 4. Sealed texts -/

/-- What a text may mention if its parentheses are to be paired. -/
def Mention.Paired : Mention → Prop
  | .value _ => True
  | .verbatim _ _ => False
  | .bare rule s => rule.accepts s = true ∧ Balanced (Text.brackets s)

section Spelled

variable {how : Spelling} {m : Mention}

theorem Mention.Paired.legible (h : m.Paired) : m.Legible how true := by
  cases m with
  | value v => exact fun bound => (how.inert_value v bound).1
  | verbatim sql binds => cases h
  | bare rule s => exact legible_bare h.1

theorem Mention.Paired.sealed (h : m.Paired) : m.Satisfies how true Sealed := by
  cases m with
  | value v => exact fun bound => .of_inert (how.inert_value v bound).2
  | verbatim sql binds => cases h
  | bare rule s => exact .of_accepts h.1 h.2 _

/-- **A text whose parts fit is sealed**, if what it mentions is. -/
theorem Doc.Spaced.sealed {inside : Bool} {e e' : Seam} {d : Doc}
    (h : Doc.Spaced .oneLine inside e d e') (hm : ∀ m ∈ d.mentions, m.Paired) :
    ∀ bound, Sealed (d.tokens how true bound) :=
  h.tokens_kept kept_sealed fun m hm' _ _ => (hm m hm').sealed

/-- A text that stands at a gap and mentions only what is paired is read as its tokens, and closes
    each name, literal and comment that it opens. -/
theorem Doc.Stands.read (how : Spelling) {inside : Bool} {d : Doc}
    (h : d.Stands .oneLine inside) (hm : ∀ m ∈ d.mentions, m.Paired) (bound : Nat) :
    ((how.reading true).read .gap (how.spell d bound).toList).1.settled = true
      ∧ (how.reading true).lex (how.spell d bound) = d.tokens how true bound := by
  have hlegible : ∀ m ∈ d.mentions, m.Legible how true := fun m hm' => (hm m hm').legible
  have hreads := h.reads hlegible bound
  obtain ⟨m, ts, hread, hsettled, -⟩ := hreads .gap rfl
  refine ⟨?_, hreads.lex_eq⟩
  rw [hread]
  exact hsettled

/-- The text of a tree that mentions only what is paired is read so, too. -/
theorem Node.read_spell (how : Spelling) {t : Node}
    (hm : ∀ m ∈ t.visited.flatMap mentioned, m.Paired) (bound : Nat) :
    ((how.reading true).read .gap (how.spell (t.doc .oneLine) bound).toList).1.settled = true
      ∧ (how.reading true).lex (how.spell (t.doc .oneLine) bound)
        = (t.doc .oneLine).tokens how true bound := by
  refine Doc.Stands.read how (t.spaced_doc .oneLine) ?_ bound
  rw [t.mentions_doc]
  exact hm

/-- **The text of a tree is sealed**, if what it mentions is. -/
theorem Node.sealed_tokens {t : Node} (hm : ∀ m ∈ t.visited.flatMap mentioned, m.Paired)
    (bound : Nat) : Sealed ((t.doc .oneLine).tokens how true bound) := by
  refine (t.spaced_doc .oneLine).sealed ?_ bound
  rw [t.mentions_doc]
  exact hm

end Spelled

/-! ## 5. Renderings -/

/-- The parentheses of every type name that is written below a node are balanced. -/
def Node.BalancedTypes (t : Node) : Prop :=
  ∀ n ∈ t.visited, ∀ v typeName, n.form = .cast v typeName → Balanced (Text.brackets typeName)

/-- Type names are balanced if those that the tree mentions are. -/
theorem Node.balancedTypes_of_mentioned {t : Node}
    (h : ∀ s, Mention.bare .type s ∈ t.visited.flatMap mentioned → Balanced (Text.brackets s)) :
    t.BalancedTypes := by
  intro n hn v typeName hform
  refine h typeName (List.mem_flatMap.mpr ⟨n, hn, ?_⟩)
  rw [mentioned, hform]
  exact List.mem_cons_of_mem _ List.mem_cons_self

/-- A tree without verbatim SQL whose type names are balanced mentions only what is paired, unless
    it is refused. -/
theorem Node.paired_of_fault?_eq_none {t : Node} (ht : t.NoVerbatim) (hb : t.BalancedTypes)
    {layout : Layout} (hf : (t.doc layout).fault? = none) :
    ∀ m ∈ t.visited.flatMap mentioned, m.Paired := by
  intro m hm
  obtain ⟨n, hn, hmention⟩ := List.mem_flatMap.mp hm
  rw [← t.mentions_doc layout] at hm
  have hplain := plain_of_fault?_eq_none ht hf m hm
  cases m with
  | value v => trivial
  | verbatim sql binds => cases hplain
  | bare rule s =>
    refine ⟨hplain, ?_⟩
    rcases Form.eq_of_bare_mem_mentioned hmention with ⟨-, v, hform⟩ | ⟨rfl, -⟩
    · exact hb n hn v s hform
    · exact balanced_of_function hplain

namespace Session

/-- A rendering on one line mentions only what is paired, closes what it opens, and is read as the
    tokens of its tree. -/
theorem read_of_render {s s' : Session} {t : Node} {text : String}
    (hl : s.renderer.layout = .oneLine) (ht : t.NoVerbatim) (hb : t.BalancedTypes)
    (h : s.render t = .ok (text, s')) :
    let r : Reading := ⟨s.renderer.dialect, true⟩
    (∀ m ∈ t.visited.flatMap Node.mentioned, m.Paired)
      ∧ (r.read .gap text.toList).1.settled = true
      ∧ r.lex text = (t.doc .oneLine).tokens s.renderer.spelling true s.index := by
  intro r
  obtain ⟨hfault, htext, -⟩ := render_eq_ok_iff.mp h
  rw [hl] at hfault htext
  have hpaired := Node.paired_of_fault?_eq_none ht hb hfault
  rw [htext]
  exact ⟨hpaired, Node.read_spell s.renderer.spelling hpaired s.index⟩

/-- **Every rendering on one line is sealed**, in each dialect, with placeholders and with literals.
    The text of a tree without verbatim SQL, whose type names have balanced parentheses, closes each
    name, literal and comment that it opens, whatever names, comments, hints and texts the tree
    holds. Outside of them no parenthesis closes what is not open, none stays open, and neither a
    semicolon nor two minus signs side by side occur. -/
theorem render_sealed {s s' : Session} {t : Node} {text : String}
    (hl : s.renderer.layout = .oneLine) (ht : t.NoVerbatim) (hb : t.BalancedTypes)
    (h : s.render t = .ok (text, s')) :
    let r : Reading := ⟨s.renderer.dialect, true⟩
    (r.read .gap text.toList).1.settled = true
      ∧ (∀ front back, r.lex text = front ++ back →
        ∃ depth, depthAfter 0 (brackets front) = some depth)
      ∧ depthAfter 0 (brackets (r.lex text)) = some 0
      ∧ Token.mark ';' ∉ r.lex text ∧ Token.dashes ∉ r.lex text := by
  intro r
  obtain ⟨hpaired, hsettled, hlex⟩ := read_of_render hl ht hb h
  have hsealed : Sealed (r.lex text) := hlex ▸ Node.sealed_tokens hpaired s.index
  refine ⟨hsettled, fun front back hsplit => ?_, hsealed.balanced, fun hmem => ?_, fun hmem => ?_⟩
  · have hbalanced : Balanced (brackets front ++ brackets back) := by
      rw [← brackets_append, ← hsplit]
      exact hsealed.balanced
    exact hbalanced.prefix_depth
  · exact (hsealed.endless _ hmem).1 rfl
  · exact (hsealed.endless _ hmem).2 rfl

/-- A query with quotes, parentheses, ends of comments and of statements wherever a text of the
    caller may stand. -/
def hostileSelect : Node :=
  ⟨.select
    { source := some ⟨.tableAlias ⟨.table "t\x60; (--"⟩ ")"⟩
      projections := [⟨.cast (.text "\\\x27); DROP TABLE t; --") "NUMERIC(10, 2)"⟩,
        ⟨.call "END" [] false⟩]
      wheres := [⟨.arithmetic ⟨.literal (.int (-1))⟩ .sub ⟨.literal (.int (-2))⟩⟩]
      comment := some "*/ ; ("
      hints := ["--", ")"] }⟩

/-- MySQL reads the literals of `hostileSelect` in no other way. -/
theorem render_sealed_hostileSelect :
    ∃ text s', (Session.mk ⟨.mysql, .oneLine, false⟩ []).render hostileSelect = .ok (text, s')
      ∧ ((Reading.mk .mysql true).read .gap text.toList).1.settled = true
      ∧ depthAfter 0 (brackets ((Reading.mk .mysql true).lex text)) = some 0
      ∧ Token.mark ';' ∉ (Reading.mk .mysql true).lex text
      ∧ Token.dashes ∉ (Reading.mk .mysql true).lex text := by
  have hverbatim : hostileSelect.NoVerbatim := Node.noVerbatim_of_parts (by decide)
  have htypes : hostileSelect.BalancedTypes := by
    have hmentioned : hostileSelect.visited.flatMap Node.mentioned
        = [.value (.text "\\\x27); DROP TABLE t; --"), .bare .type "NUMERIC(10, 2)",
          .bare .function "END", .value (.int (-1)), .value (.int (-2))] := rfl
    refine Node.balancedTypes_of_mentioned fun s hs => ?_
    rw [hmentioned] at hs
    obtain rfl : s = "NUMERIC(10, 2)" := by simpa using hs
    decide
  obtain ⟨text, s', h⟩ : ∃ text s',
      (Session.mk ⟨.mysql, .oneLine, false⟩ []).render hostileSelect = .ok (text, s') :=
    ⟨_, _, rfl⟩
  obtain ⟨hsettled, -, hdepth, hsemicolon, hdashes⟩ := render_sealed rfl hverbatim htypes h
  exact ⟨text, s', h, hsettled, hdepth, hsemicolon, hdashes⟩

end Session
end SqlTree
