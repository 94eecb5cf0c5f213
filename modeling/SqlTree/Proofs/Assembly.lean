import SqlTree.Proofs.Precedence
import SqlTree.Proofs.Tokens

/-!
# What tokens keep when a text is put together

Much that is true of the tokens of a rendering is true of the tokens of its parts and handed on:
when parts follow each other, and when parentheses, a range or a CASE stand around them. This file
proves once that such a property reaches the whole text. It may say less inside parentheses than
outside, where no OR stands.

* `Token.isInert` -- tokens that open, close and end nothing, and connect nothing but with AND;
* `Kept` -- a property that tokens keep when a text is put together from them;
* `Doc.Spaced.tokens_kept` -- such a property holds of every text whose parts fit, if it holds of
  what the text mentions.
-/

namespace SqlTree

open Reading

/-! ## 1. Tokens that do nothing to what is around them -/

/-- A token is inert if it is no end of a group, connects no conditions but with AND, and is in no
    dialect a stray one. -/
def Token.isInert (t : Token) : Bool :=
  t ∉ [.mark '(', .mark ')', .mark ';', .mark '#', .dashes]
    && !groupWords.any fun word => t.isWord word

/-- A tame text has the tokens that PostgreSQL reads. -/
theorem lex_tame {s : String} (hs : s.toList.all isTame = true) (r : Reading) :
    r.lex s = (Reading.mk .postgres true).lex s :=
  lex_eq_of_tame r _ (List.all_eq_true.mp hs)

/-- What a fixed text is read as is inert. -/
theorem inert_of_fixedText {e e' : Seam} {s : String} (h : fixedText e s e' = true)
    (r : Reading) : ∀ t ∈ r.lex s, t.isInert = true := by
  have hchar := isFixed_of_fixedText h
  have htame : ∀ c ∈ s.toList, isTame c = true := fun c hc => isTame_of_isFixed (hchar c hc)
  intro t ht
  have hin : t.tameIn s.toList := (lex_of_tame r htame).2 t ht
  rw [lex_tame (List.all_eq_true.mpr htame)] at ht
  have hwords : (!groupWords.any fun word => t.isWord word) = true :=
    List.all_eq_true.mp (groupless_of_fixedText h) t ht
  refine Bool.and_eq_true_iff.mpr ⟨decide_eq_true ?_, hwords⟩
  cases t with
  | word w => simp
  | mark c =>
    have hbad : ['(', ')', ';', '#'].any isFixed = false := rfl
    have hc : c ∉ ['(', ')', ';', '#'] := fun hmem =>
      List.any_eq_false.mp hbad c hmem (hchar c hin.1)
    simpa using hc
  | _ => cases hin

/-- Operators of one character are inert. -/
theorem inert_operator {s : String} (hs : s ∈ loneOperators) (r : Reading) :
    ∀ t ∈ r.lex s, t.isInert = true := by
  obtain ⟨dialect, literals⟩ := r
  rcases List.mem_pair.mp hs with rfl | rfl <;> cases dialect <;> cases literals <;> decide

/-! ## 2. Properties of tokens -/

/-- The word between alternatives. -/
def orToken : Token := .word "OR".toList

/-- A property that tokens keep when a text is put together from them, outside and inside
    parentheses: one behind the other, as the lower end of a range, from CASE to END, and in
    parentheses. Inert tokens have it, and inside parentheses so does an OR. -/
structure Kept (P : Bool → List Token → Prop) : Prop where
  append {inside : Bool} {ts us : List Token} : P inside ts → P inside us → P inside (ts ++ us)
  range {inside : Bool} {ts : List Token} :
    P inside ts → P inside (.word "BETWEEN".toList :: (ts ++ [andToken]))
  choice {inside : Bool} {ts : List Token} :
    P inside ts → P inside (.word "CASE".toList :: (ts ++ [.word "END".toList]))
  paren {inside : Bool} {ts : List Token} : P true ts → P inside (.mark '(' :: (ts ++ [.mark ')']))
  sheltered {inside : Bool} {ts : List Token} : P inside ts → P true ts
  inert {inside : Bool} {ts : List Token} : (∀ t ∈ ts, t.isInert = true) → P inside ts
  or : P true [orToken]

section Spelled

variable {how : Spelling} {literals inside : Bool} {P : Bool → List Token → Prop}

namespace Kept

theorem singleton (hP : Kept P) {t : Token} (ht : t.isInert = true) : P inside [t] :=
  hP.inert (List.forall_mem_singleton.mpr ht)

/-- The words of a range, and its lower end between them. -/
theorem tokens_range (hP : Kept P) {d low : Doc} {word : String} (hw : word ∈ rangeWords)
    {bound : Nat} (hd : P inside (d.tokens how literals bound))
    (hlow : P inside (low.tokens how literals (bound + (d ++ Doc.text word).slots))) :
    P inside ((d ++ Doc.text word ++ low ++ Doc.text " AND ").tokens how literals bound) := by
  have hand : (how.reading literals).lex " AND " = [andToken] := lex_tame (by decide) _
  obtain ⟨front, hfront, hlex⟩ : ∃ front, (∀ t ∈ front, t.isInert = true)
      ∧ (how.reading literals).lex word = front ++ [.word "BETWEEN".toList] := by
    rcases List.mem_pair.mp hw with rfl | rfl
    · exact ⟨[], by decide, lex_tame (by decide) _⟩
    · exact ⟨[.word "NOT".toList], by decide, lex_tame (by decide) _⟩
  have htokens : (d ++ Doc.text word ++ low ++ Doc.text " AND ").tokens how literals bound
      = d.tokens how literals bound ++ front ++ (.word "BETWEEN".toList
        :: (low.tokens how literals (bound + (d ++ Doc.text word).slots) ++ [andToken])) := by
    show d.tokens how literals bound ++ (how.reading literals).lex word
      ++ low.tokens how literals (bound + (d ++ Doc.text word).slots)
      ++ (how.reading literals).lex " AND " = _
    rw [hlex, hand]
    simp only [List.append_assoc, List.cons_append, List.nil_append]
  rw [htokens]
  exact hP.append (hP.append hd (hP.inert hfront)) (hP.range hlow)

/-- A CASE with what stands up to its END. -/
theorem tokens_choice (hP : Kept P) {d branches otherwise : Doc} {bound : Nat}
    (hd : P inside (d.tokens how literals (bound + (Doc.text "CASE").slots)))
    (hb : P inside (branches.tokens how literals (bound + (Doc.text "CASE" ++ d).slots)))
    (ho : P inside
      (otherwise.tokens how literals (bound + (Doc.text "CASE" ++ d ++ branches).slots))) :
    P inside ((Doc.text "CASE" ++ d ++ branches ++ otherwise ++ Doc.text " END").tokens how literals
      bound) := by
  have hcase : (how.reading literals).lex "CASE" = [.word "CASE".toList] := lex_tame (by decide) _
  have hend : (how.reading literals).lex " END" = [.word "END".toList] := lex_tame (by decide) _
  have htokens : (Doc.text "CASE" ++ d ++ branches ++ otherwise ++ Doc.text " END").tokens how
      literals bound = .word "CASE".toList
        :: (d.tokens how literals (bound + (Doc.text "CASE").slots)
          ++ branches.tokens how literals (bound + (Doc.text "CASE" ++ d).slots)
          ++ otherwise.tokens how literals (bound + (Doc.text "CASE" ++ d ++ branches).slots)
          ++ [.word "END".toList]) := by
    show (how.reading literals).lex "CASE" ++ _ ++ _ ++ _ ++ (how.reading literals).lex " END" = _
    rw [hcase, hend]
    rfl
  rw [htokens]
  exact hP.choice (hP.append (hP.append hd hb) ho)

end Kept

/-- What a dialect writes around a comparison is inert, unless it compares without regard to case by
    a function of its own. -/
theorem Dialect.inert_comparisonFrame {d : Dialect} {op : ComparisonOp}
    (h : ¬(d = .postgres ∧ op = .caseInsensitiveEq)) (r : Reading) :
    ∀ s ∈ (d.comparisonFrame op).texts, ∀ t ∈ r.lex s, t.isInert = true := by
  have hfixed : ∀ s ∈ (d.comparisonFrame op).texts, s.toList.all isTame = true
      ∧ ∀ t ∈ (Reading.mk .postgres true).lex s, t.isInert = true := by
    cases d <;> cases op <;> first | exact absurd ⟨rfl, rfl⟩ h | decide
  intro s hs t ht
  rw [lex_tame (hfixed s hs).1] at ht
  exact (hfixed s hs).2 t ht

/-- A comparison keeps what its two sides have: a dialect only puts inert tokens around them, or a
    function around each. -/
theorem Kept.tokens_comparison (hP : Kept P) {op : ComparisonOp} {l r : Doc} {bound : Nat}
    (hl : P inside (l.tokens how literals bound))
    (hr : P inside (r.tokens how literals (bound + l.slots))) :
    P inside ((Doc.comparison op l r).tokens how literals bound) := by
  show P inside ((how.reading literals).lex (how.dialect.comparisonFrame op).before
    ++ l.tokens how literals bound
    ++ (how.reading literals).lex (how.dialect.comparisonFrame op).between
    ++ r.tokens how literals (bound + l.slots)
    ++ (how.reading literals).lex (how.dialect.comparisonFrame op).after)
  by_cases hlower : how.dialect = .postgres ∧ op = .caseInsensitiveEq
  · obtain ⟨hdialect, rfl⟩ := hlower
    have hframe : how.dialect.comparisonFrame .caseInsensitiveEq
        = ⟨"LOWER(", ") = LOWER(", ")"⟩ := by
      rw [hdialect]
      rfl
    have hfirst : (how.reading literals).lex "LOWER(" = [.word "LOWER".toList, .mark '('] :=
      lex_tame (by decide) _
    have hsecond : (how.reading literals).lex ") = LOWER("
        = [.mark ')', .mark '=', .word "LOWER".toList, .mark '('] := lex_tame (by decide) _
    have hthird : (how.reading literals).lex ")" = [.mark ')'] := lex_tame (by decide) _
    have hword : P inside [.word "LOWER".toList] := hP.singleton rfl
    have hequals : P inside [.mark '=', .word "LOWER".toList] := hP.inert (by decide)
    have hsides := hP.append (hP.append hword (hP.paren (hP.sheltered hl)))
      (hP.append hequals (hP.paren (hP.sheltered hr)))
    rw [hframe, hfirst, hsecond, hthird]
    simp only [List.append_assoc, List.cons_append, List.nil_append] at hsides ⊢
    exact hsides
  · have hframe := fun s hs => @Kept.inert P hP inside _ (Dialect.inert_comparisonFrame hlower
      (how.reading literals) s hs)
    have hbefore := hframe _ List.mem_cons_self
    have hbetween := hframe _ (List.mem_cons_of_mem _ List.mem_cons_self)
    have hafter := hframe _ (List.mem_cons_of_mem _ (List.mem_cons_of_mem _ List.mem_cons_self))
    exact hP.append (hP.append (hP.append (hP.append hbefore hl) hbetween) hr) hafter

/-! ## 3. Texts -/

variable (how literals) in
/-- The tokens of a mention have a property. -/
def Mention.Satisfies (P : List Token → Prop) : Mention → Prop
  | .value v => ∀ bound, P ((how.reading literals).lex (how.value v bound))
  | .verbatim sql _ => P ((how.reading literals).lex sql)
  | .bare _ s => P ((how.reading literals).lex s)

/-- A mention that may stand outside parentheses. -/
def Mention.isOpen : Mention → Bool
  | .bare .type _ => false
  | _ => true

/-- **A property that is kept holds of a text whose parts fit**, if it holds of what the text
    mentions: outside parentheses of what may stand there, inside of everything. -/
theorem Doc.Spaced.tokens_kept (hP : Kept P) {e e' : Seam} {d : Doc}
    (h : Spaced .oneLine inside e d e')
    (hm : ∀ m ∈ d.mentions, ∀ inside, inside = true ∨ m.isOpen = true →
      m.Satisfies how literals (P inside)) :
    ∀ bound, P inside (d.tokens how literals bound) := by
  induction h with
  | text h => exact fun bound => hP.inert (inert_of_fixedText h _)
  | or =>
    have hor : (how.reading literals).lex " OR " = [orToken] := lex_tame (by decide) _
    intro bound
    show P true ((how.reading literals).lex " OR ")
    rw [hor]
    exact hP.or
  | operator h => exact fun bound => hP.inert (inert_operator h _)
  | name s => exact fun bound => hP.singleton rfl
  | bare h s =>
    refine fun bound => hm _ List.mem_cons_self _ (h.imp_right fun hrule => ?_)
    rw [hrule]
    rfl
  | value v => exact fun bound => hm _ List.mem_cons_self _ (.inr rfl) bound
  | raw sql binds => exact fun bound => hm _ List.mem_cons_self _ (.inr rfl)
  | comment h s => exact fun bound => hP.singleton rfl
  | comparison op hl hr ihl ihr =>
    exact fun bound => hP.tokens_comparison
      (ihl (fun m hm' => hm m (List.mem_append_left _ hm')) bound)
      (ihr (fun m hm' => hm m (List.mem_append_right _ hm')) _)
  | paren h ih => exact fun bound => hP.paren (ih hm bound)
  | indented hl h _ => cases hl
  | range hw hd hlow ihd ihlow =>
    simp only [mentions_append, mentions_text, List.append_nil, List.forall_mem_append] at hm
    exact fun bound => hP.tokens_range hw (ihd hm.1 bound) (ihlow hm.2 _)
  | choice hd hb ho ihd ihb iho =>
    simp only [mentions_append, mentions_text, List.append_nil, List.nil_append,
      List.forall_mem_append] at hm
    exact fun bound => hP.tokens_choice (ihd hm.1.1 _) (ihb hm.1.2 _) (iho hm.2 _)
  | append hl hr ihl ihr =>
    exact fun bound => hP.append (ihl (fun m hm' => hm m (List.mem_append_left _ hm')) bound)
      (ihr (fun m hm' => hm m (List.mem_append_right _ hm')) _)

end Spelled
end SqlTree
