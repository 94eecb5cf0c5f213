import SqlTree.Proofs.Assembly
import SqlTree.Proofs.NumeralText
import SqlTree.Proofs.Placeholders

/-!
# Values in a text

A value is read as a few harmless tokens, as a placeholder and as a literal alike:

* `NumberText` -- the texts of numbers: each minus sign stands before a digit or a letter, so no two
  of them meet;
* `read_number` -- the reader sees words and single characters in them;
* `read_stringBody` -- an escaped text stays inside its literal, in dialects where a backslash
  protects the next character and in those where it does not;
* `Spelling.inert_value` -- what a value is read as opens and closes nothing, ends nothing, and
  connects no conditions.
-/

namespace SqlTree

open Reading

/-! ## 1. Numbers -/

/-- The characters of numbers and of the words for what is none, except for the minus sign. -/
def plainNumberChars : List Char := "0123456789.e+NaInf".toList

/-- The characters of numbers. -/
def numberChars : List Char := '-' :: plainNumberChars

/-- The text of a number: behind a minus sign stands something else. -/
inductive NumberText : List Char → Prop where
  | nil : NumberText []
  | plain {c : Char} {s : List Char} (hc : c ∈ plainNumberChars) (h : NumberText s) :
    NumberText (c :: s)
  | minus {c : Char} {s : List Char} (hc : c ∈ plainNumberChars) (h : NumberText s) :
    NumberText ('-' :: c :: s)

namespace NumberText

variable {s t : List Char}

theorem append (hs : s ⊆ plainNumberChars) (ht : NumberText t) : NumberText (s ++ t) := by
  induction s with
  | nil => exact ht
  | cons c rest ih =>
    obtain ⟨hc, hrest⟩ := List.cons_subset.mp hs
    exact .plain hc (ih hrest)

theorem of_plain (hs : s ⊆ plainNumberChars) : NumberText s := by
  have h := append hs .nil
  rwa [List.append_nil] at h

end NumberText

/-- The text of a number that begins with something else than a minus sign. -/
def UnsignedText (s : List Char) : Prop :=
  ∃ c rest, s = c :: rest ∧ c ∈ plainNumberChars ∧ NumberText rest

namespace UnsignedText

variable {s t : List Char}

theorem append (hne : s ≠ []) (hs : s ⊆ plainNumberChars) (ht : NumberText t) :
    UnsignedText (s ++ t) := by
  obtain ⟨c, rest, rfl⟩ := List.exists_cons_of_ne_nil hne
  obtain ⟨hc, hrest⟩ := List.cons_subset.mp hs
  exact ⟨c, rest ++ t, rfl, hc, .append hrest ht⟩

theorem of_plain (hne : s ≠ []) (hs : s ⊆ plainNumberChars) : UnsignedText s := by
  have h := append hne hs .nil
  rwa [List.append_nil] at h

/-- A minus sign may stand before it. -/
theorem signed (h : UnsignedText s) (negative : Bool) :
    NumberText ((if negative then ['-'] else []) ++ s) := by
  obtain ⟨c, rest, rfl, hc, hrest⟩ := h
  cases negative with
  | false => exact .plain hc hrest
  | true => exact .minus hc hrest

end UnsignedText

/-- What holds of the ten digits holds of every digit. -/
theorem forall_isDigit {P : Char → Prop} (h : ∀ d : Fin 10, P (Char.ofNat (48 + d))) {c : Char}
    (hc : c.isDigit = true) : P c := by
  obtain ⟨hlow, hhigh⟩ := Char.isDigit_iff_toNat.mp hc
  have hlow' : 48 ≤ c.toNat := hlow
  have hhigh' : c.toNat ≤ 57 := hhigh
  have hd := h ⟨c.toNat - 48, by omega⟩
  have hsum : 48 + (c.toNat - 48) = c.toNat := by omega
  rw [← Char.ofNat_toNat c, ← hsum]
  exact hd

theorem isDigit_plain {c : Char} (hc : c.isDigit = true) : c ∈ plainNumberChars :=
  forall_isDigit (by decide) hc

theorem toDigits_plain (n : Nat) : Nat.toDigits 10 n ⊆ plainNumberChars := fun _ hc =>
  isDigit_plain (Nat.isDigit_of_mem_toDigits (by decide) (by decide) hc)

theorem replicate_plain (n : Nat) : List.replicate n '0' ⊆ plainNumberChars := by
  intro c hc
  rw [(List.mem_replicate.mp hc).2]
  decide

theorem numberText_toString_nat (n : Nat) : NumberText (toString n).toList := by
  rw [Nat.toString_eq_ofList_toDigits, String.toList_ofList]
  exact .of_plain (toDigits_plain n)

theorem numberText_toString_int (n : Int) : NumberText (toString n).toList := by
  rw [toList_toString_int]
  exact (UnsignedText.of_plain Nat.toDigits_ne_nil (toDigits_plain _)).signed (decide (n < 0))

namespace NumberStyle

variable (style : NumberStyle)

/-- Positional notation has digits and at most one point. -/
theorem unsigned_positional {digits : List Char} (hne : digits ≠ [])
    (hd : digits ⊆ plainNumberChars) (leading : Int) :
    UnsignedText (style.positional digits leading) := by
  have hpoint : '.' ∈ plainNumberChars := by decide
  have hzero : '0' ∈ plainNumberChars := by decide
  unfold positional
  by_cases hleading : leading < 0
  · rw [if_pos hleading]
    refine .of_plain (List.cons_ne_nil _ _) ?_
    refine List.cons_subset.mpr ⟨hzero, List.cons_subset.mpr ⟨hpoint, ?_⟩⟩
    exact List.append_subset.mpr ⟨replicate_plain _, hd⟩
  · rw [if_neg hleading]
    dsimp only
    split
    · rw [List.append_assoc]
      refine .append hne hd (.of_plain (List.append_subset.mpr ⟨replicate_plain _, ?_⟩))
      split <;> decide
    · refine .of_plain (by simp) (List.append_subset.mpr ⟨?_, ?_⟩)
      · exact fun c hc => hd (List.mem_of_mem_take hc)
      · exact List.cons_subset.mpr ⟨hpoint, fun c hc => hd (List.mem_of_mem_drop hc)⟩

/-- In scientific notation a minus sign stands before the digits of the exponent. -/
theorem unsigned_scientific {digits : List Char} (hd : digits ⊆ plainNumberChars)
    (leading : Int) : UnsignedText (style.scientific digits leading) := by
  have hexponent : NumberText ((if leading < 0 then '-' else '+')
      :: padded style.exponentWidth (Nat.toDigits 10 leading.natAbs)) := by
    have hpadded : UnsignedText (padded style.exponentWidth (Nat.toDigits 10 leading.natAbs)) := by
      refine .of_plain (fun h => ?_)
        (List.append_subset.mpr ⟨replicate_plain _, toDigits_plain _⟩)
      exact Nat.toDigits_ne_nil (List.append_eq_nil_iff.mp h).2
    split
    · exact hpadded.signed true
    · exact .plain (by decide) (hpadded.signed false)
  have hbehind : ∀ mantissa : List Char, mantissa ⊆ plainNumberChars →
      UnsignedText (mantissa ++ 'e' :: (if leading < 0 then '-' else '+')
        :: padded style.exponentWidth (Nat.toDigits 10 leading.natAbs)) := by
    intro mantissa hmantissa
    have hfront : mantissa ++ ['e'] ⊆ plainNumberChars :=
      List.append_subset.mpr ⟨hmantissa, by decide⟩
    rw [← List.singleton_append, ← List.append_assoc]
    exact .append (by simp) hfront hexponent
  unfold scientific
  refine hbehind _ ?_
  split
  · obtain ⟨hfirst, hmore⟩ := List.cons_subset.mp hd
    exact List.cons_subset.mpr ⟨hfirst, List.cons_subset.mpr ⟨by decide, hmore⟩⟩
  · exact hd

theorem unsigned_decimal (d : Decimal) : UnsignedText (style.decimal d) := by
  have hdigits := toDigits_plain d.digits
  unfold decimal
  dsimp only
  split
  · exact style.unsigned_positional Nat.toDigits_ne_nil hdigits _
  · exact style.unsigned_scientific hdigits _

end NumberStyle

/-- **Floating-point numbers are written as numbers.** -/
theorem numberText_write (x : Binary64) : NumberText (sqlNumber.write x).toList := by
  have hplus : '+' ∈ plainNumberChars := by decide
  unfold NumberStyle.write
  split
  · exact .of_plain (by decide)
  · split
    · split
      · exact .minus (by decide) (.of_plain (by decide))
      · exact .of_plain (by decide)
    · rw [String.toList_ofList]
      exact (sqlNumber.unsigned_decimal _).signed x.negative

/-! ## 2. Reading numbers -/

theorem plain_tame : ∀ c ∈ plainNumberChars, isTame c = true := List.all_eq_true.mp rfl

theorem Reading.Mode.tameIn.mono {s s' : List Char} (hs : s ⊆ s') {m : Mode} (h : m.tameIn s) :
    m.tameIn s' := by
  cases m with
  | gap => trivial
  | word w => exact fun c hc => hs (h hc)
  | _ => cases h

/-- A character of a number that is no minus sign leaves the reader at a gap or in a word. -/
theorem step_number (r : Reading) {c : Char} (hc : c ∈ plainNumberChars) {m : Mode}
    (hm : m.tameIn numberChars) :
    (r.step m c).1.tameIn numberChars ∧ ∀ t ∈ (r.step m c).2, t.tameIn numberChars := by
  have hsub : numberChars ++ [c] ⊆ numberChars :=
    List.append_subset.mpr ⟨List.Subset.refl _,
      List.cons_subset.mpr ⟨List.mem_cons_of_mem _ hc, List.nil_subset _⟩⟩
  obtain ⟨hmode, htoks⟩ := step_of_tame (plain_tame c hc) r hm
  exact ⟨hmode.mono hsub, fun t ht => (htoks t ht).mono hsub⟩

/-- A minus sign in a number ends what stands before it. -/
theorem step_minus (r : Reading) {m : Mode} (hm : m.tameIn numberChars) :
    r.step m '-' = (.minus, m.finish) := by
  have hnext : r.next m '-' = (.minus, m.finish) := by
    unfold next
    rw [start_minus, List.append_nil]
  cases m with
  | gap => exact start_minus r
  | word w =>
    have hstep : r.step (.word w) '-' = r.next (.word w) '-' := rfl
    rw [hstep, hnext]
  | _ => cases hm

/-- **A number is read as words and single characters.** -/
theorem read_number (r : Reading) {s : List Char} (h : NumberText s) :
    ∀ {m : Mode}, m.tameIn numberChars →
      (r.read m s).1.tameIn numberChars ∧ ∀ t ∈ (r.read m s).2, t.tameIn numberChars := by
  induction h with
  | nil => exact fun hm => ⟨hm, fun t ht => by cases ht⟩
  | plain hc _ ih =>
    intro m hm
    obtain ⟨hmode, htoks⟩ := step_number r hc hm
    obtain ⟨hmode', htoks'⟩ := ih hmode
    rw [read_cons]
    exact ⟨hmode', List.forall_mem_append.mpr ⟨htoks, htoks'⟩⟩
  | minus hc _ ih =>
    rename_i c s _
    intro m hm
    have hne : c ≠ '-' := by
      rintro rfl
      exact absurd hc (by decide)
    obtain ⟨hmode, htoks⟩ := step_number r hc (m := .gap) trivial
    obtain ⟨hmode', htoks'⟩ := ih hmode
    have hstep : r.step .minus c = ((r.start c).1, .mark '-' :: (r.start c).2) := if_neg hne
    have hmark : Token.tameIn numberChars (.mark '-') := ⟨List.mem_cons_self, rfl⟩
    rw [read_cons, step_minus r hm, read_cons, hstep]
    refine ⟨hmode', ?_⟩
    simp only [List.forall_mem_append, List.forall_mem_cons]
    exact ⟨hm.finish, ⟨hmark, htoks⟩, htoks'⟩

/-! ## 3. Reading string literals -/

/-- **An escaped text stays inside its literal**, also where a backslash protects the next
    character. -/
theorem read_stringBody (r : Reading) (text : List Char) :
    ∀ s : List Char, r.read (.literal s) (Text.stringBody text)
      = (.literal (s ++ Text.stringBody text), []) := by
  induction text with
  | nil =>
    intro s
    rw [Text.stringBody, List.append_nil]
    rfl
  | cons c rest ih =>
    intro s
    unfold Text.stringBody
    by_cases hquote : c = Text.singleQuote
    · -- the first quote looks like the end of the literal, the second one takes that back
      have hfirst : r.step (.literal s) c = (.literalEnd s, []) := if_pos hquote
      have hsecond : r.step (.literalEnd s) c = (.literal (s ++ [c, c]), []) := if_pos hquote
      rw [if_pos (Or.inr hquote), read_cons, hfirst, read_cons, hsecond, ih, List.append_assoc]
      rfl
    · have hnoquote : ∀ s, r.step (.literal s) c
          = if c = '\\' ∧ r.dialect = .mysql then (.escape (s ++ [c]), [])
            else (.literal (s ++ [c]), []) := fun s => if_neg hquote
      by_cases hbackslash : c = '\\'
      · rw [if_pos (Or.inl hbackslash), read_cons, read_cons]
        by_cases hmysql : r.dialect = .mysql
        · -- the first backslash protects the second one
          have hfirst : r.step (.literal s) c = (.escape (s ++ [c]), []) := by
            rw [hnoquote, if_pos ⟨hbackslash, hmysql⟩]
          have hsecond : r.step (.escape (s ++ [c])) c = (.literal (s ++ [c] ++ [c]), []) := rfl
          rw [hfirst, hsecond, ih]
          simp
        · have hstep : ∀ s, r.step (.literal s) c = (.literal (s ++ [c]), []) := by
            intro s
            rw [hnoquote, if_neg fun h => hmysql h.2]
          rw [hstep, hstep, ih]
          simp
      · have hplain : ¬(c = '\\' ∨ c = Text.singleQuote) := by
          rintro (h | h)
          · exact hbackslash h
          · exact hquote h
        have hstep : r.step (.literal s) c = (.literal (s ++ [c]), []) := by
          rw [hnoquote, if_neg fun h => hbackslash h.1]
        rw [if_neg hplain, read_cons, hstep, ih, List.append_assoc]
        rfl

/-- A text between single quotes is read as one literal. -/
theorem read_literal {r : Reading} (hr : r.literals = true) (s : String) :
    r.read .gap (Value.text s).inline.toList = (.literalEnd (Text.stringBody s.toList), []) := by
  have htext : (Value.text s).inline.toList
      = Text.singleQuote :: (Text.stringBody s.toList ++ [Text.singleQuote]) := by
    show ("\x27" ++ Text.escapeString s ++ "\x27").toList = _
    unfold Text.escapeString
    simp only [String.toList_append, String.toList_ofList]
    rfl
  have hopen : r.step .gap Text.singleQuote = (.literal [], []) := by
    have hmark : Text.singleQuote ≠ r.dialect.quoteMark := by cases r.dialect <;> decide
    exact (if_neg hmark).trans (if_pos ⟨rfl, hr⟩)
  have hclose : ∀ t, r.read (.literal t) [Text.singleQuote] = (.literalEnd t, []) := fun t => rfl
  rw [htext, read_cons, hopen, read_append, read_stringBody, hclose]
  rfl

/-! ## 4. Values -/

/-- What is written with the characters of numbers is inert. -/
theorem Token.inert_of_number {t : Token} (h : t.tameIn numberChars) : t.isInert = true := by
  have hword : ∀ keyword ∈ groupWords, t.isWord keyword = false := by
    intro keyword hkeyword
    cases t with
    | word w =>
      refine beq_eq_false_iff_ne.mpr fun heq => ?_
      have hforeign : ∀ keyword ∈ groupWords,
          ¬ keyword.toList ⊆ numberChars.map Char.toUpper := by decide
      refine hforeign keyword hkeyword fun c hc => ?_
      rw [← heq] at hc
      obtain ⟨a, ha, rfl⟩ := List.mem_map.mp hc
      exact List.mem_map_of_mem (h ha)
    | _ => rfl
  have hmark : t ∉ [Token.mark '(', .mark ')', .mark ';', .mark '#', .dashes] := by
    cases t with
    | mark c =>
      have hforeign : numberChars.any (· ∈ ['(', ')', ';', '#']) = false := rfl
      intro hmem
      have hc : c ∈ ['(', ')', ';', '#'] := by simpa using hmem
      exact List.any_eq_false.mp hforeign c h.1 (decide_eq_true hc)
    | word w => simp
    | _ => cases h
  have hgroups : groupWords.any (fun word => t.isWord word) = false :=
    List.any_eq_false.mpr fun word hmem => by
      rw [hword word hmem]
      decide
  unfold isInert
  rw [hgroups, decide_eq_true hmark]
  rfl

/-- A number ends where it is written to end, and its tokens are inert. -/
theorem inert_number (r : Reading) {s : String} (h : NumberText s.toList) :
    (r.read .gap s.toList).1.settled = true ∧ ∀ t ∈ r.lex s, t.isInert = true := by
  obtain ⟨hmode, htoks⟩ := read_number r h (m := .gap) trivial
  refine ⟨hmode.settled, fun t ht => Token.inert_of_number ?_⟩
  rcases List.mem_append.mp ht with ht | ht
  · exact htoks t ht
  · exact hmode.finish t ht

theorem Token.inert_placeholder (d : Dialect) (i : Nat) :
    (d.placeholderToken i).isInert = true := by
  cases d <;> rfl

/-- **The tokens of a literal are inert**, and it ends where it is written to end. -/
theorem inert_inline (d : Dialect) (v : Value) :
    ((Reading.mk d true).read .gap v.inline.toList).1.settled = true
      ∧ ∀ t ∈ (Reading.mk d true).lex v.inline, t.isInert = true := by
  have hword : ∀ s ∈ ["NULL", "TRUE", "FALSE"],
      ((Reading.mk d true).read .gap s.toList).1.settled = true
        ∧ ∀ t ∈ (Reading.mk d true).lex s, t.isInert = true := by
    cases d <;> decide
  cases v with
  | null => exact hword "NULL" (by decide)
  | bool b =>
    cases b with
    | true => exact hword "TRUE" (by decide)
    | false => exact hword "FALSE" (by decide)
  | int n => exact inert_number _ (numberText_toString_int n.toInt)
  | uint n => exact inert_number _ (numberText_toString_nat n.toNat)
  | float x => exact inert_number _ (numberText_write x)
  | text s =>
    have hread := read_literal (r := ⟨d, true⟩) rfl s
    refine ⟨by rw [hread]; rfl, fun t ht => ?_⟩
    unfold lex at ht
    rw [hread] at ht
    rw [List.mem_singleton.mp ht]
    rfl

/-- **The tokens of a value are inert**, as a placeholder and as a literal. -/
theorem Spelling.inert_value (how : Spelling) (v : Value) (bound : Nat) :
    ((how.reading true).read .gap (how.value v bound).toList).1.settled = true
      ∧ ∀ t ∈ (how.reading true).lex (how.value v bound), t.isInert = true := by
  unfold Spelling.value
  by_cases hnull : v.isNull = true
  · rw [if_pos hnull]
    exact inert_inline how.dialect .null
  · rw [if_neg hnull]
    by_cases hp : how.parameterise = true
    · rw [if_pos hp]
      obtain ⟨hsettled, hlex⟩ := read_placeholder (how.reading true) (bound + 1)
      refine ⟨hsettled, fun t ht => ?_⟩
      have hmem : t ∈ (how.reading true).lex ((how.reading true).dialect.placeholder (bound + 1)) :=
        ht
      rw [hlex] at hmem
      rw [List.mem_singleton.mp hmem]
      exact Token.inert_placeholder _ _
    · rw [if_neg hp]
      exact inert_inline how.dialect v

/-- What a text mentions is legible if it is no verbatim SQL and its bare names are accepted. -/
theorem Mention.Plain.reads {how : Spelling} {m : Mention} (h : m.Plain) :
    m.Legible how true := by
  cases m with
  | value v => exact fun bound => (how.inert_value v bound).1
  | verbatim sql binds => cases h
  | bare rule s => exact legible_bare h

end SqlTree
