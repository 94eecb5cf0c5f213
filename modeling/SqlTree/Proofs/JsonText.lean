import SqlTree.Json.Printer
import SqlTree.Json.Reader
import SqlTree.Proofs.Literals
import SqlTree.Proofs.NumeralText

/-!
# JSON text is read back

The compact text of a JSON value, without floating-point numbers, is read back as that value:

* `Json.Closes` -- what stands behind a value in compact text;
* `Json.stringBody_written`, `Json.number_written` -- a string and a whole number are read back,
  whatever the string holds and whatever stands behind the number that closes it;
* `Json.items_written` -- items are read back if each of them is;
* `Json.depth`, `Json.Exact` -- how deep a value nests, and that no number in it has been rounded;
* `Json.recovers_value` -- a value is read back, one case for each kind of value;
* `Json.parse_compact` -- so is a document that does not nest too deep.
-/

namespace SqlTree.Json

/-! ## 1. Strings -/

theorem hexValue?_hexDigit : ∀ n < 16, Binary64.hexValue? (hexDigit n) = some n := by decide

/-- A control is read back from its four hexadecimal digits. -/
theorem hexQuad?_control {n : Nat} (h : n < 32) :
    hexQuad? '0' '0' (hexDigit (n / 16)) (hexDigit (n % 16)) = some n := by
  have hdigits : 0 * 256 + (n / 16 * 16 + n % 16) = n := by omega
  rw [hexQuad?, hexValue?_hexDigit (n / 16) (by omega), hexValue?_hexDigit (n % 16) (by omega)]
  exact congrArg some hdigits

/-- A backslash with one more character stands for what that character says. -/
theorem stringBody_simple {c d : Char} (h : simpleEscape? c = some d) (rest : List Char) :
    stringBody ('\\' :: c :: rest) = (stringBody rest).map fun (s, rest) => (d :: s, rest) := by
  rw [stringBody, h]
  -- four hexadecimal digits would only follow another character
  rintro _ _ _ _ _ rfl
  cases h

theorem stringBody_control {n : Nat} (h : n < 32) (rest : List Char) :
    stringBody ('\\' :: 'u' :: '0' :: '0' :: hexDigit (n / 16) :: hexDigit (n % 16) :: rest)
      = (stringBody rest).map fun (s, rest) => (Char.ofNat n :: s, rest) := by
  have hlow : isLowSurrogate n = false := by
    rw [isLowSurrogate, Bool.and_eq_false_iff]
    exact .inl (decide_eq_false (by omega))
  have hhigh : isHighSurrogate n = false := by
    rw [isHighSurrogate, Bool.and_eq_false_iff]
    exact .inl (decide_eq_false (by omega))
  rw [stringBody, hexQuad?_control h]
  dsimp only
  rw [hlow, hhigh]
  rfl

theorem stringBody_plain {c : Char} (hquote : c ≠ '\x22') (hbackslash : c ≠ '\\')
    (hcontrol : ¬ c.toNat < 32) (rest : List Char) :
    stringBody (c :: rest) = (stringBody rest).map fun (s, rest) => (c :: s, rest) := by
  rw [stringBody, if_neg hquote, if_neg (not_or.mpr ⟨hcontrol, hbackslash⟩)]
  · exact fun _ _ _ _ _ h => absurd h hbackslash
  · exact fun _ _ h => absurd h hbackslash

/-- **One written character is read back.** -/
theorem stringBody_escapeChar (c : Char) (rest : List Char) :
    stringBody (escapeChar c ++ rest)
      = (stringBody rest).map fun (s, rest) => (c :: s, rest) := by
  unfold escapeChar
  split
  case h_8 hquote hbackslash _ _ _ _ _ =>
    by_cases hcontrol : c.toNat < 32
    · rw [if_pos hcontrol]
      have hread := stringBody_control hcontrol rest
      rwa [Char.ofNat_toNat] at hread
    · rw [if_neg hcontrol]
      exact stringBody_plain hquote hbackslash hcontrol rest
  all_goals exact stringBody_simple rfl rest

/-- **A string is read back**, whatever it holds and whatever stands behind it. -/
theorem stringBody_written (s rest : List Char) :
    stringBody (s.flatMap escapeChar ++ '\x22' :: rest) = some (s, rest) := by
  induction s with
  | nil => exact stringBody.eq_4 _ _ nofun nofun
  | cons c s ih =>
    rw [List.flatMap_cons, List.append_assoc, stringBody_escapeChar, ih]
    rfl

/-! ## 2. Whole numbers -/

/-- What may stand behind a value: nothing, a comma or a closing mark. -/
def Closes (rest : List Char) : Prop :=
  ∀ c ∈ rest.head?, c = ',' ∨ c = ']' ∨ c = '\x7d'

theorem closes_nil : Closes [] := nofun

theorem closes_cons {c : Char} (h : c = ',' ∨ c = ']' ∨ c = '\x7d') (rest : List Char) :
    Closes (c :: rest) := by
  intro d hd
  obtain rfl := Option.some.inj hd
  exact h

section Numbers

variable {rest : List Char} {n : Nat}

theorem le_digitsValue (start : Nat) (digits : List Char) :
    start ≤ Numeral.digitsValue start digits := by
  induction digits generalizing start with
  | nil => exact Nat.le_refl _
  | cons c digits ih => exact Nat.le_trans (by omega) (ih (10 * start + Numeral.digitValue c))

/-- Digits of a number below `2 ^ 64` are all taken as one number. -/
theorem leadingDigits_eq (start : Nat) (digits : List Char)
    (h : Numeral.digitsValue start digits < Nat.pow 2 64) :
    leadingDigits start digits = (Numeral.digitsValue start digits, []) := by
  induction digits generalizing start with
  | nil => rfl
  | cons c digits ih =>
    have hlonger : 10 * start + Numeral.digitValue c < Nat.pow 2 64 :=
      Nat.lt_of_le_of_lt (le_digitsValue _ digits) h
    rw [leadingDigits, if_pos hlonger]
    exact ih _ h

/-- Only zero is written with a leading zero. -/
theorem head?_toDigits (h : n ≠ 0) : (Nat.toDigits 10 n).head? ≠ some '0' := by
  induction n using Nat.strongRecOn with
  | ind n ih =>
    rw [Nat.toDigits_eq_if (by decide)]
    by_cases hsmall : n < 10
    · rw [if_pos hsmall]
      have hdigit : ∀ d < 10, d ≠ 0 → [Nat.digitChar d].head? ≠ some '0' := by decide
      exact hdigit n hsmall h
    · rw [if_neg hsmall, List.head?_append_of_ne_nil _ Nat.toDigits_ne_nil]
      exact ih (n / 10) (by omega) (by omega)

theorem spanDigits_toDigits (n : Nat) (h : Closes rest) :
    Numeral.spanDigits (Nat.toDigits 10 n ++ rest) = (Nat.toDigits 10 n, rest) := by
  refine Numeral.spanDigits_append (Numeral.isDigit_toDigits n) fun c hc => ?_
  rcases h c hc with rfl | rfl | rfl <;> rfl

theorem fraction_closes (h : Closes rest) : fraction rest = some (none, rest) := by
  cases rest with
  | nil => rfl
  | cons c rest => rcases h c rfl with rfl | rfl | rfl <;> rfl

theorem exponent_closes (h : Closes rest) : exponent rest = some (none, rest) := by
  cases rest with
  | nil => rfl
  | cons c rest => rcases h c rfl with rfl | rfl | rfl <;> rfl

/-- There is a digit, and no zero stands in front of others. -/
theorem toDigits_unpadded (n : Nat) : ((Nat.toDigits 10 n).isEmpty
    || ((Nat.toDigits 10 n).head? == some '0' && 1 < (Nat.toDigits 10 n).length)) = false := by
  have hany : (Nat.toDigits 10 n).isEmpty = false :=
    List.isEmpty_eq_false_iff.mpr Nat.toDigits_ne_nil
  rw [hany]
  by_cases hzero : n = 0
  · subst hzero
    rfl
  · rw [beq_eq_false_iff_ne.mpr (head?_toDigits hzero)]
    rfl

/-- The digits of a number with a sign in front are taken as they are. -/
theorem number_toDigits (negative : Bool) (n : Nat) (h : Closes rest) :
    number ((if negative then ['-'] else []) ++ (Nat.toDigits 10 n ++ rest))
      = (numberValue? negative (Nat.toDigits 10 n) none none).map fun j => (j, rest) := by
  obtain ⟨c, digits, hdigits⟩ := List.exists_cons_of_ne_nil (@Nat.toDigits_ne_nil n 10)
  have hc : c.isDigit = true :=
    Nat.isDigit_of_mem_toDigits (by decide) (by decide) (hdigits ▸ List.mem_cons_self)
  unfold number
  split
  next negative' s' hsigned =>
    have hparts : (negative', s') = (negative, Nat.toDigits 10 n ++ rest) := by
      rw [← hsigned]
      cases negative with
      | true => rfl
      | false =>
        rw [hdigits]
        split
        · next hminus =>
          cases hminus
          cases hc
        · next => rfl
    cases hparts
    rw [spanDigits_toDigits n h]
    dsimp only
    rw [toDigits_unpadded, if_neg Bool.false_ne_true, fraction_closes h]
    show (exponent rest >>= _) = _
    rw [exponent_closes h]
    show (numberValue? negative (Nat.toDigits 10 n) none none >>= fun j => some (j, rest)) = _
    cases numberValue? negative (Nat.toDigits 10 n) none none <;> rfl

/-- The digits of a number that fits 64 bits are that number. -/
theorem leadingDigits_toDigits (hn : n < Nat.pow 2 64) :
    leadingDigits 0 (Nat.toDigits 10 n) = (n, []) := by
  have hvalue := Numeral.digitsValue_toDigits n
  have hread := leadingDigits_eq 0 (Nat.toDigits 10 n) (by rwa [hvalue])
  rwa [hvalue] at hread

theorem ofInt?_value (n : WholeNumber) : WholeNumber.ofInt? n.value = some n := dif_pos n.inRange

theorem numberValue?_natural {n : WholeNumber} {m : Nat} (h : n.value = m) :
    numberValue? false (Nat.toDigits 10 m) none none = some (.whole n) := by
  have hread := ofInt?_value n
  obtain ⟨-, high⟩ := n.inRange
  rw [h] at hread high
  have hfits : m < Nat.pow 2 64 := Int.ofNat_lt.mp high
  rw [numberValue?, leadingDigits_toDigits hfits]
  simp only [List.isEmpty_nil, Option.isNone_none, Bool.and_self, if_true, hread,
    Bool.false_eq_true, if_false, Option.map_some]

theorem numberValue?_negative {n : WholeNumber} {m : Nat} (h : n.value = -(m : Int))
    (hm : m ≠ 0) : numberValue? true (Nat.toDigits 10 m) none none = some (.whole n) := by
  have hread := ofInt?_value n
  obtain ⟨low, -⟩ := n.inRange
  rw [h] at hread low
  have hfits : m < 18446744073709551616 := by omega
  rw [numberValue?, leadingDigits_toDigits hfits]
  simp only [List.isEmpty_nil, Option.isNone_none, Bool.and_self, if_true, hread, if_neg hm]

/-- **A whole number is read back**, unless what stands behind it goes on with it. -/
theorem number_written (n : WholeNumber) (h : Closes rest) :
    number (wholeText n ++ rest) = some (.whole n, rest) := by
  rw [wholeText]
  cases hvalue : n.value with
  | ofNat m =>
    have hdigits := number_toDigits false m h
    rw [numberValue?_natural hvalue] at hdigits
    rwa [toList_toString_ofNat]
  | negSucc m =>
    have hdigits := number_toDigits true (m + 1) h
    rw [numberValue?_negative hvalue (Nat.succ_ne_zero m)] at hdigits
    rwa [toList_toString_negSucc]

/-- A whole number begins with a digit or a minus sign. -/
theorem wholeText_head (n : WholeNumber) :
    ∃ c rest, wholeText n = c :: rest ∧ (c = '-' ∨ c.isDigit = true) := by
  rw [wholeText]
  cases n.value with
  | ofNat m =>
    obtain ⟨c, rest, hdigits⟩ := List.exists_cons_of_ne_nil (@Nat.toDigits_ne_nil m 10)
    refine ⟨c, rest, (toList_toString_ofNat m).trans hdigits, .inr ?_⟩
    exact Nat.isDigit_of_mem_toDigits (by decide) (by decide) (hdigits ▸ List.mem_cons_self)
  | negSucc m => exact ⟨'-', _, toList_toString_negSucc m, .inl rfl⟩

end Numbers

/-! ## 3. Items between marks -/

section Items

variable {α : Type} {read : Reader α} {write : α → List Char} {close : Char}

/-- Further items of a sequence up to its end. -/
def further (write : α → List Char) (close : Char) : List α → List Char
  | [] => [close]
  | item :: rest => ',' :: (write item ++ further write close rest)

/-- A character is no blank and closes nothing. -/
def Opens (c : Char) : Prop := isBlank c = false ∧ c ≠ ']' ∧ c ≠ '\x7d'

instance : DecidablePred Opens := fun _ => inferInstanceAs (Decidable (_ ∧ _ ∧ _))

/-- An item is read back: its text begins with what opens it, and nothing that closes it is read
    with it. -/
structure Recovers (read : Reader α) (write : α → List Char) (item : α) : Prop where
  opens : ∃ c rest, write item = c :: rest ∧ Opens c
  reads : ∀ rest, Closes rest → read (write item ++ rest) = some (item, rest)

theorem skipBlanks_cons {c : Char} (h : isBlank c = false) (rest : List Char) :
    skipBlanks (c :: rest) = c :: rest :=
  List.dropWhile_cons_of_neg (by rw [h]; exact Bool.false_ne_true)

theorem length_le_length_further (items : List α) :
    items.length < (further write close items).length := by
  induction items with
  | nil => exact Nat.one_pos
  | cons item rest ih =>
    rw [further, List.length_cons, List.length_cons, List.length_append]
    omega

theorem items_comma {first : α} (h : Recovers read write first) (fuel : Nat) (s : List Char) :
    items read close (fuel + 1) (write first ++ ',' :: s)
      = (items read close fuel s).map fun (more, s) => (first :: more, s) := by
  rw [items, h.reads _ (closes_cons (.inl rfl) s)]
  dsimp only
  rw [skipBlanks_cons rfl]
  dsimp only
  rw [if_pos rfl]

theorem items_close (hclose : close = ']' ∨ close = '\x7d') {first : α}
    (h : Recovers read write first) (fuel : Nat) (s : List Char) :
    items read close (fuel + 1) (write first ++ close :: s) = some ([first], s) := by
  have hmark : isBlank close = false ∧ close ≠ ',' := by
    rcases hclose with rfl | rfl <;> decide
  rw [items, h.reads _ (closes_cons (.inr hclose) s)]
  dsimp only
  rw [skipBlanks_cons hmark.1]
  dsimp only
  rw [if_neg hmark.2, if_pos rfl]

/-- **Items are read back** if each of them is. -/
theorem items_written (hclose : close = ']' ∨ close = '\x7d') {first : α} {rest : List α}
    (h : ∀ item ∈ first :: rest, Recovers read write item) {fuel : Nat}
    (hfuel : rest.length < fuel) (s : List Char) :
    items read close fuel (write first ++ (further write close rest ++ s))
      = some (first :: rest, s) := by
  induction rest generalizing first fuel with
  | nil =>
    obtain ⟨fuel, rfl⟩ := Nat.exists_eq_add_one.mpr hfuel
    exact items_close hclose (h first List.mem_cons_self) fuel s
  | cons second rest ih =>
    obtain ⟨hfirst, hrest⟩ := List.forall_mem_cons.mp h
    obtain ⟨fuel, rfl⟩ := Nat.exists_eq_add_one.mpr (Nat.zero_lt_of_lt hfuel)
    rw [further, List.cons_append, items_comma hfirst, List.append_assoc,
      ih hrest (Nat.lt_of_succ_lt_succ hfuel)]
    rfl

/-- **A sequence is read back** if its items are. -/
theorem sequence_written (hclose : close = ']' ∨ close = '\x7d') {first : α} {rest : List α}
    (h : ∀ item ∈ first :: rest, Recovers read write item) (s : List Char) :
    sequence read close (write first ++ (further write close rest ++ s))
      = some (first :: rest, s) := by
  have hfuel : rest.length < (write first ++ (further write close rest ++ s)).length := by
    have hlength := @length_le_length_further _ write close rest
    rw [List.length_append, List.length_append]
    omega
  have hitems := items_written hclose h hfuel s
  obtain ⟨c, more, htext, hblank, hopens⟩ := (h first List.mem_cons_self).opens
  have hmark : c ≠ close := by
    rcases hclose with rfl | rfl
    · exact hopens.1
    · exact hopens.2
  rw [htext, List.cons_append] at hitems ⊢
  rw [sequence, skipBlanks_cons hblank]
  dsimp only
  rw [if_neg hmark]
  exact hitems

end Items

/-! ## 4. Values -/

mutual

/-- How deep arrays and objects are nested. -/
def depth : Json → Nat
  | .array items => depthItems items + 1
  | .object fields => depthFields fields + 1
  | _ => 0

def depthItems : List Json → Nat
  | [] => 0
  | item :: rest => max (depth item) (depthItems rest)

def depthFields : List (String × Json) → Nat
  | [] => 0
  | (_, value) :: rest => max (depth value) (depthFields rest)

end

mutual

/-- No number in a value is a floating-point number. -/
def Exact : Json → Prop
  | .float _ => False
  | .array items => ExactItems items
  | .object fields => ExactFields fields
  | _ => True

def ExactItems : List Json → Prop
  | [] => True
  | item :: rest => Exact item ∧ ExactItems rest

def ExactFields : List (String × Json) → Prop
  | [] => True
  | (_, value) :: rest => Exact value ∧ ExactFields rest

end

theorem exactItems_iff {items : List Json} : ExactItems items ↔ ∀ item ∈ items, item.Exact := by
  induction items with
  | nil => exact iff_of_true trivial nofun
  | cons item rest ih => rw [ExactItems, ih, List.forall_mem_cons]

/-- The text of a field. -/
def fieldText (field : String × Json) : List Char := stringText field.1 ++ ':' :: print field.2

theorem printItems_eq (items : List Json) : printItems items = further print ']' items := by
  induction items with
  | nil => rfl
  | cons item rest ih => rw [printItems, further, ih]

theorem printFields_eq (fields : List (String × Json)) :
    printFields fields = further fieldText '\x7d' fields := by
  induction fields with
  | nil => rfl
  | cons field rest ih => rw [printFields, further, ih]; rfl

/-- A field is read back if its value is. -/
theorem recovers_field {read : Reader Json} {name : String} {j : Json}
    (h : Recovers read print j) : Recovers (field read) fieldText (name, j) := by
  refine ⟨⟨'\x22', _, rfl, by decide, by decide, by decide⟩, fun rest hrest => ?_⟩
  have htext : fieldText (name, j) ++ rest
      = '\x22' :: (name.toList.flatMap escapeChar ++ '\x22' :: ':' :: (print j ++ rest)) := by
    simp only [fieldText, stringText, List.cons_append, List.append_assoc, List.nil_append]
  rw [htext, field, skipBlanks_cons rfl]
  simp only [stringBody_written]
  rw [skipBlanks_cons rfl]
  simp only [h.reads rest hrest, String.ofList_toList, Option.map_some]

theorem opens_number {c : Char} (hc : c = '-' ∨ c.isDigit = true) : Opens c := by
  rcases hc with rfl | hc
  · decide
  · refine forall_isDigit ?_ hc
    decide

/-- What begins as no other value is read as a number. -/
theorem value_number {c : Char} (hc : c = '-' ∨ c.isDigit = true) (limit : Nat) (rest : List Char) :
    value limit (c :: rest) = number (c :: rest) := by
  have hother : c ∉ ['\x22', '[', '\x7b', 'n', 't', 'f'] := by
    rcases hc with rfl | hc
    · decide
    · exact forall_isDigit (P := (· ∉ ['\x22', '[', '\x7b', 'n', 't', 'f'])) (by decide) hc
  simp only [List.mem_cons, List.not_mem_nil, or_false, not_or] at hother
  obtain ⟨hquote, hbracket, hbrace, hn, ht, hf⟩ := hother
  rw [value, skipBlanks_cons (opens_number hc).1]
  dsimp only
  rw [if_neg hquote, if_neg hbracket, if_neg hbrace, if_neg hn, if_neg ht, if_neg hf]

theorem value_array (limit : Nat) (rest : List Char) :
    value (limit + 1) ('[' :: rest)
      = (sequence (value limit) ']' rest).map fun (items, rest) => (.array items, rest) := by
  rw [value]
  rfl

theorem value_object (limit : Nat) (rest : List Char) :
    value (limit + 1) ('\x7b' :: rest)
      = (sequence (field (value limit)) '\x7d' rest).map fun (fields, rest) =>
        (.object fields, rest) := by
  rw [value]
  rfl

mutual

/-- **A value is read back**, whatever closes it, to any depth that it does not exceed. -/
theorem recovers_value : ∀ (j : Json) {limit : Nat}, j.Exact → j.depth ≤ limit →
    Recovers (value limit) print j
  | .null, limit, _, _ => by
    refine ⟨⟨'n', _, rfl, by decide⟩, fun rest _ => ?_⟩
    rw [value]
    rfl
  | .bool true, limit, _, _ => by
    refine ⟨⟨'t', _, rfl, by decide⟩, fun rest _ => ?_⟩
    rw [value]
    rfl
  | .bool false, limit, _, _ => by
    refine ⟨⟨'f', _, rfl, by decide⟩, fun rest _ => ?_⟩
    rw [value]
    rfl
  | .whole n, limit, _, _ => by
    obtain ⟨c, digits, htext, hc⟩ := wholeText_head n
    refine ⟨⟨c, digits, htext, opens_number hc⟩, fun rest hrest => ?_⟩
    have hnumber := number_written n hrest
    rw [htext] at hnumber
    rw [print, htext, List.cons_append, value_number hc]
    exact hnumber
  | .float x, _, h, _ => h.elim
  | .text s, limit, _, _ => by
    refine ⟨⟨'\x22', _, rfl, by decide⟩, fun rest _ => ?_⟩
    have htext : print (.text s) ++ rest
        = '\x22' :: (s.toList.flatMap escapeChar ++ '\x22' :: rest) := by
      simp only [print, stringText, List.cons_append, List.append_assoc, List.nil_append]
    have hread := stringBody_written s.toList rest
    rw [htext, value]
    show (stringBody _).map _ = _
    rw [hread, Option.map_some]
    simp only [String.ofList_toList]
  | .array [], limit, _, hdepth => by
    obtain ⟨limit, rfl⟩ := Nat.exists_eq_add_one.mpr hdepth
    refine ⟨⟨'[', _, rfl, by decide⟩, fun rest _ => ?_⟩
    exact value_array limit (']' :: rest)
  | .array (item :: rest), limit, h, hdepth => by
    obtain ⟨limit, rfl⟩ := Nat.exists_eq_add_one.mpr (Nat.zero_lt_of_lt hdepth)
    refine ⟨⟨'[', _, rfl, by decide⟩, fun behind _ => ?_⟩
    have hitems := recovers_items (item :: rest) h (Nat.le_of_succ_le_succ hdepth)
    have hread := sequence_written (.inl rfl) hitems behind
    rw [print, printItems_eq, List.cons_append, List.append_assoc, value_array, hread]
    rfl
  | .object [], limit, _, hdepth => by
    obtain ⟨limit, rfl⟩ := Nat.exists_eq_add_one.mpr hdepth
    refine ⟨⟨'\x7b', _, rfl, by decide⟩, fun rest _ => ?_⟩
    exact value_object limit ('\x7d' :: rest)
  | .object ((name, j) :: rest), limit, h, hdepth => by
    obtain ⟨limit, rfl⟩ := Nat.exists_eq_add_one.mpr (Nat.zero_lt_of_lt hdepth)
    refine ⟨⟨'\x7b', _, rfl, by decide⟩, fun behind _ => ?_⟩
    have hfields := recovers_fields ((name, j) :: rest) h (Nat.le_of_succ_le_succ hdepth)
    have hread := sequence_written (.inr rfl) hfields behind
    have htext : print (.object ((name, j) :: rest)) = '\x7b' :: (fieldText (name, j)
        ++ further fieldText '\x7d' rest) := by
      rw [print, printFields_eq]
      rfl
    rw [htext, List.cons_append, List.append_assoc, value_object, hread]
    rfl

theorem recovers_items : ∀ (items : List Json) {limit : Nat}, ExactItems items →
    depthItems items ≤ limit → ∀ item ∈ items, Recovers (value limit) print item
  | [], _, _, _ => nofun
  | item :: rest, limit, h, hdepth => by
    rw [depthItems, Nat.max_le] at hdepth
    rw [ExactItems] at h
    exact List.forall_mem_cons.mpr
      ⟨recovers_value item h.1 hdepth.1, recovers_items rest h.2 hdepth.2⟩

theorem recovers_fields : ∀ (fields : List (String × Json)) {limit : Nat}, ExactFields fields →
    depthFields fields ≤ limit → ∀ f ∈ fields, Recovers (field (value limit)) fieldText f
  | [], _, _, _ => nofun
  | (name, value) :: rest, limit, h, hdepth => by
    rw [depthFields, Nat.max_le] at hdepth
    rw [ExactFields] at h
    exact List.forall_mem_cons.mpr
      ⟨recovers_field (recovers_value value h.1 hdepth.1), recovers_fields rest h.2 hdepth.2⟩

end

/-- **A document is read back**, if no floating-point number is in it and it nests no deeper than
    documents may. -/
theorem parse_compact {j : Json} (h : j.Exact) (hdepth : j.depth ≤ documentDepth) :
    parse j.compact = some j := by
  have hread := (recovers_value j h hdepth).reads [] closes_nil
  rw [List.append_nil] at hread
  rw [parse, parseWithin, compact, String.toList_ofList, hread]
  rfl

end SqlTree.Json
