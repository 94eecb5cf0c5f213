import SqlTree.Proofs.JsonText
import SqlTree.Value.Document

/-!
# Values survive their text

The JSON text of a value does not name its kind, so a value that is written and read again is the
same value only up to a normal form, in which small unsigned numbers are signed and what is no
finite number is null:

* `Value.normal`, `Value.normal_cases` -- the normal form, and what it changes;
* `Value.document_normal` -- a value has the text of its normal form;
* `Value.decode?_eq_ofJson?` -- trying the kinds in their order is the reading by the JSON value;
* `Value.read?_kind`, `Value.read?_earlier` -- the kind of a value takes its JSON value, and no
  earlier kind takes that of a normal form;
* `Value.decode?_toJson` -- a normal form is read back as it is;
* `Value.ofDocument?_document_eq_normal` -- the main statement.
-/

namespace SqlTree.Value

/-! ## 1. The normal form -/

/-- The value as it is read from its text: an unsigned number is signed if it fits, and a
    floating-point number that is not finite is null. -/
def normal : Value → Value
  | .uint n => if n.toNat ≤ 9223372036854775807 then .int (Int64.ofInt n.toNat) else .uint n
  | .float x => if x.isNaN || x.isInfinite then .null else .float x
  | v => v

/-- The number that a signed or unsigned value is. -/
def integer? : Value → Option Int
  | .int n => some n.toInt
  | .uint n => some n.toNat
  | _ => none

/-- **What the normal form changes**: unsigned numbers that fit into a signed one, and what is no
    finite number. -/
theorem normal_cases (v : Value) :
    v.normal = v
      ∨ (∃ n : UInt64, v = .uint n ∧ n.toNat ≤ 9223372036854775807
        ∧ v.normal = .int (Int64.ofInt n.toNat))
      ∨ ∃ x : Binary64, v = .float x ∧ (x.isNaN = true ∨ x.isInfinite = true)
        ∧ v.normal = .null := by
  cases v with
  | uint n =>
    by_cases hsmall : n.toNat ≤ 9223372036854775807
    · exact .inr (.inl ⟨n, rfl, hsmall, if_pos hsmall⟩)
    · exact .inl (if_neg hsmall)
  | float x =>
    by_cases hx : (x.isNaN || x.isInfinite) = true
    · exact .inr (.inr ⟨x, rfl, (Bool.or_eq_true _ _).mp hx, if_pos hx⟩)
    · exact .inl (if_neg hx)
  | _ => exact .inl rfl

/-- An unsigned number that fits is the same number when it is signed. -/
theorem toInt_ofInt_toNat {n : UInt64} (h : n.toNat ≤ 9223372036854775807) :
    (Int64.ofInt n.toNat).toInt = n.toNat := by
  have low : -2 ^ 63 ≤ (n.toNat : Int) := by omega
  have high : (n.toNat : Int) < 2 ^ 63 := by omega
  exact Int64.toInt_ofInt_of_le low high

variable (v : Value)

/-- **A normal form is its own.** -/
theorem normal_normal : v.normal.normal = v.normal := by
  obtain h | ⟨n, rfl, -, h⟩ | ⟨x, rfl, -, h⟩ := v.normal_cases
  · rw [h, h]
  · rw [h]
    rfl
  · rw [h]
    rfl

/-- **No whole number becomes another number**, and nothing else becomes one. -/
theorem integer?_normal : v.normal.integer? = v.integer? := by
  obtain h | ⟨n, rfl, hsmall, h⟩ | ⟨x, rfl, -, h⟩ := v.normal_cases
  · rw [h]
  · rw [h]
    exact congrArg some (toInt_ofInt_toNat hsmall)
  · rw [h]
    rfl

/-- **No text becomes another value**, and no other value becomes a text. -/
theorem normal_eq_text_iff (s : String) : v.normal = .text s ↔ v = .text s := by
  obtain h | ⟨n, rfl, -, h⟩ | ⟨x, rfl, -, h⟩ := v.normal_cases
  · rw [h]
  · rw [h]
    exact iff_of_false nofun nofun
  · rw [h]
    exact iff_of_false nofun nofun

/-! ## 2. Writing -/

/-- What is no finite number is written as null. -/
theorem write_not_finite {x : Binary64} (h : x.isNaN = true ∨ x.isInfinite = true) :
    Json.numberStyle.write x = "null" := by
  unfold NumberStyle.write
  by_cases hnan : x.isNaN = true
  · rw [if_pos hnan]
    rfl
  · rw [if_neg hnan, if_pos (h.resolve_left hnan)]
    exact ite_self _

/-- **A value has the text of its normal form.** -/
theorem document_normal : v.normal.document = v.document := by
  obtain h | ⟨n, rfl, hsmall, h⟩ | ⟨x, rfl, hx, h⟩ := v.normal_cases
  · rw [h]
  · have hwhole : WholeNumber.ofInt64 (Int64.ofInt n.toNat) = .ofUInt64 n := by
      simp only [WholeNumber.ofInt64, WholeNumber.ofUInt64, toInt_ofInt_toNat hsmall]
    rw [h, document, document, toJson, toJson, hwhole]
  · have hprint : (Json.float x).print = Json.null.print := by
      rw [Json.print, Json.print, write_not_finite hx]
    rw [h, document, document, toJson, toJson, Json.compact, Json.compact, hprint]

/-- A normal form holds a floating-point number only if the value is a finite one. -/
theorem exact_normal (h : ∀ x, v = .float x → x.isNaN = true ∨ x.isInfinite = true) :
    v.normal.toJson.Exact := by
  cases v with
  | float x =>
    have hnull : normal (.float x) = .null := if_pos ((Bool.or_eq_true _ _).mpr (h x rfl))
    rw [hnull]
    trivial
  | uint n =>
    rw [normal]
    split <;> trivial
  | _ => trivial

theorem depth_toJson : v.toJson.depth = 0 := by cases v <;> rfl

/-! ## 3. Reading -/

/-- The kinds that are tried before one. -/
def Kind.earlier (kind : Kind) : List Kind := all.takeWhile (· != kind)

theorem Kind.all_eq (kind : Kind) : ∃ later, all = kind.earlier ++ kind :: later := by
  cases kind <;> exact ⟨_, rfl⟩

/-- What kind a value is of. -/
def kind : Value → Kind
  | .null => .null
  | .bool _ => .bool
  | .int _ => .int
  | .uint _ => .uint
  | .float _ => .float
  | .text _ => .text

variable {v}

/-- A JSON value has the first kind that takes it. -/
theorem decode?_of_earlier {j : Json} {kind : Kind} (hkind : kind.read? j = some v)
    (hearlier : ∀ other ∈ kind.earlier, other.read? j = none) : decode? j = some v := by
  obtain ⟨later, hall⟩ := kind.all_eq
  exact List.findSome?_eq_some_iff.mpr ⟨_, _, _, hall, hkind, hearlier⟩

/-- What is too large for a signed number is taken by no kind before the unsigned ones. -/
theorem Kind.read?_earlier_uint {n : WholeNumber} (h : ¬ n.value < 9223372036854775808) :
    ∀ other ∈ Kind.uint.earlier, other.read? (.whole n) = none := by
  have hsigned : Kind.int.read? (.whole n) = none := by rw [Kind.read?, if_neg h]
  show ∀ other ∈ [Kind.null, .bool, .int], other.read? (.whole n) = none
  exact List.forall_mem_cons.mpr ⟨rfl, List.forall_mem_cons.mpr
    ⟨rfl, List.forall_mem_singleton.mpr hsigned⟩⟩

/-- **Both readings agree**: the first kind that takes a JSON value is the one it shows. -/
theorem decode?_eq_ofJson? (j : Json) : decode? j = ofJson? j := by
  cases j with
  | whole n =>
    rw [ofJson?, ofWhole]
    by_cases hsigned : n.value < 9223372036854775808
    · have htakes : Kind.int.read? (.whole n) = some (.int (Int64.ofInt n.value)) := by
        rw [Kind.read?, if_pos hsigned]
      rw [if_pos hsigned]
      exact decode?_of_earlier htakes (by simp [Kind.earlier, Kind.all, Kind.read?])
    · have hpositive : 0 ≤ n.value := by omega
      have htakes : Kind.uint.read? (.whole n) = some (.uint (UInt64.ofNat n.value.toNat)) := by
        rw [Kind.read?, if_pos hpositive]
      rw [if_neg hsigned]
      exact decode?_of_earlier htakes (Kind.read?_earlier_uint hsigned)
  | _ => rfl

/-- **The kind of a value takes its JSON value.** -/
theorem read?_kind (v : Value) : v.kind.read? v.toJson = some v := by
  cases v with
  | int n =>
    have high : n.toInt < 9223372036854775808 := n.toInt_lt
    show (if n.toInt < 9223372036854775808 then some (int (Int64.ofInt n.toInt)) else none) = _
    rw [if_pos high, Int64.ofInt_toInt]
  | uint n =>
    show (if (0 : Int) ≤ n.toNat then some (uint (UInt64.ofNat n.toNat)) else none) = _
    rw [if_pos (Int.natCast_nonneg _), UInt64.ofNat_toNat]
  | _ => rfl

/-- **No earlier kind takes the JSON value of a normal form.** -/
theorem read?_earlier (h : v.normal = v) :
    ∀ other ∈ v.kind.earlier, other.read? v.toJson = none := by
  cases v with
  | uint n =>
    have hlarge : ¬ (WholeNumber.ofUInt64 n).value < 9223372036854775808 := by
      show ¬ (n.toNat : Int) < 9223372036854775808
      intro hsmall
      rw [normal, if_pos (by omega)] at h
      cases h
    exact Kind.read?_earlier_uint hlarge
  | _ => simp [Kind.earlier, Kind.all, kind, Kind.read?, toJson]

/-- **A normal form is read back as it is.** -/
theorem decode?_toJson (h : v.normal = v) : decode? v.toJson = some v :=
  decode?_of_earlier v.read?_kind (read?_earlier h)

/-! ## 4. The text of a value -/

/-- **A value survives its text up to its normal form.** Let a value be no finite floating-point
    number. Then its text is read, and what is read is its normal form, which has the same text
    again. It is a text exactly if the value is that text, and a whole number exactly if the value
    is that number. -/
theorem ofDocument?_document_eq_normal (v : Value)
    (h : ∀ x, v = .float x → x.isNaN = true ∨ x.isInfinite = true) :
    ofDocument? v.document = some v.normal
      ∧ (ofDocument? v.document).map document = some v.document
      ∧ (∀ s, v.normal = .text s ↔ v = .text s)
      ∧ v.normal.integer? = v.integer? := by
  have hdepth : v.normal.toJson.depth ≤ Json.documentDepth := by
    rw [depth_toJson]
    exact Nat.zero_le _
  have hread : ofDocument? v.document = some v.normal := by
    rw [← v.document_normal, ofDocument?, document, Json.parse_compact (v.exact_normal h) hdepth]
    exact decode?_toJson v.normal_normal
  refine ⟨hread, ?_, v.normal_eq_text_iff, v.integer?_normal⟩
  rw [hread, Option.map_some, v.document_normal]

/-- The greatest signed number is read back signed and its successor unsigned, the least one as it
    is, an infinity as null, and a text that looks like JSON as that text. -/
theorem ofDocument?_document_eq_normal_bounds :
    ofDocument? (document (.uint 9223372036854775807)) = some (.int 9223372036854775807)
      ∧ ofDocument? (document (.uint 9223372036854775808)) = some (.uint 9223372036854775808)
      ∧ ofDocument? (document (.int (-9223372036854775808)))
        = some (.int (-9223372036854775808))
      ∧ ofDocument? (document (.float (.infinity true))) = some .null
      ∧ ofDocument? (document (.text "\x22null\x22\n\x00é"))
        = some (.text "\x22null\x22\n\x00é") := by
  have hwhole : ∀ v : Value, v.kind ≠ .float → ofDocument? v.document = some v.normal :=
    fun v hv => (ofDocument?_document_eq_normal v fun x hx => by cases hx; exact absurd rfl hv).1
  have hinfinity := (ofDocument?_document_eq_normal (.float (.infinity true)) fun x hx => by
    cases hx
    decide).1
  exact ⟨hwhole _ nofun, hwhole _ nofun, hwhole _ nofun, hinfinity, hwhole _ nofun⟩

end SqlTree.Value
