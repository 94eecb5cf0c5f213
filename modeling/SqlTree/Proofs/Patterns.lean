import SqlTree.Text.Quoting
import Mathlib.Data.List.Infix

/-!
# Texts in LIKE patterns

A text that is put into a LIKE pattern has a backslash before each character that would mean
something there. This file says which texts a pattern matches and finds that such a text stands for
itself, whatever pattern is behind it:

* `Text.likes` -- the texts that a pattern matches;
* `Text.likes_any`, `Text.likes_char`, `Text.likes_escaped` -- one lemma per kind of piece;
* `Text.likeLiteral_eq` -- the backslashes of one character after the other;
* `Text.likes_likeLiteral` -- a text with backslashes, piece by piece;
* `Text.likeLiteral_eq_self` -- which texts need none;
* `Text.likes_escapeLike` -- what a text matches alone, before a pattern and inside one.
-/

namespace SqlTree.Text

/-! ## 1. Matching -/

/-- The first character is one of these, and what stands behind it is wanted there. -/
def headed (wanted : Char → Bool) (behind : List Char → Bool) : List Char → Bool
  | [] => false
  | c :: rest => wanted c && behind rest

theorem headed_iff (wanted : Char → Bool) (behind : List Char → Bool) (text : List Char) :
    headed wanted behind text = true
      ↔ ∃ c rest, text = c :: rest ∧ wanted c = true ∧ behind rest = true := by
  cases text with
  | nil => simp [headed]
  | cons c rest => simp [headed]

/-- The texts that a pattern matches: `%` stands for any text, `_` for any one character, and a
    backslash makes the character behind it stand for itself. Systems differ in what a backslash
    means that ends a pattern, so `lone` says which texts that one matches. -/
def likes (lone : List Char → Bool) : List Char → List Char → Bool
  | [] => List.isEmpty
  | ['\\'] => lone
  | '\\' :: c :: pattern => headed (· == c) (likes lone pattern)
  | '%' :: pattern => fun text => text.tails.any (likes lone pattern)
  | '_' :: pattern => headed (fun _ => true) (likes lone pattern)
  | c :: pattern => headed (· == c) (likes lone pattern)

variable (lone : List Char → Bool)

/-- The empty pattern matches the empty text. -/
theorem likes_nil (text : List Char) : likes lone [] text = true ↔ text = [] :=
  List.isEmpty_iff

/-- `%` matches any beginning. -/
theorem likes_any (pattern text : List Char) :
    likes lone ('%' :: pattern) text = true
      ↔ ∃ front rest, text = front ++ rest ∧ likes lone pattern rest = true := by
  show text.tails.any (likes lone pattern) = true ↔ _
  rw [List.any_eq_true]
  constructor
  · rintro ⟨rest, hrest, hlikes⟩
    obtain ⟨front, rfl⟩ := (List.mem_tails rest text).mp hrest
    exact ⟨front, rest, rfl, hlikes⟩
  · rintro ⟨front, rest, rfl, hlikes⟩
    exact ⟨rest, (List.mem_tails rest _).mpr ⟨front, rfl⟩, hlikes⟩

theorem isLikeSpecial_eq_false (c : Char) :
    isLikeSpecial c = false ↔ c ≠ '\\' ∧ c ≠ '%' ∧ c ≠ '_' := by
  simp [isLikeSpecial, and_assoc]

/-- A character that means nothing in a pattern matches itself. -/
theorem likes_char {c : Char} (hc : isLikeSpecial c = false) (pattern text : List Char) :
    likes lone (c :: pattern) text = true
      ↔ ∃ rest, text = c :: rest ∧ likes lone pattern rest = true := by
  have hstep : likes lone (c :: pattern) = headed (· == c) (likes lone pattern) := by
    obtain ⟨hbackslash, hpercent, hunderscore⟩ := (isLikeSpecial_eq_false c).mp hc
    simp [likes, hbackslash]
  rw [hstep, headed_iff]
  simp

/-- A character behind a backslash matches itself. -/
theorem likes_escaped (c : Char) (pattern text : List Char) :
    likes lone ('\\' :: c :: pattern) text = true
      ↔ ∃ rest, text = c :: rest ∧ likes lone pattern rest = true := by
  show headed (· == c) (likes lone pattern) text = true ↔ _
  rw [headed_iff]
  simp

/-! ## 2. Texts with backslashes -/

/-- A backslash before each of these characters. -/
def backslashed (mark : Char) : List Char → List Char
  | [] => []
  | c :: rest =>
    if c = mark then '\\' :: c :: backslashed mark rest else c :: backslashed mark rest

/-- **One character after the other comes to the same**, if the backslashes are first: those of the
    later passes stand before other characters, and get none themselves. -/
theorem likeLiteral_eq (s : List Char) :
    likeLiteral s = backslashed '_' (backslashed '%' (backslashed '\\' s)) := by
  induction s with
  | nil => rfl
  | cons c s ih =>
    by_cases hspecial : c = '\\' ∨ c = '%' ∨ c = '_'
    · rcases hspecial with rfl | rfl | rfl
      · simp [likeLiteral, isLikeSpecial, backslashed, ih]
      · simp [likeLiteral, isLikeSpecial, backslashed, ih]
      · simp [likeLiteral, isLikeSpecial, backslashed, ih]
    · obtain ⟨hbackslash, hpercent, hunderscore⟩ := by simpa only [not_or] using hspecial
      simp [likeLiteral, isLikeSpecial, backslashed, hbackslash, hpercent, hunderscore, ih]

/-- **A text with its backslashes matches itself**, and the pattern behind it what follows. -/
theorem likes_likeLiteral (s pattern text : List Char) :
    likes lone (likeLiteral s ++ pattern) text = true
      ↔ ∃ rest, text = s ++ rest ∧ likes lone pattern rest = true := by
  induction s generalizing text with
  | nil => simp [likeLiteral]
  | cons c s ih =>
    -- with or without a backslash the first piece matches this character
    have hstep : likes lone (likeLiteral (c :: s) ++ pattern) text = true
        ↔ ∃ rest, text = c :: rest ∧ likes lone (likeLiteral s ++ pattern) rest = true := by
      cases hc : isLikeSpecial c with
      | true =>
        rw [likeLiteral, if_pos hc]
        exact likes_escaped lone c _ text
      | false =>
        rw [likeLiteral, if_neg (by simp [hc])]
        exact likes_char lone hc _ text
    rw [hstep]
    constructor
    · rintro ⟨_, rfl, hlikes⟩
      obtain ⟨rest, rfl, hrest⟩ := (ih _).mp hlikes
      exact ⟨rest, rfl, hrest⟩
    · rintro ⟨rest, rfl, hrest⟩
      exact ⟨s ++ rest, rfl, (ih _).mpr ⟨rest, rfl, hrest⟩⟩

/-- One backslash for each character that has a meaning. -/
theorem length_likeLiteral (s : List Char) :
    (likeLiteral s).length = s.length + s.countP isLikeSpecial := by
  induction s with
  | nil => rfl
  | cons c s ih =>
    rw [likeLiteral, List.countP_cons]
    split
    · rw [List.length_cons, List.length_cons, List.length_cons, ih]
      omega
    · rw [List.length_cons, List.length_cons, ih]
      omega

/-- A text without such a character, and no other, is left as it is. -/
theorem likeLiteral_eq_self (s : List Char) :
    likeLiteral s = s ↔ ∀ c ∈ s, isLikeSpecial c = false := by
  constructor
  · intro h c hc
    have hlength := length_likeLiteral s
    rw [h] at hlength
    have hnone : s.countP isLikeSpecial = 0 := by omega
    exact Bool.eq_false_iff.mpr (List.countP_eq_zero.mp hnone c hc)
  · intro h
    induction s with
    | nil => rfl
    | cons c s ih =>
      rw [likeLiteral, if_neg (by simp [h c]), ih fun c hc => h c (.tail _ hc)]

/-- Between two `%` it is found anywhere. -/
theorem likes_any_likeLiteral_any (s text : List Char) :
    likes lone ('%' :: (likeLiteral s ++ ['%'])) text = true ↔ s <:+: text := by
  have hall : ∀ rest : List Char, likes lone ['%'] rest = true := fun rest =>
    (likes_any lone [] rest).mpr ⟨rest, [], (List.append_nil rest).symm, rfl⟩
  rw [likes_any]
  constructor
  · rintro ⟨front, _, rfl, hlikes⟩
    obtain ⟨rest, rfl, -⟩ := (likes_likeLiteral lone s _ _).mp hlikes
    exact ⟨front, rest, List.append_assoc front s rest⟩
  · rintro ⟨front, rest, rfl⟩
    exact ⟨front, s ++ rest, List.append_assoc front s rest,
      (likes_likeLiteral lone s _ _).mpr ⟨rest, rfl, hall rest⟩⟩

/-- **A text in a LIKE pattern stands for itself.** Alone the escaped text matches that text only,
    before a pattern the text with a match of the pattern behind it, between two `%` every text
    that it stands in. It is left as it is if and only if none of its characters has a meaning in
    patterns. Its backslashes can be written one character after the other. -/
theorem likes_escapeLike (s : String) :
    (∀ text : String, likes lone (escapeLike s).toList text.toList = true ↔ text = s)
      ∧ (∀ pattern text : List Char, likes lone ((escapeLike s).toList ++ pattern) text = true
        ↔ ∃ rest, text = s.toList ++ rest ∧ likes lone pattern rest = true)
      ∧ (∀ text : List Char, likes lone ('%' :: ((escapeLike s).toList ++ ['%'])) text = true
        ↔ s.toList <:+: text)
      ∧ (escapeLike s = s ↔ ∀ c ∈ s.toList, c ≠ '\\' ∧ c ≠ '%' ∧ c ≠ '_')
      ∧ (escapeLike s).toList
        = backslashed '_' (backslashed '%' (backslashed '\\' s.toList)) := by
  have hlist : (escapeLike s).toList = likeLiteral s.toList := String.toList_ofList
  rw [← String.toList_inj, hlist]
  refine ⟨fun text => ?_, likes_likeLiteral lone s.toList,
    likes_any_likeLiteral_any lone s.toList, ?_, likeLiteral_eq s.toList⟩
  · have hmatch := likes_likeLiteral lone s.toList [] text.toList
    rw [List.append_nil] at hmatch
    rw [hmatch, ← String.toList_inj]
    simp [likes_nil]
  · rw [likeLiteral_eq_self]
    exact forall₂_congr fun c _ => isLikeSpecial_eq_false c

/-- A backslash and a `%` with a pattern behind them: no other text has this beginning. -/
example : likes (fun _ => false) ((escapeLike "\\%").toList ++ ['_']) "\\%x".toList = true
    ∧ likes (fun _ => false) ((escapeLike "\\%").toList ++ ['_']) "\\ax".toList = false := by
  decide

end SqlTree.Text
