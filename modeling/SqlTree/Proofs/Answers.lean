/-!
# Functions that may fail

What is left of a function that may fail once its answer is known, whatever its failures are:
`exists_of_bind_eq_ok` takes two steps apart, `exists_of_map_eq_ok` the last of them if it succeeds
and `eq_error_of_map_eq_error` if it fails, `mapM_eq_ok` collects the answers of a function that never
fails, and `forall_of_mapM_eq_ok` carries what each answer has to all of them.
-/

namespace SqlTree

variable {ε α β : Type}

theorem exists_of_bind_eq_ok {x : Except ε α} {f : α → Except ε β} {b : β}
    (h : x >>= f = .ok b) : ∃ a, x = .ok a ∧ f a = .ok b := by
  cases x with
  | error e => cases h
  | ok a => exact ⟨a, rfl, h⟩

theorem exists_of_map_eq_ok {x : Except ε α} {f : α → β} {b : β}
    (h : x.map f = .ok b) : ∃ a, x = .ok a ∧ f a = b := by
  cases x with
  | error e => cases h
  | ok a => exact ⟨a, rfl, Except.ok.inj h⟩

theorem eq_error_of_map_eq_error {x : Except ε α} {f : α → β} {e : ε}
    (h : x.map f = .error e) : x = .error e := by
  cases x with
  | error e' => exact congrArg _ (Except.error.inj h)
  | ok a => cases h

/-- A function that answers everywhere answers for all items together. -/
theorem mapM_eq_ok {f : α → Except ε β} {g : α → β} (h : ∀ a, f a = .ok (g a)) (l : List α) :
    l.mapM f = .ok (l.map g) := by
  obtain rfl : f = fun a => pure (g a) := funext h
  exact List.mapM_pure

/-- What holds of each answer holds of all of them together. -/
theorem forall_of_mapM_eq_ok {f : α → Except ε β} {P : β → Prop} {l : List α} {l' : List β}
    (h : l.mapM f = .ok l') (hf : ∀ a ∈ l, ∀ b, f a = .ok b → P b) : ∀ b ∈ l', P b := by
  induction l generalizing l' with
  | nil =>
    obtain rfl : [] = l' := Except.ok.inj h
    exact fun b hb => by cases hb
  | cons a rest ih =>
    rw [List.mapM_cons] at h
    obtain ⟨b, hb, h⟩ := exists_of_bind_eq_ok h
    obtain ⟨bs, hbs, h⟩ := exists_of_bind_eq_ok h
    obtain rfl : b :: bs = l' := Except.ok.inj h
    have hrest := ih hbs fun a ha => hf a (List.mem_cons_of_mem _ ha)
    exact List.forall_mem_cons.mpr ⟨hf a List.mem_cons_self b hb, hrest⟩

end SqlTree
