import DbmlRestore.Text

/-!
# Results

What it takes that the parts of a computation give a result or an error, and what can be said of the
errors (`FailsAs`): a computation fails as each of its parts does, if it fails.
-/

namespace DbmlRestore

/-! ## Parts of a computation -/

theorem map_eq_ok_iff {ε α β : Type} {x : Except ε α} {f : α → β} {b : β} :
    x.map f = .ok b ↔ ∃ a, x = .ok a ∧ f a = b := by
  cases x with
  | error e => exact iff_of_false nofun fun ⟨_, h, _⟩ => nomatch h
  | ok a => simp [Except.map]

/-- Changing a result keeps the errors. -/
theorem map_eq_error_iff {ε α β : Type} {x : Except ε α} {f : α → β} {e : ε} :
    x.map f = .error e ↔ x = .error e := by
  cases x <;> simp [Except.map]

theorem bind_eq_ok_iff {ε α β : Type} {x : Except ε α} {f : α → Except ε β} {b : β} :
    x >>= f = .ok b ↔ ∃ a, x = .ok a ∧ f a = .ok b := by
  cases x with
  | error e => exact iff_of_false nofun fun ⟨_, h, _⟩ => nomatch h
  | ok a => simp [bind, Except.bind]

theorem bind_eq_error_iff {ε α β : Type} {x : Except ε α} {f : α → Except ε β} {e : ε} :
    x >>= f = .error e ↔ x = .error e ∨ ∃ a, x = .ok a ∧ f a = .error e := by
  cases x with
  | error e => simp [bind, Except.bind]
  | ok a => simp [bind, Except.bind]

theorem mapError_eq_ok_iff {ε ε' α : Type} {x : Except ε α} {f : ε → ε'} {a : α} :
    x.mapError f = .ok a ↔ x = .ok a := by
  cases x with
  | error e =>
    show Except.error (f e) = .ok a ↔ _
    simp
  | ok b =>
    show Except.ok b = .ok a ↔ _
    simp

theorem mapError_eq_error_iff {ε ε' α : Type} {x : Except ε α} {f : ε → ε'} {e : ε'} :
    x.mapError f = .error e ↔ ∃ e', x = .error e' ∧ f e' = e := by
  cases x with
  | error e' =>
    show Except.error (f e') = .error e ↔ _
    simp
  | ok a =>
    show Except.ok a = .error e ↔ _
    simp

/-! ## Errors -/

/-- An error of `x` is as `P` says. -/
def FailsAs {ε α : Type} (x : Except ε α) (P : ε → Prop) : Prop := ∀ e, x = .error e → P e

section FailsAs

variable {ε ε' α β : Type} {x : Except ε α} {P : ε → Prop}

theorem failsAs_ok {a : α} : FailsAs (.ok a) P := fun _ h => nomatch h

theorem failsAs_error {e : ε} (h : P e) : FailsAs (.error e : Except ε α) P := fun _ heq =>
  Except.error.inj heq ▸ h

/-- Steps that each fail in such ways fail in such ways together. -/
theorem FailsAs.bind {f : α → Except ε β} (hx : FailsAs x P)
    (hf : ∀ a, x = .ok a → FailsAs (f a) P) : FailsAs (x >>= f) P := by
  intro e h
  rcases bind_eq_error_iff.1 h with h | ⟨a, ha, h⟩
  · exact hx e h
  · exact hf a ha e h

/-- Wrapping the errors is seen in the errors only. -/
theorem failsAs_mapError {f : ε → ε'} {P : ε' → Prop} :
    FailsAs (x.mapError f) P ↔ FailsAs x fun e => P (f e) := by
  constructor
  · exact fun h e he => h (f e) (mapError_eq_error_iff.2 ⟨e, he, rfl⟩)
  · intro h e' he'
    obtain ⟨e, he, rfl⟩ := mapError_eq_error_iff.1 he'
    exact h e he

end FailsAs

end DbmlRestore
