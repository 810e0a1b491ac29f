/-!
# Attempts

Computations that may be refused have values in `Except ε`. A run of them succeeds exactly when
each succeeds on what the one before it gave (`Attempt.bind_eq_ok`), and the first one that is
refused gives its reason (`Attempt.bind_eq_error`).
-/

namespace TopCharts.Attempt

variable {ε α β : Type}

/-- The second of two attempts is run on the value of the first, and only if there is one. -/
theorem bind_eq_ok {x : Except ε α} {f : α → Except ε β} {b : β} :
    x >>= f = .ok b ↔ ∃ a, x = .ok a ∧ f a = .ok b := by
  constructor
  · intro h
    match x with
    | .ok a => exact ⟨a, rfl, h⟩
    | .error _ => exact nomatch h
  · rintro ⟨a, rfl, h⟩
    exact h

theorem bind_eq_error {x : Except ε α} {f : α → Except ε β} {e : ε} :
    x >>= f = .error e ↔ x = .error e ∨ ∃ a, x = .ok a ∧ f a = .error e := by
  match x with
  | .ok a =>
    constructor
    · exact fun h => .inr ⟨a, rfl, h⟩
    · rintro (h | ⟨b, hb, h⟩)
      · cases h
      · cases hb
        exact h
  | .error _ =>
    constructor
    · exact fun h => .inl (congrArg _ (Except.error.inj h))
    · rintro (h | ⟨b, hb, -⟩)
      · cases h
        rfl
      · cases hb

/-- An attempt that cannot be refused succeeds with its value alone. -/
@[simp] theorem pure_eq_ok {a b : α} : (pure a : Except ε α) = .ok b ↔ a = b :=
  ⟨Except.ok.inj, congrArg Except.ok⟩

end TopCharts.Attempt
