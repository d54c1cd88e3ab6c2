/-!
# Computations that can fail

When a computation made of others succeeds.
-/

namespace RobotBench

variable {ε α β : Type} {x : Except ε α}

/-- What goes on after a success. -/
theorem Except.bind_eq_ok_iff {f : α → Except ε β} {b : β} :
    (x >>= f) = .ok b ↔ ∃ a, x = .ok a ∧ f a = .ok b := by
  cases x with
  | error e => exact ⟨nofun, nofun⟩
  | ok a => exact ⟨fun h => ⟨a, rfl, h⟩, fun ⟨_, hx, hf⟩ => by cases hx; exact hf⟩

/-- A mapped result is a success exactly when the result is. -/
theorem map_ok_iff {f : α → β} {b : β} : x.map f = .ok b ↔ ∃ a, x = .ok a ∧ f a = b := by
  cases x <;> simp [Except.map]

/-- What a computation gives, without the reason if it gives nothing. -/
theorem Except.to_option_bind (f : α → Except ε β) :
    (x >>= f).toOption = x.toOption.bind fun a => (f a).toOption := by
  cases x <;> rfl

theorem Except.to_option_eq_some_iff {a : α} : x.toOption = some a ↔ x = .ok a := by
  cases x <;> simp [Except.toOption]

end RobotBench
