/-
  BucketStore/Proofs/Fallible.lean
  ================================
  **Computations that may fail.**

  A sequence answers if each of its parts does (`bind_eq_ok`).  Where it does not matter
  which failure is reported first, only `toOption` of a computation is looked at.
-/

namespace BucketStore

variable {ε α β : Type}

theorem bind_eq_ok {x : Except ε α} {f : α → Except ε β} {b : β} :
    x >>= f = .ok b ↔ ∃ a, x = .ok a ∧ f a = .ok b := by
  cases x with
  | error e => simp [bind, Except.bind]
  | ok a => simp [bind, Except.bind]

theorem bind_eq_error {x : Except ε α} {f : α → Except ε β} {e : ε} :
    x >>= f = .error e ↔ x = .error e ∨ ∃ a, x = .ok a ∧ f a = .error e := by
  cases x with
  | error e' => simp [bind, Except.bind]
  | ok a => simp [bind, Except.bind]

variable {r : Except ε α}

theorem map_eq_ok {f : α → β} {b : β} : r.map f = .ok b ↔ ∃ a, r = .ok a ∧ f a = b := by
  cases r <;> simp [Except.map]

theorem toOption_eq_some {a : α} : r.toOption = some a ↔ r = .ok a := by
  cases r <;> simp [Except.toOption]

theorem toOption_eq_none : r.toOption = none ↔ ∃ e, r = .error e := by
  cases r <;> simp [Except.toOption]

/-- Whatever comes after computations that answer the same answers the same. -/
theorem toOption_bind_congr {r' : Except ε α} (h : r.toOption = r'.toOption) (next : α → Except ε β) :
    (r >>= next).toOption = (r' >>= next).toOption := by
  cases r <;> cases r' <;> cases h <;> rfl

end BucketStore
