/-
  BucketStore/Proofs/Places.lean
  ==============================
  **Partial functions of a bucket and a key, changed at one place at a time.**

  The contents of a store, the values that readers see and the locks that a
  transaction holds are functions of this form; `Places.put` changes one of them
  at one place and leaves it as it is everywhere else (`put_other`).
-/
import BucketStore.Bytes

namespace BucketStore

/-- What there is, if anything, under each key of each bucket. -/
abbrev Places (α : Type) := Bytes → Bytes → Option α

namespace Places

variable {α : Type} {m : Places α} {bucket key b k : Bytes} {x : Option α}

/-- The function with another value, or none, at one place. -/
def put (m : Places α) (bucket key : Bytes) (x : Option α) : Places α := fun b k =>
  if b = bucket ∧ k = key then x else m b k

@[simp] theorem put_same : m.put bucket key x bucket key = x := by simp [put]

theorem put_other (h : ¬(b = bucket ∧ k = key)) : m.put bucket key x b k = m b k := by
  simp [put, h]

theorem put_other_key (h : k ≠ key) : m.put bucket key x b k = m b k :=
  put_other fun h' => h h'.2

@[simp] theorem put_put (x' : Option α) :
    (m.put bucket key x).put bucket key x' = m.put bucket key x' := by
  funext b k
  unfold put
  split <;> rfl

theorem put_self (h : m bucket key = x) : m.put bucket key x = m := by
  funext b k
  unfold put
  split
  · next heq => rw [heq.1, heq.2, h]
  · rfl

theorem put_comm {bucket' key' : Bytes} {x' : Option α} (h : ¬(bucket = bucket' ∧ key = key')) :
    (m.put bucket key x).put bucket' key' x' = (m.put bucket' key' x').put bucket key x := by
  funext b k
  unfold put
  by_cases hb : b = bucket ∧ k = key
  · rw [if_pos hb, if_pos hb, if_neg fun hb' => h ⟨hb.1.symm.trans hb'.1, hb.2.symm.trans hb'.2⟩]
  · rw [if_neg hb, if_neg hb]

end Places

end BucketStore
