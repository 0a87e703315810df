/-
  BucketStore/Proofs/Staging/Dropping.lean
  ========================================
  **What deleting a bucket changes in the other buckets.**

  A bucket takes the records in it along.  A committed transaction that was not
  applied everywhere is then forgotten, and the keys in other buckets that it
  still holds show what they had before it (`drop_preserves_iff`).  A crash leaves
  such keys (`drop_loses_committed_write`).
-/
import BucketStore.Proofs.Staging.Reachable

namespace BucketStore.Staging

open MemoryItems

namespace Contents

/-- The key shows what a committed transaction makes of its value, the transaction's record is in
    the bucket, and the key would show something else without it. -/
def ShownBy (c : Contents) (bucket other key : Bytes) : Prop :=
  ∃ item lock, c other key = some item ∧ item.lock = some lock ∧ lock.recordBucket = bucket ∧
    c.committed lock = true ∧ lock.pending.resolve item.value ≠ item.value

/-- The contents without a bucket. -/
def without (c : Contents) (bucket : Bytes) : Contents :=
  fun b k => if b = bucket then none else c b k

variable {c : Contents} {bucket other key : Bytes}

/-- The transactions with records in the bucket are forgotten. -/
theorem committed_without (lock : Lock) : (c.without bucket).committed lock =
    (c.committed lock && decide (lock.recordBucket ≠ bucket)) := by
  by_cases hbucket : lock.recordBucket = bucket
  · rw [committed_of_none (if_pos hbucket)]
    simp [hbucket]
  · rw [committed_congr (c := c) (if_neg hbucket)]
    simp [hbucket]

theorem shownBy_iff {item : Item} {lock : Lock} (hitem : c other key = some item)
    (hlock : item.lock = some lock) : c.ShownBy bucket other key ↔ lock.recordBucket = bucket ∧
      c.committed lock = true ∧ lock.pending.resolve item.value ≠ item.value := by
  constructor
  · rintro ⟨item', lock', hitem', hlock', h⟩
    rw [hitem, Option.some.injEq] at hitem'
    subst hitem'
    rw [hlock, Option.some.injEq] at hlock'
    subst hlock'
    exact h
  · exact fun h => ⟨item, lock, hitem, hlock, h⟩

theorem visible_without_iff (hne : other ≠ bucket) :
    (c.without bucket).visible other key = c.visible other key ↔ ¬c.ShownBy bucket other key := by
  have hget : c.without bucket other key = c other key := if_neg hne
  unfold visible
  rw [hget]
  cases hitem : c other key with
  | none => simp [ShownBy, hitem]
  | some item =>
    cases hlock : item.lock with
    | none => simp [ShownBy, hitem, Item.seen, hlock]
    | some lock =>
      rw [shownBy_iff hitem hlock]
      simp only [Option.bind_some, Item.seen, hlock, committed_without]
      by_cases hbucket : lock.recordBucket = bucket
      · cases hcommitted : c.committed lock with
        | false => simp
        | true => simp [hbucket, eq_comm]
      · simp [hbucket]

end Contents

variable {around : Surroundings} {config : Config}

/-- **What a bucket's deletion changes elsewhere.** A key of another bucket shows the same after the
    call, unless the bucket was deleted with the record of a committed transaction by which the key
    shows what it does. -/
theorem drop_preserves_iff (s : MemoryItems) {bucket other : Bytes} (hne : other ≠ bucket)
    (key : Bytes) :
    Contents.visible ((Engine.driver (itemStore around) config).drop bucket s).state.raw other key =
        Contents.visible s.raw other key ↔
      ¬(((Engine.driver (itemStore around) config).drop bucket s).reply = .ok () ∧
        Contents.ShownBy s.raw bucket other key) := by
  rw [state_drop, reply_drop]
  cases checkBucket bucket with
  | error f => simp
  | ok _ =>
    dsimp only
    rcases deleteBucket_cases s bucket with ⟨hreply, _, _, hstate⟩ | ⟨⟨f, hreply⟩, hstate⟩
    · have hraw : (deleteBucket bucket s).state.raw = Contents.without s.raw bucket := by
        funext b k
        rw [hstate, raw_erase]
        rfl
      rw [hreply, hraw, Contents.visible_without_iff hne]
      simp
    · rw [hreply, hstate]
      simp

/-- The record of the crashed update is in A, so nothing in A is shown by a record in B. -/
theorem drop_preserves_iff_after_crash : ([65] : Bytes) ≠ [66] ∧
    ¬(((Engine.driver (itemStore still) {}).drop [66] crashed).reply = .ok () ∧
      Contents.ShownBy crashed.raw [66] [65] [97]) :=
  ⟨by decide, (drop_preserves_iff crashed (by decide) [97]).mp (by decide +kernel)⟩

/-- A bucket's deletion changes what other buckets show: the crashed update of A and B was answered,
    and what it wrote in B is lost with A. -/
theorem drop_loses_committed_write :
    ¬∀ s, Reachable still (fun _ => True) s → ∀ bucket other key, other ≠ bucket →
      isReservedKey key = false →
      Contents.visible ((Engine.driver (itemStore still) {}).drop bucket s).state.raw other key =
        Contents.visible s.raw other key := by
  intro h
  have hkept := h crashed reachable_crashed [65] [66] [98] (by decide) (by decide)
  revert hkept
  decide +kernel

end BucketStore.Staging
