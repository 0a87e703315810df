/-
  BucketStore/Proofs/Staging/Locks.lean
  =====================================
  **The keys that an update has locked, and the copies of their values.**

  The write set of locked keys holds the keys of the locks, once each, with the
  values that were found when they were locked.
-/
import BucketStore.Proofs.Transaction.WriteSet
import BucketStore.Staging.Update

namespace BucketStore.Staging

def Locked.place (l : Locked) : Bytes × Bytes := (l.bucket, l.key)

/-- What holds of the empty write set, and goes on to hold when one lock more is loaded, holds of the
    write set of the locks. -/
theorem loadLocked_induction {P : WriteSet → Prop} {locks : List Locked} (hempty : P {})
    (hload : ∀ ws, ∀ l ∈ locks, P ws → P (ws.load l.bucket l.key l.committed)) :
    P (loadLocked locks) := by
  unfold loadLocked
  generalize ({} : WriteSet) = ws at hempty ⊢
  induction locks generalizing ws with
  | nil => exact hempty
  | cons l rest ih =>
    refine ih (fun ws l' hl' => hload ws l' (List.mem_cons_of_mem _ hl')) _ ?_
    exact hload ws l (List.mem_cons_self ..) hempty

theorem distinct_loadLocked (locks : List Locked) : (loadLocked locks).Distinct :=
  loadLocked_induction List.nodup_nil fun _ l _ h =>
    WriteSet.distinct_load h l.bucket l.key l.committed

theorem loadLocked_tracks {locks : List Locked} {v : Places Bytes}
    (h : ∀ l ∈ locks, l.committed = v l.bucket l.key) : (loadLocked locks).Tracks v v := by
  refine loadLocked_induction (P := fun ws => ws.Tracks v v) (WriteSet.tracks_empty v) ?_
  intro ws l hl hws
  rw [h l hl]
  exact hws.load l.bucket l.key

theorem isLoaded_loadLocked {locks : List Locked} {b k : Bytes} :
    (loadLocked locks).isLoaded b k = true ↔ (b, k) ∈ locks.map Locked.place := by
  have hfold : ∀ ws : WriteSet,
      (locks.foldl (fun ws l => ws.load l.bucket l.key l.committed) ws).isLoaded b k = true ↔
        (b, k) ∈ locks.map Locked.place ∨ ws.isLoaded b k = true := by
    induction locks with
    | nil => intro ws; simp
    | cons l rest ih =>
      intro ws
      rw [List.foldl_cons, ih, WriteSet.isLoaded_load, List.map_cons, List.mem_cons]
      simp only [Locked.place, Prod.mk.injEq]
      exact ⟨fun h => by rcases h with h | h | h <;> simp [h], fun h => by
        rcases h with (h | h) | h <;> simp [h]⟩
  refine (hfold {}).trans ⟨?_, .inl⟩
  rintro (h | h)
  · exact h
  · cases h

end BucketStore.Staging
