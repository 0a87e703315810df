/-
  BucketStore/Proofs/Staging/Reachable.lean
  =========================================
  **The states that a store can get into under engines that work on it.**

  `Reachable` collects the states that any sequence of events leads to from the
  empty store; the settings of the engine may change from one call to the next.

  Every reachable store is well-formed (`sound_of_reachable`).
-/
import BucketStore.Proofs.Staging.Effects

namespace BucketStore.Staging

open MemoryItems

/-- The states that events of a kind lead to. -/
inductive Reachable (around : Surroundings) (admits : Event → Prop) : MemoryItems → Prop
  | empty : Reachable around admits {}
  | step {s : MemoryItems} {e : Event} (h : Reachable around admits s) (hsize : e.Addressable)
      (hadmits : admits e) : Reachable around admits (e.step around s)

variable {around : Surroundings} {admits : Event → Prop} {s : MemoryItems} {config : Config}
  {bucket key : Bytes}

theorem Reachable.run (h : Reachable around admits s) {events : List Event}
    (hsize : ∀ e ∈ events, e.Addressable) (hadmits : ∀ e ∈ events, admits e) :
    Reachable around admits (events.foldl (Event.step around) s) := by
  induction events generalizing s with
  | nil => exact h
  | cons e events ih =>
    rw [List.forall_mem_cons] at hsize hadmits
    exact ih (h.step hsize.1 hadmits.1) hsize.2 hadmits.2

/-! ### A store after a crash -/

/-- A clock that stands still, and identifiers of which the first is not drawn again. -/
def still : Surroundings where
  clock _ := 0
  ids i := if i = 0 then "p" else "q"

theorem addressable_still : still.Addressable := by
  intro i
  unfold still
  dsimp only
  split <;> decide

/-- Buckets A and B are created, and an update of both stops when it has committed: no write after
    its sixth takes effect. -/
def crash : List Event :=
  [.request {} (.create [65]), .request {} (.create [66]), .faults (some ⟨6, true⟩),
    .request {} (.update [.set [65] [97] [49], .set [66] [98] [50]])]

/-- The store that the crash leaves: both keys are locked, and the record is committed. -/
def crashed : MemoryItems := crash.foldl (Event.step still) {}

theorem reachable_crashed : Reachable still (fun _ => True) crashed :=
  Reachable.empty.run (by decide) (fun _ _ => trivial)

/-! ### Buckets come and go -/

theorem createBucket_cases (s : MemoryItems) (bucket : Bytes) :
    ((createBucket bucket s).reply = .ok () ∧ s.closed = false ∧ s.buckets.contains bucket = false ∧
      (createBucket bucket s).state = s.withItems bucket {}) ∨
    ((∃ f, (createBucket bucket s).reply = .error f) ∧ (createBucket bucket s).state = s) := by
  unfold createBucket
  split
  · exact .inr ⟨⟨_, rfl⟩, rfl⟩
  · next hopen =>
    split
    · exact .inr ⟨⟨_, rfl⟩, rfl⟩
    · next hmissing => exact .inl ⟨rfl, by simpa using hopen, by simpa using hmissing, rfl⟩

theorem deleteBucket_cases (s : MemoryItems) (bucket : Bytes) :
    ((deleteBucket bucket s).reply = .ok () ∧ s.closed = false ∧ s.buckets.contains bucket = true ∧
      (deleteBucket bucket s).state = { s with buckets := s.buckets.erase bucket }) ∨
    ((∃ f, (deleteBucket bucket s).reply = .error f) ∧ (deleteBucket bucket s).state = s) := by
  unfold deleteBucket
  split
  · exact .inr ⟨⟨_, rfl⟩, rfl⟩
  · next hopen =>
    split
    · next hfound => exact .inl ⟨rfl, by simpa using hopen, hfound, rfl⟩
    · exact .inr ⟨⟨_, rfl⟩, rfl⟩

theorem raw_withEmpty (h : s.buckets.contains bucket = false) :
    (s.withItems bucket {}).raw = s.raw := by
  funext b k
  unfold raw withItems
  rw [KeyMap.get?_insert]
  split
  · next heq =>
    rw [heq, KeyMap.contains_eq_false.mp h]
    rfl
  · rfl

theorem raw_erase (b k : Bytes) : ({ s with buckets := s.buckets.erase bucket } : MemoryItems).raw b k =
    if b = bucket then none else s.raw b k := by
  unfold raw
  rw [KeyMap.get?_erase]
  split <;> rfl

section

variable (s) (config) (bucket)

theorem reply_drop : ((Engine.driver (itemStore around) config).drop bucket s).reply =
    match checkBucket bucket with
    | .ok _ => (deleteBucket bucket s).reply
    | .error f => .error f := Action.reply_check_note

theorem state_drop : ((Engine.driver (itemStore around) config).drop bucket s).state =
    match checkBucket bucket with
    | .ok _ => (deleteBucket bucket s).state
    | .error _ => s := Action.state_check_note

end

/-! ### Every reachable store is well-formed -/

theorem sound_of_less {s' : MemoryItems} (hs : s.Sound around) (hdrawn : s'.drawn = s.drawn)
    (hraw : ∀ b k item, s'.raw b k = some item → s.raw b k = some item) : s'.Sound around := by
  intro b k item hitem
  rw [hdrawn]
  exact hs b k item (hraw b k item hitem)

theorem sound_createBucket (hs : s.Sound around) : (createBucket bucket s).state.Sound around := by
  rcases createBucket_cases s bucket with ⟨_, _, hmissing, hstate⟩ | ⟨_, hstate⟩
  · rw [hstate]
    exact sound_of_less hs rfl fun b k item hitem => raw_withEmpty hmissing ▸ hitem
  · rw [hstate]
    exact hs

/-- Deleting a bucket stores nothing. -/
theorem raw_of_deleteBucket {b k : Bytes} {item : Item}
    (h : (deleteBucket bucket s).state.raw b k = some item) : s.raw b k = some item := by
  rcases deleteBucket_cases s bucket with ⟨_, _, _, hstate⟩ | ⟨_, hstate⟩
  · rw [hstate, raw_erase] at h
    split at h
    · cases h
    · exact h
  · rw [hstate] at h
    exact h

theorem sound_deleteBucket (hs : s.Sound around) : (deleteBucket bucket s).state.Sound around := by
  refine sound_of_less hs ?_ fun _ _ _ => raw_of_deleteBucket
  rcases deleteBucket_cases s bucket with ⟨_, _, _, hstate⟩ | ⟨_, hstate⟩
  · rw [hstate]
  · rw [hstate]

theorem sound_step (hids : around.Addressable) {e : Event} (hsize : e.Addressable)
    (hs : s.Sound around) : (e.step around s).Sound around := by
  have heffect := e.effect around s
  generalize e.step around s = s' at heffect
  cases heffect with
  | runs call hcall _ => exact sound_run (issues_program (hcall hsize)) hids hs
  | creates bucket _ => exact sound_createBucket hs
  | deletes bucket _ => exact sound_deleteBucket hs
  | closes => exact hs
  | faults plan => exact hs
  | refused => exact hs

/-- Every reachable store is well-formed. -/
theorem sound_of_reachable (hids : around.Addressable) (h : Reachable around admits s) :
    s.Sound around := by
  induction h with
  | empty => exact fun _ _ _ hitem => nomatch hitem
  | step _ hsize _ ih => exact sound_step hids hsize ih

/-! ### Every bucket has a name -/

theorem contains_run {α : Type} (p : Protocol α) :
    (p.run (respond around) s).state.buckets.contains bucket = s.buckets.contains bucket :=
  (run_of_faults (ensures_sameBuckets (ensures_true p))).2.contains bucket

/-- An event makes no bucket but one whose name may be used. -/
theorem contains_step {e : Event} (h : (e.step around s).buckets.contains bucket = true) :
    s.buckets.contains bucket = true ∨ checkBucket bucket = .ok () := by
  have heffect := e.effect around s
  generalize e.step around s = s' at h heffect
  cases heffect with
  | runs call _ _ => exact .inl ((contains_run _).symm.trans h)
  | creates b hname =>
    rcases createBucket_cases s b with ⟨_, _, _, hstate⟩ | ⟨_, hstate⟩
    · rw [hstate] at h
      unfold withItems KeyMap.contains at h
      rw [KeyMap.get?_insert] at h
      split at h
      · next heq =>
        subst heq
        exact .inr hname
      · exact .inl h
    · rw [hstate] at h
      exact .inl h
  | deletes b _ =>
    rcases deleteBucket_cases s b with ⟨_, _, _, hstate⟩ | ⟨_, hstate⟩
    · rw [hstate] at h
      unfold KeyMap.contains at h
      rw [KeyMap.get?_erase] at h
      split at h
      · cases h
      · exact .inl h
    · rw [hstate] at h
      exact .inl h
  | closes => exact .inl h
  | faults plan => exact .inl h
  | refused => exact .inl h

/-- The buckets of a reachable store have names that may be used. -/
theorem named_of_reachable (h : Reachable around admits s)
    (hbucket : s.buckets.contains bucket = true) : checkBucket bucket = .ok () := by
  induction h with
  | empty => cases hbucket
  | step _ _ _ ih => exact (contains_step hbucket).elim ih id

end BucketStore.Staging
