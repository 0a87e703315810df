/-
  BucketStore/Proofs/Staging/Advancing.lean
  =========================================
  **Steps towards a commit, and ways back from one.**

  An update makes its way to its commit with four kinds of write: of a pending record,
  of a lock, of a change on a lock, and of the committed record.  A fault that strikes
  one of these leaves it to the update to give up (`StruckAhead`); aborting takes no
  such step (`retreats_abort`), so then no fault strikes it (`Retreats.ensures`).
-/
import BucketStore.Proofs.Staging.Committing
import BucketStore.Proofs.Staging.ReadsOnly

namespace BucketStore.Staging

open MemoryItems

variable {α β : Type} {around : Surroundings} {p : Protocol α} {s : MemoryItems}
  {Q : Except Failure α → MemoryItems → Prop}

/-! ### Faults on the way to the commit -/

/-- Does the call take an update a step towards its commit? These are the writes of a pending record,
    of a lock, of a change on a lock, and the flip of the record. -/
def Call.advances : Call → Bool
  | .write _ _ (some _) .absent => true
  | .write _ _ (some _) (.unlockedWith _) => true
  | .write _ _ (some item) (.lockedBy _) => item.isLocked
  | .write _ _ (some item) (.valueEquals _) => item.record?.any fun r => r.state == .committed
  | _ => false

/-- A store in memory where faults strike nothing but steps towards a commit. -/
def advancing (around : Surroundings) : Contract Call Call.Reply MemoryItems where
  needs _ _ := True
  allows c := (storing around ⟨c.advances = true, False⟩).allows c

/-- What is ensured whatever write is struck is ensured if only steps towards a commit are. -/
theorem ensures_advancing (h : p.Ensures (storing around .faults) s Q) :
    p.Ensures (advancing around) s Q := by
  refine (h.transfer Eq ?_ rfl).mono ?_
  · rintro c s _ rfl _
    refine ⟨trivial, fun r s' hr => ⟨s', ?_, rfl⟩⟩
    exact storing_mono (t := ⟨c.advances = true, False⟩) (fun _ => trivial) id hr
  · rintro r _ ⟨_, hQ, rfl⟩
    exact hQ

/-- While the protocol runs, faults strike nothing but steps towards a commit. -/
def StruckAhead (around : Surroundings) (p : Protocol α) (s : MemoryItems) : Prop :=
  ∀ e ∈ p.calls (respond around) s, e.2.strikes e.1 = true → e.1.advances = true

instance : Decidable (StruckAhead around p s) :=
  inferInstanceAs (Decidable (∀ e ∈ p.calls (respond around) s, _))

theorem run_of_struckAhead (h : p.Ensures (advancing around) s Q) (hstruck : StruckAhead around p s) :
    Q (p.run (respond around) s).reply (p.run (respond around) s).state := by
  have hrun := h.run_along (respond around) (fun t s => s = t)
    (fun c t => t.strikes c = true → c.advances = true) ?_ hstruck rfl
  · obtain ⟨_, hQ, rfl⟩ := hrun
    exact hQ
  · rintro c _ s hahead rfl _
    refine ⟨_, storing_of_respond c s ?_, rfl⟩
    cases hstrikes : s.strikes c with
    | true => exact .inl (hahead hstrikes)
    | false => exact .inr rfl

/-! ### Going back -/

/-- No call may take an update towards its commit; nothing is known of the replies. -/
def retreating : Contract Call Call.Reply Unit where
  needs c _ := c.advances = false
  allows _ _ _ _ := True

/-- The protocol takes no step towards a commit. -/
def Retreats (p : Protocol α) : Prop := p.Ensures retreating () fun _ _ => True

/-- No fault strikes a protocol that takes no step towards a commit. -/
theorem Retreats.ensures (hp : Retreats p) (h : p.Ensures (storing around .nothing) s Q) :
    p.Ensures (advancing around) s Q := by
  induction p generalizing s with
  | done a => exact h
  | fail f => exact h
  | note line p ih => exact ih hp h
  | call c k ih =>
    obtain ⟨hback, hnext⟩ := hp
    refine ⟨trivial, fun r s' hr => ih r (hnext r () trivial) (h.2 r s' ?_)⟩
    have hsafe : c.advances = false := hback
    exact storing_mono (t := ⟨c.advances = true, False⟩) (by simp [hsafe]) id hr

theorem Retreats.bind {next : α → Protocol β} (h : Retreats p) (hnext : ∀ a, Retreats (next a)) :
    Retreats (p >>= next) := Program.Ensures.bind h (fun a _ _ => hnext a) fun _ _ _ => trivial

theorem retreats_tryWrite {bucket key : Bytes} {x : Option Item} {condition : Precondition}
    (h : (Call.write bucket key x condition).advances = false) :
    Retreats (.tryWrite bucket key x condition) := ⟨h, fun _ _ _ => trivial⟩

theorem ReadsOnly.retreats (h : ReadsOnly p) : Retreats p := by
  refine h.ensures (P := fun _ => True) ?_ (fun _ _ _ _ _ _ _ => trivial) trivial
  intro c _ hreads
  cases c with
  | load | scan | now => rfl
  | write | freshId => cases hreads

variable {staged : Staged} {locks : List Locked}

theorem retreats_forEachRelease (about : Locked → Failure → Log.Line) (locks : List Locked) :
    Retreats (forEachLock (release staged) about locks) := by
  induction locks with
  | nil => trivial
  | cons l rest ih =>
    have hrelease : Retreats (release staged l) := by
      apply retreats_tryWrite
      cases l.committed <;> rfl
    refine hrelease.bind fun r => ?_
    cases r with
    | ok _ => exact ih
    | error f =>
      have hrest : Retreats (discard (forEachLock (release staged) about rest)) := by
        rw [Program.discard_eq]
        exact ih.bind fun _ => trivial
      exact hrest.bind fun _ => trivial

theorem retreats_reclaim (bucket : Bytes) (r : Record) : Retreats (reclaim bucket r) := by
  refine Retreats.bind ?_ fun next => ?_
  · exact Program.Ensures.mono steady_transition.attempt fun _ _ _ => trivial
  · cases next with
    | error f => trivial
    | ok _ =>
      refine (retreats_tryWrite rfl).bind fun reply => ?_
      cases reply <;> trivial

/-- Aborting takes no step towards a commit. -/
theorem retreats_abort (hr : staged.record.Addressable) : Retreats (abort staged locks) := by
  have hflip : Retreats (staged.flip (staged.decided .aborted)) := by
    apply retreats_tryWrite
    have hrecord : (staged.decided .aborted).item.record? = some (staged.decided .aborted) :=
      record?_item (hr.withState .aborted)
    change Option.any _ (staged.decided .aborted).item.record? = false
    rw [hrecord]
    rfl
  have habort : Retreats (abortRecord staged) := by
    refine Program.Ensures.bind steady_transition.attempt ?_ fun _ _ _ => trivial
    rintro (f | aborted) _ ⟨_, hnext⟩
    · trivial
    · obtain rfl := hnext _ rfl aborted rfl
      refine hflip.bind fun reply => ?_
      cases reply with
      | error f => trivial
      | ok flipped =>
        cases flipped with
        | true => trivial
        | false => exact readsOnly_isAborted.retreats
  refine habort.bind fun aborted => ?_
  cases aborted with
  | false => trivial
  | true =>
    refine (retreats_forEachRelease _ locks).bind fun released => ?_
    cases released with
    | false => trivial
    | true => exact retreats_reclaim _ _

end BucketStore.Staging
