/-
  BucketStore/Proofs/Staging/Refinement.lean
  ==========================================
  **Where nothing fails, the engine is the driver in memory.**

  Each call on the engine is answered as the driver in memory answers it, and
  leaves a store that mirrors what is left there (`perform_corresponds`).  So are
  whole runs of calls (`runs_correspond`): what an update has stored besides
  values, its record and its locks, is gone when it ends.
-/
import BucketStore.Proofs.Staging.Mirroring
import Mathlib.Data.List.Forall2

namespace BucketStore.Staging

open MemoryItems

variable {around : Surroundings} {config : Config} {s s' : MemoryItems} {m m' : Memory.Store}
  {bucket key : Bytes} {α : Type}

theorem corresponds_run (hfault : s.fault = none) {p : Protocol α}
    {step : Step Memory.Store (Except Failure α)}
    (hp : p.Ensures (storing around .nothing) s (AnswersLike step)) :
    Corresponds (p.run (respond around) s) step := by
  obtain ⟨⟨hreply, hmirrors⟩, hunfailing⟩ := run_of_nothing hp hfault
  exact ⟨hreply, hmirrors, hunfailing⟩

section

variable (h : Mirrors s m) (hfault : s.fault = none)
include h hfault

/-! ### Calls on a bucket -/

omit hfault in
theorem createBucket_run (bucket : Bytes) : createBucket bucket s =
    if m.buckets.contains bucket then ⟨.error (.bucketExists bucket), s, []⟩
    else ⟨.ok (), s.withItems bucket {}, []⟩ := by
  unfold createBucket
  rw [h.opened, h.buckets]
  rfl

omit hfault in
theorem deleteBucket_run (bucket : Bytes) : deleteBucket bucket s =
    if m.buckets.contains bucket then ⟨.ok (), { s with buckets := s.buckets.erase bucket }, []⟩
    else ⟨.error (.bucketNotFound bucket), s, []⟩ := by
  unfold deleteBucket
  rw [h.opened, h.buckets]
  rfl

/-- A call on a bucket is refused for its name on both sides, or corresponds if what it does to the
    store does. -/
theorem checked_corresponds {checked : Except Failure Unit} {act : Action MemoryItems Unit}
    {line : Log.Line} {step : Step Memory.Store (Except Failure Unit)}
    (hcalled : Corresponds (act s) step) :
    Corresponds ((Action.check checked >>= fun _ => act >>= fun _ => Action.note line) s)
      (match checked with
        | .ok _ => step
        | .error f => ⟨.error f, m, f.notice⟩) := by
  cases checked with
  | error f => exact ⟨rfl, h, hfault⟩
  | ok _ =>
    constructor
    · rw [Action.reply_check_note]
      exact hcalled.reply
    · rw [Action.state_check_note]
      exact hcalled.mirrors
    · rw [Action.state_check_note]
      exact hcalled.unfailing

theorem create_corresponds (bucket : Bytes) :
    Corresponds ((Engine.driver (itemStore around) config).create bucket s)
      ((Memory.create bucket).namedBucket "create" bucket m) := by
  apply Corresponds.mapFailure (Failure.kind_duringBucket _ _)
  rw [Memory.create_run h.memoryOpened]
  apply checked_corresponds h hfault
  change Corresponds (createBucket bucket s) _
  rw [createBucket_run h]
  split
  · exact ⟨rfl, h, hfault⟩
  · next hmissing => exact ⟨rfl, h.withEmpty (by simpa using hmissing), hfault⟩

theorem drop_corresponds (bucket : Bytes) :
    Corresponds ((Engine.driver (itemStore around) config).drop bucket s)
      ((Memory.drop bucket).namedBucket "delete" bucket m) := by
  apply Corresponds.mapFailure (Failure.kind_duringBucket _ _)
  rw [Memory.drop_run h.memoryOpened]
  apply checked_corresponds h hfault
  change Corresponds (deleteBucket bucket s) _
  rw [deleteBucket_run h]
  split
  · exact ⟨rfl, h.erase bucket, hfault⟩
  · exact ⟨rfl, h, hfault⟩

theorem list_corresponds (hsize : config.pageSize.toNat + 1 < UInt64.size)
    (config' : Memory.Config) (bucket : Bytes) :
    Corresponds ((Engine.driver (itemStore around) config).list bucket s)
      ((Memory.list config' bucket).namedBucket "list" bucket m) := by
  apply Corresponds.mapFailure (Failure.kind_duringBucket _ _)
  rw [Memory.list_run h.memoryOpened]
  refine corresponds_run hfault (Program.ensures_bind.mpr (Program.ensures_check.mpr ?_))
  cases checkBucket bucket with
  | error f => exact ⟨rfl, h⟩
  | ok _ =>
    apply Program.ensures_mapFailure.mpr
    apply Program.ensures_noteFailure.mpr
    refine (ensures_listBucket_like h hsize).mono ?_
    rintro r s' ⟨rfl, rfl⟩
    exact ⟨(Agree.refl _).mapError_left fun _ => rfl, h⟩

/-! ### Calls on a key -/

theorem onKey_corresponds {action action' : String} {p : Protocol α}
    {next : Memory.Bucket → Action Memory.Store α} (hkey : isReservedKey key = false)
    (hp : p.Ensures (storing around .nothing) s (AnswersLike ((Memory.bucket bucket >>= next) m))) :
    Corresponds ((Engine.onKey action bucket key p).run (respond around) s)
      ((Memory.bucketOf bucket key >>= next).named action' bucket key m) := by
  apply Corresponds.mapFailure (Failure.kind_during _ _ _)
  rw [Memory.bucketOf_bind_run h.memoryOpened]
  apply corresponds_run hfault
  apply ensures_onKey
  · intro f hcheck
    rw [hcheck]
    exact ⟨rfl, h⟩
  · intro hreserved
    rw [hkey] at hreserved
    cases hreserved
  · intro hcheck _
    rw [hcheck]
    refine hp.mono ?_
    exact fun r s' ⟨hreply, hmirrors⟩ => ⟨hreply.mapError_left fun _ => rfl, hmirrors⟩

/-! ### Updates -/

omit hfault in
/-- A transaction of users puts nothing under the keys of records. -/
theorem reserved_on {tx : Transaction} {outcome : TxOutcome} {v : Places Bytes} {b k : Bytes}
    (huser : ∀ place ∈ tx.touched, isReservedKey place.2 = false)
    (hon : Transaction.on m.values tx = .ok (outcome, v)) (hreserved : isReservedKey k = true) :
    v b k = none := by
  have hother : v b k = m.values b k := by
    apply Transaction.on_other hon
    rintro op hop ⟨rfl, rfl⟩
    have hfree := huser _ (Transaction.mem_touched.mpr ⟨op, hop, rfl⟩)
    rw [hreserved] at hfree
    cases hfree
  have hnone := h.noRecords b k hreserved
  rw [h.items, Option.map_eq_none_iff] at hnone
  exact hother.trans hnone

omit hfault in
/-- An update is rejected and leaves everything as it was, or it answers and leaves the values that
    its operations make, and nothing else. -/
theorem updated_cases {tx : Transaction} {r : Except Failure TxOutcome}
    (huser : ∀ place ∈ tx.touched, isReservedKey place.2 = false)
    (hupdated : Updated around .nothing tx s r s') :
    (∃ f, r = .error f ∧ s'.raw = s.raw ∧ Rejected s' m.values tx f) ∨
      ∃ outcome v, r = .ok outcome ∧ Transaction.on m.values tx = .ok (outcome, v) ∧
        (∀ place ∈ tx.touched, s'.buckets.contains place.1 = true) ∧
        ∀ b k, s'.raw b k = (v b k).map .plain := by
  cases hupdated with
  | empty htx =>
    subst htx
    refine .inr ⟨[], m.values, rfl, rfl, ?_, h.items⟩
    exact fun _ hplace => nomatch hplace
  | refused hraw hexact =>
    rw [h.visible] at hexact
    exact .inl ⟨_, rfl, hraw, hexact h.undisturbed h.opened⟩
  | ended hid hkeys hproper hended =>
    cases hended with
    | failed htidied hlaid hstate hheld hrecord hexact =>
      rw [h.visible] at hexact
      obtain ⟨rfl, hrejected⟩ := hexact h.undisturbed
      rw [h.tidied htidied] at hlaid
      refine .inl ⟨_, rfl, ?_, hrejected⟩
      rw [hlaid.layers.eq]
      exact Staged.overlay_nothing hlaid.layers.foreign (hrecord (fun hlost => hlost) rfl)
    | applied htidied hlaid hput hstate hheld hon hshows hbuckets hexact =>
      rw [h.visible] at hon
      rw [h.tidied htidied] at hput
      -- Its record is reclaimed, hence all of its locks are gone.
      have hnone := hexact Trouble.not_possible_nothing
      subst hnone
      obtain ⟨_, hfree⟩ := hstate.resolve_left fun heq => nomatch heq
      have hraw := hlaid.layers.eq
      rw [Staged.overlay_nothing hlaid.layers.foreign hfree] at hraw
      refine .inr ⟨_, _, rfl, hon, hbuckets, fun b k => ?_⟩
      rcases hput b k with hkept | ⟨_, _, hput⟩
      · cases hkey : isReservedKey k with
        | false =>
          have hshown := hshows b k hkey
          unfold Contents.visible at hshown
          rw [hraw, hkept, h.items] at hshown
          rw [hraw, hkept, h.items, ← hshown]
          cases m.values b k <;> rfl
        | true => rw [hraw, hkept, h.noRecords b k hkey, reserved_on h huser hon hkey, Option.map_none]
      · rw [hraw]
        exact hput

omit hfault in
theorem ensures_updateKeys_like {tx : Transaction} (hids : around.Addressable)
    (htx : tx.Addressable) (huser : ∀ place ∈ tx.touched, isReservedKey place.2 = false)
    (hcheck : tx.check = .ok ()) :
    (updateKeys config tx).Ensures (storing around .nothing) s
      (AnswersLike (Memory.update tx m)) := by
  refine (ensures_sameBuckets (ensures_updateKeys_ended htx huser hids h.sound (h.foreign _))).mono ?_
  rintro r s' ⟨hupdated, hsame⟩
  have hcontains : ∀ b, s'.buckets.contains b = m.buckets.contains b := fun b =>
    (hsame.contains b).trans (h.buckets b)
  have hmissing : ∀ {place}, tx.touched.find? (fun place => !m.buckets.contains place.1) = some place →
      ¬∀ place ∈ tx.touched, m.buckets.contains place.1 = true := by
    intro place hfind hexists
    have hnone := List.find?_some hfind
    rw [hexists place (List.mem_of_find?_eq_some hfind)] at hnone
    cases hnone
  rcases updated_cases h huser hupdated with
    ⟨f, rfl, hraw, hrejected⟩ | ⟨outcome, v, rfl, hon, hbuckets, hraw⟩
  · have hmirrors := h.same hsame hraw
    unfold Rejected MissesBucket at hrejected
    simp only [hcontains] at hrejected
    rcases hrejected with ⟨place, hfind, rfl⟩ | ⟨hexists, hon⟩
    · apply Memory.update_cases (P := fun r' m' => Agree _ r' ∧ Mirrors s' m') h.memoryOpened hcheck
      · intro place' hfind'
        rw [hfind] at hfind'
        cases hfind'
        exact ⟨rfl, hmirrors⟩
      · exact fun f hexists _ => absurd hexists (hmissing hfind)
      · exact fun outcome v m' hexists => absurd hexists (hmissing hfind)
    · apply Memory.update_cases (P := fun r' m' => Agree _ r' ∧ Mirrors s' m') h.memoryOpened hcheck
      · exact fun place hfind => absurd hexists (hmissing hfind)
      · intro f' _ hon'
        rw [hon] at hon'
        cases hon'
        exact ⟨rfl, hmirrors⟩
      · intro outcome v m' _ hon'
        rw [hon] at hon'
        cases hon'
  · simp only [hcontains] at hbuckets
    apply Memory.update_cases (P := fun r' m' => Agree _ r' ∧ Mirrors s' m') h.memoryOpened hcheck
    · exact fun place hfind => absurd hbuckets (hmissing hfind)
    · intro f _ hon'
      rw [hon] at hon'
      cases hon'
    · intro outcome' v' m' _ hon' hvalues hopen hcontains'
      rw [hon] at hon'
      cases hon'
      refine ⟨rfl, hsame.closed.trans h.opened, hopen, ?_, ?_, ?_⟩
      · exact fun b => (hcontains b).trans (hcontains' b).symm
      · intro b k
        rw [hraw, hvalues]
      · intro b k hreserved
        rw [hraw, reserved_on h huser hon hreserved, Option.map_none]

theorem update_corresponds (hon : config.emulatedTransactions = true) (hids : around.Addressable)
    {tx : Transaction} (htx : tx.Addressable)
    (huser : ∀ place ∈ tx.touched, isReservedKey place.2 = false) :
    Corresponds ((Engine.driver (itemStore around) config).update tx s) (Memory.update tx m) := by
  apply corresponds_run hfault
  apply ensures_engineUpdate
  · intro hoff
    rw [hon] at hoff
    cases hoff
  · intro f hcheck
    rw [Memory.update_refused h.memoryOpened hcheck]
    exact ⟨rfl, h⟩
  · exact fun hreserved => absurd huser hreserved
  · exact fun hcheck _ => ensures_updateKeys_like h hids htx huser hcheck

end

/-! ### Calls, and runs of calls -/

/-- A call of users: its keys are theirs, its transaction fits into memory, and it leaves the driver
    open. -/
def Served : Request → Prop
  | .create _ | .drop _ | .list _ => True
  | .get _ key | .set _ key _ | .delete _ key | .compareAndSwap _ key _ _ => isReservedKey key = false
  | .update tx => tx.Addressable ∧ ∀ op ∈ tx, isReservedKey op.key = false
  | .close => False

instance : DecidablePred Served
  | .create _ | .drop _ | .list _ => inferInstanceAs (Decidable True)
  | .get _ key | .set _ key _ | .delete _ key | .compareAndSwap _ key _ _ =>
    inferInstanceAs (Decidable (isReservedKey key = false))
  | .update tx =>
    inferInstanceAs (Decidable (tx.Addressable ∧ ∀ op ∈ tx, isReservedKey op.key = false))
  | .close => inferInstanceAs (Decidable False)

section

variable (config' : Memory.Config) (hids : around.Addressable)
  (hon : config.emulatedTransactions = true) (hsize : config.pageSize.toNat + 1 < UInt64.size)
include hids hon hsize

/-- Each call is answered alike, and leaves stores that correspond. -/
theorem perform_corresponds (h : Mirrors s m) (hfault : s.fault = none) {r : Request}
    (hserved : Served r) :
    Corresponds ((Engine.driver (itemStore around) config).perform r s)
      ((Memory.driver config').perform r m) := by
  cases r with
  | create bucket => exact (create_corresponds h hfault bucket).map fun _ => Response.done
  | drop bucket => exact (drop_corresponds h hfault bucket).map fun _ => Response.done
  | list bucket => exact (list_corresponds h hfault hsize config' bucket).map Response.entries
  | get bucket key =>
    exact (onKey_corresponds h hfault hserved (ensures_readKey_like h)).map Response.value
  | set bucket key value =>
    exact (onKey_corresponds h hfault hserved (ensures_writeKey_like h hserved (some value))).map
      fun _ => Response.done
  | delete bucket key =>
    exact (onKey_corresponds h hfault hserved (ensures_writeKey_like h hserved none)).map
      fun _ => Response.done
  | compareAndSwap bucket key old new =>
    exact (onKey_corresponds h hfault hserved (ensures_swapKey_like h hserved old new)).map
      Response.swap
  | update tx =>
    obtain ⟨htx, hops⟩ := hserved
    have huser : ∀ place ∈ tx.touched, isReservedKey place.2 = false := by
      intro place hplace
      obtain ⟨op, hop, rfl⟩ := Transaction.mem_touched.mp hplace
      exact hops op hop
    exact (update_corresponds h hfault hon hids htx huser).map Response.outcome
  | close => exact hserved.elim

theorem trace_corresponds {requests : List Request} (hserved : ∀ r ∈ requests, Served r)
    (h : Mirrors s m) (hfault : s.fault = none) :
    List.Forall₂ Corresponds ((Engine.driver (itemStore around) config).trace s requests)
      ((Memory.driver config').trace m requests) := by
  induction requests generalizing s m with
  | nil => exact .nil
  | cons r rest ih =>
    obtain ⟨hfirst, hrest⟩ := List.forall_mem_cons.mp hserved
    have hstep := perform_corresponds config' hids hon hsize h hfault hfirst
    exact .cons hstep (ih hrest hstep.mirrors hstep.unfailing)

/-- **Every run of calls is answered alike**, and after each call the item store holds the values of
    the store in memory without locks, and nothing else. -/
theorem runs_correspond {requests : List Request} (hserved : ∀ r ∈ requests, Served r) :
    List.Forall₂ Corresponds ((Engine.driver (itemStore around) config).trace {} requests)
      ((Memory.driver config').trace {} requests) :=
  trace_corresponds config' hids hon hsize hserved .empty rfl

end

/-- Values are written to a bucket, singly and by an update, and listed; then it is deleted. -/
def session : List Request :=
  [.create [65], .set [65] [97] [49], .update [.set [65] [98] [50], .delete [65] [97], .get [65] [98]],
    .compareAndSwap [65] [99] none [51], .list [65], .get [65] [97], .drop [65]]

theorem runs_correspond_session :
    (still.Addressable ∧ (∀ r ∈ session, Served r)) ∧
      List.Forall₂ Corresponds ((Engine.driver (itemStore still) ⟨1, 30000, true⟩).trace {} session)
        ((Memory.driver {}).trace {} session) :=
  ⟨⟨addressable_still, by decide⟩, runs_correspond {} addressable_still rfl (by decide) (by decide)⟩

end BucketStore.Staging
