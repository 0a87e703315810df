/-
  BucketStore/Proofs/Staging/Lifecycle.lean
  =========================================
  **Every protocol of staging keeps to the lifecycle of records.**

  `Abides commits known p P` says that the protocol `p` issues only the writes that
  `Issued` lists, wherever records can be read, and answers with values of `P`.  It
  is shown for each protocol in the order in which they are built on each other, up
  to an update; nothing else is supposed of the store, so other writers may have
  been at work between any two calls.

  `commits` says whether a record may be committed.  Only the commit of an update
  asks for it: no other protocol ever puts a record in the committed state.
-/
import BucketStore.Proofs.KeyMap
import BucketStore.Proofs.Staging.Issued
import BucketStore.Proofs.Staging.Steady

namespace BucketStore.Staging

variable {commits : Prop} {known : String → Prop} {α β : Type}

/-- The protocol issues writes of the known kinds only, draws no identifier, and answers with values
    of `P`. -/
def Abides (commits : Prop) (known : String → Prop) (p : Protocol α) (P : α → Prop) : Prop :=
  p.Ensures (issuing commits) ⟨known, none⟩ fun r names =>
    names = ⟨known, none⟩ ∧ ∀ a, r = .ok a → P a

/-! ### Rules -/

theorem abides_done {a : α} {P : α → Prop} (h : P a) : Abides commits known (.done a) P :=
  Program.steady_done h

theorem abides_pure {a : α} {P : α → Prop} (h : P a) : Abides commits known (pure a) P := abides_done h

theorem abides_fail {f : Failure} {P : α → Prop} : Abides commits known (.fail f) P :=
  Program.steady_fail

theorem Abides.bind {p : Protocol α} {next : α → Protocol β} {P : α → Prop} {P' : β → Prop}
    (h : Abides commits known p P) (hnext : ∀ a, P a → Abides commits known (next a) P') :
    Abides commits known (p >>= next) P' := Program.Steady.bind h hnext

theorem Abides.discard {p : Protocol α} {P : α → Prop} (h : Abides commits known p P) :
    Abides commits known (Functor.discard p) fun _ => True := Program.Steady.discard h

theorem Abides.mono {p : Protocol α} {P P' : α → Prop} (h : Abides commits known p P)
    (hP : ∀ a, P a → P' a) : Abides commits known p P' := Program.Steady.mono h hP

theorem abides_log {line : Log.Line} : Abides commits known (Program.log line) fun _ => True :=
  Program.steady_log

theorem Abides.mapFailure {p : Protocol α} {P : α → Prop} (h : Abides commits known p P)
    (reword : Failure → Failure) : Abides commits known (p.mapFailure reword) P :=
  Program.Steady.mapFailure h reword

theorem abides_check {e : Except Failure α} {P : α → Prop} (h : ∀ a, e = .ok a → P a) :
    Abides commits known (Program.check e) P := Program.steady_check h

/-- Reading issues nothing. -/
theorem reads_issuing : Reads (issuing commits) ⟨known, none⟩ := by
  intro c hreads
  cases c with
  | load _ _ => exact ⟨trivial, fun _ _ hr => hr.2⟩
  | scan _ _ _ => exact ⟨trivial, fun _ _ hr => hr.2⟩
  | now => exact ⟨trivial, fun _ _ hr => hr⟩
  | write _ _ _ _ => cases hreads
  | freshId => cases hreads

section

variable {bucket key : Bytes} {x : Option Item} {condition : Precondition}

theorem abides_load : Abides commits known (.load bucket key) fun found =>
    ∀ item, found = some item → Readable known key item := by
  refine ⟨trivial, ?_⟩
  rintro r _ ⟨hr, rfl⟩
  exact Program.ensures_ofExcept.mpr ⟨rfl, fun a heq item hitem => hr item (by rw [heq, hitem])⟩

theorem abides_tryWrite (h : Issued commits known none key x condition) :
    Abides commits known (.tryWrite bucket key x condition) fun _ => True :=
  ⟨h, fun _ _ hr => ⟨hr, fun _ _ => trivial⟩⟩

theorem abides_write (h : Issued commits known none key x condition) :
    Abides commits known (.write bucket key x condition) fun _ => True :=
  ⟨h, fun _ _ hr => Program.ensures_ofExcept.mpr ⟨hr, fun _ _ => trivial⟩⟩

theorem abides_scan {token : Option Token} {limit : UInt64} :
    Abides commits known (.scan bucket token limit) fun page =>
      ∀ e ∈ page.items, Readable known e.1 e.2 := by
  refine ⟨trivial, ?_⟩
  rintro r _ ⟨hr, rfl⟩
  exact Program.ensures_ofExcept.mpr ⟨rfl, hr⟩

theorem abides_now : Abides commits known .now fun _ => True :=
  ⟨trivial, fun _ _ hr => ⟨hr, fun _ _ => trivial⟩⟩

end

/-! ### Reading and clearing locks -/

theorem abides_loadRecord (bucket : Bytes) (id : String) :
    Abides commits known (loadRecord bucket id) fun found => ∀ r bytes, found = some (r, bytes) →
      r.Usable known ∧ r.id = id ∧ Record.decode bytes = .ok r := by
  refine ⟨trivial, ?_⟩
  rintro r _ ⟨hr, rfl⟩
  have hnone : Abides commits known (.done none : Protocol (Option (Record × Bytes))) fun found =>
      ∀ r bytes, found = some (r, bytes) →
        r.Usable known ∧ r.id = id ∧ Record.decode bytes = .ok r :=
    abides_done fun _ _ heq => nomatch heq
  cases r with
  | error f =>
    dsimp only
    split
    · exact hnone
    · exact abides_fail
  | ok found =>
    cases found with
    | none => exact hnone
    | some item =>
      obtain ⟨record, hrecord, hid, husable⟩ := (hr item rfl).record_of
      obtain ⟨bytes, hvalue, hread⟩ := Item.record?_eq_some.mp hrecord
      obtain ⟨value, lock⟩ := item
      cases hvalue
      simp only [hread]
      refine abides_done fun r' bytes' heq => ?_
      cases heq
      exact ⟨husable, hid, hread⟩

section

variable {bucket key : Bytes} (hkey : isReservedKey key = false)
include hkey

theorem abides_rollForward (item : Item) (lock : Lock) :
    Abides commits known (rollForward bucket key item lock) fun _ => True :=
  abides_write (.plain hkey _ _)

theorem abides_rollBack (committed : Option Bytes) (id : String) :
    Abides commits known (rollBack bucket key committed id) fun _ => True :=
  abides_write (.plain hkey _ _)

theorem abides_resolveLock (config : Config) (item : Item) :
    Abides commits known (resolveLock config bucket key item) fun _ => True := by
  have hback : ∀ lock, Abides commits known (resolveLock.rollBackNoted bucket key item lock) fun _ => True :=
    fun lock => abides_log.bind fun _ _ => (abides_rollBack hkey item.value lock.owner).discard
  unfold resolveLock
  split
  · exact abides_done trivial
  · next lock _ =>
    refine (abides_loadRecord _ _).bind fun found hfound => ?_
    cases found with
    | none => exact hback lock
    | some found =>
      obtain ⟨record, bytes⟩ := found
      obtain ⟨husable, _, hread⟩ := hfound record bytes rfl
      cases hstate : record.state with
      | committed =>
        simp only [hstate]
        exact abides_log.bind fun _ _ => (abides_rollForward hkey item lock).discard
      | aborted =>
        simp only [hstate]
        exact hback lock
      | reclaimed =>
        simp only [hstate]
        exact hback lock
      | pending =>
        simp only [hstate]
        refine abides_now.bind fun now _ => ?_
        split
        · refine abides_log.bind fun _ _ => steady_transition.bind ?_
          rintro _ rfl
          refine (abides_write (issued_abort husable hread hstate)).bind fun flipped _ => ?_
          split
          · exact (abides_rollBack hkey item.value lock.owner).discard
          · exact abides_pure trivial
        · exact abides_fail

end

/-! ### Single keys -/

theorem abides_writeKey (config : Config) (bucket : Bytes) {key : Bytes}
    (hkey : isReservedKey key = false) (value : Option Bytes) :
    Abides commits known (writeKey config bucket key value) fun _ => True :=
  keeps_writeKey abides_load (fun item _ => abides_resolveLock hkey config item)
    (abides_write (.plain hkey _ _))

theorem abides_swapKey (config : Config) (bucket : Bytes) {key : Bytes}
    (hkey : isReservedKey key = false) (old : Option Bytes) (new : Bytes) :
    Abides commits known (swapKey config bucket key old new) fun _ => True :=
  keeps_swapKey abides_load (fun item _ => abides_resolveLock hkey config item) reads_issuing
    (abides_write (.plain hkey (some new) _))

/-! ### Updates -/

section

variable {staged : Staged} (husable : staged.record.Usable known)
include husable

theorem abides_lockKey (config : Config) (bucket : Bytes) {key : Bytes}
    (hkey : isReservedKey key = false) :
    Abides commits known (lockKey config staged bucket key) fun _ => True := by
  refine steady_lockKey abides_load (fun item _ => abides_resolveLock hkey config item) ?_
  intro found _ _
  exact ⟨trivial, keeps_take (abides_write (.locked hkey _ husable.known _))⟩

theorem abides_prepare (config : Config) {tx : Transaction}
    (huser : ∀ place ∈ tx.touched, isReservedKey place.2 = false) :
    Abides commits known (prepare config staged tx) fun r => ∀ l ∈ r.1, isReservedKey l.key = false := by
  refine Abides.mono (steady_prepare (A := fun _ => True) ?_ ?_) fun r hr l hl => huser _ (hr.1 l hl)
  · exact fun place hplace => abides_lockKey husable config place.1 (huser place hplace)
  · exact fun place hplace value pending =>
      abides_write (.locked (huser place hplace) value husable.known _)

theorem abides_flip (hpending : staged.record.state = .pending) {state : TxState}
    (hnext : TxState.pending.canBecome state = true) (hcommits : state = .committed → commits) :
    Abides commits known (staged.flip (staged.decided state)) fun _ => True :=
  abides_tryWrite
    (.decided (r := staged.record) husable (Record.decode_encode husable.addressable) hpending hnext hcommits)

omit husable in
theorem abides_reclaim (recordBucket : Bytes) {record : Record} (hrecord : record.Usable known)
    (hnext : record.state.canBecome .reclaimed = true) :
    Abides commits known (reclaim recordBucket record) fun _ => True :=
  keeps_reclaim (abides_tryWrite (.forgotten hrecord hnext))

variable (hpending : staged.record.state = .pending)
include hpending

theorem abides_abort {locks : List Locked} (hkeys : ∀ l ∈ locks, isReservedKey l.key = false) :
    Abides commits known (abort staged locks) fun _ => True :=
  keeps_abort reads_issuing (abides_flip husable hpending rfl (by simp))
    (fun l hl => abides_tryWrite (.plain (hkeys l hl) _ _))
    (abides_reclaim _ (husable.withState .aborted) rfl)

theorem abides_runStaged (hcommits : commits) (config : Config) {tx : Transaction}
    (huser : ∀ place ∈ tx.touched, isReservedKey place.2 = false) :
    Abides commits known (runStaged config staged tx) fun _ => True := by
  have hkeys : ∀ locks : List Locked, (∀ l ∈ locks, l.place ∈ tx.touched) →
      ∀ l ∈ locks, isReservedKey l.key = false := fun _ hplaces l hl => huser _ (hplaces l hl)
  refine Abides.mono (steady_runStaged (A := fun _ => True) ?_ ?_ ?_ ?_) fun _ _ => trivial
  · refine steady_prepare ?_ ?_
    · exact fun place hplace => abides_lockKey husable config place.1 (huser place hplace)
    · exact fun place hplace value pending =>
        abides_write (.locked (huser place hplace) value husable.known _)
  · exact fun locks hplaces => abides_abort husable hpending (hkeys locks hplaces)
  · exact keeps_commit reads_issuing (abides_flip husable hpending rfl fun _ => hcommits)
  · intro ws locks hplaces
    exact keeps_applyAll (fun l hl => abides_tryWrite (.plain (hkeys locks hplaces l hl) _ _))
      (abides_reclaim _ (husable.withState .committed) rfl)

end

theorem usable_record {tx : Transaction} (htx : tx.Addressable) {id : String} (hid : known id)
    (haddressable : (Bytes.ofString id).Addressable) (createdAt : Int64)
    (huser : ∀ place ∈ tx.touched, isReservedKey place.2 = false) :
    Record.Usable known ⟨id, .pending, tx.touched, createdAt⟩ := by
  refine ⟨⟨haddressable, ?_, ?_⟩, hid, huser⟩
  · exact Nat.lt_of_le_of_lt (Transaction.length_touched_le tx) htx.count
  · intro place hplace
    obtain ⟨op, hop, rfl⟩ := Transaction.mem_touched.mp hplace
    exact htx.names op hop

/-- An update draws one identifier, announces its record under it, and abides from then on. -/
theorem ensures_updateKeys (hcommits : commits) (config : Config) {tx : Transaction}
    (htx : tx.Addressable) (huser : ∀ place ∈ tx.touched, isReservedKey place.2 = false) :
    (updateKeys config tx).Ensures (issuing commits) ⟨known, none⟩ fun _ _ => True := by
  unfold updateKeys
  split
  · trivial
  · refine ⟨trivial, ?_⟩
    rintro id _ ⟨haddressable, rfl⟩
    refine ⟨trivial, ?_⟩
    rintro createdAt _ rfl
    have husable : Record.Usable (fun i => known i ∨ i = id) ⟨id, .pending, tx.touched, createdAt⟩ :=
      usable_record htx (.inr rfl) haddressable createdAt huser
    refine ⟨.announced husable rfl rfl, ?_⟩
    rintro (f | written) _ rfl
    · trivial
    · cases written with
      | false => trivial
      | true =>
        exact Program.Ensures.mono (abides_runStaged husable rfl hcommits config huser) fun _ _ _ => trivial

end BucketStore.Staging
