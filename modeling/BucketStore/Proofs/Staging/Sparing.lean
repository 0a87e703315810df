/-
  BucketStore/Proofs/Staging/Sparing.lean
  =======================================
  **No call touches what a live transaction has.**

  A `Watch` names transactions whose records are pending, and keys that they have
  locked.  Under the contract `sparing` a call is told of them only by what it
  reads: that their locks name the bucket of their record, that this record is
  there as it was, and that every time it reads on the clock is before they
  expire.  `Spares` lists the writes that it may make then.  None of them passes
  over a lock of such a transaction, and none is made to its record.

  Every call of the engine makes such writes only (`sparing_program`), and no
  update answers that touches a key which a live transaction holds
  (`ensures_update_sparing`).
-/
import BucketStore.Proofs.Staging.Effects

namespace BucketStore.Staging

/-! ### Live transactions -/

/-- Transactions that are pending, by their records, and keys that they have locked. -/
structure Watch where
  /-- The record is in the bucket, and its transaction is alive. -/
  live : Bytes → Record → Prop
  held : Bytes → Bytes → Prop
  pending : ∀ b r, live b r → r.state = .pending

namespace Watch

/-- No transaction is watched. -/
def nobody : Watch where
  live _ _ := False
  held _ _ := False
  pending := by simp

variable (w : Watch)

/-- The identifier is not that of a live transaction. -/
def Free (id : String) : Prop := ∀ b r, w.live b r → r.id ≠ id

/-- A live transaction has locked the item. -/
def Locks (item : Item) : Prop := ∃ b r, w.live b r ∧ item.isLockedBy r.id = true

/-- The clock does not show a live transaction to be expired. -/
def Timely (timeout : Nat) (now : Int64) : Prop := ∀ b r, w.live b r → r.isExpired timeout now = false

/-- The condition holds on no item that a live transaction has locked. -/
def Bars (condition : Precondition) : Prop :=
  ∀ item, w.Locks item → condition.holds (some item) = false

/-- What is known of an item that is read. -/
structure Knows (bucket key : Bytes) (item : Item) : Prop where
  fits : RecordFits key item
  /-- The locks of a live transaction name the bucket of its record. -/
  home : ∀ lock, item.lock = some lock → ∀ b r, w.live b r → r.id = lock.owner →
    b = lock.recordBucket
  /-- Under the key of a live transaction stands its record. -/
  record : ∀ b r, w.live b r → key = r.key → item.record? = some r

/-- What is known of a key that is looked up. -/
structure Finds (bucket key : Bytes) (found : Option Item) : Prop where
  knows : ∀ item, found = some item → w.Knows bucket key item
  held : w.held bucket key → ∃ item, found = some item ∧ w.Locks item
  record : ∀ r, w.live bucket r → key = r.key → found ≠ none

variable {w} {item : Item} {id : String}

theorem isLockedBy_iff :
    item.isLockedBy id = true ↔ ∃ lock, item.lock = some lock ∧ lock.owner = id := by
  simp only [Item.isLockedBy, Option.any_eq_true, beq_iff_eq]

theorem Locks.isLocked (h : w.Locks item) : item.isLocked = true := by
  obtain ⟨_, r, _, hlocked⟩ := h
  obtain ⟨lock, hlock, _⟩ := isLockedBy_iff.mp hlocked
  simp [Item.isLocked, hlock]

theorem bars_unlocked : w.Bars .unlocked := by
  intro item hlocks
  simp [Precondition.holds, hlocks.isLocked]

theorem bars_unlockedWith (value : Option Bytes) : w.Bars (.unlockedWith value) := by
  intro item hlocks
  simp [Precondition.holds, hlocks.isLocked]

section

variable {r : Record} (hlives : ∀ b r', w.live b r' → r'.id = id → r' = r)
include hlives

/-- A transaction is not live if its record is not that of a live one. -/
theorem free_of_dead (hdead : ∀ b, ¬w.live b r) : w.Free id := by
  intro b r' hlive hid
  have hsame := hlives b r' hlive hid
  subst hsame
  exact hdead b hlive

theorem free_of_decided (hstate : r.state ≠ .pending) : w.Free id :=
  free_of_dead hlives fun b hlive => hstate (w.pending b r hlive)

theorem free_of_expired {timeout : Nat} {now : Int64} (hnow : w.Timely timeout now)
    (hexpired : r.isExpired timeout now = true) : w.Free id := by
  refine free_of_dead hlives fun b hlive => ?_
  rw [hnow b r hlive] at hexpired
  cases hexpired

end

/-- What another transaction has locked, a live one has not. -/
theorem bars_lockedBy (h : w.Free id) : w.Bars (.lockedBy id) := by
  rintro item ⟨b, r, hlive, hlocked⟩
  obtain ⟨lock, hlock, howner⟩ := isLockedBy_iff.mp hlocked
  have hother : lock.owner ≠ id := by
    rw [howner]
    exact h b r hlive
  simp [Precondition.holds, Item.isLockedBy, hlock, hother]

end Watch

/-- The writes that spare live transactions, in a call that keeps its own record in the bucket `home`
    and has drawn the identifier `own`. -/
inductive Spares (w : Watch) (home : Bytes) (own : Option String) :
    Bytes → Bytes → Option Item → Precondition → Prop
  | value {bucket key : Bytes} (hkey : isReservedKey key = false) (value : Option Bytes)
      {condition : Precondition} (hbars : w.Bars condition)
      (hnamed : condition.holds none = true → key ≠ []) :
      Spares w home own bucket key (value.map .plain) condition
  | lock {bucket key : Bytes} (hkey : isReservedKey key = false) (value : Option Bytes) {lock : Lock}
      (howner : own = some lock.owner) (hhome : lock.recordBucket = home) {condition : Precondition}
      (hbars : w.Bars condition) (hnamed : condition.holds none = true → key ≠ []) :
      Spares w home own bucket key (some ⟨value, some lock⟩) condition
  | announces {r : Record} (howner : own = some r.id) :
      Spares w home own home r.key (some r.item) .absent
  /-- The record of a transaction that is not watched is written over. -/
  | records {bucket : Bytes} {r : Record} (hfree : w.Free r.id) {x : Option Item}
      (hx : ∀ item, x = some item → item.lock = none) (bytes : Bytes) :
      Spares w home own bucket r.key x (.valueEquals bytes)

/-- Writes spare the live transactions, which are found as they are and do not expire. The state of
    the contract is the identifier that was drawn. -/
def sparing (w : Watch) (timeout : Nat) (home : Bytes) : Contract Call Call.Reply (Option String) where
  needs
    | .write bucket key x condition, own => Spares w home own bucket key x condition
    | _, _ => True
  allows
    | .load bucket key, own, r, own' =>
      ((∀ found, r = .ok found → w.Finds bucket key found) ∧
        ∀ f record, r = .error f → w.live bucket record → key = record.key → f.isNotFound = false) ∧
      own' = own
    | .scan bucket _ _, own, r, own' =>
      (∀ page, r = .ok page → ∀ e ∈ page.items, w.Knows bucket e.1 e.2) ∧ own' = own
    | .now, own, r, own' => w.Timely timeout r ∧ own' = own
    | .freshId, _, r, own' => w.Free r ∧ own' = some r
    | .write _ _ _ _, own, _, own' => own' = own

section

variable {w : Watch} {timeout : Nat} {home bucket key : Bytes} {own : Option String}
  {config : Config} {x : Option Item} {condition : Precondition} {id : String} {item : Item}

/-! ### Single calls -/

theorem reads_sparing : Reads (sparing w timeout home) own := by
  intro c hreads
  cases c with
  | load _ _ => exact ⟨trivial, fun _ _ hr => hr.2⟩
  | scan _ _ _ => exact ⟨trivial, fun _ _ hr => hr.2⟩
  | now => exact ⟨trivial, fun _ _ hr => hr.2⟩
  | write _ _ _ _ => cases hreads
  | freshId => cases hreads

theorem sparing_load :
    (Protocol.load bucket key).Steady (sparing w timeout home) own (w.Finds bucket key) := by
  refine ⟨trivial, ?_⟩
  rintro r _ ⟨⟨hfound, _⟩, rfl⟩
  exact Program.steady_ofExcept hfound

theorem sparing_scan {token : Option Token} {limit : UInt64} :
    (Protocol.scan bucket token limit).Steady (sparing w timeout home) own fun page =>
      ∀ e ∈ page.items, w.Knows bucket e.1 e.2 := by
  refine ⟨trivial, ?_⟩
  rintro r _ ⟨hr, rfl⟩
  exact Program.steady_ofExcept hr

theorem sparing_now : Protocol.now.Steady (sparing w timeout home) own (w.Timely timeout) := by
  refine ⟨trivial, ?_⟩
  rintro r _ ⟨hr, rfl⟩
  exact Program.steady_done hr

theorem sparing_write (h : Spares w home own bucket key x condition) :
    Keeps (sparing w timeout home) own (.write bucket key x condition) := by
  refine ⟨h, ?_⟩
  rintro r _ rfl
  exact Program.steady_ofExcept fun _ _ => trivial

theorem sparing_tryWrite (h : Spares w home own bucket key x condition) :
    Keeps (sparing w timeout home) own (.tryWrite bucket key x condition) := by
  refine ⟨h, ?_⟩
  rintro r _ rfl
  exact Program.steady_done trivial

/-- A value is put in the place of a lock that is nobody's who is watched. -/
theorem spares_unlock (hkey : isReservedKey key = false) (hfree : w.Free id) (value : Option Bytes) :
    Spares w home own bucket key (value.map .plain) (.lockedBy id) :=
  .value hkey value (Watch.bars_lockedBy hfree) (by simp [Precondition.holds])

/-! ### Records -/

/-- The record of a live transaction is found as it is, where its locks say. -/
theorem sparing_loadRecord :
    (loadRecord bucket id).Steady (sparing w timeout home) own fun found =>
      (∀ r bytes, found = some (r, bytes) → r.id = id ∧ ∀ b r', w.live b r' → r'.id = id → r' = r) ∧
      (found = none → ∀ r, w.live bucket r → r.id ≠ id) := by
  refine ⟨trivial, ?_⟩
  rintro r _ ⟨⟨hfound, herror⟩, rfl⟩
  rcases r with f | found
  · dsimp only
    split
    · next hmissing =>
      refine Program.steady_done ⟨by simp, ?_⟩
      rintro - r hlive rfl
      rw [herror f r rfl hlive rfl] at hmissing
      cases hmissing
    · exact Program.steady_fail
  · obtain ⟨hknows, _, hpresent⟩ := hfound found rfl
    cases found with
    | none =>
      refine Program.steady_done ⟨by simp, ?_⟩
      rintro - r hlive rfl
      exact hpresent r hlive rfl rfl
    | some item =>
      obtain ⟨hfits, _, hlives⟩ := hknows item rfl
      obtain ⟨record, hrecord, hkey, _⟩ := hfits (isReservedKey_recordKey id)
      obtain ⟨bytes, hvalue, hread⟩ := Item.record?_eq_some.mp hrecord
      obtain ⟨value, lock⟩ := item
      cases hvalue
      simp only [hread]
      refine Program.steady_done ⟨?_, by simp⟩
      rintro _ _ ⟨⟩
      refine ⟨(recordKey_injective hkey).symm, ?_⟩
      rintro b r hlive rfl
      exact Option.some.inj ((hlives b r hlive rfl).symm.trans hrecord)

/-! ### Clearing a lock -/

theorem sparing_rollBackNoted (hkey : isReservedKey key = false) {lock : Lock}
    (hfree : w.Free lock.owner) :
    Keeps (sparing w timeout home) own (resolveLock.rollBackNoted bucket key item lock) := by
  refine Program.steady_log.bind fun _ _ => ?_
  exact (sparing_write (spares_unlock hkey hfree _)).discard

/-- A live transaction's lock is left alone; any other may be cleared. -/
theorem sparing_resolveLock (hkey : isReservedKey key = false) (hknows : w.Knows bucket key item) :
    Keeps (sparing w config.lockTimeout home) own (resolveLock config bucket key item) := by
  unfold resolveLock
  split
  · exact Program.steady_done trivial
  · next lock hlock =>
    refine sparing_loadRecord.bind ?_
    rintro found ⟨hsome, hnone⟩
    cases found with
    | none =>
      apply sparing_rollBackNoted hkey
      intro b r hlive howner
      have hhome : b = lock.recordBucket := hknows.home lock hlock b r hlive howner
      exact hnone rfl r (hhome ▸ hlive) howner
    | some found =>
      obtain ⟨record, bytes⟩ := found
      obtain ⟨hid, hlives⟩ := hsome record bytes rfl
      -- Were the owner alive, this would be its record, pending and not expired.
      have hdecided : record.state ≠ .pending → w.Free lock.owner := Watch.free_of_decided hlives
      cases hstate : record.state with
      | committed =>
        simp only [hstate]
        refine Program.steady_log.bind fun _ _ => ?_
        exact (sparing_write (spares_unlock hkey (hdecided (by simp [hstate])) _)).discard
      | aborted =>
        simp only [hstate]
        exact sparing_rollBackNoted hkey (hdecided (by simp [hstate]))
      | reclaimed =>
        simp only [hstate]
        exact sparing_rollBackNoted hkey (hdecided (by simp [hstate]))
      | pending =>
        simp only [hstate]
        refine sparing_now.bind fun now hnow => ?_
        split
        · next hexpired =>
          have howner : w.Free lock.owner := Watch.free_of_expired hlives hnow hexpired
          have hrecord : Spares w home own lock.recordBucket record.key
              (some ({ record with state := .aborted } : Record).item) (.valueEquals bytes) :=
            .records (hid ▸ howner) (by simp [Record.item, Item.plain]) bytes
          refine Program.steady_log.bind fun _ _ => steady_transition.bind ?_
          rintro _ rfl
          refine (sparing_write hrecord).bind fun aborted _ => ?_
          split
          · exact (sparing_write (spares_unlock hkey howner _)).discard
          · exact Program.steady_pure trivial
        · exact Program.steady_fail

/-! ### Single keys -/

section

variable (hkey : isReservedKey key = false) (hname : key ≠ [])
include hkey hname

theorem sparing_writeKey (value : Option Bytes) :
    Keeps (sparing w config.lockTimeout home) own (writeKey config bucket key value) := by
  refine keeps_writeKey sparing_load ?_ (sparing_write ?_)
  · exact fun item hfinds => sparing_resolveLock hkey (hfinds.knows item rfl)
  · exact .value hkey value Watch.bars_unlocked fun _ => hname

theorem sparing_swapKey (old : Option Bytes) (new : Bytes) :
    Keeps (sparing w config.lockTimeout home) own (swapKey config bucket key old new) := by
  refine keeps_swapKey sparing_load ?_ reads_sparing (sparing_write ?_)
  · exact fun item hfinds => sparing_resolveLock hkey (hfinds.knows item rfl)
  · exact .value hkey (some new) (Watch.bars_unlockedWith old) fun _ => hname

end

/-! ### Updates -/

section

variable {staged : Staged} {tx : Transaction} (howner : own = some staged.record.id)
  (hhome : staged.recordBucket = home)
include howner hhome

/-- A key that a live transaction holds is not locked. -/
theorem sparing_lockKey (hkey : isReservedKey key = false) (hname : key ≠ []) :
    (lockKey config staged bucket key).Steady (sparing w config.lockTimeout home) own
      fun _ => ¬w.held bucket key := by
  refine steady_lockKey sparing_load ?_ ?_
  · exact fun item hfinds => sparing_resolveLock hkey (hfinds.knows item rfl)
  · intro found hfinds hunlocked
    refine ⟨fun hheld => ?_, keeps_take (sparing_write ?_)⟩
    · obtain ⟨item, hitem, hlocks⟩ := hfinds.held hheld
      exact absurd hlocks.isLocked (by simp [hunlocked item hitem])
    · exact .lock hkey _ howner hhome (Watch.bars_unlockedWith _) fun _ => hname

variable (hfree : w.Free staged.record.id)
include hfree

omit howner hhome in
theorem sparing_flip (state : TxState) :
    Keeps (sparing w timeout home) own (staged.flip (staged.decided state)) :=
  sparing_tryWrite (.records (r := staged.decided state) hfree (by simp [Record.item, Item.plain]) _)

omit howner hhome in
theorem sparing_reclaim (state : TxState) :
    Keeps (sparing w timeout home) own (reclaim staged.recordBucket (staged.decided state)) :=
  keeps_reclaim (sparing_tryWrite (.records (r := staged.decided state) hfree (by simp) _))

/-- An update that has stored its record answers only if no live transaction holds any of its keys. -/
theorem sparing_runStaged (huser : ∀ place ∈ tx.touched, isReservedKey place.2 = false)
    (hnamed : ∀ place ∈ tx.touched, place.2 ≠ []) :
    (runStaged config staged tx).Steady (sparing w config.lockTimeout home) own
      fun _ => ∀ place ∈ tx.touched, ¬w.held place.1 place.2 := by
  refine steady_runStaged (A := fun place => ¬w.held place.1 place.2) ?_ ?_ ?_ ?_
  · refine steady_prepare ?_ ?_
    · exact fun place hplace => sparing_lockKey howner hhome (huser place hplace) (hnamed place hplace)
    · intro place hplace value pending
      exact sparing_write (.lock (huser place hplace) value howner hhome (Watch.bars_lockedBy hfree)
        (by simp [Precondition.holds]))
  · intro locks hplaces
    refine keeps_abort reads_sparing (sparing_flip hfree _) ?_ (sparing_reclaim hfree _)
    exact fun l hl => sparing_tryWrite (spares_unlock (huser _ (hplaces l hl)) hfree _)
  · exact keeps_commit reads_sparing (sparing_flip hfree _)
  · intro ws locks hplaces
    refine keeps_applyAll ?_ (sparing_reclaim hfree _)
    exact fun l hl => sparing_tryWrite (spares_unlock (huser _ (hplaces l hl)) hfree _)

end

/-- An update keeps its record in the first bucket that it touches, and answers only if no live
    transaction holds any of its keys. -/
theorem ensures_updateKeys_sparing {tx : Transaction}
    (hhome : ∀ b, tx.buckets.head? = some b → b = home)
    (huser : ∀ place ∈ tx.touched, isReservedKey place.2 = false)
    (hnamed : ∀ place ∈ tx.touched, place.2 ≠ []) :
    (updateKeys config tx).Ensures (sparing w config.lockTimeout home) none fun r _ =>
      ∀ outcome, r = .ok outcome → ∀ place ∈ tx.touched, ¬w.held place.1 place.2 := by
  unfold updateKeys
  split
  · next hbuckets =>
    have htx : tx = [] := Transaction.eq_nil_of_buckets hbuckets
    subst htx
    rintro _ _ place ⟨⟩
  · next recordBucket rest hbuckets =>
    have hrecord : recordBucket = home := hhome recordBucket (by simp [hbuckets])
    subst hrecord
    refine ⟨trivial, ?_⟩
    rintro id _ ⟨hfree, rfl⟩
    refine ⟨trivial, ?_⟩
    rintro createdAt _ ⟨_, rfl⟩
    refine ⟨.announces rfl, ?_⟩
    rintro (f | written) _ rfl
    · rintro _ ⟨⟩
    · cases written with
      | false => rintro _ ⟨⟩
      | true =>
        refine Program.Ensures.mono (sparing_runStaged rfl rfl hfree huser hnamed) ?_
        exact fun _ _ hr => hr.2

/-! ### Recovery -/

theorem sparing_settle {r : Record} (hfree : w.Free r.id)
    (huser : ∀ place ∈ r.keys, isReservedKey place.2 = false) (forward : Bool) :
    Keeps (sparing w timeout home) own (settle bucket r forward) := by
  have hkeys : Keeps (sparing w timeout home) own (settleKeys r forward r.keys) :=
    keeps_settleKeys reads_sparing fun place hplace value =>
      sparing_write (spares_unlock (huser place hplace) hfree value)
  refine hkeys.bind fun _ _ => ?_
  exact keeps_reclaim (sparing_tryWrite (.records hfree (by simp) _))

/-- The record of a live transaction is left alone; any other may be dealt with. -/
theorem sparing_recoverRecord {report : RecoveryReport} {found : Record × Bytes}
    (huser : ∀ place ∈ found.1.keys, isReservedKey place.2 = false)
    (hlives : ∀ b r, w.live b r → r.id = found.1.id → r = found.1) :
    Keeps (sparing w config.lockTimeout home) own (recoverRecord config bucket report found) := by
  obtain ⟨record, bytes⟩ := found
  dsimp only at huser hlives
  have hdecided : record.state ≠ .pending → w.Free record.id := Watch.free_of_decided hlives
  unfold recoverRecord
  dsimp only
  cases hstate : record.state with
  | committed =>
    exact (sparing_settle (hdecided (by simp [hstate])) huser true).bind fun _ _ =>
      Program.steady_pure trivial
  | aborted =>
    exact (sparing_settle (hdecided (by simp [hstate])) huser false).bind fun _ _ =>
      Program.steady_pure trivial
  | reclaimed => exact Program.steady_pure trivial
  | pending =>
    refine sparing_now.bind fun now hnow => ?_
    split
    · next hexpired =>
      have howner : w.Free record.id := Watch.free_of_expired hlives hnow hexpired
      have hrecord : Spares w home own bucket record.key
          (some ({ record with state := .aborted } : Record).item) (.valueEquals bytes) :=
        .records howner (by simp [Record.item, Item.plain]) bytes
      refine steady_transition.bind ?_
      rintro _ rfl
      refine (sparing_write hrecord).bind fun aborted _ => ?_
      split
      · exact (sparing_settle (r := { record with state := .aborted }) howner huser false).bind
          fun _ _ => Program.steady_pure trivial
      · exact Program.steady_pure trivial
    · exact Program.steady_pure trivial

theorem sparing_recoverBucket (limit : Nat) :
    Keeps (sparing w config.lockTimeout home) own (recoverBucket config limit bucket) := by
  refine keeps_recoverBucket (steady_findRecords (fun _ => sparing_scan) limit none) ?_
  rintro report ⟨record, bytes⟩ ⟨⟨key, item⟩, hknows, hreserved, hvalue, hread⟩
  obtain ⟨r, hrecord, hkey, huser⟩ := hknows.fits hreserved
  have hsame : item.record? = some record := Item.record?_eq_some.mpr ⟨bytes, hvalue, hread⟩
  cases hrecord.symm.trans hsame
  refine sparing_recoverRecord huser fun b r' hlive hid => ?_
  have hkey' : key = r'.key := hkey.trans (congrArg recordKey hid.symm)
  exact Option.some.inj ((hknows.record b r' hlive hkey').symm.trans hrecord)

end

/-! ### The calls of the engine -/

/-- The bucket in which a call keeps its own record, if it has one. -/
def EngineCall.home : EngineCall → Bytes
  | update _ _ tx => tx.buckets.headD []
  | _ => []

theorem named_of_checkKey {bucket key : Bytes} (h : checkKey bucket key = .ok ()) : key ≠ [] := by
  rintro rfl
  unfold checkKey at h
  cases hbucket : checkBucket bucket with
  | error f =>
    rw [hbucket] at h
    cases h
  | ok _ =>
    rw [hbucket] at h
    cases h

theorem named_of_check {tx : Transaction} (h : tx.check = .ok ()) :
    ∀ place ∈ tx.touched, place.2 ≠ [] := by
  intro place hplace
  obtain ⟨op, hop, rfl⟩ := Transaction.mem_touched.mp hplace
  exact named_of_checkKey (Transaction.check_of_mem h hop)

variable {w : Watch} {config : Config} {bucket key home : Bytes}

/-- No update answers that touches a key which a live transaction holds. -/
theorem ensures_update_sparing {backend : Backend} {tx : Transaction}
    (hhome : ∀ b, tx.buckets.head? = some b → b = home) :
    (Engine.update config backend tx).Ensures (sparing w config.lockTimeout home) none fun r _ =>
      ∀ outcome, r = .ok outcome → ∀ place ∈ tx.touched, ¬w.held place.1 place.2 := by
  apply ensures_engineUpdate
  · simp
  · simp
  · simp
  · exact fun hcheck huser => ensures_updateKeys_sparing hhome huser (named_of_check hcheck)

/-- Every call spares the live transactions. -/
theorem sparing_program (call : EngineCall) {timeout : Nat}
    (htimeout : ∀ n, call.timeout? = some n → n = timeout) :
    call.program.Ensures (sparing w timeout call.home) none fun _ _ => True := by
  have hkeeps : ∀ {α : Type} {p : Protocol α}, Keeps (sparing w timeout call.home) none p →
      (discard p : Protocol Unit).Ensures (sparing w timeout call.home) none fun _ _ => True :=
    fun h => Program.Ensures.mono h.discard fun _ _ _ => trivial
  cases call with
  | get bucket key => exact hkeeps ((readsOnly_get bucket key).keeps reads_sparing)
  | list config limit bucket => exact hkeeps ((readsOnly_list config limit bucket).keeps reads_sparing)
  | set config bucket key value =>
    cases htimeout _ rfl
    refine Program.Ensures.mono (keeps_onKey ?_) fun _ _ _ => trivial
    exact fun hname hkey => sparing_writeKey hkey (named_of_checkKey hname) (some value)
  | delete config bucket key =>
    cases htimeout _ rfl
    refine Program.Ensures.mono (keeps_onKey ?_) fun _ _ _ => trivial
    exact fun hname hkey => sparing_writeKey hkey (named_of_checkKey hname) none
  | compareAndSwap config bucket key old new =>
    cases htimeout _ rfl
    refine hkeeps (keeps_onKey ?_)
    exact fun hname hkey => sparing_swapKey hkey (named_of_checkKey hname) old new
  | update config backend tx =>
    cases htimeout _ rfl
    refine Program.ensures_discard.mpr ((ensures_update_sparing ?_).mono fun _ _ _ => trivial)
    intro b hb
    simp [EngineCall.home, hb]
  | recover config limit bucket =>
    cases htimeout _ rfl
    refine hkeeps ((Program.steady_check fun _ _ => trivial).bind fun _ _ => ?_)
    exact (sparing_recoverBucket limit).mapFailure _

end BucketStore.Staging
