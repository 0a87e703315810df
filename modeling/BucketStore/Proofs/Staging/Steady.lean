/-
  BucketStore/Proofs/Staging/Steady.lean
  ======================================
  **A protocol keeps what its writes keep.**

  Under any contract: if the loads and the writes that a protocol is made of leave
  the contract's state as it was, then so does the protocol.  This is shown here
  once for every protocol that is built from others, so that a contract has to be
  looked at only where it is called upon: at the single writes, and where what was
  read decides on them.
-/
import BucketStore.Proofs.Staging.Locks
import BucketStore.Proofs.Staging.ReadsOnly

namespace BucketStore.Staging

variable {σ α : Type} {K : Contract Call Call.Reply σ} {s : σ} {config : Config}
  {bucket key : Bytes}

/-- The protocol keeps to the contract and leaves its state as it was, whatever it answers. -/
abbrev Keeps (K : Contract Call Call.Reply σ) (s : σ) (p : Protocol α) : Prop :=
  p.Steady K s fun _ => True

/-- Anybody may read, which leaves the contract's state as it was. -/
def Reads (K : Contract Call Call.Reply σ) (s : σ) : Prop :=
  ∀ c, c.reads = true → K.needs c s ∧ ∀ r s', K.allows c s r s' → s' = s

theorem ReadsOnly.keeps {p : Protocol α} (h : ReadsOnly p) (hK : Reads K s) : Keeps K s p := by
  refine (Program.Ensures.transfer (fun s' _ => s' = s) ?_ h rfl).mono ?_
  · rintro c _ _ rfl hreads
    obtain ⟨hneeds, hkeeps⟩ := hK c hreads
    exact ⟨hneeds, fun r s' hr => ⟨(), trivial, hkeeps r s' hr⟩⟩
  · rintro r s' ⟨_, _, hs⟩
    exact ⟨hs, fun _ _ => trivial⟩

theorem steady_retry {body : Protocol (Option α)} {P : α → Prop}
    (h : body.Steady K s fun a => ∀ v, a = some v → P v) (exhausted : Failure) (n : Nat) :
    (retry body exhausted n).Steady K s P := by
  induction n with
  | zero => exact Program.steady_fail
  | succ n ih =>
    refine h.bind fun a ha => ?_
    cases a with
    | none => exact ih
    | some v => exact Program.steady_done (ha v rfl)

/-! ### Single keys -/

section

variable {P : Option Item → Prop} (hload : (Protocol.load bucket key).Steady K s P)
  (hresolve : ∀ item, P (some item) → Keeps K s (resolveLock config bucket key item))
include hload hresolve

theorem keeps_resolveIfLocked : Keeps K s (resolveIfLocked config bucket key) := by
  refine hload.bind fun found hfound => ?_
  cases found with
  | none => exact Program.steady_pure trivial
  | some item =>
    dsimp only
    split
    · exact hresolve item hfound
    · exact Program.steady_pure trivial

theorem keeps_writeKey {value : Option Bytes}
    (hwrite : Keeps K s (.write bucket key (value.map .plain) .unlocked)) :
    Keeps K s (writeKey config bucket key value) := by
  refine steady_retry ?_ _ _
  refine hwrite.bind fun written _ => ?_
  split
  · exact Program.steady_pure fun _ _ => trivial
  · refine (keeps_resolveIfLocked hload hresolve).bind fun _ _ => ?_
    exact Program.steady_pure fun _ _ => trivial

theorem keeps_swapKey {old : Option Bytes} {new : Bytes} (hreads : Reads K s)
    (hwrite : Keeps K s (.write bucket key (some (.plain new)) (.unlockedWith old))) :
    Keeps K s (swapKey config bucket key old new) := by
  refine steady_retry ?_ _ _
  refine hwrite.bind fun written _ => ?_
  split
  · exact Program.steady_pure fun _ _ => trivial
  · refine hload.bind fun found hfound => ?_
    cases found with
    | none => exact Program.steady_pure fun _ _ => trivial
    | some item =>
      dsimp only
      split
      · refine ((readsOnly_visible item).keeps hreads).bind fun seen _ => ?_
        split
        · exact Program.steady_pure fun _ _ => trivial
        · refine (hresolve item hfound).bind fun _ _ => ?_
          exact Program.steady_pure fun _ _ => trivial
      · exact Program.steady_pure fun _ _ => trivial

/-- Where nothing but a key without a lock is taken, a key that was locked is one that may be. -/
theorem steady_lockKey {staged : Staged} {A : Prop}
    (htake : ∀ found, P found → (∀ item, found = some item → item.isLocked = false) → A ∧
      Keeps K s (lockKey.take staged bucket key (found.bind Item.value))) :
    (lockKey config staged bucket key).Steady K s fun _ => A := by
  refine steady_retry (hload.bind fun found hfound => ?_) _ _
  cases found with
  | none =>
    obtain ⟨hA, hkeeps⟩ := htake none hfound (by simp)
    exact hkeeps.mono fun _ _ _ _ => hA
  | some item =>
    dsimp only
    split
    · refine (hresolve item hfound).bind fun _ _ => ?_
      exact Program.steady_pure (by simp)
    · next hunlocked =>
      obtain ⟨hA, hkeeps⟩ := htake (some item) hfound (by simpa using hunlocked)
      exact hkeeps.mono fun _ _ _ _ => hA

end

/-! ### Updates -/

section

variable {staged : Staged} {tx : Transaction} {places : List (Bytes × Bytes)} {locks : List Locked}
  {A : Bytes × Bytes → Prop}

theorem keeps_take {committed : Option Bytes}
    (hwrite : Keeps K s (.write bucket key (some ⟨committed, some (staged.lock .keep)⟩)
      (.unlockedWith committed))) : Keeps K s (lockKey.take staged bucket key committed) := by
  refine hwrite.bind fun taken _ => ?_
  exact Program.steady_pure trivial

/-- Only places that may be locked are locked, and all of them if none is given up. -/
theorem steady_lockAll (h : ∀ place ∈ places,
      (lockKey config staged place.1 place.2).Steady K s fun _ => A place) :
    (lockAll config staged places).Steady K s fun r =>
      (∀ l ∈ r.1, l.place ∈ places) ∧ (r.2 = none → ∀ place ∈ places, A place) := by
  induction places with
  | nil => exact Program.steady_done (by simp)
  | cons place rest ih =>
    obtain ⟨hfirst, hrest⟩ := List.forall_mem_cons.mp h
    refine hfirst.attempt.bind fun r hr => ?_
    cases r with
    | error f => exact Program.steady_pure (by simp)
    | ok committed =>
      refine (ih hrest).bind ?_
      rintro ⟨locks, failure⟩ ⟨hplaces, hall⟩
      refine Program.steady_pure ⟨?_, fun hnone => ?_⟩
      · intro l hl
        rcases List.mem_cons.mp hl with rfl | hl
        · exact List.mem_cons_self ..
        · exact List.mem_cons_of_mem _ (hplaces l hl)
      · exact List.forall_mem_cons.mpr ⟨hr committed rfl, hall hnone⟩

theorem keeps_stageAll {ws : WriteSet} {changes : List Change}
    (h : ∀ change ∈ changes, ∀ value pending, Keeps K s (.write change.bucket change.key
      (some ⟨value, some (staged.lock pending)⟩) (.lockedBy staged.record.id))) :
    Keeps K s (stageAll staged ws changes) := by
  induction changes with
  | nil => exact Program.steady_done trivial
  | cons change rest ih =>
    obtain ⟨hfirst, hrest⟩ := List.forall_mem_cons.mp h
    refine (hfirst _ _).bind fun written _ => ?_
    split
    · exact ih hrest
    · exact Program.steady_fail

/-- What the operations change are places that were locked. -/
theorem place_of_changes {ws : WriteSet} {r : Except Failure TxOutcome}
    (h : (loadLocked locks).execute tx = (r, ws)) {change : Change} (hchange : change ∈ ws.changes) :
    (change.bucket, change.key) ∈ locks.map Locked.place := by
  have hdistinct := WriteSet.distinct_execute (distinct_loadLocked locks) tx
  have hsame : ((loadLocked locks).execute tx).2.isLoaded change.bucket change.key =
      (loadLocked locks).isLoaded change.bucket change.key := WriteSet.isLoaded_execute tx
  rw [h] at hdistinct hsame
  rw [← isLoaded_loadLocked, ← hsame]
  exact ((WriteSet.mem_changes hdistinct).mp hchange).1

/-- The first half of an update takes locks on places that it touches, and only if all of them may be
    locked is it ready. -/
theorem steady_prepare
    (hlock : ∀ place ∈ tx.touched, (lockKey config staged place.1 place.2).Steady K s fun _ => A place)
    (hstage : ∀ place ∈ tx.touched, ∀ value pending, Keeps K s (.write place.1 place.2
      (some ⟨value, some (staged.lock pending)⟩) (.lockedBy staged.record.id))) :
    (prepare config staged tx).Steady K s fun r => (∀ l ∈ r.1, l.place ∈ tx.touched) ∧
      ∀ ready, r.2 = .ok ready → ∀ place ∈ tx.touched, A place := by
  refine (steady_lockAll hlock).bind ?_
  rintro ⟨locks, failure⟩ ⟨hplaces, hall⟩
  cases failure with
  | some f => exact Program.steady_pure ⟨hplaces, by simp⟩
  | none =>
    dsimp only
    split
    · exact Program.steady_pure ⟨hplaces, by simp⟩
    · next outcome ws hexecute =>
      have hchanges : ∀ change ∈ ws.changes, (change.bucket, change.key) ∈ tx.touched := by
        intro change hchange
        obtain ⟨l, hl, hplace⟩ := List.mem_map.mp (place_of_changes hexecute hchange)
        exact hplace ▸ hplaces l hl
      have hstaged : Keeps K s (stageAll staged ws ws.changes) :=
        keeps_stageAll fun change hchange => hstage _ (hchanges change hchange)
      refine hstaged.attempt.bind fun r _ => ?_
      cases r with
      | error f => exact Program.steady_pure ⟨hplaces, by simp⟩
      | ok _ => exact Program.steady_pure ⟨hplaces, fun _ _ => hall rfl⟩

theorem steady_transition {record : Record} {next : TxState} :
    (Protocol.transition record next).Steady K s fun r => r = { record with state := next } := by
  refine Program.steady_check fun r hr => ?_
  unfold Record.become at hr
  split at hr
  · exact (Except.ok.inj hr).symm
  · cases hr

theorem keeps_reclaim {recordBucket : Bytes} {record : Record}
    (h : Keeps K s (.tryWrite recordBucket record.key none (.valueEquals record.encode))) :
    Keeps K s (reclaim recordBucket record) := by
  refine steady_transition.attempt.bind fun next _ => ?_
  cases next with
  | error f => exact Program.steady_pure trivial
  | ok _ =>
    refine h.bind fun r _ => ?_
    cases r with
    | ok _ => exact Program.steady_pure trivial
    | error f => exact Program.steady_log

theorem keeps_forEachLock {write : Locked → Protocol (Except Failure Bool)}
    {about : Locked → Failure → Log.Line} (h : ∀ l ∈ locks, Keeps K s (write l)) :
    Keeps K s (forEachLock write about locks) := by
  induction locks with
  | nil => exact Program.steady_done trivial
  | cons l rest ih =>
    obtain ⟨hfirst, hrest⟩ := List.forall_mem_cons.mp h
    refine hfirst.bind fun r _ => ?_
    cases r with
    | ok _ => exact ih hrest
    | error f =>
      refine Program.steady_log.bind fun _ _ => (ih hrest).discard.bind fun _ _ => ?_
      exact Program.steady_pure trivial

theorem keeps_abort (hreads : Reads K s) (hflip : Keeps K s (staged.flip (staged.decided .aborted)))
    (hrelease : ∀ l ∈ locks, Keeps K s (release staged l))
    (hforget : Keeps K s (reclaim staged.recordBucket (staged.decided .aborted))) :
    Keeps K s (abort staged locks) := by
  have hdecide : Keeps K s (abortRecord staged) := by
    refine steady_transition.attempt.bind fun next hnext => ?_
    cases next with
    | error f => exact Program.steady_pure trivial
    | ok aborted =>
      obtain rfl := hnext aborted rfl
      refine hflip.bind fun r _ => ?_
      split
      · exact Program.steady_pure trivial
      · exact readsOnly_isAborted.keeps hreads
      · exact Program.steady_log.bind fun _ _ => Program.steady_pure trivial
  have hall : Keeps K s (releaseAll staged locks) := by
    refine (keeps_forEachLock hrelease).bind fun released _ => ?_
    split
    · exact hforget
    · exact Program.steady_pure trivial
  refine hdecide.bind fun decided _ => ?_
  split
  · exact hall
  · exact Program.steady_pure trivial

theorem keeps_commit (hreads : Reads K s) (hflip : Keeps K s (staged.flip (staged.decided .committed))) :
    Keeps K s (commit staged) := by
  refine steady_transition.bind ?_
  rintro _ rfl
  refine hflip.bind fun r _ => ?_
  split
  · exact Program.steady_pure trivial
  · refine (readsOnly_isCommitted.keeps hreads).bind fun committed _ => ?_
    split
    · exact Program.steady_log.bind fun _ _ => Program.steady_pure trivial
    · split <;> exact Program.steady_pure trivial

theorem keeps_applyAll {ws : WriteSet} (hpublish : ∀ l ∈ locks, Keeps K s (publish staged ws l))
    (hforget : Keeps K s (reclaim staged.recordBucket (staged.decided .committed))) :
    Keeps K s (applyAll staged ws locks) := by
  refine (keeps_forEachLock hpublish).bind fun applied _ => ?_
  split
  · exact hforget
  · exact Program.steady_pure trivial

/-- An update whose record is stored answers only if every place that it touches may be locked. -/
theorem steady_runStaged
    (hprepare : (prepare config staged tx).Steady K s fun r => (∀ l ∈ r.1, l.place ∈ tx.touched) ∧
      ∀ ready, r.2 = .ok ready → ∀ place ∈ tx.touched, A place)
    (habort : ∀ locks, (∀ l ∈ locks, l.place ∈ tx.touched) → Keeps K s (abort staged locks))
    (hcommit : Keeps K s (commit staged))
    (happly : ∀ ws locks, (∀ l ∈ locks, l.place ∈ tx.touched) →
      Keeps K s (applyAll staged ws locks)) :
    (runStaged config staged tx).Steady K s fun _ => ∀ place ∈ tx.touched, A place := by
  refine hprepare.bind ?_
  rintro ⟨locks, r⟩ ⟨hplaces, hready⟩
  cases r with
  | error f => exact (habort locks hplaces).bind fun _ _ => Program.steady_fail
  | ok prepared =>
    obtain ⟨ws, outcome⟩ := prepared
    refine hcommit.bind fun r _ => ?_
    cases r with
    | error f => exact (habort locks hplaces).bind fun _ _ => Program.steady_fail
    | ok _ =>
      refine (happly ws locks hplaces).bind fun _ _ => ?_
      exact Program.steady_pure (hready _ rfl)

end

/-! ### Recovery -/

/-- The records that are found are read from items under reserved keys. -/
theorem mem_recordsOf {entries : List (Bytes × Item)} {found : List (Record × Bytes)}
    (h : recordsOf entries = .ok found) :
    ∀ e ∈ found, ∃ entry ∈ entries, isReservedKey entry.1 = true ∧ entry.2.value = some e.2 ∧
      Record.decode e.2 = .ok e.1 := by
  induction entries generalizing found with
  | nil =>
    cases h
    exact fun _ he => nomatch he
  | cons entry rest ih =>
    obtain ⟨key, item⟩ := entry
    have hrest : ∀ later, recordsOf rest = .ok later → ∀ e ∈ later, ∃ entry ∈ (key, item) :: rest,
        isReservedKey entry.1 = true ∧ entry.2.value = some e.2 ∧ Record.decode e.2 = .ok e.1 := by
      intro later hlater e he
      obtain ⟨entry, hmem, hentry⟩ := ih hlater e he
      exact ⟨entry, List.mem_cons_of_mem _ hmem, hentry⟩
    unfold recordsOf at h
    split at h
    · next bytes hreserved hvalue =>
      cases hread : Record.decode bytes with
      | error f =>
        rw [hread] at h
        cases h
      | ok record =>
        rw [hread] at h
        cases hlater : recordsOf rest with
        | error f =>
          rw [hlater] at h
          cases h
        | ok later =>
          rw [hlater] at h
          cases h
          intro e he
          rcases List.mem_cons.mp he with rfl | he
          · exact ⟨(key, item), List.mem_cons_self .., hreserved, hvalue, hread⟩
          · exact hrest later hlater e he
    · exact hrest found h

theorem steady_findRecords {P : Bytes × Item → Prop}
    (hscan : ∀ token, (Protocol.scan bucket token config.pageSize).Steady K s fun page =>
      ∀ e ∈ page.items, P e) (limit : Nat) (token : Option Token) :
    (findRecords config bucket limit token).Steady K s fun found => ∀ e ∈ found, ∃ entry, P entry ∧
      isReservedKey entry.1 = true ∧ entry.2.value = some e.2 ∧ Record.decode e.2 = .ok e.1 := by
  induction limit generalizing token with
  | zero => exact Program.steady_fail
  | succ limit ih =>
    refine (hscan token).bind fun page hpage => ?_
    have hread : ∀ found, recordsOf page.items = .ok found → ∀ e ∈ found, ∃ entry, P entry ∧
        isReservedKey entry.1 = true ∧ entry.2.value = some e.2 ∧ Record.decode e.2 = .ok e.1 := by
      intro found hfound e he
      obtain ⟨entry, hmem, hentry⟩ := mem_recordsOf hfound e he
      exact ⟨entry, hpage entry hmem, hentry⟩
    refine (Program.steady_ofExcept hread).bind fun found hfound => ?_
    split
    · exact Program.steady_pure hfound
    · refine (ih _).bind fun later hlater => Program.steady_pure fun e he => ?_
      rcases List.mem_append.mp he with he | he
      · exact hfound e he
      · exact hlater e he

theorem keeps_settleKeys {record : Record} {forward : Bool} {places : List (Bytes × Bytes)}
    (hreads : Reads K s)
    (hunlock : ∀ place ∈ places, ∀ value : Option Bytes, Keeps K s
      (.write place.1 place.2 (value.map .plain) (.lockedBy record.id))) :
    Keeps K s (settleKeys record forward places) := by
  induction places with
  | nil => exact Program.steady_done trivial
  | cons place rest ih =>
    obtain ⟨bucket, key⟩ := place
    obtain ⟨hfirst, hrest⟩ := List.forall_mem_cons.mp hunlock
    have hrest := ih hrest
    obtain ⟨hneeds, hsame⟩ := hreads (.load bucket key) rfl
    refine ⟨hneeds, fun r s' hr => ?_⟩
    rw [hsame r s' hr]
    rcases r with f | (_ | item)
    · dsimp only
      split
      · exact hrest
      · exact Program.steady_fail
    · exact hrest
    · cases hlock : item.lock with
      | none =>
        simp only [hlock]
        exact hrest
      | some lock =>
        simp only [hlock]
        split
        · next howner =>
          unfold rollForward rollBack
          rw [howner]
          split
          · exact (hfirst _).discard.bind fun _ _ => hrest
          · exact (hfirst _).discard.bind fun _ _ => hrest
        · exact hrest

theorem keeps_recoverBucket {P : Record × Bytes → Prop} {limit : Nat}
    (hfind : (findRecords config bucket limit none).Steady K s fun found => ∀ e ∈ found, P e)
    (hrecord : ∀ report found, P found → Keeps K s (recoverRecord config bucket report found)) :
    Keeps K s (recoverBucket config limit bucket) := by
  have hfold : ∀ (records : List (Record × Bytes)) (report : RecoveryReport), (∀ e ∈ records, P e) →
      Keeps K s (records.foldlM (recoverRecord config bucket) report) := by
    intro records
    induction records with
    | nil => exact fun _ _ => Program.steady_pure trivial
    | cons found rest ih =>
      intro report hrecords
      obtain ⟨hfirst, hrest⟩ := List.forall_mem_cons.mp hrecords
      rw [List.foldlM_cons]
      exact (hrecord report found hfirst).bind fun report _ => ih report hrest
  refine hfind.bind fun records hrecords => (hfold records {} hrecords).bind fun report _ => ?_
  split
  · exact Program.steady_log.bind fun _ _ => Program.steady_pure trivial
  · exact Program.steady_pure trivial

/-! ### The calls of the engine -/

/-- A call on a key is refused for its names, or runs its protocol and names the action in what
    fails. -/
theorem ensures_onKey {action : String} {p : Protocol α} {Q : Except Failure α → σ → Prop}
    (hname : ∀ f, checkKey bucket key = .error f → Q (.error f) s)
    (hreserved : isReservedKey key = true → ∀ f, Q (.error f) s)
    (hrun : checkKey bucket key = .ok () → isReservedKey key = false →
      p.Ensures K s fun r s' => Q (r.mapError (.during action bucket key)) s') :
    (Engine.onKey action bucket key p).Ensures K s Q := by
  refine Program.ensures_bind.mpr (Program.ensures_bind.mpr (Program.ensures_check.mpr ?_))
  cases hcheck : checkKey bucket key with
  | error f => exact hname f hcheck
  | ok _ =>
    refine Program.ensures_check.mpr ?_
    unfold checkUserKey
    cases hkey : isReservedKey key with
    | true => exact hreserved hkey _
    | false =>
      apply Program.ensures_mapFailure.mpr
      apply Program.ensures_noteFailure.mpr
      exact hrun hcheck hkey

theorem keeps_onKey {action : String} {p : Protocol α}
    (h : checkKey bucket key = .ok () → isReservedKey key = false → Keeps K s p) :
    Keeps K s (Engine.onKey action bucket key p) := by
  refine ensures_onKey ?_ ?_ ?_
  · exact fun f _ => ⟨rfl, fun _ _ => trivial⟩
  · exact fun _ f => ⟨rfl, fun _ _ => trivial⟩
  · intro hname hkey
    exact Program.Ensures.mono (h hname hkey) fun _ _ hs => ⟨hs.1, fun _ _ => trivial⟩

end BucketStore.Staging
