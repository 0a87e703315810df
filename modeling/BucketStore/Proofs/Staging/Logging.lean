/-
  BucketStore/Proofs/Staging/Logging.lean
  =======================================
  **On a staging engine, what is expected is no error.**

  Beneath the calls, protocols are silent: they warn of locks that they clear and of
  transactions that they leave to others, but whether they answer or fail, they log no
  error.  A record is only ever moved along its life, so its transitions are not
  complained about: who moves a record knows its state, or has just read it.  What is
  logged of a failure is logged by the call, and for a missing bucket or key it is
  nothing.

  Stores are relied on for a single thing (`fitting`): they do not fail for something
  that is there already.  A write whose condition does not hold is no failure, and what
  refuses writes on purpose says that the store is unavailable.
-/
import BucketStore.Proofs.Logging
import BucketStore.Proofs.Staging.Replies
import BucketStore.Staging.Engine

namespace BucketStore.Staging

open Program hiding bind

variable {σ α : Type} {config : Config} {bucket key : Bytes}

/-! ### Calls on the store -/

/-- No call fails for something that is there already. -/
def fitting : (call : Call) → call.Reply → Prop
  | .load _ _, reply => ∀ f, reply = .error f → f.kind ≠ .alreadyExists
  | .write _ _ _ _, reply => ∀ f, reply = .error f → f.kind ≠ .alreadyExists
  | .scan _ _ _, reply => ∀ f, reply = .error f → f.kind ≠ .alreadyExists
  | .now, _ => True
  | .freshId, _ => True

theorem silent_load : (Protocol.load bucket key).Silent fitting :=
  reports_call fun _ hr => silent_ofExcept hr

theorem silent_write {item : Option Item} {condition : Precondition} :
    (Protocol.write bucket key item condition).Silent fitting :=
  reports_call fun _ hr => silent_ofExcept hr

theorem reports_tryWrite {item : Option Item} {condition : Precondition} :
    (Protocol.tryWrite bucket key item condition).Reports fitting
      (fun r => ∀ f, r = .error f → f.kind ≠ .alreadyExists) Failure.Muted false :=
  reports_call fun _ hr => reports_done hr

theorem silent_scan {token : Option Token} {limit : UInt64} :
    (Protocol.scan bucket token limit).Silent fitting :=
  reports_call fun _ hr => silent_ofExcept hr

theorem silent_now : Protocol.now.Silent fitting := reports_call fun _ _ => reports_done trivial

theorem silent_freshId : Protocol.freshId.Silent fitting :=
  reports_call fun _ _ => reports_done trivial

/-- A step of a record's life is not complained about. -/
theorem reports_transition {record : Record} {next : TxState}
    (h : record.state.canBecome next = true) :
    (Protocol.transition record next).Reports fitting (fun r => r = { record with state := next })
      Failure.Muted false := by
  rw [Protocol.transition_of_canBecome h]
  exact reports_done rfl

theorem silent_retry {body : Protocol (Option α)} (h : body.Silent fitting) (exhausted : Failure)
    (hexhausted : exhausted.kind ≠ .alreadyExists) (n : Nat) :
    (retry body exhausted n).Silent fitting := by
  induction n with
  | zero => exact silent_fail hexhausted
  | succ n ih =>
    refine Reports.seq h fun found => ?_
    cases found with
    | none => exact ih
    | some a => exact silent_pure a

/-! ### Reading and clearing locks -/

theorem kind_decode {bytes : Bytes} {f : Failure} (h : Record.decode bytes = .error f) :
    f.kind ≠ .alreadyExists := by
  unfold Record.decode at h
  split at h <;> cases h
  exact nofun

theorem silent_loadRecord (recordBucket : Bytes) (id : String) :
    (loadRecord recordBucket id).Silent fitting := by
  refine reports_call fun r hr => ?_
  rcases r with f | _ | ⟨_ | bytes, _⟩
  · dsimp only
    split
    · exact silent_pure none
    · exact silent_fail (hr f rfl)
  · exact silent_pure none
  · exact silent_pure none
  · dsimp only
    split
    · exact silent_pure _
    · next f hdecode => exact silent_fail (kind_decode hdecode)

theorem silent_recordState (lock : Lock) : (recordState lock).Silent fitting :=
  (silent_loadRecord _ _).seq fun _ => silent_pure _

theorem silent_visible (item : Item) : (visible item).Silent fitting := by
  unfold visible
  split
  · exact silent_pure _
  · next lock _ => exact (silent_recordState lock).seq fun _ => silent_pure _

theorem silent_resolveLock (item : Item) : (resolveLock config bucket key item).Silent fitting := by
  have hback : ∀ lock, (resolveLock.rollBackNoted bucket key item lock).Silent fitting :=
    fun lock => (reports_log rfl).seq fun _ => silent_write.discard
  unfold resolveLock
  split
  · exact silent_pure ()
  · next lock _ =>
    refine (silent_loadRecord _ _).seq fun found => ?_
    cases found with
    | none => exact hback lock
    | some found =>
      obtain ⟨record, bytes⟩ := found
      cases hstate : record.state with
      | committed =>
        simp only [hstate]
        exact (reports_log rfl).seq fun _ => silent_write.discard
      | aborted =>
        simp only [hstate]
        exact hback lock
      | reclaimed =>
        simp only [hstate]
        exact hback lock
      | pending =>
        simp only [hstate]
        refine silent_now.seq fun now => ?_
        split
        · refine (reports_log rfl).seq fun _ => ?_
          -- The record was read as a pending one, so it may become an aborted one.
          refine (reports_transition (by rw [hstate]; rfl)).bind fun aborted _ => ?_
          refine silent_write.seq fun flipped => ?_
          split
          · exact silent_write.discard
          · exact silent_pure ()
        · exact silent_fail nofun

theorem silent_resolveIfLocked : (resolveIfLocked config bucket key).Silent fitting := by
  refine silent_load.seq fun found => ?_
  cases found with
  | none => exact silent_pure ()
  | some item =>
    dsimp only
    split
    · exact silent_resolveLock item
    · exact silent_pure ()

/-! ### Single keys -/

theorem silent_readKey (bucket key : Bytes) : (readKey bucket key).Silent fitting := by
  refine silent_load.seq fun found => ?_
  cases found with
  | none => exact silent_fail nofun
  | some item =>
    refine (silent_visible item).seq fun value => ?_
    cases value with
    | none => exact silent_fail nofun
    | some value => exact silent_pure value

theorem silent_writeKey (bucket key : Bytes) (value : Option Bytes) :
    (writeKey config bucket key value).Silent fitting := by
  refine silent_retry ?_ .contention nofun _
  refine silent_write.seq fun written => ?_
  split
  · exact silent_pure _
  · exact silent_resolveIfLocked.seq fun _ => silent_pure _

theorem silent_swapKey (bucket key : Bytes) (old : Option Bytes) (new : Bytes) :
    (swapKey config bucket key old new).Silent fitting := by
  refine silent_retry ?_ .contention nofun _
  refine silent_write.seq fun written => ?_
  split
  · exact silent_pure _
  · refine silent_load.seq fun found => ?_
    cases found with
    | none => exact silent_pure _
    | some item =>
      dsimp only
      split
      · refine (silent_visible item).seq fun seen => ?_
        split
        · exact silent_pure _
        · exact (silent_resolveLock item).seq fun _ => silent_pure _
      · exact silent_pure _

/-! ### Updates -/

section

variable {staged : Staged} {locks : List Locked} {ws : WriteSet} {tx : Transaction}

theorem silent_lockKey : (lockKey config staged bucket key).Silent fitting := by
  have htake : ∀ committed, (lockKey.take staged bucket key committed).Silent fitting :=
    fun committed => silent_write.seq fun _ => silent_pure _
  refine silent_retry ?_ (.cannotLock bucket key) nofun _
  refine silent_load.seq fun found => ?_
  cases found with
  | none => exact htake none
  | some item =>
    dsimp only
    split
    · exact (silent_resolveLock item).seq fun _ => silent_pure none
    · exact htake item.value

/-- Keys are locked without an error in the log, also where one cannot be locked. -/
theorem reports_lockAll (places : List (Bytes × Bytes)) :
    (lockAll config staged places).Reports fitting
      (fun r => ∀ f, r.2 = some f → f.kind ≠ .alreadyExists) Failure.Muted false := by
  induction places with
  | nil => exact reports_pure nofun
  | cons place rest ih =>
    refine Reports.bind silent_lockKey.attempt fun r hr => ?_
    cases r with
    | error f =>
      refine reports_pure fun g hg => ?_
      cases hg
      exact hr.2 f rfl
    | ok committed =>
      refine ih.bind fun r hrest => ?_
      exact reports_pure hrest

theorem silent_stageAll (changes : List Change) : (stageAll staged ws changes).Silent fitting := by
  induction changes with
  | nil => exact silent_pure ()
  | cons change rest ih =>
    refine silent_write.seq fun locked => ?_
    split
    · exact ih
    · exact silent_fail nofun

theorem reports_prepare : (prepare config staged tx).Reports fitting
    (fun r => ∀ f, r.2 = .error f → f.kind ≠ .alreadyExists) Failure.Muted false := by
  refine (reports_lockAll tx.touched).bind fun r hr => ?_
  obtain ⟨locks, failure⟩ := r
  cases failure with
  | some f => exact reports_pure fun g hg => Except.error.inj hg ▸ hr f rfl
  | none =>
    dsimp only
    split
    · next f _ hexecute =>
      refine reports_pure fun g hg => ?_
      cases hg
      obtain ⟨b, k, rfl | rfl⟩ := WriteSet.execute_eq_error (congrArg Prod.fst hexecute)
      · exact nofun
      · exact nofun
    · refine Reports.bind (silent_stageAll _).attempt fun r hr => ?_
      cases r with
      | error f => exact reports_pure fun g hg => Except.error.inj hg ▸ hr.2 f rfl
      | ok _ => exact reports_pure nofun

/-- The record of a decided transaction is deleted, or a warning is left. -/
theorem silent_reclaim {recordBucket : Bytes} {record : Record}
    (h : record.state.canBecome .reclaimed = true) : (reclaim recordBucket record).Silent fitting := by
  refine Reports.bind (reports_transition h).attempt fun next _ => ?_
  cases next with
  | error f => exact silent_pure ()
  | ok _ =>
    refine reports_tryWrite.bind fun r _ => ?_
    cases r with
    | ok _ => exact silent_pure ()
    | error f => exact reports_log rfl

theorem silent_forEachLock {write : Locked → Protocol (Except Failure Bool)}
    {about : Locked → Failure → Log.Line} (hwrite : ∀ l, (write l).Silent fitting)
    (habout : ∀ l f, (about l f).isError = false) (locks : List Locked) :
    (forEachLock write about locks).Silent fitting := by
  induction locks with
  | nil => exact silent_pure true
  | cons l rest ih =>
    refine (hwrite l).seq fun r => ?_
    cases r with
    | ok _ => exact ih
    | error f =>
      refine (reports_log (habout l f)).seq fun _ => Reports.seq ih.discard fun _ => ?_
      exact silent_pure false

theorem silent_tryWrite {item : Option Item} {condition : Precondition} :
    (Protocol.tryWrite bucket key item condition).Silent fitting :=
  reports_tryWrite.mono (fun _ _ => trivial) fun _ _ => id

theorem silent_releaseAll (locks : List Locked) : (releaseAll staged locks).Silent fitting := by
  refine (silent_forEachLock (fun _ => silent_tryWrite) ?_ locks).seq fun released => ?_
  · exact fun _ _ => rfl
  · split
    · exact silent_reclaim rfl
    · exact silent_pure ()

theorem silent_applyAll (locks : List Locked) : (applyAll staged ws locks).Silent fitting := by
  refine (silent_forEachLock (fun _ => silent_tryWrite) ?_ locks).seq fun applied => ?_
  · exact fun _ _ => rfl
  · split
    · exact silent_reclaim rfl
    · exact silent_pure ()

theorem silent_isAborted : (isAborted staged).Silent fitting := by
  refine Reports.bind (silent_loadRecord _ _).attempt fun r _ => ?_
  rcases r with f | _ | ⟨record, _⟩ <;> exact silent_pure _

theorem silent_isCommitted : (isCommitted staged).Silent fitting := by
  refine Reports.bind (silent_loadRecord _ _).attempt fun r _ => ?_
  rcases r with f | _ | ⟨record, _⟩
  · exact (reports_log rfl).seq fun _ => silent_pure false
  · exact silent_pure false
  · exact silent_pure _

/-! What an update does with its own record, it does while it knows the record to be pending. -/

variable (hpending : staged.record.state = .pending)
include hpending

theorem silent_abortRecord : (abortRecord staged).Silent fitting := by
  refine Reports.bind (reports_transition (by rw [hpending]; rfl)).attempt fun next _ => ?_
  cases next with
  | error f => exact silent_pure false
  | ok aborted =>
    refine Reports.bind reports_tryWrite fun r _ => ?_
    rcases r with f | _ | _
    · exact (reports_log rfl).seq fun _ => silent_pure false
    · exact silent_isAborted
    · exact silent_pure true

theorem silent_abort (locks : List Locked) : (abort staged locks).Silent fitting := by
  refine (silent_abortRecord hpending).seq fun aborted => ?_
  split
  · exact silent_releaseAll locks
  · exact silent_pure ()

/-- A commit fails with what the store failed with, or because somebody has aborted it. -/
theorem reports_commit : (commit staged).Reports fitting
    (fun r => ∀ f, r = .error f → f.kind ≠ .alreadyExists) Failure.Muted false := by
  refine (reports_transition (by rw [hpending]; rfl)).bind fun committed _ => ?_
  refine Reports.bind reports_tryWrite fun r hr => ?_
  have hask : ∀ {line : Log.Line} {f : Failure}, line.isError = false → f.kind ≠ .alreadyExists →
      (do
        if ← isCommitted staged then
          .log line
          return .ok ()
        else return .error f : Protocol (Except Failure Unit)).Reports fitting
        (fun r => ∀ f, r = .error f → f.kind ≠ .alreadyExists) Failure.Muted false := by
    intro line f hline hf
    refine silent_isCommitted.seq fun committed => ?_
    split
    · exact (reports_log hline).seq fun _ => reports_pure nofun
    · exact reports_pure fun g hg => Except.error.inj hg ▸ hf
  rcases r with f | _ | _
  · exact hask rfl (hr f rfl)
  · exact hask rfl nofun
  · exact reports_pure nofun

theorem silent_runStaged : (runStaged config staged tx).Silent fitting := by
  refine reports_prepare.bind fun r hr => ?_
  obtain ⟨locks, f | ⟨ws, outcome⟩⟩ := r
  · exact (silent_abort hpending locks).seq fun _ => silent_fail (hr f rfl)
  · refine (reports_commit hpending).bind fun r hcommit => ?_
    cases r with
    | error f => exact (silent_abort hpending locks).seq fun _ => silent_fail (hcommit f rfl)
    | ok _ =>
      exact (silent_applyAll locks).seq fun _ => silent_pure outcome

end

theorem silent_updateKeys (tx : Transaction) : (updateKeys config tx).Silent fitting := by
  unfold updateKeys
  split
  · exact silent_pure []
  · refine silent_freshId.seq fun id => silent_now.seq fun createdAt => ?_
    refine silent_write.seq fun stored => ?_
    split
    · exact silent_runStaged rfl
    · exact silent_fail nofun

/-! ### Listing and recovery -/

theorem silent_visibleItems (seen : SeenStates) (items : List (Bytes × Item)) :
    (visibleItems seen items).Silent fitting := by
  induction items generalizing seen with
  | nil => exact silent_pure _
  | cons pair rest ih =>
    obtain ⟨key, item⟩ := pair
    unfold visibleItems
    split
    · exact ih seen
    · split
      · exact (ih seen).seq fun _ => silent_pure _
      · next lock _ =>
        have hstate : (seenState seen lock).Silent fitting := by
          unfold seenState
          split
          · exact silent_pure _
          · exact (silent_recordState lock).seq fun _ => silent_pure _
        exact hstate.seq fun found => (ih found.2).seq fun _ => silent_pure _

theorem guarded_listBucket (limit : Nat) (bucket : Bytes) :
    (listBucket config limit bucket).Guarded fitting := by
  refine guarded_listAll (fun seen token => Reports.guarded ?_) nofun limit []
  refine silent_scan.seq fun page => ?_
  exact (silent_visibleItems seen page.items).seq fun _ => silent_pure _

theorem kind_recordsOf {items : List (Bytes × Item)} {f : Failure} (h : recordsOf items = .error f) :
    f.kind ≠ .alreadyExists := by
  induction items with
  | nil => cases h
  | cons pair rest ih =>
    unfold recordsOf at h
    split at h
    · rcases bind_eq_error.mp h with hdecode | ⟨_, -, h⟩
      · exact kind_decode hdecode
      · rcases bind_eq_error.mp h with hrest | ⟨_, -, h⟩
        · exact ih hrest
        · cases h
    · exact ih h

theorem silent_findRecords (limit : Nat) (token : Option Token) :
    (findRecords config bucket limit token).Silent fitting := by
  induction limit generalizing token with
  | zero => exact silent_fail nofun
  | succ limit ih =>
    refine silent_scan.seq fun page => ?_
    refine Reports.seq (silent_ofExcept fun f => kind_recordsOf) fun found => ?_
    split
    · exact silent_pure found
    · exact (ih _).seq fun _ => silent_pure _

theorem silent_settle (recordBucket : Bytes) {record : Record}
    (h : record.state.canBecome .reclaimed = true) (forward : Bool) :
    (settle recordBucket record forward).Silent fitting := by
  have hkeys : ∀ places, (settleKeys record forward places).Silent fitting := by
    intro places
    induction places with
    | nil => exact silent_pure ()
    | cons place rest ih =>
      refine reports_call fun r hr => ?_
      rcases r with f | _ | item
      · dsimp only
        split
        · exact ih
        · exact silent_fail (hr f rfl)
      · exact ih
      · dsimp only
        split
        · split
          · split <;> exact Reports.seq silent_write.discard fun _ => ih
          · exact ih
        · exact ih
  exact (hkeys record.keys).seq fun _ => silent_reclaim h

theorem silent_recoverRecord (report : RecoveryReport) (found : Record × Bytes) :
    (recoverRecord config bucket report found).Silent fitting := by
  obtain ⟨record, bytes⟩ := found
  unfold recoverRecord
  dsimp only
  cases hstate : record.state with
  | committed => exact (silent_settle bucket (by rw [hstate]; rfl) true).seq fun _ => silent_pure _
  | aborted => exact (silent_settle bucket (by rw [hstate]; rfl) false).seq fun _ => silent_pure _
  | reclaimed => exact silent_pure _
  | pending =>
    refine silent_now.seq fun now => ?_
    split
    · refine (reports_transition (by rw [hstate]; rfl)).bind ?_
      rintro _ rfl
      refine silent_write.seq fun flipped => ?_
      split
      · exact (silent_settle bucket rfl false).seq fun _ => silent_pure _
      · exact silent_pure _
    · exact silent_pure _

theorem silent_recoverBucket (limit : Nat) (bucket : Bytes) :
    (recoverBucket config limit bucket).Silent fitting := by
  refine (silent_findRecords limit none).seq fun records => ?_
  refine Reports.seq (reports_foldlM silent_recoverRecord {}) fun report => ?_
  split
  · exact (reports_log rfl).seq fun _ => silent_pure report
  · exact silent_pure report

/-! ### The calls of the engine -/

namespace Engine

theorem discreet_onKey {action : String} {p : Protocol α} (h : p.Silent fitting) :
    (onKey action bucket key p).Discreet fitting := by
  refine Reports.seq (discreet_check.seq fun _ => discreet_check) fun _ => ?_
  exact Reports.reworded (Reports.noted (Reports.guarded h) _) fun _ => rfl

theorem discreet_list (limit : Nat) (bucket : Bytes) :
    (list config limit bucket).Discreet fitting := by
  refine discreet_check.seq fun _ => ?_
  exact Reports.reworded (Reports.noted (guarded_listBucket limit bucket) _) fun _ => rfl

theorem discreet_update (backend : Backend) (tx : Transaction) :
    (update config backend tx).Discreet fitting := by
  unfold update
  split
  · refine discreet_check.seq fun _ => discreet_check.seq fun _ => ?_
    exact Reports.noted (Reports.guarded (silent_updateKeys tx)) _
  · exact Silent.discreet (silent_fail nofun)

theorem discreet_recover (limit : Nat) (bucket : Bytes) :
    (recover config limit bucket).Discreet fitting := by
  refine discreet_check.seq fun _ => ?_
  exact Reports.reworded (Silent.discreet (silent_recoverBucket limit bucket)) fun _ => rfl

/-! ### Requests -/

variable {store : ItemStore σ} {s : σ}

/-- The calls on the store that a request makes, each with the state in which it is made. Buckets are
    created and dropped, and the store is closed, without them. -/
def conversation (store : ItemStore σ) (config : Config) (s : σ) : Request → List (Call × σ)
  | .get b k => (get b k).calls store.respond s
  | .set b k value => (set config b k value).calls store.respond s
  | .delete b k => (delete config b k).calls store.respond s
  | .list b => (list config (store.pageBound s b) b).calls store.respond s
  | .update tx => (update config store.backend tx).calls store.respond s
  | .compareAndSwap b k old new => (compareAndSwap config b k old new).calls store.respond s
  | .create _ | .drop _ | .close => []

/-- The calls that recovery of a bucket makes. -/
def recoveryCalls (store : ItemStore σ) (config : Config) (s : σ) (bucket : Bytes) : List (Call × σ) :=
  (recover config (store.pageBound s bucket) bucket).calls store.respond s

/-- The store does not fail the call for something that is there already, and logs no error. -/
def AnswersFitting (store : ItemStore σ) (call : Call) (s : σ) : Prop :=
  fitting call (store.respond call s).reply ∧ ∀ line ∈ (store.respond call s).log, line.level ≠ .error

theorem discreet_run {p : Protocol α} (h : p.Discreet fitting)
    (hcalls : ∀ e ∈ p.calls store.respond s, AnswersFitting store e.1 e.2) :
    (p.run store.respond s).Discreet :=
  Discreet.run h store.respond fun e he =>
    ⟨(hcalls e he).1, Log.loud_eq_false.mpr (hcalls e he).2⟩

/-- What the store does with a bucket as a whole is as discreet as the store. -/
theorem discreet_managed {bucket : Bytes} {act : Action σ Unit} {text : String}
    (h : (act s).Discreet) : ((do
      .check (checkBucket bucket)
      act
      .note (Log.debug text) : Action σ Unit) s).Discreet := by
  cases checkBucket bucket with
  | error f => exact Step.discreet_iff.mpr f.discreet_notice
  | ok _ => exact h.bind fun _ => Step.discreet_iff.mpr rfl

/-- **Every request is discreet**, whatever the state of the store, if the store answers the calls of
    the request fittingly and is discreet itself. -/
theorem discreet_perform (r : Request)
    (hcalls : ∀ e ∈ conversation store config s r, AnswersFitting store e.1 e.2)
    (hcreate : ∀ b, (store.createBucket b s).Discreet) (hdrop : ∀ b, (store.deleteBucket b s).Discreet)
    (hclose : (store.close s).Discreet) : ((driver store config).perform r s).Discreet := by
  cases r with
  | create b => exact (discreet_managed (hcreate b)).map _
  | drop b => exact (discreet_managed (hdrop b)).map _
  | get b k => exact (discreet_run (discreet_onKey (silent_readKey b k)) hcalls).map _
  | set b k value =>
    exact (discreet_run (discreet_onKey (silent_writeKey b k (some value))) hcalls).map _
  | delete b k => exact (discreet_run (discreet_onKey (silent_writeKey b k none)) hcalls).map _
  | list b =>
    have hlist : ((driver store config).list b s).Discreet :=
      discreet_run (discreet_list (store.pageBound s b) b) hcalls
    exact hlist.map _
  | update tx => exact (discreet_run (discreet_update store.backend tx) hcalls).map _
  | compareAndSwap b k old new =>
    exact (discreet_run (discreet_onKey (silent_swapKey b k old new)) hcalls).map _
  | close =>
    refine Step.Discreet.map ?_ _
    exact hclose.bind fun _ => Step.discreet_iff.mpr rfl

theorem discreet_recoverOn {bucket : Bytes}
    (hcalls : ∀ e ∈ recoveryCalls store config s bucket, AnswersFitting store e.1 e.2) :
    (recoverOn store config bucket s).Discreet :=
  discreet_run (discreet_recover (store.pageBound s bucket) bucket) hcalls

end Engine

/-! ### A store in memory -/

namespace MemoryItems

variable {around : Surroundings}

theorem kind_items {s : MemoryItems} {f : Failure} (h : s.items bucket = .error f) :
    f.kind ≠ .alreadyExists := by
  unfold items at h
  split at h
  · cases h
    exact nofun
  · split at h <;> cases h
    exact nofun

theorem kind_page {limit : UInt64} {entries : List (Bytes × Item)} {f : Failure}
    (h : page limit entries = .error f) : f.kind ≠ .alreadyExists := by
  rcases bind_eq_error.mp h with hmost | ⟨_, -, hcut⟩
  · rw [lookAhead_eq_error hmost]
    exact nofun
  · dsimp only at hcut
    split at hcut <;> cases hcut

/-- A call that no fault strikes is answered fittingly. -/
theorem answersFitting {call : Call} {s : MemoryItems} (h : s.strikes call = false) :
    Engine.AnswersFitting (itemStore around) call s := by
  cases call with
  | load b k =>
    refine ⟨fun f hf => ?_, List.forall_mem_nil _⟩
    rcases bind_eq_error.mp hf with hitems | ⟨_, -, hf⟩
    · exact kind_items hitems
    · cases hf
  | scan b token limit =>
    refine ⟨fun f hf => ?_, List.forall_mem_nil _⟩
    rcases bind_eq_error.mp hf with hitems | ⟨_, -, hpage⟩
    · exact kind_items hitems
    · exact kind_page hpage
  | write b k item condition =>
    unfold Engine.AnswersFitting
    change (∀ f, (s.write b k item condition).reply = .error f → _) ∧
      ∀ line ∈ (s.write b k item condition).log, line.level ≠ .error
    unfold write
    cases hitems : s.items b with
    | error f =>
      refine ⟨fun g hg => ?_, List.forall_mem_nil _⟩
      cases hg
      exact kind_items hitems
    | ok items =>
      have hstrike : (FaultPlan.strike s.fault).1 = false := by
        simpa [strikes, hitems, Except.isOk, Except.toBool] using h
      simp only [hstrike, Bool.false_eq_true, if_false]
      split <;> exact ⟨fun _ hf => (by cases hf), List.forall_mem_nil _⟩
  | now => exact ⟨trivial, List.forall_mem_nil _⟩
  | freshId => exact ⟨trivial, List.forall_mem_nil _⟩

theorem discreet_createBucket (b : Bytes) (s : MemoryItems) : (createBucket b s).Discreet := by
  unfold createBucket
  split
  · exact fun _ => nofun
  · split <;> exact fun _ => nofun

theorem discreet_deleteBucket (b : Bytes) (s : MemoryItems) : (deleteBucket b s).Discreet := by
  unfold deleteBucket
  split
  · exact fun _ => nofun
  · split <;> exact fun _ => nofun

end MemoryItems

end BucketStore.Staging
