/-
  BucketStore/Staging/Update.lean
  ===============================
  **Updates of several keys as one unit, over single-item conditional writes.**

  An update stores a pending record, locks every key it touches, evaluates its
  operations, stages the writes on the locks, and then flips the record to
  committed.  That flip is the commit: before it, everything is rolled back;
  after it, the staged writes are applied, by this update or by whoever meets its
  locks.  The record is deleted last.
-/
import BucketStore.Staging.Locking
import BucketStore.Transaction.WriteSet

namespace BucketStore.Staging

structure Staged where
  record : Record
  recordBucket : Bytes
deriving DecidableEq, Repr

/-- A key locked by an update, with its committed value. -/
structure Locked where
  bucket : Bytes
  key : Bytes
  committed : Option Bytes
deriving DecidableEq, Repr

namespace Staged

def lock (staged : Staged) (pending : Pending) : Lock :=
  ⟨staged.record.id, staged.recordBucket, pending⟩

def decided (staged : Staged) (state : TxState) : Record := { staged.record with state }

/-- Puts the record in its next state, unless somebody has done so already. -/
def flip (staged : Staged) (next : Record) : Protocol (Except Failure Bool) :=
  .tryWrite staged.recordBucket next.key (some next.item) (.valueEquals staged.record.encode)

end Staged

/-! ### Locking and staging -/

/-- Locks a key and answers with its committed value. -/
def lockKey (config : Config) (staged : Staged) (bucket key : Bytes) : Protocol (Option Bytes) :=
  retry (do
    let current ← .load bucket key
    match current with
    | some item =>
      if item.isLocked then
        resolveLock config bucket key item
        return none
      else take item.value
    | none => take none) (.cannotLock bucket key) maxAttempts
where
  /-- Puts the lock on a key that holds `committed` and no lock. -/
  take (committed : Option Bytes) : Protocol (Option (Option Bytes)) := do
    let locked : Item := ⟨committed, some (staged.lock .keep)⟩
    return if ← .write bucket key (some locked) (.unlockedWith committed) then some committed else none

/-- Locks keys in order, up to the first that cannot be locked. Answers with the locks taken, and
    the failure if there was one. -/
def lockAll (config : Config) (staged : Staged) :
    List (Bytes × Bytes) → Protocol (List Locked × Option Failure)
  | [] => .done ([], none)
  | (bucket, key) :: rest => do
    match ← (lockKey config staged bucket key).attempt with
    | .error f => return ([], some f)
    | .ok committed =>
      let (locks, failure) ← lockAll config staged rest
      return (⟨bucket, key, committed⟩ :: locks, failure)

/-- Stages the writes of changes on the locks, in order. -/
def stageAll (staged : Staged) (ws : WriteSet) : List Change → Protocol Unit
  | [] => .done ()
  | change :: rest => do
    let item : Item :=
      ⟨ws.committed change.bucket change.key, some (staged.lock (.ofChange change.value))⟩
    if ← .write change.bucket change.key (some item) (.lockedBy staged.record.id) then
      stageAll staged ws rest
    else .fail (.lockLost change.bucket change.key)

def loadLocked (locks : List Locked) : WriteSet :=
  locks.foldl (fun ws l => ws.load l.bucket l.key l.committed) {}

/-- Locks every touched key, evaluates the operations and stages the writes. Answers with the locks
    taken, whether or not the rest succeeded. -/
def prepare (config : Config) (staged : Staged) (tx : Transaction) :
    Protocol (List Locked × Except Failure (WriteSet × TxOutcome)) := do
  let (locks, failure) ← lockAll config staged tx.touched
  match failure with
  | some f => return (locks, .error f)
  | none =>
    match (loadLocked locks).execute tx with
    | (.error f, _) => return (locks, .error f)
    | (.ok outcome, ws) =>
      match ← (stageAll staged ws ws.changes).attempt with
      | .error f => return (locks, .error f)
      | .ok () => return (locks, .ok (ws, outcome))

/-! ### Deciding and cleaning up -/

/-- Deletes the record of a decided transaction. -/
def reclaim (recordBucket : Bytes) (record : Record) : Protocol Unit := do
  match ← (Protocol.transition record .reclaimed).attempt with
  | .error _ => return ()
  | .ok _ =>
    match ← .tryWrite recordBucket record.key none (.valueEquals record.encode) with
    | .ok _ => return ()
    | .error f => .log (Log.warn s!"Could not reclaim transaction record {record.id}: {f.message}")

/-- Runs a write for every locked key, and tells whether none of them failed; failures are logged. -/
def forEachLock (write : Locked → Protocol (Except Failure Bool)) (about : Locked → Failure → Log.Line) :
    List Locked → Protocol Bool
  | [] => .done true
  | l :: rest => do
    match ← write l with
    | .ok _ => forEachLock write about rest
    | .error f =>
      .log (about l f)
      discard (forEachLock write about rest)
      return false

/-- Is the record aborted, or gone? A record that cannot be read is left alone. -/
def isAborted (staged : Staged) : Protocol Bool := do
  match ← (loadRecord staged.recordBucket staged.record.id).attempt with
  | .ok (some (record, _)) => return record.state == .aborted
  | .ok none => return true
  | .error _ => return false

def isCommitted (staged : Staged) : Protocol Bool := do
  match ← (loadRecord staged.recordBucket staged.record.id).attempt with
  | .ok (some (record, _)) => return record.state == .committed
  | .ok none => return false
  | .error f =>
    .log (Log.warn s!"Could not read back transaction {staged.record.id}: {f.message}")
    return false

/-- Puts the committed value of a locked key back. -/
def release (staged : Staged) (l : Locked) : Protocol (Except Failure Bool) :=
  .tryWrite l.bucket l.key (l.committed.map .plain) (.lockedBy staged.record.id)

/-- Puts the record in the aborted state, and tells whether the transaction is aborted now. -/
def abortRecord (staged : Staged) : Protocol Bool := do
  match ← (Protocol.transition staged.record .aborted).attempt with
  | .error _ => return false
  | .ok aborted =>
    match ← staged.flip aborted with
    | .ok true => return true
    | .ok false => isAborted staged
    | .error f =>
      .log (Log.warn
        s!"Could not abort transaction {staged.record.id}, leaving it for recovery: {f.message}")
      return false

/-- Puts the committed value of every locked key back and deletes the record of an aborted
    transaction. -/
def releaseAll (staged : Staged) (locks : List Locked) : Protocol Unit := do
  let released ← forEachLock (release staged) (fun l f => Log.warn
    s!"Could not release {Failure.place l.bucket l.key} for aborted transaction {staged.record.id}: {f.message}")
    locks
  if released then reclaim staged.recordBucket (staged.decided .aborted)

/-- Aborts the transaction and releases its locks. A transaction that cannot be aborted is left for
    recovery. -/
def abort (staged : Staged) (locks : List Locked) : Protocol Unit := do
  if ← abortRecord staged then releaseAll staged locks

def publish (staged : Staged) (ws : WriteSet) (l : Locked) : Protocol (Except Failure Bool) :=
  .tryWrite l.bucket l.key ((ws.current l.bucket l.key).map .plain) (.lockedBy staged.record.id)

/-- Applies every staged write of a committed transaction and deletes its record. Writes that fail
    are left to whoever meets their locks. -/
def applyAll (staged : Staged) (ws : WriteSet) (locks : List Locked) : Protocol Unit := do
  let id := staged.record.id
  let applied ← forEachLock (publish staged ws) (fun l f => Log.warn
    s!"Committed transaction {id} could not apply {Failure.place l.bucket l.key}, readers roll it forward: {f.message}")
    locks
  if applied then reclaim staged.recordBucket (staged.decided .committed)

def flipDetail : Except Failure Bool → String
  | .ok b => s!"Ok({b})"
  | .error f => s!"Err({f.detail})"

/-- Commits the transaction. The flip may have landed although the store reported a fault, so if it
    did not plainly succeed, the record itself tells. -/
def commit (staged : Staged) : Protocol (Except Failure Unit) := do
  let id := staged.record.id
  let committed ← Protocol.transition staged.record .committed
  match ← staged.flip committed with
  | .ok true => return .ok ()
  | reply =>
    if ← isCommitted staged then
      .log (Log.warn
        s!"Commit of transaction {id} reported {flipDetail reply} but its record is committed")
      return .ok ()
    else
      match reply with
      | .error f => return .error f
      | .ok _ => return .error (.abortedEarly id)

/-! ### The update -/

def runStaged (config : Config) (staged : Staged) (tx : Transaction) : Protocol TxOutcome := do
  match ← prepare config staged tx with
  | (locks, .error f) =>
    abort staged locks
    .fail f
  | (locks, .ok (ws, outcome)) =>
    match ← commit staged with
    | .error f =>
      abort staged locks
      .fail f
    | .ok () =>
      applyAll staged ws locks
      return outcome

/-- Applies the operations of a transaction as one unit. The record is kept in the first bucket that
    the transaction touches. -/
def updateKeys (config : Config) (tx : Transaction) : Protocol TxOutcome :=
  match tx.buckets with
  | [] => .done []
  | recordBucket :: _ => do
    let id ← Protocol.freshId
    let createdAt ← Protocol.now
    let staged : Staged := ⟨⟨id, .pending, tx.touched, createdAt⟩, recordBucket⟩
    if ← .write recordBucket staged.record.key (some staged.record.item) .absent then
      runStaged config staged tx
    else .fail (.idInUse id)

end BucketStore.Staging
