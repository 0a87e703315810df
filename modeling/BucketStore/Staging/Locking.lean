/-
  BucketStore/Staging/Locking.lean
  ================================
  **Reading and clearing the locks of other transactions.**

  What a reader sees of a locked item depends on the record of the transaction
  that holds it: the staged value once the record is committed, the committed
  value of the item otherwise.  A writer clears the lock first, forward or back as
  the record says; the lock of a pending transaction stays until it expires.
-/
import BucketStore.Staging.Config
import BucketStore.Staging.Protocol

namespace BucketStore.Staging

def maxAttempts : Nat := 16

/-- Tries `body` until it answers, at most `n` times. -/
def retry {α : Type} (body : Protocol (Option α)) (exhausted : Failure) : Nat → Protocol α
  | 0 => .fail exhausted
  | n + 1 => body.bind fun
    | some a => .done a
    | none => retry body exhausted n

/-! ### Records -/

/-- The record of a transaction with its stored form. Where the record's bucket is gone, the record
    is gone with it. -/
def loadRecord (recordBucket : Bytes) (id : String) : Protocol (Option (Record × Bytes)) :=
  .call (.load recordBucket (recordKey id)) fun
    | .ok (some ⟨some bytes, _⟩) =>
      match Record.decode bytes with
      | .ok record => .done (some (record, bytes))
      | .error f => .fail f
    | .ok _ => .done none
    | .error f => if f.isNotFound then .done none else .fail f

/-- The state of the transaction that holds a lock. -/
def recordState (lock : Lock) : Protocol (Option TxState) := do
  return (← loadRecord lock.recordBucket lock.owner).map (·.1.state)

/-- The value of a locked item to a reader, from the state of its transaction. -/
def Item.visibleIn (item : Item) (lock : Lock) : Option TxState → Option Bytes
  | some .committed => lock.pending.resolve item.value
  | _ => item.value

def visible (item : Item) : Protocol (Option Bytes) :=
  match item.lock with
  | none => .done item.value
  | some lock => do return item.visibleIn lock (← recordState lock)

/-! ### Clearing a lock -/

/-- Applies the staged write of a committed transaction and drops its lock. -/
def rollForward (bucket key : Bytes) (item : Item) (lock : Lock) : Protocol Bool :=
  .write bucket key ((lock.pending.resolve item.value).map .plain) (.lockedBy lock.owner)

/-- Puts the committed value back and drops the lock of the transaction. -/
def rollBack (bucket key : Bytes) (committed : Option Bytes) (id : String) : Protocol Bool :=
  .write bucket key (committed.map .plain) (.lockedBy id)

/-- Clears the lock on an item, so that a writer can try again. -/
def resolveLock (config : Config) (bucket key : Bytes) (item : Item) : Protocol Unit :=
  match item.lock with
  | none => .done ()
  | some lock => do
    match ← loadRecord lock.recordBucket lock.owner with
    | some (record, bytes) =>
      match record.state with
      | .committed =>
        .log (Log.warn
          s!"Rolling forward {Failure.place bucket key} for committed transaction {lock.owner}")
        discard (rollForward bucket key item lock)
      | .pending =>
        let now ← Protocol.now
        if record.isExpired config.lockTimeout now then
          .log (Log.warn s!"Aborting transaction {lock.owner} that outlived the lock timeout")
          let aborted ← Protocol.transition record .aborted
          if ← .write lock.recordBucket aborted.key (some aborted.item) (.valueEquals bytes) then
            discard (rollBack bucket key item.value lock.owner)
        else .fail (.lockedBy bucket key lock.owner)
      | .aborted | .reclaimed => rollBackNoted lock
    | none => rollBackNoted lock
where
  rollBackNoted (lock : Lock) : Protocol Unit := do
    .log (Log.warn s!"Rolling back {Failure.place bucket key} for aborted transaction {lock.owner}")
    discard (rollBack bucket key item.value lock.owner)

def resolveIfLocked (config : Config) (bucket key : Bytes) : Protocol Unit := do
  match ← .load bucket key with
  | some item => if item.isLocked then resolveLock config bucket key item
  | none => return ()

end BucketStore.Staging
