/-
  BucketStore/Staging/Engine.lean
  ===============================
  **The staging engine: the driver contract over single-item conditional writes.**

  Each call checks its names, runs its protocol, logs failures that are no expected
  outcome, and names the action that a failure interrupted.  `Engine.driver` puts
  the calls on any item store.
-/
import BucketStore.Driver
import BucketStore.Staging.BucketListing
import BucketStore.Staging.Recovery
import BucketStore.Staging.SingleKey

namespace BucketStore.Staging

namespace Engine

/-! ### The calls as protocols -/

def checkName (bucket key : Bytes) : Protocol Unit := do
  .check (checkKey bucket key)
  .check (checkUserKey bucket key)

/-- Runs an action on a key, with its failures logged and named. -/
def onKey {α : Type} (action : String) (bucket key : Bytes) (p : Protocol α) : Protocol α := do
  checkName bucket key
  (p.noteFailure (unlessMissing fun f => s!"Failed to {action} {Failure.place bucket key}: {f.message}")).mapFailure
    (.during action bucket key)

def get (bucket key : Bytes) : Protocol Bytes := onKey "get" bucket key (readKey bucket key)

def set (config : Config) (bucket key value : Bytes) : Protocol Unit :=
  onKey "set" bucket key (writeKey config bucket key (some value))

def delete (config : Config) (bucket key : Bytes) : Protocol Unit :=
  onKey "delete" bucket key (writeKey config bucket key none)

/-- Writes `new` if the value is `old`. -/
def compareAndSwap (config : Config) (bucket key : Bytes) (old : Option Bytes) (new : Bytes) :
    Protocol Swap :=
  onKey "compare-and-swap" bucket key (swapKey config bucket key old new)

def list (config : Config) (limit : Nat) (bucket : Bytes) : Protocol (List Entry) := do
  .check (checkBucket bucket)
  ((listBucket config limit bucket).noteFailure
    (unlessMissing fun f => s!"Failed to list {Text.Utf8.lossy bucket}: {f.message}")).mapFailure
    (.duringBucket "list" bucket)

/-- The failure of an update where updates are not offered. -/
def noUpdates (backend : Backend) : Failure :=
  .stated .notImplemented
    s!"{backend.name} has no multi-key transactions and emulation is disabled"

def update (config : Config) (backend : Backend) (tx : Transaction) : Protocol TxOutcome :=
  if config.emulatedTransactions then do
    .check tx.check
    .check (List.forM tx fun op => checkUserKey op.bucket op.key)
    (updateKeys config tx).noteFailure
      (unlessMissing fun f => s!"Staged update of {tx.length} operations failed: {f.message}")
  else .fail (noUpdates backend)

/-- Recovers the transactions whose records are in a bucket. -/
def recover (config : Config) (limit : Nat) (bucket : Bytes) : Protocol RecoveryReport := do
  .check (checkBucket bucket)
  (recoverBucket config limit bucket).mapFailure (.duringBucket "recover" bucket)

/-! ### The calls on an item store -/

variable {σ : Type}

/-- Runs a protocol that scans a bucket, with the bound on pages that the store gives. -/
def scanning {α : Type} (store : ItemStore σ) (bucket : Bytes) (p : Nat → Protocol α) : Action σ α :=
  fun s => (p (store.pageBound s bucket)).run store.respond s

/-- Recovers the transactions whose records are in a bucket of the store. -/
def recoverOn (store : ItemStore σ) (config : Config) (bucket : Bytes) : Action σ RecoveryReport :=
  scanning store bucket fun limit => recover config limit bucket

def driver (store : ItemStore σ) (config : Config) : Driver σ where
  backend := store.backend
  version _ := s!"{store.version} (staged transactions)"
  close := do
    store.close
    .note (Log.debug s!"Closed staging engine over {store.version}")
  create bucket := do
    .check (checkBucket bucket)
    store.createBucket bucket
    .note (Log.debug s!"Created bucket {Text.Utf8.lossy bucket}")
  drop bucket := do
    .check (checkBucket bucket)
    store.deleteBucket bucket
    .note (Log.debug s!"Deleted bucket {Text.Utf8.lossy bucket}")
  get bucket key := (get bucket key).run store.respond
  set bucket key value := (set config bucket key value).run store.respond
  delete bucket key := (delete config bucket key).run store.respond
  list bucket := scanning store bucket fun limit => list config limit bucket
  update tx := (update config store.backend tx).run store.respond
  compareAndSwap bucket key old new := (compareAndSwap config bucket key old new).run store.respond

end Engine

end BucketStore.Staging
