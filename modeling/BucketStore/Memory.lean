/-
  BucketStore/Memory.lean
  =======================
  **The driver that keeps everything in memory: the measure of all others.**

  A store is a map of buckets, each a map of values.  Nothing outlives a close.
  An update is evaluated on a write set first and published when its evaluation
  has answered, so a failed update changes nothing.
-/
import BucketStore.Driver
import BucketStore.Listing.Keyset
import BucketStore.Options
import BucketStore.Transaction.WriteSet

namespace BucketStore.Memory

/-- The settings of the driver. -/
structure Config where
  pageSize : UInt64 := defaultPageSize
deriving DecidableEq, Repr

def Config.ofOptions (o : Options) : Config := ⟨o.pageSize⟩

/-- The settings with another page size; a size of zero is raised to one. -/
def Config.withPageSize (c : Config) (n : UInt64) : Config := { c with pageSize := max n 1 }

abbrev Bucket := KeyMap Bytes Bytes

structure Store where
  buckets : KeyMap Bytes Bucket := {}
  closed : Bool := false
deriving DecidableEq, Repr

def Store.withBucket (s : Store) (name : Bytes) (bucket : Bucket) : Store :=
  { s with buckets := s.buckets.insert name bucket }

/-! ### The calls -/

def opened : Action Store Unit := do
  if (← .state).closed then .complain "In-memory driver is closed" .closed

def bucket (name : Bytes) : Action Store Bucket := do
  match (← .state).buckets.get? name with
  | some bucket => return bucket
  | none => .fail (.bucketNotFound name)

def create (name : Bytes) : Action Store Unit := do
  opened
  .check (checkBucket name)
  if (← .state).buckets.contains name then .fail (.bucketExists name)
  .change fun s => s.withBucket name {}
  .note (Log.debug s!"Created bucket {Text.Utf8.lossy name}")

def drop (name : Bytes) : Action Store Unit := do
  opened
  .check (checkBucket name)
  let _ ← bucket name
  .change fun s => { s with buckets := s.buckets.erase name }
  .note (Log.debug s!"Deleted bucket {Text.Utf8.lossy name}")

def bucketOf (name key : Bytes) : Action Store Bucket := do
  opened
  .check (checkKey name key)
  bucket name

def get (name key : Bytes) : Action Store Bytes := do
  match (← bucketOf name key).get? key with
  | some value => return value
  | none => .fail (.keyNotFound name key)

def put (name key : Bytes) (value : Option Bytes) : Action Store Unit := do
  let values ← bucketOf name key
  .change fun s => s.withBucket name (values.put key value)

def list (config : Config) (name : Bytes) : Action Store (List Entry) := do
  opened
  .check (checkBucket name)
  .check (Keyset.list name (← bucket name) config.pageSize)

/-- Writes `new` if the value is `old`. -/
def compareAndSwap (name key : Bytes) (old : Option Bytes) (new : Bytes) : Action Store Swap := do
  let values ← bucketOf name key
  let result := Swap.evaluate (values.get? key) old
  if result.swapped then .change fun s => s.withBucket name (values.insert key new)
  return result

/-- Carries out changes one by one. Each looks its bucket up again, and what is done is not undone. -/
def publish (changes : List Change) : Action Store Unit :=
  changes.forM fun c => do
    let values ← bucket c.bucket
    .change fun s => s.withBucket c.bucket (values.put c.key c.value)

def update (tx : Transaction) : Action Store TxOutcome := do
  opened
  .check tx.check
  if tx.isEmpty then return []
  let (ws, outcome) ← WriteSet.evaluate (fun b k => return (← bucket b).get? k) tx
  publish ws.changes
  return outcome

/-- Forgets everything. The second time it does nothing. -/
def close : Action Store Unit := do
  if (← .state).closed then return
  .change fun _ => { closed := true }
  .note (Log.debug "Closed in-memory driver")

def bucketNames : Action Store (List Bytes) := do
  opened
  return (← .state).buckets.keys

/-- The driver. Each call but an update names what it was about when it fails. -/
def driver (config : Config) : Driver Store where
  backend := .memory
  version _ := "memory 0.1.0"
  close := close
  create name := (create name).namedBucket "create" name
  drop name := (drop name).namedBucket "delete" name
  get name key := (get name key).named "get" name key
  set name key value := (put name key (some value)).named "set" name key
  delete name key := (put name key none).named "del" name key
  list name := (list config name).namedBucket "list" name
  update := update
  compareAndSwap name key old new := (compareAndSwap name key old new).named "compare_and_swap" name key

def openStore (config : Config) : Action Store Unit := do
  .change fun _ => {}
  .note (Log.debug s!"Opened in-memory driver (page size {config.pageSize})")

end BucketStore.Memory
