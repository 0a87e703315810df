/-
  BucketStore/Keyspace/Driver.lean
  ================================
  **The driver on a keyspace, one partition for each bucket.**

  A keyspace holds partitions by name, some of which may have been made by others
  under names that stand for no bucket.  What is in it outlives the driver.  The
  driver notes the handle of every partition that it has met, so that a bucket is
  looked up in the keyspace once; the notes end with the driver.  A call finds out
  whether the driver is open before it checks its names.
-/
import BucketStore.Driver
import BucketStore.Keyspace.Config
import BucketStore.Keyspace.Fault
import BucketStore.Keyspace.Name
import BucketStore.Listing.Keyset
import BucketStore.Transaction.WriteSet

namespace BucketStore.Keyspace

/-- The values of one partition. -/
abbrev Partition := KeyMap Bytes Bytes

structure Store where
  partitions : KeyMap String Partition := {}
  /-- The partitions that were met under their buckets, by name. -/
  handles : KeyMap Bytes String := {}
  closed : Bool := false
deriving DecidableEq, Repr

/-- The keyspace with other values in a partition. -/
def Store.withPartition (s : Store) (name : String) (values : Partition) : Store :=
  { s with partitions := s.partitions.insert name values }

/-- The keyspace with a handle noted. -/
def Store.withHandle (s : Store) (bucket : Bytes) (name : String) : Store :=
  { s with handles := s.handles.insert bucket name }

/-! ### Partitions of buckets -/

def opened : Action Store Unit := do
  if (← .state).closed then .complain "Fjall driver is closed" .closed

def partitionName (bucket : Bytes) : Action Store String :=
  .ofExcept ((encodeName bucket).mapError NameFault.failure)

/-- The handle of an existing bucket's partition: the one that is noted, or one that is noted now. -/
def handle (bucket : Bytes) : Action Store String := do
  match (← .state).handles.get? bucket with
  | some name => return name
  | none =>
    let name ← partitionName bucket
    if !(← .state).partitions.contains name then .fail (.bucketNotFound bucket)
    .change fun s => s.withHandle bucket name
    return name

/-- The partition of an existing bucket. A handle whose partition is gone is of no use to the
    engine, and that is complained about. -/
def partition (bucket : Bytes) : Action Store (String × Partition) := do
  let name ← handle bucket
  match (← .state).partitions.get? name with
  | some values => return (name, values)
  | none =>
    .complain s!"Failed to use partition {name}: PartitionDeleted" (faultFailure "PartitionDeleted")

def partitionOf (bucket key : Bytes) : Action Store (String × Partition) := do
  opened
  .check (checkKey bucket key)
  partition bucket

/-! ### The calls -/

def create (bucket : Bytes) : Action Store Unit := do
  opened
  .check (checkBucket bucket)
  let name ← partitionName bucket
  if (← .state).partitions.contains name then .fail (.bucketExists bucket)
  .change fun s => (s.withPartition name {}).withHandle bucket name
  .note (Log.debug s!"Created bucket {Text.Utf8.lossy bucket} as partition {name}")

def drop (bucket : Bytes) : Action Store Unit := do
  opened
  .check (checkBucket bucket)
  let name ← handle bucket
  .change fun s =>
    { s with handles := s.handles.erase bucket, partitions := s.partitions.erase name }
  .note (Log.debug s!"Deleted bucket {Text.Utf8.lossy bucket}")

def get (bucket key : Bytes) : Action Store Bytes := do
  match (← partitionOf bucket key).2.get? key with
  | some value => return value
  | none => .fail (.keyNotFound bucket key)

def put (bucket key : Bytes) (value : Option Bytes) : Action Store Unit := do
  let (name, values) ← partitionOf bucket key
  .change fun s => s.withPartition name (values.put key value)

def list (config : Config) (bucket : Bytes) : Action Store (List Entry) := do
  opened
  .check (checkBucket bucket)
  let (_, values) ← partition bucket
  Action.namedBucket "list" bucket (.check (Keyset.list bucket values config.pageSize))

/-- Writes `new` if the value is `old`. -/
def compareAndSwap (bucket key : Bytes) (old : Option Bytes) (new : Bytes) : Action Store Swap := do
  let (name, values) ← partitionOf bucket key
  let result := Swap.evaluate (values.get? key) old
  if result.swapped then .change fun s => s.withPartition name (values.insert key new)
  return result

/-- Writes changes as one batch. The partition of each is looked up again. -/
def publish (changes : List Change) : Action Store Unit :=
  Action.atomically do
    changes.forM fun c => do
      let (name, values) ← partition c.bucket
      .change fun s => s.withPartition name (values.put c.key c.value)

/-- Applies a transaction: it is evaluated first, and then written. -/
def update (tx : Transaction) : Action Store TxOutcome := do
  opened
  .check tx.check
  if tx.isEmpty then return []
  let (ws, outcome) ← WriteSet.evaluate (fun b k => return (← partition b).2.get? k) tx
  publish ws.changes
  return outcome

/-- Closes the driver and forgets its handles. The second time it does nothing. -/
def close (config : Config) : Action Store Unit := do
  if (← .state).closed then return
  .change fun s => { s with handles := {}, closed := true }
  .note (Log.debug s!"Closed fjall keyspace at {config.path}")

def persist : Action Store Unit := opened

/-- The buckets of the partitions, from the last name to the first, with a warning for each
    partition whose name stands for none. -/
def bucketNames : Action Store (List Bytes) := do
  opened
  let names ← (← .state).partitions.keys.reverse.mapM fun partition => do
    match decodeName partition with
    | .ok bucket => return some bucket
    | .error fault =>
      .note (Log.warn s!"Skipping partition {partition}: {fault.message}")
      return none
  return names.filterMap id

def driver (config : Config) : Driver Store where
  backend := .fjall
  version _ := "Fjall/2.6.3"
  close := close config
  create := create
  drop := drop
  get := get
  set bucket key value := put bucket key (some value)
  delete bucket key := put bucket key none
  list := list config
  update := update
  compareAndSwap := compareAndSwap

def openKeyspace (config : Config) : Action Store Unit := do
  if config.path.isEmpty then .fail (.stated .configuration "fjall driver needs a directory path")
  .change fun s => { s with handles := {}, closed := false }
  let s ← .state
  .note (Log.debug s!"Opened fjall keyspace at {config.path} with {s.partitions.size} partition(s)")

end BucketStore.Keyspace
