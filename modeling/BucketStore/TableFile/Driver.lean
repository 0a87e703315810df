/-
  BucketStore/TableFile/Driver.lean
  =================================
  **The driver on a single file of tables, one for each bucket.**

  A file holds tables by name, some of which may have been made by others, under
  names that stand for no bucket or with values of another type.  One driver at a
  time has a file open; what is in the file outlives the driver.  A call checks
  its names before it finds out whether the driver is open.
-/
import BucketStore.Driver
import BucketStore.Listing.Keyset
import BucketStore.Options
import BucketStore.TableFile.Fault
import BucketStore.TableFile.Name
import BucketStore.Transaction.WriteSet

namespace BucketStore.TableFile

/-! ### Files and settings -/

/-- The settings of the driver. -/
structure Config where
  path : String
  /-- The size of the page cache in bytes, if it is not left to the engine. -/
  cacheSize : Option Nat := none
  pageSize : UInt64 := defaultPageSize
deriving DecidableEq, Repr

/-- The settings with another page size; a size of zero is raised to one. -/
def Config.withPageSize (c : Config) (n : UInt64) : Config := { c with pageSize := max n 1 }

def Config.ofOptions (path : String) (o : Options) : Config :=
  { path, cacheSize := o.cacheSize, pageSize := o.pageSize }

inductive Table where
  | values (values : KeyMap Bytes Bytes)
  /-- A table of another type, given in words. -/
  | other (type : String)
deriving DecidableEq, Repr

structure File where
  tables : KeyMap String Table := {}
  opened : Bool := false
deriving DecidableEq, Repr

def File.withValues (file : File) (name : String) (values : KeyMap Bytes Bytes) : File :=
  { file with tables := file.tables.insert name (.values values) }

/-! ### Tables of buckets -/

def opened : Action File Unit := do
  if !(← .state).opened then .complain "Redb driver is closed" .closed

def tableName (bucket : Bytes) : Action File String :=
  .ofExcept ((encodeName bucket).mapError NameFault.failure)

/-- The values of an existing bucket, to be written. -/
def openExisting (bucket : Bytes) : Action File (String × KeyMap Bytes Bytes) := do
  let name ← tableName bucket
  match (← .state).tables.get? name with
  | none => .fail (.bucketNotFound bucket)
  | some (.other type) => .fail (.duringBucket "open" bucket (Fault.otherType name type).failure)
  | some (.values values) => return (name, values)

/-- The values of an existing bucket, only to be read. -/
def openRead (bucket : Bytes) : Action File (KeyMap Bytes Bytes) := do
  let name ← tableName bucket
  match (← .state).tables.get? name with
  | none => .fail (.bucketNotFound bucket)
  | some (.other type) =>
    let fault := Fault.otherType name type
    .complain s!"Failed to open table {name}: {fault.text}" (.duringBucket "open" bucket fault.failure)
  | some (.values values) => return values

/-! ### The calls -/

def create (bucket : Bytes) : Action File Unit := do
  .check (checkBucket bucket)
  let name ← tableName bucket
  opened
  if (← .state).tables.contains name then .fail (.bucketExists bucket)
  .change fun file => file.withValues name {}
  .note (Log.debug s!"Created bucket {Text.Utf8.lossy bucket} as table {name}")

/-- Deletes a bucket, whatever the type of its table. -/
def drop (bucket : Bytes) : Action File Unit := do
  .check (checkBucket bucket)
  let name ← tableName bucket
  opened
  if !(← .state).tables.contains name then .fail (.bucketNotFound bucket)
  .change fun file => { file with tables := file.tables.erase name }
  .note (Log.debug s!"Deleted bucket {Text.Utf8.lossy bucket}")

def get (bucket key : Bytes) : Action File Bytes := do
  .check (checkKey bucket key)
  opened
  match (← openRead bucket).get? key with
  | some value => return value
  | none => .fail (.keyNotFound bucket key)

def put (bucket key : Bytes) (value : Option Bytes) : Action File Unit := do
  .check (checkKey bucket key)
  opened
  let (name, values) ← openExisting bucket
  .change fun file => file.withValues name (values.put key value)

def list (config : Config) (bucket : Bytes) : Action File (List Entry) := do
  .check (checkBucket bucket)
  Action.namedBucket "list" bucket do
    opened
    .check (Keyset.list bucket (← openRead bucket) config.pageSize)

/-- Writes `new` if the value is `old`. -/
def compareAndSwap (bucket key : Bytes) (old : Option Bytes) (new : Bytes) : Action File Swap := do
  .check (checkKey bucket key)
  opened
  let (name, values) ← openExisting bucket
  let result := Swap.evaluate (values.get? key) old
  if result.swapped then .change fun file => file.withValues name (values.insert key new)
  return result

/-- Writes changes one by one. The table of each is opened again. -/
def publish (changes : List Change) : Action File Unit :=
  changes.forM fun c => do
    let (name, values) ← openExisting c.bucket
    .change fun file => file.withValues name (values.put c.key c.value)

/-- Applies a transaction; a failure leaves the file as it was. -/
def update (tx : Transaction) : Action File TxOutcome := do
  .check tx.check
  opened
  if tx.isEmpty then return []
  Action.atomically do
    let (ws, outcome) ← WriteSet.evaluate (fun b k => return (← openExisting b).2.get? k) tx
    publish ws.changes
    return outcome

/-- Gives the file back. The second time it does nothing. -/
def close (config : Config) : Action File Unit := do
  if (← .state).opened then
    .change fun file => { file with opened := false }
    .note (Log.debug s!"Closed redb database at {config.path}")

/-- The buckets of the tables, with a warning for each table whose name stands for none. -/
def bucketNames : Action File (List Bytes) := do
  opened
  let names ← (← .state).tables.keys.mapM fun table => do
    match decodeName table with
    | .ok bucket => return some bucket
    | .error fault =>
      .note (Log.warn s!"Skipping table {table}: {fault.message}")
      return none
  return names.filterMap id

def driver (config : Config) : Driver File where
  backend := .redb
  version _ := "redb/3.1"
  close := close config
  create := create
  drop := drop
  get := get
  set bucket key value := put bucket key (some value)
  delete bucket key := put bucket key none
  list := list config
  update := update
  compareAndSwap := compareAndSwap

/-- Opens the file, which no other driver may have open. -/
def openFile (config : Config) : Action File Unit := do
  if config.path.isEmpty then .fail (.stated .configuration "redb driver needs a file path")
  let file ← .state
  if file.opened then
    let fault := Fault.alreadyOpen
    .complain s!"Failed to open redb database at {config.path}: {fault.text}" fault.failure
  .become { file with opened := true }
  .note (Log.debug s!"Opened redb database at {config.path} with {file.tables.size} table(s)")

end BucketStore.TableFile
