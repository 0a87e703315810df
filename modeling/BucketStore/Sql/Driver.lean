/-
  BucketStore/Sql/Driver.lean
  ===========================
  **The driver on a SQL server, one table for each bucket.**

  A listing reads its pages in one repeatable-read transaction.  A
  compare-and-swap with a value for the old one locks the row; one that expects
  the key to be absent inserts it and lets the server refuse a duplicate.  An
  update locks every touched key in order, evaluates the operations, writes the
  net changes and commits; when the server aborts it for a conflict it starts
  over, four times at most.
-/
import BucketStore.Driver
import BucketStore.Listing.Keyset
import BucketStore.Sql.Client
import BucketStore.Sql.Config
import BucketStore.Transaction.WriteSet

namespace BucketStore.Sql

open Protocol

/-! ### Reading answers -/

def column (d : Dialect) (index : Nat) (row : Row) : Except Failure Bytes :=
  match row[index]? with
  | some (some value) => .ok value
  | some none => .error ((Fault.absentColumn index).failure d)
  | none => .error ((Fault.columnIndexOutOfBounds index row.length).failure d)

/-- The value of the row that was read, if there was one. -/
def readValue (d : Dialect) : List Row → Except Failure (Option Bytes)
  | [] => .ok none
  | row :: _ => return some (← column d 0 row)

def readPair (d : Dialect) (row : Row) : Except Failure (Bytes × Bytes) :=
  return (← column d 0 row, ← column d 1 row)

/-! ### The calls as programs -/

def tableOf (d : Dialect) (bucket : Bytes) : Protocol Table :=
  .ofExcept ((d.table bucket).mapError NameFault.failure)

/-- Names the key of an interrupted action, with a line in the log. -/
def naming {α : Type} (action : String) (bucket key : Bytes) (p : Protocol α) : Protocol α :=
  (p.noteFailure (unlessMissing fun f =>
    s!"Failed to {action} {Failure.place bucket key}: {f.message}")).mapFailure
    (.during action bucket key)

def create (d : Dialect) (bucket : Bytes) : Protocol Unit := do
  .check (checkBucket bucket)
  let table ← tableOf d bucket
  match ← tryExecute (.on table .create) with
  | .ok _ => .log (Log.debug s!"Created bucket {Text.Utf8.lossy bucket}")
  | .error fault =>
    match fault.codeClass d with
    | .tableExists | .duplicateKey => .fail (.bucketExists bucket)
    | _ =>
      .log (Log.error s!"Failed to create bucket {Text.Utf8.lossy bucket}: {fault.text}")
      .fail (.duringBucket "create" bucket (fault.failure d))

def drop (d : Dialect) (bucket : Bytes) : Protocol Unit := do
  .check (checkBucket bucket)
  let table ← tableOf d bucket
  (perform (·.bucketFailure d bucket) (.on table .drop)).noteFailure
    (unlessMissing fun f => s!"Failed to delete bucket {Text.Utf8.lossy bucket}: {f.message}")
  .log (Log.debug s!"Deleted bucket {Text.Utf8.lossy bucket}")

/-- Runs one statement about a key, outside a transaction. -/
def onKey (d : Dialect) (action : String) (bucket key : Bytes) (s : TableStatement) :
    Protocol (List Row) := do
  .check (checkKey bucket key)
  let table ← tableOf d bucket
  naming action bucket key (execute (·.bucketFailure d bucket) (.on table s))

def get (d : Dialect) (bucket key : Bytes) : Protocol Bytes := do
  let rows ← onKey d "get" bucket key (.select false key)
  match ← .ofExcept (readValue d rows) with
  | some value => return value
  | none => .fail (.keyNotFound bucket key)

def set (d : Dialect) (bucket key value : Bytes) : Protocol Unit := do
  let _ ← onKey d "set" bucket key (.upsert key value)

def delete (d : Dialect) (bucket key : Bytes) : Protocol Unit := do
  let _ ← onKey d "delete" bucket key (.delete key)

def beginIsolated (d : Dialect) (level : Isolation) : Protocol Unit :=
  let failure : Fault → Failure := (·.failure d)
  if d.isolatesFirst then do
    perform failure (.isolate level)
    perform failure .beginTransaction
  else do
    perform failure .beginTransaction
    perform failure (.isolate level)

def commit (d : Dialect) : Protocol Unit := perform (·.failure d) .commit

/-- How many rows are asked for to fill a page, as far as a signed number counts. -/
def pageLimit (size : UInt64) : Except Failure Nat := do
  return min (← lookAhead size) Int64.maxValue.toInt.toNat

def fetchPage (d : Dialect) (bucket : Bytes) (table : Table) (size : UInt64) (token : Option Token) :
    Protocol (Page (Bytes × Bytes)) := do
  let limit ← .ofExcept (pageLimit size)
  let s := match token with
    | none => TableStatement.firstPage limit
    | some after => .nextPage after limit
  let rows ← execute (·.bucketFailure d bucket) (.on table s)
  .ofExcept (Keyset.page size (rows.map (readPair d)))

/-- Lists a bucket, at most `limit` pages of it. -/
def list (d : Dialect) (size : UInt64) (limit : String → Nat) (bucket : Bytes) :
    Protocol (List Entry) := do
  .check (checkBucket bucket)
  let table ← tableOf d bucket
  let listed : Protocol (List Entry) := transaction do
    beginIsolated d .repeatableRead
    let entries ← listAll (fun () token => return (← fetchPage d bucket table size token, ()))
      (fun pair => .ok (some (Keyset.entry bucket pair))) (limit table.name) ()
    commit d
    return entries
  (listed.noteFailure
    (unlessMissing fun f => s!"Failed to list {Text.Utf8.lossy bucket}: {f.message}")).mapFailure
    (.duringBucket "list" bucket)

/-- Writes a value under a key that is expected to be absent. -/
def claimKey (d : Dialect) (bucket : Bytes) (table : Table) (key new : Bytes) : Protocol Swap := do
  perform (·.failure d) .beginTransaction
  match ← tryExecute (.on table (.insert key new)) with
  | .ok _ =>
    commit d
    return .took none
  | .error fault =>
    if fault.codeClass d = .duplicateKey then
      perform (·.failure d) .rollback
      let rows ← execute (·.bucketFailure d bucket) (.on table (.select false key))
      return .mismatch (← .ofExcept (readValue d rows))
    else .fail (fault.bucketFailure d bucket)

def replaceValue (d : Dialect) (bucket : Bytes) (table : Table) (key old new : Bytes) :
    Protocol Swap := do
  perform (·.failure d) .beginTransaction
  let rows ← execute (·.bucketFailure d bucket) (.on table (.select true key))
  let result := Swap.evaluate (← .ofExcept (readValue d rows)) (some old)
  if result.swapped then perform (·.failure d) (.on table (.updateValue key new))
  commit d
  return result

/-- Writes `new` if the value is `old`. -/
def compareAndSwap (d : Dialect) (bucket key : Bytes) (old : Option Bytes) (new : Bytes) :
    Protocol Swap := do
  .check (checkKey bucket key)
  let table ← tableOf d bucket
  naming "compare-and-swap" bucket key <| transaction <|
    match old with
    | none => claimKey d bucket table key new
    | some old => replaceValue d bucket table key old new

/-! ### Updates -/

/-- The order in which keys are locked: by bucket, then by key. -/
def lockBefore (a b : Bytes × Bytes) : Bool :=
  match compare a.1 b.1 with
  | .lt => true
  | .eq => compare a.2 b.2 != .gt
  | .gt => false

def lockKey (d : Dialect) (ws : WriteSet) (place : Bytes × Bytes) : Protocol WriteSet := do
  let (bucket, key) := place
  let table ← tableOf d bucket
  let locked : Protocol (List Row) := execute (·.bucketFailure d bucket) (.on table (.select true key))
  let rows ← locked.mapFailure (.during "lock" bucket key)
  return ws.load bucket key (← .ofExcept (readValue d rows))

def writeChange (d : Dialect) (c : Change) : Protocol Unit := do
  let table ← tableOf d c.bucket
  let s := match c.value with
    | some value => TableStatement.upsert c.key value
    | none => .delete c.key
  let written : Protocol Unit := perform (·.bucketFailure d c.bucket) (.on table s)
  written.mapFailure (.during "write" c.bucket c.key)

def tryUpdate (d : Dialect) (tx : Transaction) : Protocol TxOutcome := transaction do
  beginIsolated d d.updateIsolation
  let ws ← (tx.touched.mergeSort lockBefore).foldlM (lockKey d) {}
  match ws.execute tx with
  | (.error f, _) => .fail f
  | (.ok outcome, ws) =>
    ws.changes.forM (writeChange d)
    commit d
    return outcome

def maxAttempts : Nat := 5

/-- Tries an update, and again after a conflict as long as attempts remain. -/
def tryRepeatedly (d : Dialect) (tx : Transaction) (attempt : Nat) : Nat → Protocol TxOutcome
  | 0 => tryUpdate d tx
  | remaining + 1 => do
    match ← (tryUpdate d tx).attempt with
    | .ok outcome => return outcome
    | .error f =>
      if f.kind = .conflict then
        .log (Log.debug s!"Retrying update after attempt {attempt}: {f.message}")
        tryRepeatedly d tx (attempt + 1) remaining
      else .fail f

def update (d : Dialect) (tx : Transaction) : Protocol TxOutcome := do
  .check tx.check
  if tx.isEmpty then return []
  (tryRepeatedly d tx 1 (maxAttempts - 1)).noteFailure
    (unlessMissing fun f => s!"Update of {tx.length} operation(s) failed: {f.message}")

/-! ### The driver on a client -/

/-- Connects, finds out whether the server answers, and asks for its version. Whether the URL can be
    read as one is for the client's library to say. -/
def connect (readUrl : String → Except Fault Unit) (d : Dialect) (config : Config) :
    Protocol String := do
  if let .error fault := readUrl config.url then .fail (fault.failure d)
  if let .error fault := ← tryConnect then
    .log (Log.error s!"Failed to connect to {config.redactedUrl}: {fault.text}")
    .fail (fault.failure d)
  if let .error fault := ← tryExecute .ping then
    .log (Log.error s!"{d.name} at {config.redactedUrl} is not answering: {fault.text}")
    .fail (fault.failure d)
  let version ← match ← tryExecute .version with
    | .ok ((some version :: _) :: _) => pure (Text.Utf8.lossy version)
    | .ok rows =>
      let fault := if rows.isEmpty then Fault.rowNotFound else .absentColumn 0
      unknownVersion fault
    | .error fault => unknownVersion fault
  .log (Log.debug
    s!"Opened {d.name} {version} at {config.redactedUrl} with up to {config.maxConnections} connection(s)")
  return version
where
  /-- The version of a server that does not tell it. -/
  unknownVersion (fault : Fault) : Protocol String := do
    .log (Log.warn s!"Failed to read {d.name} server version: {fault.text}")
    return "unknown"

variable {σ : Type}

def openClient (readUrl : String → Except Fault Unit) (service : Service σ) (d : Dialect)
    (config : Config) : Action (Client σ) Unit := do
  let version ← (connect readUrl d config).run (Client.respond service d)
  .change fun c => { c with version }

def Dialect.backend : Dialect → Backend
  | .postgres => .postgres
  | .mysql => .mysql

def driver (service : Service σ) (d : Dialect) (config : Config) : Driver (Client σ) where
  backend := d.backend
  version c := s!"{d.name} {c.version}"
  close := do
    if !(← .state).closed then
      .change fun c => { c with closed := true }
      .note (Log.debug s!"Closed {d.name} pool for {config.redactedUrl}")
  create bucket := (create d bucket).run (Client.respond service d)
  drop bucket := (drop d bucket).run (Client.respond service d)
  get bucket key := (get d bucket key).run (Client.respond service d)
  set bucket key value := (set d bucket key value).run (Client.respond service d)
  delete bucket key := (delete d bucket key).run (Client.respond service d)
  list bucket := fun c =>
    (list d config.pageSize (service.pageBound c.server) bucket).run (Client.respond service d) c
  update tx := (update d tx).run (Client.respond service d)
  compareAndSwap bucket key old new :=
    (compareAndSwap d bucket key old new).run (Client.respond service d)

end BucketStore.Sql
