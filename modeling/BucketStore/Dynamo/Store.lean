/-
  BucketStore/Dynamo/Store.lean
  =============================
  **An item store over the service, one table for each bucket, and its driver.**

  Items are written whole and under conditions that the service decides, so the
  store offers what staging asks for.  The driver is the staging engine over this
  store.
-/
import BucketStore.Dynamo.Service
import BucketStore.Staging.Engine

namespace BucketStore.Dynamo

/-- The state of a client of a service in state `σ`, and how often it read the clock and drew
    identifiers. -/
structure Client (σ : Type) where
  service : σ
  closed : Bool := false
  readings : Nat := 0
  drawn : Nat := 0

inductive Lifecycle where
  | absent
  | creating
  | active
  | updating
  | deleting
  /-- A status without a name of its own here. -/
  | other (status : String)
deriving DecidableEq, Repr

namespace Lifecycle

def isActive : Lifecycle → Bool
  | active | updating => true
  | _ => false

/-- The state of a table that tells a status, if it tells one. -/
def ofStatus : Option String → Lifecycle
  | none => other "UNKNOWN"
  | some status =>
    if status = "ACTIVE" then active
    else if status = "CREATING" then creating
    else if status = "UPDATING" then updating
    else if status = "DELETING" then deleting
    else other status

def detail : Lifecycle → String
  | absent => "Absent"
  | creating => "Creating"
  | active => "Active"
  | updating => "Updating"
  | deleting => "Deleting"
  | other status => s!"Other({Text.Quoted.encode status})"

end Lifecycle

section Client

variable {σ : Type} (service : Service σ)

def tryRequest (r : Request) : Action (Client σ) (Except Fault r.Answer) := fun c =>
  let (answer, state) := service.respond r c.service
  ⟨.ok answer, { c with service := state }, []⟩

def request (bucket : Bytes) (r : Request) : Action (Client σ) r.Answer := do
  match ← tryRequest service r with
  | .ok answer => return answer
  | .error fault => .fail (fault.bucketFailure bucket)

/-- The table of a bucket, of a client that is open. -/
def openTable (bucket : Bytes) : Action (Client σ) String := do
  if (← .state).closed then .fail .closed
  .ofExcept (tableName bucket)

def createBucket (config : Config) (bucket : Bytes) : Action (Client σ) Unit := do
  let table ← openTable bucket
  match ← tryRequest service (.createTable table config.billing) with
  | .ok () => return
  | .error fault =>
    if fault.code? = some inUse then .fail (.bucketExists bucket) else .fail fault.failure

def deleteBucket (bucket : Bytes) : Action (Client σ) Unit := do
  let table ← openTable bucket
  request service bucket (.deleteTable table)

def load (config : Config) (bucket key : Bytes) : Action (Client σ) (Option Staging.Item) := do
  let table ← openTable bucket
  let text ← .ofExcept (keyText bucket key)
  let found : Option Attributes ← request service bucket (.getItem table text config.consistentRead)
  match found with
  | none => return none
  | some attributes =>
    let (_, item) ← .ofExcept ((decode attributes).mapError ItemFault.failure)
    return some item

/-- The request that writes or removes an item under a condition. -/
def writeRequest (table : String) (bucket key : Bytes) (item : Option Staging.Item)
    (condition : Staging.Precondition) : Except Failure Request :=
  match item with
  | some item => return .putItem table (← encode bucket key item) (conditionOf condition)
  | none => return .deleteItem table (← keyText bucket key) (conditionOf condition)

def write (bucket key : Bytes) (item : Option Staging.Item) (condition : Staging.Precondition) :
    Action (Client σ) Bool := do
  let table ← openTable bucket
  let r ← .ofExcept (writeRequest table bucket key item condition)
  match ← tryRequest service r with
  | .ok _ => return true
  | .error fault =>
    if fault.isConditionFailure then return false else .fail (fault.bucketFailure bucket)

/-- The number of items that a scan asks for: a positive number of 31 bits. -/
def scanLimit (limit : UInt64) : Nat := min (max limit 1).toNat Int32.maxValue.toInt.toNat

/-- The token behind the last item that a scan looked at. -/
def tokenOf : Option Attributes → Except Failure (Option Token)
  | none => .ok none
  | some attributes =>
    match attributes.get? keyName with
    | some (.text last) => .ok (some (Bytes.ofString last))
    | some _ => .error (.stated .encoding "LastEvaluatedKey has a non-string nkey")
    | none => .ok none

def scan (config : Config) (bucket : Bytes) (token : Option Token) (limit : UInt64) :
    Action (Client σ) (Page (Bytes × Staging.Item)) := do
  let table ← openTable bucket
  let start ← match token with
    | some token => some <$> Action.ofExcept (keyText bucket token)
    | none => pure none
  let (found, last) : List Attributes × Option Attributes ←
    request service bucket (.scan table (scanLimit limit) config.consistentRead start)
  let items ← .ofExcept (found.mapM fun attributes => (decode attributes).mapError ItemFault.failure)
  return ⟨items, ← .ofExcept (tokenOf last)⟩

def tableStatus (bucket : Bytes) : Action (Client σ) Lifecycle := do
  .check (checkBucket bucket)
  let table ← openTable bucket
  match ← tryRequest service (.describeTable table) with
  | .ok status => return .ofStatus status
  | .error fault => if fault.code? = some notFound then return .absent else .fail fault.failure

/-- Replies to a call with what an action answers. -/
def replying {α : Type} (act : Action (Client σ) α) (c : Client σ) :
    Step (Client σ) (Except Failure α) := act c

def respond (around : Staging.Surroundings) (config : Config) :
    Responder Staging.Call Staging.Call.Reply (Client σ)
  | .load bucket key, c => replying (load service config bucket key) c
  | .write bucket key item condition, c => replying (write service bucket key item condition) c
  | .scan bucket token limit, c => replying (scan service config bucket token limit) c
  | .now, c => ⟨around.clock c.readings, { c with readings := c.readings + 1 }, []⟩
  | .freshId, c => ⟨around.ids c.drawn, { c with drawn := c.drawn + 1 }, []⟩

def itemStore (around : Staging.Surroundings) (config : Config) : Staging.ItemStore (Client σ) where
  backend := .dynamodb
  version := s!"DynamoDB {config.region} (aws-sdk-dynamodb)"
  respond := respond service around config
  createBucket := createBucket service config
  deleteBucket := deleteBucket service
  close := .change fun c => { c with closed := true }
  pageBound c bucket :=
    match tableName bucket with
    | .ok table => service.pageBound c.service table
    | .error _ => 1

/-! ### The driver -/

def openClient (config : Config) : Action (Client σ) Unit := do
  match ← tryRequest service (.listTables 1) with
  | .ok () => .note (Log.debug s!"Opened DynamoDB driver in {config.region}")
  | .error fault =>
    let f := fault.failure
    .complain s!"Failed to reach DynamoDB in {config.region}: {f.message}" f

def driver (around : Staging.Surroundings) (config : Config) : Driver (Client σ) :=
  Staging.Engine.driver (itemStore service around config) config.staging

/-- Recovers the transactions whose records are in a bucket, with a warning if there were any. -/
def recover (around : Staging.Surroundings) (config : Config) (bucket : Bytes) :
    Action (Client σ) Staging.RecoveryReport := do
  let report ← Staging.Engine.recoverOn (itemStore service around config) config.staging bucket
  if 0 < report.rolledForward + report.rolledBack then
    .note (Log.warn s!"Recovered {report.rolledForward} committed and {report.rolledBack} abandoned transaction(s)")
  return report

end Client

end BucketStore.Dynamo
