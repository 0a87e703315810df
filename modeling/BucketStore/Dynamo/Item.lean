/-
  BucketStore/Dynamo/Item.lean
  ============================
  **Items as attributes, and conditions on attributes.**

  An item's key is a text; its value, and of a lock the transaction, the bucket of
  its record and the pending write, are attributes of their own, each of which is
  absent where there is nothing to say.  Reading attributes back (`decode`) takes
  nothing for granted.  A precondition becomes a conjunction of tests on single
  attributes.
-/
import BucketStore.KeyMap
import BucketStore.Staging.Item
import BucketStore.Text.Quoted

namespace BucketStore.Dynamo

/-! ### Attributes -/

inductive Attribute where
  | text (s : String)
  | blob (b : Bytes)
  | number (s : String)
  | truth (b : Bool)
  | null
  /-- A set, a list, a map or whatever else no item is written with: the name of its type, and what
      it holds as text. -/
  | other (type content : String)
deriving DecidableEq, Repr

abbrev Attributes := KeyMap String Attribute

def keyName : String := "nkey"
def valueName : String := "nvalue"
/-- The attribute of the transaction that holds the lock. -/
def ownerName : String := "ntx"
/-- The attribute of the bucket that holds that transaction's record. -/
def recordBucketName : String := "nrec"
def pendingName : String := "nop"
/-- The attribute of the value that a pending write puts. -/
def pendingValueName : String := "npending"

/-! ### Names of tables and keys -/

def keyText (bucket key : Bytes) : Except Failure String :=
  match Bytes.text? key with
  | some s => .ok s
  | none => .error (.stated .invalid s!"DynamoDB keys must be UTF-8: {Failure.place bucket key}")

def tableName (bucket : Bytes) : Except Failure String :=
  match Bytes.text? bucket with
  | some s => .ok s
  | none =>
    .error (.stated .invalid s!"DynamoDB table names must be UTF-8: {Text.Utf8.lossy bucket}")

def keyAttributes (key : String) : Attributes := KeyMap.ofList [(keyName, .text key)]

/-! ### Items -/

def lockAttributes (lock : Staging.Lock) : List (String × Attribute) :=
  [(ownerName, .text lock.owner), (recordBucketName, .blob lock.recordBucket),
    (pendingName, .text lock.pending.name)] ++
    match lock.pending with
    | .put value => [(pendingValueName, .blob value)]
    | .delete | .keep => []

def itemAttributes (key : String) (item : Staging.Item) : Attributes :=
  KeyMap.ofList <| [(keyName, .text key)] ++
    (item.value.toList.map fun value => (valueName, Attribute.blob value)) ++
    (item.lock.toList.flatMap lockAttributes)

def encode (bucket key : Bytes) (item : Staging.Item) : Except Failure Attributes :=
  return itemAttributes (← keyText bucket key) item

/-- Why attributes are no item. -/
inductive ItemFault where
  | missing (name : String)
  | wrongType (name expected : String)
  | unknownPending (name : String)
deriving DecidableEq, Repr

def ItemFault.message : ItemFault → String
  | .missing name => s!"item has no {name} attribute"
  | .wrongType name expected => s!"attribute {name} has the wrong type, expected {expected}"
  | .unknownPending name => s!"unknown pending operation {Text.Quoted.encode name}"

def ItemFault.failure (fault : ItemFault) : Failure := .stated .encoding fault.message

def text? (attributes : Attributes) (name : String) : Except ItemFault (Option String) :=
  match attributes.get? name with
  | none => .ok none
  | some (.text s) => .ok (some s)
  | some _ => .error (.wrongType name "S")

def blob? (attributes : Attributes) (name : String) : Except ItemFault (Option Bytes) :=
  match attributes.get? name with
  | none => .ok none
  | some (.blob b) => .ok (some b)
  | some _ => .error (.wrongType name "B")

def present {α : Type} (name : String) : Option α → Except ItemFault α
  | some a => .ok a
  | none => .error (.missing name)

def decodePending (attributes : Attributes) : Except ItemFault Staging.Pending := do
  let name ← present pendingName (← text? attributes pendingName)
  if name = "put" then
    return .put (← present pendingValueName (← blob? attributes pendingValueName))
  else if name = "delete" then return .delete
  else if name = "keep" then return .keep
  else .error (.unknownPending name)

def decodeLock (attributes : Attributes) : Except ItemFault (Option Staging.Lock) := do
  match ← text? attributes ownerName with
  | none => return none
  | some owner =>
    let recordBucket ← present recordBucketName (← blob? attributes recordBucketName)
    return some ⟨owner, recordBucket, ← decodePending attributes⟩

/-- The key and the item that attributes stand for. -/
def decode (attributes : Attributes) : Except ItemFault (Bytes × Staging.Item) := do
  let key ← present keyName (← text? attributes keyName)
  let value ← blob? attributes valueName
  return (Bytes.ofString key, ⟨value, ← decodeLock attributes⟩)

/-! ### Conditions -/

inductive Test where
  | absent (name : String)
  /-- The attribute has the value that is bound to the place. -/
  | equals (name place : String) (value : Attribute)
deriving DecidableEq, Repr

abbrev Condition := List Test

def conditionOf : Staging.Precondition → Condition
  | .none => []
  | .absent => [.absent keyName]
  | .unlocked => [.absent ownerName]
  | .unlockedWith none => [.absent ownerName, .absent valueName]
  | .unlockedWith (some value) => [.absent ownerName, .equals valueName ":expected" (.blob value)]
  | .lockedBy id => [.equals ownerName ":tx" (.text id)]
  | .valueEquals value => [.equals valueName ":expected" (.blob value)]

/-- Does the test hold? A comparison with an absent attribute does not. -/
def Test.holds (attributes : Attributes) : Test → Bool
  | .absent name => (attributes.get? name).isNone
  | .equals name _ value => attributes.get? name == some value

namespace Condition

/-- Does the condition hold of what is stored? Where nothing is, there are no attributes. -/
def holds (condition : Condition) (stored : Option Attributes) : Bool :=
  condition.all (Test.holds (stored.getD {}))

/-- The expression of a condition, unless it asks for nothing. -/
def expression? (condition : Condition) : Option String :=
  if condition.isEmpty then none
  else some (" AND ".intercalate (condition.map fun
    | .absent name => s!"attribute_not_exists({name})"
    | .equals name place _ => s!"{name} = {place}"))

/-- The values bound to places, unless there are none. -/
def values? (condition : Condition) : Option Attributes :=
  let bound := condition.filterMap fun
    | .absent _ => none
    | .equals _ place value => some (place, value)
  if bound.isEmpty then none else some (KeyMap.ofList bound)

end Condition

end BucketStore.Dynamo
