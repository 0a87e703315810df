/-
  BucketStore/Staging/MemoryItems.lean
  ====================================
  **An item store in memory, whose writes can be made to fail.**

  Each bucket is a map of items.  A conditional write is decided and applied in one
  step.  A `FaultPlan` lets a number of writes through and then refuses one write,
  or every write from then on, before it takes effect.
-/
import BucketStore.KeyMap
import BucketStore.Staging.Protocol

namespace BucketStore.Staging

/-! ### Faults on purpose -/

structure FaultPlan where
  /-- So many writes are still let through. -/
  remaining : Nat
  /-- Does every later write fail, or only the next? -/
  persistent : Bool
deriving DecidableEq, Repr

/-- Does the plan strike the next write, and what remains of it? -/
def FaultPlan.strike : Option FaultPlan → Bool × Option FaultPlan
  | none => (false, none)
  | some ⟨n + 1, persistent⟩ => (false, some ⟨n, persistent⟩)
  | some ⟨0, true⟩ => (true, some ⟨0, true⟩)
  | some ⟨0, false⟩ => (true, none)

/-! ### The store -/

abbrev ItemBuckets := KeyMap Bytes (KeyMap Bytes Item)

/-- An item store in memory, and how often the clock was read and identifiers were drawn. -/
structure MemoryItems where
  buckets : ItemBuckets := {}
  fault : Option FaultPlan := none
  closed : Bool := false
  readings : Nat := 0
  drawn : Nat := 0
deriving DecidableEq, Repr

namespace MemoryItems

def items (s : MemoryItems) (bucket : Bytes) : Except Failure (KeyMap Bytes Item) :=
  if s.closed then .error .closed
  else match s.buckets.get? bucket with
    | some items => .ok items
    | none => .error (.bucketNotFound bucket)

/-- The item stored under a key, whether or not the store is open. -/
def raw (s : MemoryItems) (bucket key : Bytes) : Option Item :=
  (s.buckets.get? bucket).bind (·.get? key)

/-- The bindings of a bucket in key order, whether or not the store is open. -/
def rawItems (s : MemoryItems) (bucket : Bytes) : List (Bytes × Item) :=
  ((s.buckets.get? bucket).map KeyMap.entries).getD []

def withItems (s : MemoryItems) (bucket : Bytes) (items : KeyMap Bytes Item) : MemoryItems :=
  { s with buckets := s.buckets.insert bucket items }

def load (bucket key : Bytes) (s : MemoryItems) : Except Failure (Option Item) := do
  return (← s.items bucket).get? key

/-- Writes or removes an item, if no fault strikes and the condition holds. -/
def write (bucket key : Bytes) (item : Option Item) (condition : Precondition) (s : MemoryItems) :
    Step MemoryItems (Except Failure Bool) :=
  match s.items bucket with
  | .error f => ⟨.error f, s, []⟩
  | .ok items =>
    let (struck, fault) := FaultPlan.strike s.fault
    let s := { s with fault }
    if struck then
      let f := Failure.injectedFault bucket key
      ⟨.error f, s, f.notice⟩
    else if condition.holds (items.get? key) then ⟨.ok true, s.withItems bucket (items.put key item), []⟩
    else ⟨.ok false, s, []⟩

/-- Cuts a page from bindings: `limit` of them, with the last key as the token if one more was seen. -/
def page (limit : UInt64) (entries : List (Bytes × Item)) : Except Failure (Page (Bytes × Item)) := do
  let seen := entries.take (← lookAhead limit)
  let limit := (max limit 1).toNat
  if limit < seen.length then
    let kept := seen.take limit
    return ⟨kept, kept.getLast?.map (·.1)⟩
  else return ⟨seen, none⟩

def scan (bucket : Bytes) (token : Option Token) (limit : UInt64) (s : MemoryItems) :
    Except Failure (Page (Bytes × Item)) := do
  page limit ((← s.items bucket).after token)

def createBucket (bucket : Bytes) : Action MemoryItems Unit := fun s =>
  if s.closed then ⟨.error .closed, s, []⟩
  else if s.buckets.contains bucket then ⟨.error (.bucketExists bucket), s, []⟩
  else ⟨.ok (), s.withItems bucket {}, []⟩

def deleteBucket (bucket : Bytes) : Action MemoryItems Unit := fun s =>
  if s.closed then ⟨.error .closed, s, []⟩
  else if s.buckets.contains bucket then ⟨.ok (), { s with buckets := s.buckets.erase bucket }, []⟩
  else ⟨.error (.bucketNotFound bucket), s, []⟩

def close : Action MemoryItems Unit := fun s => ⟨.ok (), { s with closed := true }, []⟩

/-- Lets `n` more writes through and refuses the next one. -/
def failWriteAfter (n : Nat) (s : MemoryItems) : MemoryItems := { s with fault := some ⟨n, false⟩ }

/-- Lets `n` more writes through and refuses all that follow. -/
def crashAfterWrites (n : Nat) (s : MemoryItems) : MemoryItems := { s with fault := some ⟨n, true⟩ }

def heal (s : MemoryItems) : MemoryItems := { s with fault := none }

def respond (around : Surroundings) : Responder Call Call.Reply MemoryItems
  | .load bucket key, s => ⟨s.load bucket key, s, []⟩
  | .write bucket key item condition, s => s.write bucket key item condition
  | .scan bucket token limit, s => ⟨s.scan bucket token limit, s, []⟩
  | .now, s => ⟨around.clock s.readings, { s with readings := s.readings + 1 }, []⟩
  | .freshId, s => ⟨around.ids s.drawn, { s with drawn := s.drawn + 1 }, []⟩

/-- The version of the library's stores in memory. -/
def version : String := "memory item store 0.1.0"

/-- The store for staging. A scan has no more pages than items, and one. -/
def itemStore (around : Surroundings) : ItemStore MemoryItems where
  backend := .memory
  version := version
  respond := respond around
  createBucket := createBucket
  deleteBucket := deleteBucket
  close := close
  pageBound s bucket := (s.rawItems bucket).length + 1

end MemoryItems

end BucketStore.Staging
