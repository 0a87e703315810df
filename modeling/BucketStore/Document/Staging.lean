/-
  BucketStore/Document/Staging.lean
  =================================
  **The document forms of items, locks, records and scripts.**

  What is stored under a reserved key is a transaction's record, so where an item
  is reported for people (`Item.explained`) its value is told by what the record
  says.
-/
import BucketStore.Document.Values
import BucketStore.Staging.Recovery
import BucketStore.Staging.Script

namespace BucketStore.Staging

/-! ### Records -/

def Record.fields (r : Record) : List (String × Document) :=
  [("id", r.id), ("state", r.state), ("keys", r.keys)]

instance : ToDocument Record :=
  ⟨fun r => (Document.fields r.fields).extend [("created_at", .decimal r.createdAt.toInt)]⟩

instance : OfDocument Record where
  ofDocument d := return {
    id := ← d.get "id"
    state := ← d.getD "state" .pending
    keys := ← d.getD "keys" []
    createdAt := ← d.get "created_at" }

def Record.explained (b : Bytes) : Document :=
  match Record.decode b with
  | .ok r => .fields [("record", .fields r.fields)]
  | .error _ => .fields [("bad_record", .hex b)]

/-- A value by what it says, if it is stored under a reserved key. -/
def explained (key value : Bytes) : Document :=
  if isReservedKey key then Record.explained value else value

/-! ### Items and conditions -/

instance : ToDocument Pending where
  toDocument
    | .put value => .fields [("put", value)]
    | .delete => "delete"
    | .keep => "keep"

instance : OfDocument Pending where
  ofDocument
    | .text "delete" => .ok .delete
    | .text "keep" => .ok .keep
    | d => return .put (← d.get "put")

instance : ToDocument Lock where
  toDocument l := .fields [
    ("tx", l.owner), ("record_bucket", l.recordBucket), ("pending", l.pending)]

instance : OfDocument Lock :=
  ⟨fun d => return ⟨← d.get "tx", ← d.get "record_bucket", ← d.get "pending"⟩⟩

/-- An item with its key, the value in the form that is asked for. -/
def Item.form (value : Bytes → Document) (key : Bytes) (item : Item) : Document :=
  .fields [("key", key), ("value", item.value.map value), ("lock", item.lock)]

/-- An item with its key, where a record's value is told by what it says. -/
def Item.explained (key : Bytes) (item : Item) : Document := item.form (Staging.explained key) key

instance : ToDocument (Bytes × Item) := ⟨fun (key, item) => item.form toDocument key⟩

instance : OfDocument (Bytes × Item) where
  ofDocument d := return (← d.get "key", ⟨← d.getD "value" none, ← d.getD "lock" none⟩)

def Precondition.explained (key : Bytes) : Precondition → Document
  | .none => "none"
  | .absent => "absent"
  | .unlocked => "unlocked"
  | .unlockedWith value => .fields [("unlocked_with", value.map (Staging.explained key))]
  | .lockedBy id => .fields [("locked_by", id)]
  | .valueEquals value => .fields [("value_equals", Staging.explained key value)]

instance : OfDocument Precondition where
  ofDocument
    | .text "none" => .ok .none
    | .text "absent" => .ok .absent
    | .text "unlocked" => .ok .unlocked
    | d => do
      match ← d.tagged with
      | ("unlocked_with", value) => return .unlockedWith (← ofDocument value)
      | ("locked_by", id) => return .lockedBy (← ofDocument id)
      | ("value_equals", value) => return .valueEquals (← ofDocument value)
      | (name, _) => .error s!"no such condition: {name}"

instance : ToDocument RecoveryReport where
  toDocument r := .fields [
    ("forward", r.rolledForward), ("back", r.rolledBack), ("in_flight", r.inFlight)]

/-! ### What a store holds -/

/-- The number of a numbered identifier `$n` in a record's key. -/
def numberOf? (key : Bytes) : Option Nat :=
  match key.drop reservedBytes.length with
  | 0x24 :: digits => (Bytes.text? digits).bind String.toNat?
  | _ => none

/-- Bindings under reserved keys: those with numbered identifiers by number, then the others. -/
def recordOrder {α : Type} (bindings : List (Bytes × α)) : List (Bytes × α) :=
  let numbered := bindings.filterMap fun e => (numberOf? e.1).map (·, e)
  let others := bindings.filter fun e => (numberOf? e.1).isNone
  (numbered.mergeSort fun a b => a.1 ≤ b.1).map (·.2) ++ others

def holdings (bindings : List (Bytes × Item)) : Document :=
  let explain := List.map fun (key, item) => Item.explained key item
  .fields [
    ("items", explain (bindings.filter fun e => !isReservedKey e.1)),
    ("records", explain (recordOrder (bindings.filter fun e => isReservedKey e.1)))]

/-! ### Scripts -/

namespace Script

instance : OfDocument Mutation where
  ofDocument d := do
    match ← d.invocation with
    | ("put", [b, i]) =>
      let (key, item) ← ofDocument i
      return .put (← ofDocument b) key item
    | ("drop", [b, k]) => return .drop (← ofDocument b) (← ofDocument k)
    | ("flip", [b, id, s]) => return .flip (← ofDocument b) (← ofDocument id) (← ofDocument s)
    | ("drop_bucket", [b]) => return .dropBucket (← ofDocument b)
    | (name, _) => .error s!"no such change: {name}"

instance : OfDocument CallClass :=
  ⟨Document.labelled [("write", .write), ("load", .load), ("scan", .scan)]⟩

instance : OfDocument Verdict :=
  ⟨Document.labelled [("pass", .pass), ("refuse", .refuse), ("fail", .fail), ("fail_after", .failAfter)]⟩

instance : OfDocument Rule where
  ofDocument d := return {
    on := ← d.get "on"
    first := ← d.get "at"
    times := ← d.getD "times" 1
    before := ← d.getD "before" []
    verdict := ← d.getD "do" .pass
    failure := ← d.getD "error" (.stated .unavailable "scripted fault") }

/-- What a call was replied with: a value in its form, or the failure itself. -/
def replied {α : Type} (form : α → Document) : Except Failure α → Document
  | .ok a => form a
  | .error f => f

instance : ToDocument Traced where
  toDocument
    | .load b k r => .list ["load", b, k, replied (fun i => i.map (Item.explained k)) r]
    | .write b k (some i) c r =>
      .list ["store", b, i.explained k, c.explained k, replied toDocument r]
    | .write b k none c r => .list ["remove", b, k, c.explained k, replied toDocument r]
    | .scan b t n r => .list ["scan", b, t, n.toNat, replied (fun p => p.items.length) r]

end Script

end BucketStore.Staging
