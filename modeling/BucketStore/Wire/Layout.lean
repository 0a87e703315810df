/-
  BucketStore/Wire/Layout.lean
  ============================
  **The byte layout of entries, operations, answers and items.**

  A structure is its fields in order; a value of a type with several forms is the
  number of its form and then the fields of that form.
-/
import BucketStore.Staging.Item
import BucketStore.Transaction
import BucketStore.Wire

namespace BucketStore.Wire

/-! ### Entries and operations -/

def putEntry (e : Entry) : Bytes := putBytes e.bucket ++ putBytes e.key ++ putBytes e.value

def takeEntry : Reader Entry := do
  let bucket ← takeBytes
  let key ← takeBytes
  return ⟨bucket, key, ← takeBytes⟩

def putOperation : Operation → Bytes
  | .get b k => putNat 0 ++ putBytes b ++ putBytes k
  | .set b k v => putNat 1 ++ putBytes b ++ putBytes k ++ putBytes v
  | .delete b k => putNat 2 ++ putBytes b ++ putBytes k
  | .compareAndSwap b k old new =>
    putNat 3 ++ putBytes b ++ putBytes k ++ putOption putBytes old ++ putBytes new

def takeOperation : Reader Operation := do
  let form ← takeVariant 4
  let bucket ← takeBytes
  let key ← takeBytes
  match form with
  | 0 => return .get bucket key
  | 1 => return .set bucket key (← takeBytes)
  | 2 => return .delete bucket key
  | _ => do
    let old ← takeOption takeBytes
    return .compareAndSwap bucket key old (← takeBytes)

/-! ### Answers -/

def putSwap (s : Swap) : Bytes := putOption putBytes s.current ++ putBool s.swapped

def takeSwap : Reader Swap := do
  let current ← takeOption takeBytes
  return ⟨current, ← takeBool⟩

def putOpResult : OpResult → Bytes
  | .read v => putNat 0 ++ putBytes v
  | .written => putNat 1
  | .deleted => putNat 2
  | .swap s => putNat 3 ++ putSwap s

def takeOpResult : Reader OpResult := do
  match ← takeVariant 4 with
  | 0 => return .read (← takeBytes)
  | 1 => return .written
  | 2 => return .deleted
  | _ => return .swap (← takeSwap)

def putOutcome (outcome : TxOutcome) : Bytes := putList putOpResult outcome

def takeOutcome : Reader TxOutcome := takeList takeOpResult

/-! ### Items and transaction states -/

def putTxState : TxState → Bytes
  | .pending => putNat 0
  | .committed => putNat 1
  | .aborted => putNat 2
  | .reclaimed => putNat 3

def takeTxState : Reader TxState := do
  match ← takeVariant 4 with
  | 0 => return .pending
  | 1 => return .committed
  | 2 => return .aborted
  | _ => return .reclaimed

def putPending : Staging.Pending → Bytes
  | .put v => putNat 0 ++ putBytes v
  | .delete => putNat 1
  | .keep => putNat 2

def takePending : Reader Staging.Pending := do
  match ← takeVariant 3 with
  | 0 => return .put (← takeBytes)
  | 1 => return .delete
  | _ => return .keep

def putLock (l : Staging.Lock) : Bytes :=
  putText l.owner ++ putBytes l.recordBucket ++ putPending l.pending

def takeLock : Reader Staging.Lock := do
  let owner ← takeText
  let recordBucket ← takeBytes
  return ⟨owner, recordBucket, ← takePending⟩

def putItem (stored : Bytes × Staging.Item) : Bytes :=
  putBytes stored.1 ++ putOption putBytes stored.2.value ++ putOption putLock stored.2.lock

def takeItem : Reader (Bytes × Staging.Item) := do
  let key ← takeBytes
  let value ← takeOption takeBytes
  return (key, ⟨value, ← takeOption takeLock⟩)

end BucketStore.Wire
