/-
  BucketStore/Entry.lean
  ======================
  **Entries, and what names are allowed.**

  A bucket name and a key are any byte strings that are not empty.  Of two
  faults the bucket's is reported.  Keys that begin with `reservedBytes` belong to
  transaction records, so users may not name them.
-/
import BucketStore.Failure

namespace BucketStore

/-- A key with its value and the bucket it was read from. -/
structure Entry where
  bucket : Bytes
  key : Bytes
  value : Bytes
deriving DecidableEq, Repr

namespace Entry

def pair (e : Entry) : Bytes × Bytes := (e.key, e.value)

/-- The entry for people: its place, and the size of its value. -/
def display (e : Entry) : String :=
  s!"{Failure.place e.bucket e.key} ({e.value.length} bytes)"

end Entry

/-! ### Names -/

def checkBucket (bucket : Bytes) : Except Failure Unit :=
  if bucket.isEmpty then .error .emptyBucketName else .ok ()

/-- Neither the bucket name nor the key is empty. -/
def checkKey (bucket key : Bytes) : Except Failure Unit := do
  checkBucket bucket
  if key.isEmpty then .error (.emptyKey bucket) else .ok ()

/-- What the keys of transaction records begin with: the text `__nosql.tx/`. -/
def reservedBytes : Bytes :=
  [0x5F, 0x5F, 0x6E, 0x6F, 0x73, 0x71, 0x6C, 0x2E, 0x74, 0x78, 0x2F]

def isReservedKey (key : Bytes) : Bool := reservedBytes.isPrefixOf key

def checkUserKey (bucket key : Bytes) : Except Failure Unit :=
  if isReservedKey key then .error (.reservedKey bucket key) else .ok ()

example : Bytes.text? reservedBytes = some "__nosql.tx/" := by decide +kernel

end BucketStore
