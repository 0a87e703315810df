/-
  BucketStore/Staging/Item.lean
  =============================
  **Items of a single-item store: a committed value, and perhaps a lock.**

  A lock says which transaction holds the item, where that transaction's record
  is kept, and what the transaction is going to do to the value.  A conditional
  write is applied only if its `Precondition` holds of what is stored under the
  key, which may be nothing.
-/
import BucketStore.Entry

namespace BucketStore.Staging

/-- What the holder of a lock is going to do. -/
inductive Pending where
  | put (value : Bytes)
  | delete
  /-- The item is locked only to keep others out. -/
  | keep
deriving DecidableEq, Repr

namespace Pending

/-- The pending write of a change; `none` deletes. -/
def ofChange : Option Bytes → Pending
  | some value => put value
  | none => delete

/-- The value once the transaction is committed, from the committed value before. -/
def resolve (committed : Option Bytes) : Pending → Option Bytes
  | put value => some value
  | delete => none
  | keep => committed

def name : Pending → String
  | put _ => "put"
  | delete => "delete"
  | keep => "keep"

end Pending

/-- The lock of a staged transaction. -/
structure Lock where
  owner : String
  /-- The bucket that holds the transaction's record. -/
  recordBucket : Bytes
  pending : Pending
deriving DecidableEq, Repr

/-- What is stored under a key. -/
structure Item where
  value : Option Bytes
  lock : Option Lock
deriving DecidableEq, Repr

namespace Item

def plain (value : Bytes) : Item := ⟨some value, none⟩

def isLocked (item : Item) : Bool := item.lock.isSome

def isLockedBy (item : Item) (id : String) : Bool := item.lock.any fun lock => lock.owner == id

end Item

/-- What must be stored under a key for a write to be applied. -/
inductive Precondition where
  | none
  | absent
  /-- Nothing, or an item without a lock. -/
  | unlocked
  /-- An item without a lock whose value is this one; nothing has no value. -/
  | unlockedWith (value : Option Bytes)
  /-- An item that the transaction holds. -/
  | lockedBy (id : String)
  | valueEquals (value : Bytes)
deriving DecidableEq, Repr

def Precondition.holds : Precondition → Option Item → Bool
  | .none, _ => true
  | .absent, stored => stored.isNone
  | .unlocked, .none => true
  | .unlocked, some item => !item.isLocked
  | .unlockedWith value, .none => value.isNone
  | .unlockedWith value, some item => !item.isLocked && item.value == value
  | .lockedBy _, .none => false
  | .lockedBy id, some item => item.isLockedBy id
  | .valueEquals _, .none => false
  | .valueEquals value, some item => item.value == some value

end BucketStore.Staging
