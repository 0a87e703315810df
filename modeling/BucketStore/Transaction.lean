/-
  BucketStore/Transaction.lean
  ============================
  **Operations that are applied together, and what they answer.**

  A transaction is a list of operations, applied in order as one unit; of two
  writes to a key the later one counts.  A compare-and-swap that finds another
  value is an answer, not a failure.
-/
import BucketStore.Entry

namespace BucketStore

inductive Operation where
  /-- Reads the value; an absent key fails the whole transaction. -/
  | get (bucket key : Bytes)
  | set (bucket key value : Bytes)
  /-- Removes; an absent key is fine. -/
  | delete (bucket key : Bytes)
  /-- Writes `new` if the value is `old`, where `none` is an absent key. -/
  | compareAndSwap (bucket key : Bytes) (old : Option Bytes) (new : Bytes)
deriving DecidableEq, Repr

namespace Operation

def bucket : Operation → Bytes
  | get b _ | set b _ _ | delete b _ | compareAndSwap b _ _ _ => b

def key : Operation → Bytes
  | get _ k | set _ k _ | delete _ k | compareAndSwap _ k _ _ => k

def name : Operation → String
  | get _ _ => "get"
  | set _ _ _ => "set"
  | delete _ _ => "delete"
  | compareAndSwap _ _ _ _ => "compare-and-swap"

def isWrite : Operation → Bool
  | get _ _ => false
  | _ => true

def check (op : Operation) : Except Failure Unit := checkKey op.bucket op.key

def display (op : Operation) : String := s!"{op.name} {Failure.place op.bucket op.key}"

end Operation

/-- What a compare-and-swap found. -/
structure Swap where
  current : Option Bytes
  swapped : Bool
deriving DecidableEq, Repr

namespace Swap

/-- Decides a compare-and-swap on a key that holds `current`. -/
def evaluate (current expected : Option Bytes) : Swap := ⟨current, current == expected⟩

def took (previous : Option Bytes) : Swap := ⟨previous, true⟩

def mismatch (current : Option Bytes) : Swap := ⟨current, false⟩

end Swap

inductive OpResult where
  | read (value : Bytes)
  | written
  | deleted
  | swap (result : Swap)
deriving DecidableEq, Repr

/-- Operations to be applied in order as one unit. -/
abbrev Transaction := List Operation

/-- The answers of a transaction's operations, in order. -/
abbrev TxOutcome := List OpResult

namespace Transaction

/-- Every bucket and key the operations touch, once each, in order of first appearance. -/
def touched (tx : Transaction) : List (Bytes × Bytes) :=
  (List.map (fun op : Operation => (op.bucket, op.key)) tx).eraseDups

/-- The buckets the operations touch, once each, in order of first appearance. -/
def buckets (tx : Transaction) : List Bytes := (List.map Operation.bucket tx).eraseDups

/-- Every operation names a bucket and a key; of several faults the first is reported. -/
def check (tx : Transaction) : Except Failure Unit := List.forM tx Operation.check

end Transaction

end BucketStore
