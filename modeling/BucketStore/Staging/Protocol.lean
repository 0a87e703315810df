/-
  BucketStore/Staging/Protocol.lean
  =================================
  **The calls that staged transactions are made of.**

  All that staging asks of a store is to load one item, to write or remove one
  item under a condition, and to scan a bucket page by page.  Two more calls read
  the clock and draw a fresh identifier.  A protocol is a program over these
  calls; an `ItemStore` replies to them and keeps the buckets.
-/
import BucketStore.Backend
import BucketStore.Listing
import BucketStore.Staging.Record

namespace BucketStore.Staging

/-- A call on a single-item store, on the clock or on the source of identifiers. -/
inductive Call where
  | load (bucket key : Bytes)
  /-- Stores the item under the key, or removes what is there, if the condition holds. -/
  | write (bucket key : Bytes) (item : Option Item) (condition : Precondition)
  /-- At most `limit` items behind the token. -/
  | scan (bucket : Bytes) (token : Option Token) (limit : UInt64)
  /-- The time in milliseconds of the epoch. -/
  | now
  /-- An identifier that no transaction has had. -/
  | freshId
deriving DecidableEq, Repr

/-- What a call is replied to with. A write replies whether its condition held. -/
def Call.Reply : Call → Type
  | load _ _ => Except Failure (Option Item)
  | write _ _ _ _ => Except Failure Bool
  | scan _ _ _ => Except Failure (Page (Bytes × Item))
  | now => Int64
  | freshId => String

/-- A program over the calls of staging. -/
abbrev Protocol (α : Type) := Program Call Call.Reply α

namespace Protocol

def load (bucket key : Bytes) : Protocol (Option Item) :=
  .call (.load bucket key) fun r => .ofExcept r

def write (bucket key : Bytes) (item : Option Item) (condition : Precondition) : Protocol Bool :=
  .call (.write bucket key item condition) fun r => .ofExcept r

/-- Like `write`, with a failure of the store for an answer. -/
def tryWrite (bucket key : Bytes) (item : Option Item) (condition : Precondition) :
    Protocol (Except Failure Bool) :=
  .call (.write bucket key item condition) fun r => .done r

def scan (bucket : Bytes) (token : Option Token) (limit : UInt64) :
    Protocol (Page (Bytes × Item)) :=
  .call (.scan bucket token limit) fun r => .ofExcept r

def now : Protocol Int64 := .call .now fun t => .done t

def freshId : Protocol String := .call .freshId fun id => .done id

/-- The record in its next state. A step outside of a record's life is detected here. -/
def transition (r : Record) (next : TxState) : Protocol Record := .check (r.become next)

theorem transition_of_canBecome {r : Record} {next : TxState} (h : r.state.canBecome next = true) :
    transition r next = .done { r with state := next } := by
  unfold transition Record.become
  rw [if_pos h]
  rfl

end Protocol

/-- What a store finds outside itself. -/
structure Surroundings where
  /-- The readings of the clock, in milliseconds of the epoch. -/
  clock : Nat → Int64
  /-- The identifiers, in the order in which they are drawn. -/
  ids : Nat → String

/-- A store that staging works on: it replies to calls, and keeps the buckets. -/
structure ItemStore (σ : Type) where
  backend : Backend
  version : String
  respond : Responder Call Call.Reply σ
  createBucket : Bytes → Action σ Unit
  deleteBucket : Bytes → Action σ Unit
  close : Action σ Unit
  /-- More pages than a scan of the bucket has. -/
  pageBound : σ → Bytes → Nat

end BucketStore.Staging
