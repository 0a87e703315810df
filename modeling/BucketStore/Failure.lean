/-
  BucketStore/Failure.lean
  ========================
  **What can go wrong, why, and how it is told.**

  A `Failure` is a cause.  Its `kind` is what callers branch on, its `message`
  is for people, and wrapping a failure with the action it interrupted keeps the
  kind (`kind_during`, `kind_duringBucket`).  Some failures are noted in the log
  where they are detected; `notice` says which, and with what line.
-/
import BucketStore.Text.Utf8
import BucketStore.Log

namespace BucketStore

/-! ### Kinds -/

/-- The classes of failure that callers tell apart. -/
inductive Kind where
  /-- The key or the bucket does not exist. -/
  | notFound
  | alreadyExists
  /-- The store cannot do this with the guarantees asked for. -/
  | notImplemented
  /-- A staged write lost a race against another writer. -/
  | conflict
  | unavailable
  | invalid
  | configuration
  | closed
  | encoding
  /-- Any other failure of the engine behind the driver. -/
  | backend
  /-- A broken promise inside the library. -/
  | internal
deriving DecidableEq, Repr

def Kind.text : Kind → String
  | .notFound => "Not found"
  | .alreadyExists => "Already exists"
  | .notImplemented => "Not implemented"
  | .conflict => "Conflict"
  | .unavailable => "Unavailable"
  | .invalid => "Invalid input"
  | .configuration => "Configuration error"
  | .closed => "Driver closed"
  | .encoding => "Encoding error"
  | .backend => "Backend error"
  | .internal => "Internal error"

def Kind.isTransient : Kind → Bool
  | .unavailable | .conflict => true
  | _ => false

/-! ### The state of a staged transaction, as far as failures name it -/

/-- The life of a staged transaction: it is pending until it is committed or aborted, and its record
    is reclaimed in the end. -/
inductive TxState where
  | pending
  | committed
  | aborted
  | reclaimed
deriving DecidableEq, Repr

def TxState.text : TxState → String
  | .pending => "pending"
  | .committed => "committed"
  | .aborted => "aborted"
  | .reclaimed => "reclaimed"

/-! ### Failures -/

/-- A failure of something outside the library: what it says, what lies behind it, and its
    diagnostic form. -/
structure ForeignCause where
  text : String
  behind : List String := []
  detail : String := text
deriving DecidableEq, Repr

inductive Failure where
  | keyNotFound (bucket key : Bytes)
  | bucketNotFound (bucket : Bytes)
  | bucketExists (bucket : Bytes)
  | closed
  | emptyBucketName
  | emptyKey (bucket : Bytes)
  /-- The key lies among the keys of transaction records. -/
  | reservedKey (bucket key : Bytes)
  /-- An operation names a key that its write set does not hold. -/
  | notLoaded (bucket key : Bytes)
  /-- A page came although none was asked for. -/
  | pageOutsideFetch
  /-- A listing was cut off before its last page. -/
  | unfinishedListing
  | repeatedToken
  /-- Stored bytes are no encoding of what they should hold. -/
  | undecodable (detail : String)
  /-- A state change outside the life of a transaction. -/
  | badTransition (id : String) (before after : TxState)
  /-- The key is locked by a transaction in flight. -/
  | lockedBy (bucket key : Bytes) (id : String)
  /-- A single-key write met a lock on every attempt. -/
  | contention
  /-- A transaction met a lock on every attempt to take its own. -/
  | cannotLock (bucket key : Bytes)
  /-- A lock held by the transaction was taken away from it. -/
  | lockLost (bucket key : Bytes)
  /-- The transaction was aborted by another writer. -/
  | abortedEarly (id : String)
  /-- A record with the new transaction's identifier is stored already. -/
  | idInUse (id : String)
  /-- A write was refused by a fault plan. -/
  | injectedFault (bucket key : Bytes)
  /-- A sum is beyond the greatest number of its width: the program has panicked. -/
  | overflow
  | stated (kind : Kind) (message : String)
  /-- A failure of an engine or a client of one. -/
  | foreign (kind : Kind) (message : String) (cause : ForeignCause)
  /-- An action on a key was interrupted. -/
  | during (action : String) (bucket key : Bytes) (inner : Failure)
  /-- An action on a bucket was interrupted. -/
  | duringBucket (action : String) (bucket : Bytes) (inner : Failure)
  /-- A failure of another kind that came of `inner`. -/
  | owing (kind : Kind) (message : String) (inner : Failure)
deriving DecidableEq, Repr

namespace Failure

/-- The class of the failure. An interrupted action keeps the class of what interrupted it. -/
def kind : Failure → Kind
  | keyNotFound _ _ | bucketNotFound _ => .notFound
  | bucketExists _ => .alreadyExists
  | .closed => .closed
  | emptyBucketName | emptyKey _ | reservedKey _ _ => .invalid
  | notLoaded _ _ | pageOutsideFetch | unfinishedListing | badTransition _ _ _ | overflow => .internal
  | repeatedToken => .backend
  | undecodable _ => .encoding
  | lockedBy _ _ _ | injectedFault _ _ => .unavailable
  | contention | cannotLock _ _ | lockLost _ _ | abortedEarly _ | idInUse _ => .conflict
  | stated k _ | foreign k _ _ | owing k _ _ => k
  | during _ _ _ inner | duringBucket _ _ inner => inner.kind

def place (bucket key : Bytes) : String := Text.Utf8.lossy bucket ++ "/" ++ Text.Utf8.lossy key

/-- The failure in words, without what lies behind it. -/
def message : Failure → String
  | keyNotFound b k => s!"{place b k} not found"
  | bucketNotFound b => s!"bucket {Text.Utf8.lossy b} not found"
  | bucketExists b => s!"bucket {Text.Utf8.lossy b} already exists"
  | .closed => "driver is closed"
  | emptyBucketName => "bucket name cannot be empty"
  | emptyKey b => s!"key in bucket {Text.Utf8.lossy b} cannot be empty"
  | reservedKey b k => s!"key {Text.Utf8.lossy k} in bucket {Text.Utf8.lossy b} uses a reserved prefix"
  | notLoaded b k => s!"{place b k} was not loaded before evaluation"
  | pageOutsideFetch => "page accumulated outside of a fetch"
  | unfinishedListing => "listing finished before the last page"
  | repeatedToken => "listing did not advance: repeated continuation token"
  | undecodable detail => s!"Decoding failed: {detail}"
  | badTransition id s t => s!"transaction {id} cannot move from {s.text} to {t.text}"
  | lockedBy b k id => s!"{place b k} is locked by transaction {id}"
  | contention => "gave up after repeated lock contention"
  | cannotLock b k => s!"could not lock {place b k}"
  | lockLost b k => s!"lock on {place b k} was taken over by another writer"
  | abortedEarly id => s!"transaction {id} was aborted before it could commit"
  | idInUse id => s!"transaction id {id} already in use"
  | injectedFault b k => s!"injected write fault on {place b k}"
  | overflow => "attempt to add with overflow"
  | stated _ m | foreign _ m _ | owing _ m _ => m
  | during action b k _ => s!"failed to {action} {place b k}"
  | duringBucket action b _ => s!"failed to {action} {Text.Utf8.lossy b}"

/-- The failure directly behind this one, where it is one of the library's own. -/
def inner? : Failure → Option Failure
  | during _ _ _ inner | duringBucket _ _ inner | owing _ _ inner => some inner
  | _ => none

/-- What the failures behind this one say, where they are the library's own. -/
def ownCauses : Failure → List String
  | during _ _ _ inner | duringBucket _ _ inner | owing _ _ inner => inner.message :: inner.ownCauses
  | _ => []

def causes : Failure → List String
  | during _ _ _ inner | duringBucket _ _ inner | owing _ _ inner => inner.message :: inner.causes
  | foreign _ _ cause => cause.text :: cause.behind
  | _ => []

def hasCause (f : Failure) : Bool := !f.causes.isEmpty

/-- The form for diagnosis: every message of the chain, the last on a line of its own or followed by
    the diagnostic form of an outside failure. -/
def detail : Failure → String
  | f@(during _ _ _ inner) | f@(duringBucket _ _ inner) | f@(owing _ _ inner) =>
    f.message ++ "\nCaused by: " ++ inner.detail
  | foreign _ m cause => m ++ "\nCaused by: " ++ cause.detail
  | f => f.message ++ "\n"

/-- Is the failure one of kind `notFound`? -/
def isNotFound (f : Failure) : Bool := f.kind == .notFound

/-- Is the failure a panic? It unwinds the call: nobody is answered, and what it was wrapped in on
    the way is never read. -/
def panics : Failure → Bool
  | overflow => true
  | during _ _ _ inner | duringBucket _ _ inner | owing _ _ inner => inner.panics
  | _ => false

/-- What is logged where the failure is detected. -/
def notice : Failure → List Log.Line
  | emptyBucketName => [Log.error "Bucket name cannot be empty"]
  | emptyKey b => [Log.error s!"Empty key in bucket {Text.Utf8.lossy b}"]
  | reservedKey b k =>
    [Log.error s!"Key {Text.Utf8.lossy k} in bucket {Text.Utf8.lossy b} uses the reserved prefix"]
  | repeatedToken => [Log.error "Backend returned the same continuation token twice"]
  | badTransition id s t =>
    [Log.error s!"Invalid transaction state change {s.text} -> {t.text} for {id}"]
  | injectedFault b k => [Log.error s!"Injected write fault on {place b k}"]
  | _ => []

@[simp] theorem kind_during (action : String) (b k : Bytes) (f : Failure) :
    (during action b k f).kind = f.kind := rfl

@[simp] theorem kind_duringBucket (action : String) (b : Bytes) (f : Failure) :
    (duringBucket action b f).kind = f.kind := rfl

end Failure

/-- What is logged about a failure, unless it is the expected outcome that something is missing. A
    panic is not logged. -/
def unlessMissing (line : Failure → String) (f : Failure) : List Log.Line :=
  if f.isNotFound || f.panics then [] else [Log.error (line f)]

end BucketStore
