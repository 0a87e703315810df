/-
  BucketStore/Staging/Record.lean
  ===============================
  **The record of a staged transaction, whose change of state commits it.**

  A record is stored under a reserved key made of the transaction's identifier.
  It goes from pending to committed or to aborted, and is deleted after either;
  the step from pending to committed is the commit of the whole transaction.
-/
import BucketStore.Wire.Layout

namespace BucketStore

def TxState.canBecome : TxState → TxState → Bool
  | .pending, .committed | .pending, .aborted | .committed, .reclaimed | .aborted, .reclaimed => true
  | _, _ => false

namespace Staging

/-- What is known of a staged transaction. -/
structure Record where
  id : String
  state : TxState
  /-- Every bucket and key that the transaction locks. -/
  keys : List (Bytes × Bytes)
  /-- When it was made, in milliseconds of the epoch. -/
  createdAt : Int64
deriving DecidableEq, Repr

def recordKey (id : String) : Bytes := reservedBytes ++ Bytes.ofString id

namespace Record

def key (r : Record) : Bytes := recordKey r.id

/-- The record in its next state, if its life allows that step. -/
def become (r : Record) (next : TxState) : Except Failure Record :=
  if r.state.canBecome next then .ok { r with state := next }
  else .error (.badTransition r.id r.state next)

/-- Milliseconds from the record's making to `now`, at most the greatest 64-bit number. -/
def age (r : Record) (now : Int64) : Int := min (now.toInt - r.createdAt.toInt) Int64.maxValue.toInt

/-- Has the record outlived the timeout? One that was made after `now` has not. -/
def isExpired (r : Record) (timeout : Nat) (now : Int64) : Bool :=
  decide (0 ≤ r.age now ∧ (timeout : Int) ≤ r.age now)

def encode (r : Record) : Bytes :=
  Wire.putText r.id ++ Wire.putTxState r.state ++
    Wire.putList (fun place => Wire.putBytes place.1 ++ Wire.putBytes place.2) r.keys ++
    Wire.putInt r.createdAt

/-- Takes a record off the front of a byte string. -/
def take : Wire.Reader Record := do
  let id ← Wire.takeText
  let state ← Wire.takeTxState
  let keys ← Wire.takeList do
    let bucket ← Wire.takeBytes
    return (bucket, ← Wire.takeBytes)
  return ⟨id, state, keys, ← Wire.takeInt⟩

/-- Reads the stored form; bytes behind it do not matter. -/
def decode (bytes : Bytes) : Except Failure Record :=
  match take bytes with
  | .ok (r, _) => .ok r
  | .error fault => .error (.undecodable fault.detail)

def item (r : Record) : Item := .plain r.encode

end Record

end Staging

end BucketStore
