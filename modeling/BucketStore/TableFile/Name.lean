/-
  BucketStore/TableFile/Name.lean
  ===============================
  **Which table of a file holds which bucket.**

  A name that is text without a leading `#` is the name of its table.  Any other
  name is written as `#` and hexadecimal digits, so the mark tells the two cases
  apart.  A reader of table names takes digits in either case, and a `+` in place
  of a leading zero.
-/
import BucketStore.Failure
import BucketStore.Text.Hex
import BucketStore.Text.Quoted

namespace BucketStore.TableFile

/-- Why a bucket has no table, or a table no bucket. -/
inductive NameFault where
  | empty
  /-- The table's name stands for no bucket. -/
  | unreadable (table : String)
deriving DecidableEq, Repr

def NameFault.message : NameFault → String
  | .empty => "bucket name must not be empty"
  | .unreadable table => s!"table name {Text.Quoted.encode table} is not a bucket name"

def NameFault.failure (fault : NameFault) : Failure := .stated .invalid fault.message

def encodeName (bucket : Bytes) : Except NameFault String :=
  if bucket.isEmpty then .error .empty
  else
    match Bytes.text? bucket with
    | some text => if text.toList.head? = some '#' then .ok (marked bucket) else .ok text
    | none => .ok (marked bucket)
where
  marked (bucket : Bytes) : String := String.ofList ('#' :: Text.Hex.digits bucket)

/-- The value of a hexadecimal digit in either case. -/
def digit? (c : Char) : Option Nat :=
  if 'A' ≤ c ∧ c ≤ 'F' then some (c.toNat - 55) else Text.Hex.nibble? c

def byte? (high low : Char) : Option UInt8 := do
  let l ← digit? low
  if high = '+' then return UInt8.ofNat l
  return UInt8.ofNat ((← digit? high) * 16 + l)

/-- The bytes that pairs of characters stand for. -/
def bytes? : List Char → Option Bytes
  | [] => some []
  | [_] => none
  | high :: low :: rest => do return (← byte? high low) :: (← bytes? rest)

def decodeName (table : String) : Except NameFault Bytes :=
  match table.toList with
  | [] | ['#'] => .error (.unreadable table)
  | '#' :: digits =>
    match bytes? digits with
    | some bucket => .ok bucket
    | none => .error (.unreadable table)
  | _ => .ok (Bytes.ofString table)

end BucketStore.TableFile
