/-
  BucketStore/Keyspace/Name.lean
  ==============================
  **Which partition of a keyspace holds which bucket.**

  A name of letters, digits, `_` and `-` is the name of its partition.  Any other
  name is written as `#` and lowercase hexadecimal digits; since `#` stands in no
  plain name, no two buckets share a partition.  Names of partitions are at most
  255 characters long.
-/
import BucketStore.Failure
import BucketStore.Text.Hex
import BucketStore.Text.Quoted

namespace BucketStore.Keyspace

/-- Why a bucket has no partition, or a partition no bucket. -/
inductive NameFault where
  | empty
  /-- The partition's name would have so many characters. -/
  | tooLong (length : Nat)
  /-- The partition's name stands for no bucket. -/
  | unreadable (partition : String)
deriving DecidableEq, Repr

def maxNameLength : Nat := 255

def NameFault.message : NameFault → String
  | .empty => "bucket name must not be empty"
  | .tooLong n =>
    s!"bucket name encodes to {n} characters, fjall allows at most {maxNameLength}"
  | .unreadable partition =>
    s!"partition name {Text.Quoted.encode partition} is not a bucket name"

def NameFault.failure (fault : NameFault) : Failure := .stated .invalid fault.message

/-- A letter, a digit, `_` or `-`. -/
def isPlain (b : UInt8) : Bool :=
  (0x30 ≤ b && b ≤ 0x39) || (0x41 ≤ b && b ≤ 0x5A) || (0x61 ≤ b && b ≤ 0x7A) || b == 0x5F || b == 0x2D

/-- The characters of a bucket's partition, whatever their number. -/
def nameChars (bucket : Bytes) : List Char :=
  if bucket.all isPlain then bucket.map fun b => Char.ofNat b.toNat
  else '#' :: Text.Hex.digits bucket

def encodeName (bucket : Bytes) : Except NameFault String :=
  if bucket.isEmpty then .error .empty
  else
    let chars := nameChars bucket
    if maxNameLength < chars.length then .error (.tooLong chars.length)
    else .ok (String.ofList chars)

/-- The bytes that pairs of lowercase digits stand for. -/
def bytes? : List Char → Option Bytes
  | [] => some []
  | [_] => none
  | high :: low :: rest => do
    let h ← Text.Hex.nibble? high
    let l ← Text.Hex.nibble? low
    return UInt8.ofNat (h * 16 + l) :: (← bytes? rest)

def decodeName (partition : String) : Except NameFault Bytes :=
  match partition.toList with
  | [] | ['#'] => .error (.unreadable partition)
  | '#' :: digits =>
    match bytes? digits with
    | some bucket => .ok bucket
    | none => .error (.unreadable partition)
  | _ =>
    let bytes := Bytes.ofString partition
    if bytes.all isPlain then .ok bytes else .error (.unreadable partition)

end BucketStore.Keyspace
