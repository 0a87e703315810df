/-
  BucketStore/Wire.lean
  =====================
  **The byte layout of stored values: its building blocks.**

  Every block has a writer (`put…`), which gives the bytes of a value, and a
  reader (`take…`), which takes a value off the front of a byte string and leaves
  the rest.  Whole numbers take one byte below 251; above, a mark gives the width
  of the little-endian value behind it.  A reader takes any width up to that of its
  type, and says of everything else why it is no encoding.
-/
import BucketStore.Text.Quoted
import BucketStore.Text.Utf8

namespace BucketStore.Wire

/-! ### Faults -/

/-- The types of integers that a reader may expect or find. -/
inductive Width where
  | u32
  | u64
  | u128
  | size
  | i64
  | i128
  | reserved
deriving DecidableEq, Repr

def Width.name : Width → String
  | u32 => "U32"
  | u64 => "U64"
  | u128 => "U128"
  | size => "Usize"
  | i64 => "I64"
  | i128 => "I128"
  | reserved => "Reserved"

def Width.signed : Width → Width
  | u64 => i64
  | u128 => i128
  | w => w

inductive Fault where
  | unexpectedEnd (missing : Nat)
  | wrongWidth (expected found : Width)
  | badBool (byte : UInt8)
  /-- The tag of an optional value is neither 0 nor 1. -/
  | badTag (byte : UInt8)
  | badText (fault : Text.Utf8.Fault)
  /-- There is no variant of that number among `count`. -/
  | badVariant (index count : Nat)
deriving DecidableEq, Repr

def Fault.detail : Fault → String
  | unexpectedEnd missing => s!"UnexpectedEnd \x7b additional: {missing} \x7d"
  | wrongWidth expected found =>
    s!"InvalidIntegerType \x7b expected: {expected.name}, found: {found.name} \x7d"
  | badBool byte => s!"InvalidBooleanValue({byte.toNat})"
  | badTag byte =>
    "UnexpectedVariant \x7b type_name: \"Option<T>\", allowed: Range \x7b min: 0, max: 1 \x7d, found: " ++
      toString byte.toNat ++ " \x7d"
  | badText fault =>
    let (index, length) := match fault with
      | .invalid index length => (index, s!"Some({length})")
      | .truncated index => (index, "None")
    "Utf8 \x7b inner: Utf8Error \x7b valid_up_to: " ++ toString index ++ ", error_len: " ++ length ++
      " \x7d \x7d"
  | badVariant index count =>
    "OtherString(" ++
      Text.Quoted.encode s!"invalid value: integer `{index}`, expected variant index 0 <= i < {count}" ++
      ")"

/-- Takes a value off the front of a byte string. -/
abbrev Reader := StateT Bytes (Except Fault)

def reject {α : Type} (fault : Fault) : Reader α := fun _ => .error fault

/-! ### Fixed numbers of bytes -/

/-- The `n` low bytes of a number, the lowest first. -/
def littleEndian : Nat → Nat → Bytes
  | 0, _ => []
  | n + 1, v => UInt8.ofNat v :: littleEndian n (v / 256)

/-- The number that little-endian bytes stand for. -/
def ofLittleEndian : Bytes → Nat
  | [] => 0
  | b :: rest => b.toNat + 256 * ofLittleEndian rest

/-- Takes `n` bytes. -/
def takeRaw (n : Nat) : Reader Bytes := fun bytes =>
  if n ≤ bytes.length then .ok (bytes.take n, bytes.drop n)
  else .error (.unexpectedEnd (n - bytes.length))

def takeByte : Reader UInt8
  | [] => .error (.unexpectedEnd 1)
  | b :: rest => .ok (b, rest)

/-! ### Whole numbers -/

/-- Writes a number below `2 ^ 64`. -/
def putNat (n : Nat) : Bytes :=
  if n < 251 then [UInt8.ofNat n]
  else if n < UInt16.size then 251 :: littleEndian 2 n
  else if n < UInt32.size then 252 :: littleEndian 4 n
  else 253 :: littleEndian 8 n

/-- Takes a number of the type `width`, whose marks go up to `widest`. -/
def takeNatUpTo (widest : UInt8) (width : Width) : Reader Nat := do
  let mark ← takeByte
  if mark < 251 then return mark.toNat
  else if mark = 251 then return ofLittleEndian (← takeRaw 2)
  else if mark = 252 then return ofLittleEndian (← takeRaw 4)
  else if mark = 253 then
    if widest = 253 then return ofLittleEndian (← takeRaw 8) else reject (.wrongWidth width .u64)
  else if mark = 254 then reject (.wrongWidth width .u128)
  else reject (.wrongWidth width .reserved)

def takeNat (width : Width) : Reader Nat := takeNatUpTo 253 width

/-- Takes the number of a variant, one of `count`. -/
def takeVariant (count : Nat) : Reader Nat := do
  let index ← takeNatUpTo 252 .u32
  if index < count then return index else reject (.badVariant index count)

/-- Folds the signed numbers onto the whole ones: 0, -1, 1, -2, … -/
def zigzag (i : Int) : Nat := if 0 ≤ i then (2 * i).toNat else (-2 * i - 1).toNat

def unzigzag (n : Nat) : Int := if n % 2 = 0 then (n / 2 : Nat) else -((n / 2 : Nat) : Int) - 1

def putInt (i : Int64) : Bytes := putNat (zigzag i.toInt)

def takeInt : Reader Int64 := fun bytes =>
  match takeNat .u64 bytes with
  | .ok (n, rest) => .ok (Int64.ofInt (unzigzag n), rest)
  | .error (.wrongWidth expected found) => .error (.wrongWidth expected.signed found.signed)
  | .error fault => .error fault

/-! ### Truth values, byte strings and texts -/

def putBool (b : Bool) : Bytes := [if b then 1 else 0]

def takeBool : Reader Bool := do
  let b ← takeByte
  if b = 0 then return false else if b = 1 then return true else reject (.badBool b)

def putBytes (bytes : Bytes) : Bytes := putNat bytes.length ++ bytes

/-- Takes a byte string. Its bytes are missed one at a time. -/
def takeBytes : Reader Bytes := do
  let n ← takeNat .size
  fun bytes =>
    if n ≤ bytes.length then .ok (bytes.take n, bytes.drop n) else .error (.unexpectedEnd 1)

/-- Writes a text as the bytes of its UTF-8 form. -/
def putText (s : String) : Bytes := putBytes (Bytes.ofString s)

def takeText : Reader String := do
  let n ← takeNat .u64
  let bytes ← takeRaw n
  match Bytes.text? bytes with
  | some s => return s
  | none => reject (.badText ((Text.Utf8.fault? bytes).getD (.truncated 0)))

/-! ### Optional values and lists -/

section

variable {α : Type}

def putOption (put : α → Bytes) : Option α → Bytes
  | none => [0]
  | some a => 1 :: put a

def takeOption (take : Reader α) : Reader (Option α) := do
  let tag ← takeByte
  if tag = 0 then return none
  else if tag = 1 then return some (← take)
  else reject (.badTag tag)

def putList (put : α → Bytes) (l : List α) : Bytes := putNat l.length ++ l.flatMap put

/-- Takes `n` values. -/
def takeMany (take : Reader α) : Nat → Reader (List α)
  | 0 => return []
  | n + 1 => do
    let a ← take
    return a :: (← takeMany take n)

def takeList (take : Reader α) : Reader (List α) := do
  takeMany take (← takeNat .size)

end

end BucketStore.Wire
