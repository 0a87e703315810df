/-
  BucketStore/Text/Utf8.lean
  ==========================
  **Reading bytes that may or may not be UTF-8.**

  A byte string is read from the front, one scalar value at a time.  Where no
  scalar value stands, the reader says how many bytes could still have begun
  one: such a *maximal malformed piece* counts as one unreadable place.  Two
  uses are built on it: `lossy`, which shows every unreadable place as one
  replacement character, and `fault?`, which names the first of them.
-/
import BucketStore.Bytes

namespace BucketStore.Text.Utf8

/-! ### One scalar value -/

/-- What stands at the front of a byte string that is not empty. -/
inductive Front where
  /-- A scalar value, and the bytes behind it. -/
  | scalar (c : Char) (rest : Bytes)
  /-- A piece of `length` bytes that begins no scalar value, and the bytes behind it. -/
  | malformed (length : Nat) (rest : Bytes)
  /-- The bytes end inside a scalar value. -/
  | incomplete
deriving DecidableEq, Repr

/-- Reads `n` more continuation bytes onto the value `acc`, the first of them within `lo` and `hi`;
    `seen` bytes of the piece are already read. -/
def continuation (lo hi : UInt8) : Nat → Nat → Nat → Bytes → Front
  | 0, acc, _, rest => .scalar (Char.ofNat acc) rest
  | _ + 1, _, _, [] => .incomplete
  | n + 1, acc, seen, b :: rest =>
    if lo ≤ b ∧ b ≤ hi then continuation 0x80 0xBF n (acc * 64 + (b.toNat - 0x80)) (seen + 1) rest
    else .malformed seen (b :: rest)

/-- Reads the front of the bytes `b :: rest`. The bounds on the second byte leave out overlong
    forms, surrogates and values above the last scalar value. -/
def front (b : UInt8) (rest : Bytes) : Front :=
  if b < 0x80 then .scalar (Char.ofNat b.toNat) rest
  else if b < 0xC2 then .malformed 1 rest
  else if b < 0xE0 then continuation 0x80 0xBF 1 (b.toNat - 0xC0) 1 rest
  else if b = 0xE0 then continuation 0xA0 0xBF 2 0 1 rest
  else if b = 0xED then continuation 0x80 0x9F 2 0xD 1 rest
  else if b < 0xF0 then continuation 0x80 0xBF 2 (b.toNat - 0xE0) 1 rest
  else if b = 0xF0 then continuation 0x90 0xBF 3 0 1 rest
  else if b < 0xF4 then continuation 0x80 0xBF 3 (b.toNat - 0xF0) 1 rest
  else if b = 0xF4 then continuation 0x80 0x8F 3 4 1 rest
  else .malformed 1 rest

def Front.rest : Front → Bytes
  | .scalar _ rest | .malformed _ rest => rest
  | .incomplete => []

theorem length_continuation_rest (lo hi : UInt8) (n acc seen : Nat) (bytes : Bytes) :
    (continuation lo hi n acc seen bytes).rest.length ≤ bytes.length := by
  fun_induction continuation lo hi n acc seen bytes with
  | case1 => simp [Front.rest]
  | case2 => simp [Front.rest]
  | case3 lo hi n acc seen b rest _ ih => simp only [List.length_cons]; omega
  | case4 => simp [Front.rest]

/-- The front uses up at least one byte. -/
theorem length_front_rest (b : UInt8) (rest : Bytes) :
    (front b rest).rest.length < rest.length + 1 := by
  have h := fun lo hi n acc => length_continuation_rest lo hi n acc 1 rest
  unfold front
  repeat' split
  all_goals first
    | exact Nat.lt_succ_of_le (h _ _ _ _)
    | simp [Front.rest]

/-! ### Whole byte strings -/

/-- The characters of a byte string, with one replacement character for each unreadable place. -/
def lossyChars : Bytes → List Char
  | [] => []
  | b :: rest =>
    have := length_front_rest b rest
    match _h : front b rest with
    | .scalar c rest' => c :: lossyChars rest'
    | .malformed _ rest' => Char.ofNat 0xFFFD :: lossyChars rest'
    | .incomplete => [Char.ofNat 0xFFFD]
termination_by bytes => bytes.length
decreasing_by all_goals simp_all [Front.rest]

/-- The text of a byte string for people to read. -/
def lossy (bytes : Bytes) : String := String.ofList (lossyChars bytes)

/-- Why a byte string is not UTF-8. -/
inductive Fault where
  /-- At `index` stand `length` bytes that begin no scalar value. -/
  | invalid (index length : Nat)
  /-- The bytes end inside the scalar value that begins at `index`. -/
  | truncated (index : Nat)
deriving DecidableEq, Repr

/-- The first unreadable place, looked for from the byte number `index` on. -/
def faultFrom (index : Nat) : Bytes → Option Fault
  | [] => none
  | b :: rest =>
    have := length_front_rest b rest
    match _h : front b rest with
    | .scalar _ rest' => faultFrom (index + (rest.length + 1 - rest'.length)) rest'
    | .malformed n _ => some (.invalid index n)
    | .incomplete => some (.truncated index)
termination_by bytes => bytes.length
decreasing_by simp_all [Front.rest]

def fault? (bytes : Bytes) : Option Fault := faultFrom 0 bytes

def Fault.message : Fault → String
  | .invalid index length => s!"invalid utf-8 sequence of {length} bytes from index {index}"
  | .truncated index => s!"incomplete utf-8 byte sequence from index {index}"

end BucketStore.Text.Utf8
