/-
  BucketStore/Text/Integer.lean
  =============================
  **Reading a decimal integer into a bounded range.**

  A number is an optional sign and at least one ASCII digit, nothing else; a
  minus sign is a sign only where the range has negative values.  The digits are
  read from the left and the reader stops at the first fault, so of two faults
  the one further left is reported, and of two at one digit the bad digit.
-/

namespace BucketStore.Text

/-- A range of integers that a number may be read into. -/
structure IntRange where
  least : Int
  greatest : Int
deriving DecidableEq, Repr

namespace IntRange

/-- The values of `bits` bits without sign. -/
def unsigned (bits : Nat) : IntRange := ⟨0, ↑(1 <<< bits : Nat) - 1⟩

/-- The values of `bits` bits in two's complement. -/
def signed (bits : Nat) : IntRange := ⟨-↑(1 <<< (bits - 1) : Nat), ↑(1 <<< (bits - 1) : Nat) - 1⟩

end IntRange

/-- Why a text is not a number of the range. -/
inductive IntFault where
  | empty
  | badDigit
  | tooLarge
  | tooSmall
deriving DecidableEq, Repr

def IntFault.message : IntFault → String
  | .empty => "cannot parse integer from empty string"
  | .badDigit => "invalid digit found in string"
  | .tooLarge => "number too large to fit in target type"
  | .tooSmall => "number too small to fit in target type"

def IntFault.label : IntFault → String
  | .empty => "Empty"
  | .badDigit => "InvalidDigit"
  | .tooLarge => "PosOverflow"
  | .tooSmall => "NegOverflow"

def digitValue? (c : Char) : Option Nat :=
  if '0' ≤ c ∧ c ≤ '9' then some (c.toNat - 48) else none

/-- Reads digits onto `acc`, whose magnitude may not pass `bound`. -/
def readMagnitude (bound : Nat) (fault : IntFault) : Nat → List Char → Except IntFault Nat
  | acc, [] => .ok acc
  | acc, c :: cs =>
    match digitValue? c with
    | none => .error .badDigit
    | some d => if acc * 10 + d ≤ bound then readMagnitude bound fault (acc * 10 + d) cs else .error fault

def readInt (range : IntRange) (text : List Char) : Except IntFault Int :=
  match text with
  | [] => .error .empty
  | ['+'] => .error .badDigit
  | ['-'] => .error .badDigit
  | '+' :: digits => (readMagnitude range.greatest.toNat .tooLarge 0 digits).map Int.ofNat
  | '-' :: digits =>
    if range.least < 0 then (readMagnitude (-range.least).toNat .tooSmall 0 digits).map fun n => -Int.ofNat n
    else .error .badDigit
  | digits => (readMagnitude range.greatest.toNat .tooLarge 0 digits).map Int.ofNat

end BucketStore.Text
