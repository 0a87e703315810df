/-
  BucketStore/Failure/Outside.lean
  ================================
  **Failures made of faults from outside the library.**

  Input and output, text decoding and number reading report faults of their own;
  each becomes a `Failure` that keeps the fault as its cause.  Of the conditions
  of input and output, a broken connection is one that may pass.
-/
import BucketStore.Text.Integer
import BucketStore.Text.Quoted
import BucketStore.Failure

namespace BucketStore

/-- What kept input or output from succeeding. -/
inductive IoCondition where
  | permissionDenied
  | timedOut
  | connectionReset
  | connectionAborted
  | connectionRefused
  | other (name : String)
deriving DecidableEq, Repr

def IoCondition.name : IoCondition → String
  | .permissionDenied => "PermissionDenied"
  | .timedOut => "TimedOut"
  | .connectionReset => "ConnectionReset"
  | .connectionAborted => "ConnectionAborted"
  | .connectionRefused => "ConnectionRefused"
  | .other name => name

def IoCondition.kind : IoCondition → Kind
  | .permissionDenied => .configuration
  | .timedOut | .connectionReset | .connectionAborted | .connectionRefused => .unavailable
  | .other _ => .backend

namespace Failure

def ofIo (condition : IoCondition) (message : String) : Failure :=
  .foreign condition.kind s!"IO error: {message}"
    { text := message
      detail := s!"Custom \x7b kind: {condition.name}, error: {Text.Quoted.encode message} \x7d" }

def utf8Detail (bytes : Bytes) (fault : Text.Utf8.Fault) : String :=
  let (index, length) := match fault with
    | .invalid index length => (index, s!"Some({length})")
    | .truncated index => (index, "None")
  let listed := ", ".intercalate (bytes.map fun b => toString b.toNat)
  "FromUtf8Error \x7b bytes: [" ++ listed ++ "], error: Utf8Error \x7b valid_up_to: " ++
    toString index ++ ", error_len: " ++ length ++ " \x7d \x7d"

/-- The bytes are not the text that they should be. -/
def ofUtf8 (bytes : Bytes) (fault : Text.Utf8.Fault) : Failure :=
  .foreign .encoding s!"UTF-8 encoding error: {fault.message}"
    { text := fault.message, detail := utf8Detail bytes fault }

/-- The text is not the number that it should be. -/
def ofInt (fault : Text.IntFault) : Failure :=
  .foreign .configuration s!"Integer parsing error: {fault.message}"
    { text := fault.message, detail := s!"ParseIntError \x7b kind: {fault.label} \x7d" }

/-- A value could not be encoded, for a reason given in words. -/
def unencodable (reason : String) : Failure :=
  .stated .encoding s!"Encoding failed: OtherString({Text.Quoted.encode reason})"

end Failure

end BucketStore
