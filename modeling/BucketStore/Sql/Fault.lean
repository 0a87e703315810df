/-
  BucketStore/Sql/Fault.lean
  ==========================
  **What a SQL client reports, and which kind of failure that is.**

  A server tells its faults by codes: PostgreSQL by the five-character state,
  MySQL by a number, with the state as a second opinion.  The codes that drivers
  act on have a class of their own; of the others the state's first two
  characters decide the kind.
-/
import BucketStore.Sql.Statement

namespace BucketStore.Sql

/-- What a server's code means to a driver. -/
inductive CodeClass where
  | duplicateKey
  | missingTable
  | tableExists
  | other
deriving DecidableEq, Repr

def Dialect.classify : Dialect → String → CodeClass
  | .postgres, code =>
    if code = "23505" then .duplicateKey
    else if code = "42P01" then .missingTable
    else if code = "42P07" then .tableExists
    else .other
  | .mysql, code =>
    if code = "1062" then .duplicateKey
    else if code = "1146" ∨ code = "1051" then .missingTable
    else if code = "1050" then .tableExists
    else .other

def kindOfState (state : String) : Kind :=
  let begins (head : String) : Bool := head.toList.isPrefixOf state.toList
  if begins "40" then .conflict
  else if begins "08" || begins "53" || begins "57" || begins "HY" then .unavailable
  else if begins "28" then .configuration
  else if begins "22" then .invalid
  else if begins "42S02" || state == "42P01" then .notFound
  else if begins "42" then .invalid
  else .backend

/-- A fault of the client or of the server behind it. -/
inductive Fault where
  | configuration (text : String)
  | io (text : String)
  | tls (text : String)
  | protocol (text : String)
  | rowNotFound
  | typeNotFound (name : String)
  | columnNotFound (name : String)
  | columnIndexOutOfBounds (index length : Nat)
  | columnDecode (index : Nat) (text : String)
  | encode (text : String)
  | decode (text : String)
  | poolTimedOut
  | poolClosed
  | workerCrashed
  | beginFailed
  /-- The server answers with a fault: its words, its state and its number. -/
  | server (text : String) (state : Option String) (number : Option Nat)
deriving DecidableEq, Repr

namespace Fault

def text : Fault → String
  | configuration t => s!"error with configuration: {t}"
  | io t => s!"error communicating with database: {t}"
  | tls t => s!"error occurred while attempting to establish a TLS connection: {t}"
  | protocol t => s!"encountered unexpected or invalid data: {t}"
  | rowNotFound => "no rows returned by a query that expected to return at least one row"
  | typeNotFound name => s!"type named {name} not found"
  | columnNotFound name => s!"no column found for name: {name}"
  | columnIndexOutOfBounds index length =>
    s!"column index out of bounds: the len is {length}, but the index is {index}"
  | columnDecode index t => s!"error occurred while decoding column {index}: {t}"
  | encode t => s!"error occurred while encoding a value: {t}"
  | decode t => s!"error occurred while decoding: {t}"
  | poolTimedOut => "pool timed out while waiting for an open connection"
  | poolClosed => "attempted to acquire a connection on a closed pool"
  | workerCrashed => "attempted to communicate with a crashed background worker"
  | beginFailed => "got unexpected connection status after attempting to begin transaction"
  | server t _ _ => s!"error returned from database: {t}"

def behind : Fault → List String
  | configuration t | io t | tls t | columnDecode _ t | encode t | decode t | server t _ _ => [t]
  | _ => []

def codeClass (d : Dialect) : Fault → CodeClass
  | server _ state number =>
    let code := match d with
      | .postgres => state
      | .mysql => number.map fun n => toString n
    (code.map d.classify).getD .other
  | _ => .other

def kind (d : Dialect) : Fault → Kind
  | io _ | tls _ | protocol _ | poolTimedOut => .unavailable
  | poolClosed | workerCrashed => .closed
  | configuration _ => .configuration
  | rowNotFound => .notFound
  | columnDecode _ _ | decode _ | columnNotFound _ | typeNotFound _ => .encoding
  | columnIndexOutOfBounds _ _ | encode _ | beginFailed => .backend
  | fault@(server _ state _) =>
    match fault.codeClass d with
    | .duplicateKey | .tableExists => .alreadyExists
    | .missingTable => .notFound
    | .other => (state.map kindOfState).getD .backend

def failure (d : Dialect) (fault : Fault) : Failure :=
  .foreign (fault.kind d) s!"{d.name} Error: {fault.text}"
    { text := fault.text, behind := fault.behind }

/-- The fault as a failure of a statement on a bucket's table. -/
def bucketFailure (d : Dialect) (bucket : Bytes) (fault : Fault) : Failure :=
  match fault.codeClass d with
  | .missingTable => .bucketNotFound bucket
  | _ => fault.failure d

def isLoss : Fault → Bool
  | io _ => true
  | _ => false

/-- A value was absent where a column has to have one. -/
def absentColumn (index : Nat) : Fault :=
  .columnDecode index "unexpected null; try decoding as an \x60Option\x60"

end Fault

end BucketStore.Sql
