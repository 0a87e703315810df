/-
  BucketStore/TableFile/Fault.lean
  ================================
  **What a table file reports, and which kind of failure that is.**
-/
import BucketStore.Failure

namespace BucketStore.TableFile

/-- A fault of the engine behind a table file. -/
inductive Fault where
  | tableDoesNotExist (table : String)
  | tableExists (table : String)
  | tableIsMultimap (table : String)
  /-- The table has keys or values of another type. -/
  | otherType (table type : String)
  | corrupted (text : String)
  | io (text : String)
  | alreadyOpen
  | databaseClosed
  | previousIo
  | repairAborted
  | invalidSavepoint
  | upgradeRequired (version : String)
  | valueTooLarge (length : String)
deriving DecidableEq, Repr

namespace Fault

def text : Fault → String
  | tableDoesNotExist t => s!"Table '{t}' does not exist"
  | tableExists t => s!"Table '{t}' already exists"
  | tableIsMultimap t => s!"{t} is a multimap table"
  | otherType t type => s!"{t} is of type {type}"
  | corrupted m => s!"DB corrupted: {m}"
  | io m => s!"I/O error: {m}"
  | alreadyOpen => "Database already open. Cannot acquire lock."
  | databaseClosed => "Database has been closed"
  | previousIo => "Previous I/O error occurred. Please close and re-open the database."
  | repairAborted => "Database repair aborted."
  | invalidSavepoint => "Savepoint is invalid or cannot be created."
  | upgradeRequired v =>
    s!"Manual upgrade required. Expected file format version 3, but file is version {v}"
  | valueTooLarge n => s!"The value (length={n}) being inserted exceeds the maximum of 3GiB"

def kind : Fault → Kind
  | tableDoesNotExist _ => .notFound
  | io _ | alreadyOpen => .unavailable
  | valueTooLarge _ => .invalid
  | _ => .backend

/-- The fault as a failure. Of a fault of input and output, what lies behind it is kept. -/
def failure (fault : Fault) : Failure :=
  let message := s!"Redb Error: {fault.text}"
  match fault with
  | io m => .foreign fault.kind message { text := m }
  | _ => .stated fault.kind message

end Fault

end BucketStore.TableFile
