/-
  BucketStore/Sql/Server.lean
  ===========================
  **A SQL server in memory: what the statements do to tables.**

  A table maps keys to values in key order.  Beginning a transaction keeps a copy
  of all tables, rolling back brings the copy back, and committing forgets it.  When
  the isolation of a transaction may be set depends on the dialect, and on PostgreSQL
  a transaction in which something was refused can only be ended.  The server is sent
  texts and values, and does what they say (`Statement.read?`); a text that says nothing
  it knows of is refused.

  A server may follow a script that fails statements, loses connections or empties
  columns.
-/
import BucketStore.KeyMap
import BucketStore.Sql.Client
import BucketStore.Sql.Reading

namespace BucketStore.Sql

/-! ### What statements mean -/

/-- The values of a table by their keys. -/
abbrev Rows := KeyMap Bytes Bytes

def pairRow (pair : Bytes × Bytes) : Row := [some pair.1, some pair.2]

/-- The answer of a statement about a table, if the table is there, and what the table is afterwards;
    or the class of fault that it is refused with. -/
def TableStatement.meaning :
    TableStatement → Option Rows → Except CodeClass (List Row × Option Rows)
  | .create, none => .ok ([], some {})
  | .create, some _ => .error .tableExists
  | _, none => .error .missingTable
  | .drop, some _ => .ok ([], none)
  | .select _ key, some rows =>
    .ok ((rows.get? key).toList.map fun value => [some value], some rows)
  | .insert key value, some rows =>
    if rows.contains key then .error .duplicateKey else .ok ([], some (rows.insert key value))
  | .upsert key value, some rows => .ok ([], some (rows.insert key value))
  | .updateValue key value, some rows =>
    .ok ([], some (if rows.contains key then rows.insert key value else rows))
  | .delete key, some rows => .ok ([], some (rows.erase key))
  | .firstPage limit, some rows => .ok ((rows.entries.take limit).map pairRow, some rows)
  | .nextPage after limit, some rows =>
    .ok (((rows.after (some after)).take limit).map pairRow, some rows)

/-! ### The server -/

/-- The tables of a server by name. -/
abbrev Tables := KeyMap String Rows

/-- The tables and the session of a client. -/
structure Server where
  tables : Tables := {}
  /-- The tables as they were when the open transaction began. -/
  saved : Option Tables := none
  /-- The isolation that was set for the open transaction, or for the next one. -/
  isolation : Option Isolation := none
  /-- Was anything asked in the open transaction? -/
  queried : Bool := false
  /-- Was anything refused in the open transaction, so that it can only be ended? -/
  failed : Bool := false
deriving DecidableEq, Repr

namespace Server

/-- Something is asked. An isolation that was set before is that of one transaction only, and a
    statement outside of transactions is one. -/
def asked (s : Server) : Server :=
  if s.saved.isSome then { s with queried := true } else { s with isolation := none }

/-- Something is refused. On PostgreSQL the open transaction has failed. -/
def refused (d : Dialect) (s : Server) : Server :=
  if s.saved.isSome && d == .postgres then { s.asked with failed := true } else s.asked

def begun (s : Server) : Server := { s with saved := some s.tables, queried := false }

def committed (s : Server) : Server := { tables := s.tables }

/-- A lost connection takes the open transaction with it, too. -/
def rolledBack (s : Server) : Server := { tables := s.saved.getD s.tables }

/-- May the isolation of a transaction be set now? PostgreSQL takes it in the transaction, before
    anything is asked there, and MySQL before the transaction begins. -/
def takesIsolation (d : Dialect) (s : Server) : Bool :=
  match d with
  | .postgres => s.saved.isSome && !s.queried
  | .mysql => s.saved.isNone

/-! ### Faults -/

/-- A fault that a dialect's server answers with: words, state and number. -/
def fault (d : Dialect) (text state : String) (number : Nat) : Fault :=
  match d with
  | .postgres => .server text (some state) none
  | .mysql => .server s!"{number} ({state}): {text}" (some state) (some number)

def stateOf (d : Dialect) (postgres mysql : String) : String :=
  match d with
  | .postgres => postgres
  | .mysql => mysql

/-- The fault of a statement that is refused. -/
def faultOf (d : Dialect) (dropping : Bool) : CodeClass → Fault
  | .tableExists => fault d "table exists" (stateOf d "42P07" "42S01") 1050
  | .missingTable =>
    fault d "no such table" (stateOf d "42P01" "42S02") (if dropping then 1051 else 1146)
  | .duplicateKey => fault d "duplicate key" (stateOf d "23505" "23000") 1062
  | .other => fault d "internal error" (stateOf d "XX000" "HY000") 1815

/-- What is answered to all but the end of a failed transaction. -/
def transactionFailed : Fault := fault .postgres "the transaction is aborted" "25P02" 0

def isolationRefused (d : Dialect) : Fault := fault d "the transaction is in progress" "25001" 1568

def notUnderstood (d : Dialect) : Fault := fault d "syntax error" (stateOf d "42601" "42000") 1064

/-! ### Executing statements -/

def versionText : Dialect → String
  | .postgres => "16.1"
  | .mysql => "8.0.36"

/-- Executes a statement that does not end a transaction. -/
def proceed (d : Dialect) (statement : Statement) (s : Server) :
    Except Fault (List Row) × Server :=
  match statement with
  | .on table t =>
    match t.meaning (s.tables.get? table.name) with
    | .ok (rows, after) => (.ok rows, { s.asked with tables := s.tables.put table.name after })
    | .error refusal => (.error (faultOf d (t == .drop) refusal), s.refused d)
  | .beginTransaction =>
    -- PostgreSQL only warns of a transaction that is open; MySQL commits it.
    (.ok [], if s.saved.isSome && d == .postgres then s else s.begun)
  | .isolate level =>
    if s.takesIsolation d then (.ok [], { s with isolation := some level })
    else if s.saved.isSome then (.error (isolationRefused d), s.refused d)
    else (.ok [], s)
  | .version => (.ok [[some (Bytes.ofString (versionText d))]], s.asked)
  | _ => (.ok [[some (Bytes.ofString "1")]], s.asked)

def execute (d : Dialect) (statement : Statement) (s : Server) :
    Except Fault (List Row) × Server :=
  match statement with
  | .commit => (.ok [], if s.failed then s.rolledBack else s.committed)
  | .rollback => (.ok [], s.rolledBack)
  | statement => if s.failed then (.error transactionFailed, s) else proceed d statement s

/-- Executes the statement that a text makes with its values. -/
def answer (d : Dialect) (text : String) (parameters : List Parameter) (s : Server) :
    Except Fault (List Row) × Server :=
  match Statement.read? d text parameters with
  | some statement => execute d statement s
  | none => (.error (notUnderstood d), s.refused d)

/-- A server that answers every statement as it should. -/
def service (d : Dialect) : Service Server where
  login _ := .ok ()
  execute text parameters s :=
    let (reply, s) := answer d text parameters s
    ⟨reply, s, []⟩
  pageBound s table := ((s.tables.get? table).map KeyMap.size).getD 0 + 1

end Server

/-! ### Servers that follow a script -/

/-- A rule for the statements number `first` to `first + times - 1`. -/
structure ServerRule where
  first : Nat
  times : Nat := 1
  /-- The statement is executed before the rule strikes. -/
  after : Bool := false
  /-- The last column of every row comes back empty. -/
  empties : Bool := false
  loses : Bool := false
  /-- The server answers with this fault: state, number and words. -/
  error : Option (String × Nat × String) := none
deriving DecidableEq, Repr

/-- Does the rule apply to the statement of that number? -/
def ServerRule.matches (rule : ServerRule) (n : Nat) : Bool :=
  rule.first ≤ n && n < rule.first + rule.times

/-- A server with a script. -/
structure ScriptedServer where
  server : Server := {}
  /-- The answer to a login, if it is refused: state, number and words. -/
  refusal : Option (String × Nat × String) := none
  rules : List ServerRule := []
  /-- The statements since the rules were set. -/
  count : Nat := 0
deriving DecidableEq, Repr

namespace ScriptedServer

def lost (d : Dialect) : Fault :=
  let expected := match d with
    | .postgres => 5
    | .mysql => 4
  .io s!"expected to read {expected} bytes, got 0 bytes at EOF"

def emptyLast (row : Row) : Row := row.dropLast ++ row.getLast?.toList.map fun _ => none

/-- Answers a text as the script says, where it is executed like this. A rollback is always carried out
    first. -/
def follow (d : Dialect) (text : String) (execute : Server → Except Fault (List Row) × Server)
    (s : ScriptedServer) : Except Fault (List Row) × ScriptedServer :=
  let rule? := s.rules.find? fun rule => rule.matches s.count
  let s := { s with count := s.count + 1 }
  let executed := execute s.server
  match rule? with
  | none => (executed.1, { s with server := executed.2 })
  | some rule =>
    let strikes := rule.loses || rule.error.isSome
    let first := rule.after || text == Statement.rollback.text d || !strikes
    let server := if first then executed.2 else s.server
    if rule.loses then (.error (lost d), { s with server := server.rolledBack })
    else
      match rule.error with
      | some (state, number, text) =>
        (.error (Server.fault d text state number), { s with server := server.refused d })
      | none =>
        (executed.1.map fun rows => if rule.empties then rows.map emptyLast else rows,
          { s with server })

def service (d : Dialect) : Service ScriptedServer where
  login s :=
    match s.refusal with
    | some (state, number, text) => .error (Server.fault d text state number)
    | none => .ok ()
  execute text parameters s :=
    let (reply, s) := follow d text (Server.answer d text parameters) s
    ⟨reply, s, []⟩
  pageBound s table := (Server.service d).pageBound s.server table

end ScriptedServer

end BucketStore.Sql
