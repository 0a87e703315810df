/-
  BucketStore/Sql/Client.lean
  ===========================
  **The client between a driver and a SQL server: a pool and its open transaction.**

  A driver's work is a program that connects, executes statements and, when it
  gives up in the middle of a transaction, abandons it.  The client notes whether
  a transaction is open: one that is abandoned is rolled back, unless it never
  began or its connection is lost.  Once the pool is closed no statement reaches
  the server.
-/
import BucketStore.Program
import BucketStore.Sql.Fault

namespace BucketStore.Sql

/-! ### Programs -/

/-- A row of an answer; a column may hold nothing. -/
abbrev Row := List (Option Bytes)

inductive Call where
  | connect
  | execute (statement : Statement)
  /-- Rolls back the open transaction, if there is one. -/
  | abandon
deriving DecidableEq, Repr

def Call.Reply : Call → Type
  | connect => Except Fault Unit
  | execute _ => Except Fault (List Row)
  | abandon => Unit

/-- A program over the client's calls. -/
abbrev Protocol (α : Type) := Program Call Call.Reply α

namespace Protocol

/-- Opens a connection, with a fault for an answer. -/
def tryConnect : Protocol (Except Fault Unit) := .call .connect fun r => .done r

/-- Executes a statement, with a fault for an answer. -/
def tryExecute (s : Statement) : Protocol (Except Fault (List Row)) :=
  .call (.execute s) fun r => .done r

/-- Executes a statement; a fault fails the program in the words given. -/
def execute (failure : Fault → Failure) (s : Statement) : Protocol (List Row) :=
  .call (.execute s) fun
    | .ok rows => .done rows
    | .error fault => .fail (failure fault)

def perform (failure : Fault → Failure) (s : Statement) : Protocol Unit := do
  let _ ← execute failure s

/-- Runs a program that begins a transaction and ends it; if it fails, the transaction is
    abandoned. -/
def transaction {α : Type} (p : Protocol α) : Protocol α := do
  match ← p.attempt with
  | .ok a => return a
  | .error f => .call .abandon fun () => .fail f

end Protocol

/-! ### The client -/

/-- The state of a client of a server in state `σ`. -/
structure Client (σ : Type) where
  server : σ
  /-- The server's version, once it is known. -/
  version : String := "unknown"
  /-- Has a transaction begun, and not ended? -/
  inTransaction : Bool := false
  closed : Bool := false

/-- What replies on the server's side to a login and to the texts of statements, each with the values
    for its places. -/
structure Service (σ : Type) where
  login : σ → Except Fault Unit
  execute : String → List Parameter → σ → Step σ (Except Fault (List Row))
  /-- More pages than a listing of the table has. -/
  pageBound : σ → String → Nat

namespace Client

variable {σ : Type}

/-- Is a transaction open after a statement that was replied to like this? -/
def opensAfter (before : Bool) (s : Statement) : Except Fault (List Row) → Bool
  | .error fault => if fault.isLoss then false else if s = .beginTransaction then false else before
  | .ok _ =>
    match s with
    | .beginTransaction => true
    | .commit | .rollback => false
    | _ => before

/-- Sends a statement to what executes it, unless the pool is closed. -/
def send (execute : Statement → σ → Step σ (Except Fault (List Row))) (s : Statement) (c : Client σ) :
    Step (Client σ) (Except Fault (List Row)) :=
  if c.closed then ⟨.error .poolClosed, c, []⟩
  else
    let r := execute s c.server
    let inTransaction := opensAfter c.inTransaction s r.reply
    ⟨r.reply, { c with server := r.state, inTransaction }, r.log⟩

/-- A client of what executes statements. -/
def respondBy (login : σ → Except Fault Unit)
    (execute : Statement → σ → Step σ (Except Fault (List Row))) :
    Responder Call Call.Reply (Client σ)
  | .connect, c => ⟨login c.server, c, []⟩
  | .execute s, c => c.send execute s
  | .abandon, c =>
    if c.inTransaction then
      let r := c.send execute .rollback
      ⟨(), { r.state with inTransaction := false }, r.log⟩
    else ⟨(), c, []⟩

/-- A client of a service, which is sent the texts of statements and their parameters. -/
def respond (service : Service σ) (d : Dialect) : Responder Call Call.Reply (Client σ) :=
  respondBy service.login fun s => service.execute (s.text d) s.parameters

end Client

end BucketStore.Sql
