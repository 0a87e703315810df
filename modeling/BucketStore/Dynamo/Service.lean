/-
  BucketStore/Dynamo/Service.lean
  ===============================
  **The requests of the service, and a service in memory that answers them.**

  Every request is about one table, most of them about one item.  A put replaces
  the whole item, and puts and deletes may depend on a condition.  A scan answers
  at most so many items, and says where it stopped whenever it stopped for their
  number.
-/
import BucketStore.Action
import BucketStore.Dynamo.Config
import BucketStore.Dynamo.Fault
import BucketStore.Dynamo.Item

namespace BucketStore.Dynamo

/-! ### Requests and answers -/

inductive Request where
  | listTables (limit : Nat)
  | describeTable (table : String)
  | createTable (table : String) (billing : Billing)
  | deleteTable (table : String)
  | getItem (table key : String) (consistent : Bool)
  | putItem (table : String) (item : Attributes) (condition : Condition)
  | deleteItem (table key : String) (condition : Condition)
  | scan (table : String) (limit : Nat) (consistent : Bool) (start : Option String)
deriving DecidableEq, Repr

/-- What a request is answered with: of a description the status, if it is told; of a scan the
    items, and the key of the last one if there may be more. -/
def Request.Answer : Request → Type
  | describeTable _ => Option String
  | getItem _ _ _ => Option Attributes
  | scan _ _ _ _ => List Attributes × Option Attributes
  | listTables _ | createTable _ _ | deleteTable _ | putItem _ _ _ | deleteItem _ _ _ => Unit

/-- What answers requests, on states of type `σ`. -/
structure Service (σ : Type) where
  respond : (r : Request) → σ → Except Fault r.Answer × σ
  /-- More pages than a scan of the table has. -/
  pageBound : σ → String → Nat

/-! ### A service in memory -/

structure Table where
  items : KeyMap String Attributes := {}
  status : String := "ACTIVE"
deriving DecidableEq, Repr

/-- The tables of a service by name. -/
abbrev Tables := KeyMap String Table

namespace Tables

def missing : Fault := .service (some notFound) (some "no such table")
def existing : Fault := .service (some inUse) (some "table exists")
def failed : Fault := .service (some conditionFailed) (some "condition failed")

def reading {α : Type} (name : String) (look : Table → α) (tables : Tables) :
    Except Fault α × Tables :=
  match tables.get? name with
  | some table => (.ok (look table), tables)
  | none => (.error missing, tables)

/-- Puts an item in place of what is stored under a key, or takes it away, if a condition holds. -/
def writing (name key : String) (item : Option Attributes) (condition : Condition)
    (tables : Tables) : Except Fault Unit × Tables :=
  match tables.get? name with
  | none => (.error missing, tables)
  | some table =>
    if condition.holds (table.items.get? key) then
      (.ok (), tables.insert name { table with items := table.items.put key item })
    else (.error failed, tables)

def keyOf (item : Attributes) : String :=
  match item.get? keyName with
  | some (.text s) => s
  | _ => ""

def page (limit : Nat) (start : Option String) (table : Table) :
    List Attributes × Option Attributes :=
  let taken := (table.items.after start).take limit
  (taken.map (·.2),
    if taken.length = limit then taken.getLast?.map fun e => keyAttributes e.1 else none)

def respond : (r : Request) → Tables → Except Fault r.Answer × Tables
  | .listTables _, tables => (.ok (), tables)
  | .describeTable name, tables => reading name (fun table => some table.status) tables
  | .createTable name _, tables =>
    match tables.get? name with
    | some _ => (.error existing, tables)
    | none => (.ok (), tables.insert name {})
  | .deleteTable name, tables =>
    match tables.get? name with
    | some _ => (.ok (), tables.erase name)
    | none => (.error missing, tables)
  | .getItem name key _, tables => reading name (fun table => table.items.get? key) tables
  | .putItem name item condition, tables =>
    writing name (keyOf item) (some item) condition tables
  | .deleteItem name key condition, tables => writing name key none condition tables
  | .scan name limit _ start, tables => reading name (page limit start) tables

def service : Service Tables where
  respond := respond
  pageBound tables name := ((tables.get? name).map fun table => table.items.size).getD 0 + 2

end Tables

/-! ### Services that follow a script -/

/-- A rule for the requests number `first` to `first + times - 1`. -/
structure ServiceRule where
  first : Nat
  times : Nat := 1
  /-- The request is carried out before it is answered. -/
  after : Bool := false
  fault : Fault
deriving DecidableEq, Repr

/-- Does the rule apply to the request of that number? -/
def ServiceRule.matches (rule : ServiceRule) (n : Nat) : Bool :=
  rule.first ≤ n && n < rule.first + rule.times

/-- A service with a script, and what it received. -/
structure ScriptedService where
  tables : Tables := {}
  rules : List ServiceRule := []
  /-- The requests since the rules were set. -/
  count : Nat := 0
  received : List Request := []

namespace ScriptedService

def respond (r : Request) (s : ScriptedService) : Except Fault r.Answer × ScriptedService :=
  let rule? := s.rules.find? fun rule => rule.matches s.count
  let s := { s with count := s.count + 1, received := s.received ++ [r] }
  let (answer, tables) := Tables.respond r s.tables
  match rule? with
  | none => (answer, { s with tables })
  | some rule => (.error rule.fault, if rule.after then { s with tables } else s)

def service : Service ScriptedService where
  respond := respond
  pageBound s := Tables.service.pageBound s.tables

/-- Puts a script in place and starts counting anew. -/
def install (rules : List ServiceRule) (s : ScriptedService) : ScriptedService :=
  { s with rules, count := 0 }

end ScriptedService

end BucketStore.Dynamo
