/-
  BucketStore/Sql/Statement.lean
  ==============================
  **The statements that SQL servers are sent, and how each dialect writes them.**

  A bucket is a table of two columns, the key and the value.  A bucket's name has
  to be an identifier, so that quoting it is all that has to be done to it.  What
  a statement means does not depend on the dialect; its text does.
-/
import BucketStore.Failure
import BucketStore.Text.Quoted

namespace BucketStore.Sql

/-- The dialects of SQL servers. -/
inductive Dialect where
  | postgres
  | mysql
deriving DecidableEq, Repr

def Dialect.name : Dialect → String
  | .postgres => "PostgreSQL"
  | .mysql => "MySQL"

/-! ### Tables of buckets -/

inductive NameFault where
  | empty
  | tooLong (length limit : Nat)
  | notIdentifier (name : String)
deriving DecidableEq, Repr

def NameFault.message : NameFault → String
  | .empty => "bucket name must not be empty"
  | .tooLong length limit => s!"bucket name is {length} bytes long, the limit is {limit}"
  | .notIdentifier name => s!"bucket name {Text.Quoted.encode name} is not a SQL identifier"

def NameFault.failure (fault : NameFault) : Failure := .stated .invalid fault.message

/-- The greatest length of an identifier in bytes. -/
def Dialect.maxIdentifier : Dialect → Nat
  | .postgres => 63
  | .mysql => 64

/-- A letter or `_`. -/
def isNameStart (b : UInt8) : Bool :=
  (0x41 ≤ b && b ≤ 0x5A) || (0x61 ≤ b && b ≤ 0x7A) || b == 0x5F

/-- A letter, a digit or `_`. -/
def isNamePart (b : UInt8) : Bool := isNameStart b || (0x30 ≤ b && b ≤ 0x39)

/-- Letters, digits and `_`, and no digit in front. -/
def isIdentifier (bucket : Bytes) : Bool := bucket.head?.any isNameStart && bucket.all isNamePart

/-- A table, by the bytes of its name. -/
structure Table where
  bytes : Bytes
  identifier : isIdentifier bytes = true
deriving DecidableEq, Repr

def Table.name (t : Table) : String := String.ofList (t.bytes.map fun b => Char.ofNat b.toNat)

def Dialect.table (d : Dialect) (bucket : Bytes) : Except NameFault Table :=
  if bucket.isEmpty then .error .empty
  else if d.maxIdentifier < bucket.length then .error (.tooLong bucket.length d.maxIdentifier)
  else if h : isIdentifier bucket then .ok ⟨bucket, h⟩
  else .error (.notIdentifier (Text.Utf8.lossy bucket))

/-- The character that names of tables are quoted with. -/
def Dialect.quotation : Dialect → Char
  | .postgres => '"'
  | .mysql => '\x60'

/-- The name of a table as it stands in statements. -/
def Dialect.quote (d : Dialect) (name : String) : String :=
  String.singleton d.quotation ++ name ++ String.singleton d.quotation

/-! ### Statements -/

/-- How far a transaction is kept apart from others. -/
inductive Isolation where
  | repeatableRead
  | serializable
deriving DecidableEq, Repr

/-- A statement about one table. -/
inductive TableStatement where
  | create
  | drop
  /-- Reads a value, and keeps others from writing it if it is read for an update. -/
  | select (forUpdate : Bool) (key : Bytes)
  | insert (key value : Bytes)
  /-- Adds a key or overwrites its value. -/
  | upsert (key value : Bytes)
  /-- Overwrites the value of a key that is there. -/
  | updateValue (key value : Bytes)
  | delete (key : Bytes)
  | firstPage (limit : Nat)
  | nextPage (after : Bytes) (limit : Nat)
deriving DecidableEq, Repr

inductive Statement where
  | on (table : Table) (statement : TableStatement)
  | beginTransaction
  | commit
  | rollback
  | isolate (level : Isolation)
  | ping
  | version
deriving DecidableEq, Repr

/-- A value bound to a place in a statement. -/
inductive Parameter where
  | bytes (value : Bytes)
  | number (value : Nat)
deriving DecidableEq, Repr

namespace Dialect

/-- How the first and second place for a parameter are written. -/
def place (d : Dialect) (index : Nat) : String :=
  match d with
  | .postgres => s!"${index}"
  | .mysql => "?"

def columns : Dialect → String
  | .postgres => "nkey BYTEA PRIMARY KEY, nvalue BYTEA NOT NULL"
  | .mysql => "nkey VARBINARY(767) NOT NULL PRIMARY KEY, nvalue LONGBLOB NOT NULL"

/-- What a row that is there already turns an insert into. -/
def orOverwrite : Dialect → String
  | .postgres => "ON CONFLICT (nkey) DO UPDATE SET nvalue = EXCLUDED.nvalue"
  | .mysql => "ON DUPLICATE KEY UPDATE nvalue = VALUES(nvalue)"

def updateIsolation : Dialect → Isolation
  | .postgres => .serializable
  | .mysql => .repeatableRead

/-- Is the isolation of a transaction set before it begins? -/
def isolatesFirst : Dialect → Bool
  | .postgres => false
  | .mysql => true

end Dialect

def Isolation.text : Isolation → String
  | .repeatableRead => "SET TRANSACTION ISOLATION LEVEL REPEATABLE READ"
  | .serializable => "SET TRANSACTION ISOLATION LEVEL SERIALIZABLE"

/-- The text of a statement about a table that is written as given. -/
def TableStatement.text (d : Dialect) (table : String) : TableStatement → String
  | .create => s!"CREATE TABLE {table} ({d.columns})"
  | .drop => s!"DROP TABLE {table}"
  | .select forUpdate _ =>
    s!"SELECT nvalue FROM {table} WHERE nkey = {d.place 1}" ++
      if forUpdate then " FOR UPDATE" else ""
  | .insert _ _ => s!"INSERT INTO {table} (nkey, nvalue) VALUES ({d.place 1}, {d.place 2})"
  | .upsert _ _ =>
    s!"INSERT INTO {table} (nkey, nvalue) VALUES ({d.place 1}, {d.place 2}) {d.orOverwrite}"
  | .updateValue _ _ => s!"UPDATE {table} SET nvalue = {d.place 1} WHERE nkey = {d.place 2}"
  | .delete _ => s!"DELETE FROM {table} WHERE nkey = {d.place 1}"
  | .firstPage _ => s!"SELECT nkey, nvalue FROM {table} ORDER BY nkey LIMIT {d.place 1}"
  | .nextPage _ _ =>
    s!"SELECT nkey, nvalue FROM {table} WHERE nkey > {d.place 1} ORDER BY nkey LIMIT {d.place 2}"

/-- The parameters of a statement, in order of their places. -/
def TableStatement.parameters : TableStatement → List Parameter
  | .create | .drop => []
  | .select _ key | .delete key => [.bytes key]
  | .insert key value | .upsert key value => [.bytes key, .bytes value]
  | .updateValue key value => [.bytes value, .bytes key]
  | .firstPage limit => [.number limit]
  | .nextPage after limit => [.bytes after, .number limit]

namespace Statement

def text (d : Dialect) : Statement → String
  | on table statement => statement.text d (d.quote table.name)
  | beginTransaction => "BEGIN"
  | commit => "COMMIT"
  | rollback => "ROLLBACK"
  | isolate level => level.text
  | ping => "SELECT 1"
  | version =>
    match d with
    | .postgres => "SHOW server_version"
    | .mysql => "SELECT VERSION()"

def parameters : Statement → List Parameter
  | on _ statement => statement.parameters
  | _ => []

end Statement

end BucketStore.Sql
