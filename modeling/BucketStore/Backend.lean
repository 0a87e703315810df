/-
  BucketStore/Backend.lean
  ========================
  **The storage engines that a database can be opened on.**
-/
import BucketStore.Text.Blank
import BucketStore.Failure

namespace BucketStore

inductive Backend where
  | memory
  | fjall
  | redb
  | dynamodb
  | postgres
  | mysql
deriving DecidableEq, Repr

namespace Backend

def name : Backend → String
  | memory => "memory"
  | fjall => "fjall"
  | redb => "redb"
  | dynamodb => "dynamodb"
  | postgres => "postgres"
  | mysql => "mysql"

/-- An embedded engine is located by a path in the file system. -/
def isEmbedded : Backend → Bool
  | fjall | redb => true
  | _ => false

/-- Reads the name of an engine or one of its short forms, in any case and between blanks. -/
def ofName? (text : String) : Except Failure Backend :=
  let name := Text.lowerAscii (Text.trim text)
  if name = "memory" ∨ name = "mem" then .ok memory
  else if name = "fjall" then .ok fjall
  else if name = "redb" then .ok redb
  else if name = "dynamodb" ∨ name = "dynamo" then .ok dynamodb
  else if name = "postgres" ∨ name = "postgresql" then .ok postgres
  else if name = "mysql" ∨ name = "mariadb" then .ok mysql
  else .error (.stated .configuration s!"unknown backend '{name}'")

end Backend

end BucketStore
