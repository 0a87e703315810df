/-
  BucketStore/Sql/Reading.lean
  ============================
  **What a statement's text says to a server.**

  A server is not sent a statement but a text, and beside it the values for the places
  in the text.  `Statement.read?` is the statement that they make: the text is cut into
  words, each place takes its value, and what is left is read keyword by keyword, as far
  as statements are written by drivers.  It is written without regard to
  `Statement.text` and `Statement.parameters`.
-/
import BucketStore.Sql.Statement
import BucketStore.Text.Integer
import BucketStore.Text.Words

namespace BucketStore.Sql

/-! ### Words and values -/

/-- A mark is a word of its own. -/
def isMark (c : Char) : Bool := c == '(' || c == ')' || c == ',' || c == '=' || c == '>'

/-- What statements are made of: keywords and names of columns, tables, and places for values or, once
    they are bound, the values. -/
inductive Lexeme where
  | word (text : String)
  | table (table : Table)
  | place (number : Nat)
  | value (parameter : Parameter)
deriving DecidableEq, Repr

namespace Dialect

/-- The table whose name stands between the quotes of a word. -/
def quoted? (d : Dialect) (word : String) : Option Table :=
  match word.toList with
  | first :: rest =>
    if first = d.quotation ∧ rest.getLast? = some d.quotation then
      let name := Bytes.ofString (String.ofList rest.dropLast)
      if h : isIdentifier name then some ⟨name, h⟩ else none
    else none
  | [] => none

/-- The number of the place that a word is: PostgreSQL writes it down, MySQL counts from the left. -/
def place? (d : Dialect) (next : Nat) (word : String) : Option Nat :=
  match d, word.toList with
  | .postgres, '$' :: digits =>
    (digits.mapM Text.digitValue?).map (List.foldl (fun n digit => n * 10 + digit) 0)
  | .mysql, ['?'] => some next
  | _, _ => none

/-- The lexemes of words, where the next place to be counted has the number `next`. -/
def lexemesFrom (d : Dialect) (next : Nat) : List String → List Lexeme
  | [] => []
  | word :: rest =>
    match d.place? next word, d.quoted? word with
    | some number, _ => .place number :: d.lexemesFrom (next + 1) rest
    | none, some table => .table table :: d.lexemesFrom next rest
    | none, none => .word word :: d.lexemesFrom next rest

/-- The lexemes of a text; the first place has the number one. -/
def lexemes (d : Dialect) (text : String) : List Lexeme := d.lexemesFrom 1 (Text.words isMark text)

end Dialect

/-- Puts the values in their places. -/
def bind? (parameters : List Parameter) : List Lexeme → Option (List Lexeme)
  | [] => some []
  | .place 0 :: _ => none
  | .place (index + 1) :: rest => return .value (← parameters[index]?) :: (← bind? parameters rest)
  | lexeme :: rest => return lexeme :: (← bind? parameters rest)

/-- How many values the places of a statement take. -/
def placesOf : List Lexeme → Nat
  | [] => 0
  | .place number :: rest => max number (placesOf rest)
  | _ :: rest => placesOf rest

/-! ### Reading statements -/

/-- Reads a part of a statement off the front. -/
abbrev Read := StateT (List Lexeme) Option

namespace Read

def word (text : String) : Read Unit := fun
  | .word found :: rest => if found = text then some ((), rest) else none
  | _ => none

def words (texts : List String) : Read Unit := texts.forM word

/-- Reads these words if they are there, and tells whether they are. -/
def optionally (texts : List String) : Read Bool := fun lexemes =>
  match words texts lexemes with
  | some ((), rest) => some (true, rest)
  | none => some (false, lexemes)

def table : Read Table := fun
  | .table table :: rest => some (table, rest)
  | _ => none

def bytes : Read Bytes := fun
  | .value (.bytes value) :: rest => some (value, rest)
  | _ => none

def number : Read Nat := fun
  | .value (.number value) :: rest => some (value, rest)
  | _ => none

/-! ### Statements about tables -/

/-- The columns of a bucket's table. -/
def columns : Dialect → List String
  | .postgres => ["nkey", "BYTEA", "PRIMARY", "KEY", ",", "nvalue", "BYTEA", "NOT", "NULL"]
  | .mysql => ["nkey", "VARBINARY", "(", "767", ")", "NOT", "NULL", "PRIMARY", "KEY", ",", "nvalue",
      "LONGBLOB", "NOT", "NULL"]

def create (d : Dialect) : Read Statement := do
  words ["CREATE", "TABLE"]
  let table ← table
  words ["("]
  words (columns d)
  words [")"]
  return .on table .create

def drop : Read Statement := do
  words ["DROP", "TABLE"]
  return .on (← table) .drop

def select : Read Statement := do
  words ["SELECT", "nvalue", "FROM"]
  let table ← table
  words ["WHERE", "nkey", "="]
  let key ← bytes
  return .on table (.select (← optionally ["FOR", "UPDATE"]) key)

/-- The words that let an insert overwrite the value of a key that is there. -/
def overwriting : Dialect → List String
  | .postgres => ["ON", "CONFLICT", "(", "nkey", ")", "DO", "UPDATE", "SET", "nvalue", "=",
      "EXCLUDED.nvalue"]
  | .mysql => ["ON", "DUPLICATE", "KEY", "UPDATE", "nvalue", "=", "VALUES", "(", "nvalue", ")"]

def insert (d : Dialect) : Read Statement := do
  words ["INSERT", "INTO"]
  let table ← table
  words ["(", "nkey", ",", "nvalue", ")", "VALUES", "("]
  let key ← bytes
  words [","]
  let value ← bytes
  words [")"]
  if ← optionally (overwriting d) then return .on table (.upsert key value)
  else return .on table (.insert key value)

def update : Read Statement := do
  words ["UPDATE"]
  let table ← table
  words ["SET", "nvalue", "="]
  let value ← bytes
  words ["WHERE", "nkey", "="]
  return .on table (.updateValue (← bytes) value)

def delete : Read Statement := do
  words ["DELETE", "FROM"]
  let table ← table
  words ["WHERE", "nkey", "="]
  return .on table (.delete (← bytes))

def page : Read Statement := do
  words ["SELECT", "nkey", ",", "nvalue", "FROM"]
  let table ← table
  let after ← if ← optionally ["WHERE", "nkey", ">"] then some <$> bytes else pure none
  words ["ORDER", "BY", "nkey", "LIMIT"]
  let limit ← number
  return .on table (match after with
    | none => .firstPage limit
    | some after => .nextPage after limit)

/-! ### Other statements -/

def versionQuestion : Dialect → List String
  | .postgres => ["SHOW", "server_version"]
  | .mysql => ["SELECT", "VERSION", "(", ")"]

/-- A statement that is written with these words only. -/
def fixed (texts : List String) (statement : Statement) : Read Statement := do
  words texts
  return statement

def isolation (level : List String) : List String :=
  ["SET", "TRANSACTION", "ISOLATION", "LEVEL"] ++ level

/-- All forms of statements. -/
def forms (d : Dialect) : List (Read Statement) :=
  [create d, drop, select, insert d, update, delete, page,
    fixed ["BEGIN"] .beginTransaction, fixed ["COMMIT"] .commit, fixed ["ROLLBACK"] .rollback,
    fixed (isolation ["REPEATABLE", "READ"]) (.isolate .repeatableRead),
    fixed (isolation ["SERIALIZABLE"]) (.isolate .serializable),
    fixed ["SELECT", "1"] .ping, fixed (versionQuestion d) .version]

end Read

/-- The statement that the lexemes make, if they make one. -/
def Statement.ofLexemes? (d : Dialect) (lexemes : List Lexeme) : Option Statement :=
  (Read.forms d).findSome? fun form =>
    match form lexemes with
    | some (statement, []) => some statement
    | _ => none

/-- The statement that a text makes with the values for its places, if there are as many as it takes. -/
def Statement.read? (d : Dialect) (text : String) (parameters : List Parameter) : Option Statement :=
  let lexemes := d.lexemes text
  if placesOf lexemes = parameters.length then (bind? parameters lexemes).bind (ofLexemes? d)
  else none

end BucketStore.Sql
