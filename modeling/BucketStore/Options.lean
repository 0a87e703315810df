/-
  BucketStore/Options.lean
  ========================
  **Driver options, and reading them from pairs of texts.**

  Every driver derives its own configuration from one `Options` value.  Options
  are given as pairs of a setting's name and its value, both trimmed; a later
  pair for a setting takes the place of an earlier one.  Where the credentials
  come from is decided at the end, from three settings together.
-/
import BucketStore.Text.Blank
import BucketStore.Text.Integer
import BucketStore.Failure

namespace BucketStore

/-! ### The options -/

/-- Where credentials come from. -/
inductive Credentials where
  /-- The first that the usual places hold. -/
  | default
  | environment
  | profile (name : String)
  | keys (id secret : String)
deriving DecidableEq, Repr

/-- The source for people; secrets are not shown. -/
def Credentials.display : Credentials → String
  | .default => "Default"
  | .environment => "Environment"
  | .profile name => s!"Profile({name})"
  | .keys id _ => s!"Static({id}, ***)"

def Credentials.secret? : Credentials → Option String
  | .keys _ secret => some secret
  | _ => none

/-- How fresh a read has to be. -/
inductive Consistency where
  | strong
  | eventual
deriving DecidableEq, Repr

/-- The number of entries a page holds unless told otherwise. -/
def defaultPageSize : UInt64 := 1000

structure Options where
  credentials : Credentials := .default
  consistency : Consistency := .strong
  /-- Entries per page of a listing, at least one. -/
  pageSize : UInt64 := defaultPageSize
  database : Option String := none
  endpointUrl : Option String := none
  maxConnections : Nat := 10
  /-- The age in milliseconds at which a pending transaction may be aborted by others. -/
  lockTimeout : Nat := 30000
  /-- Are multi-key updates staged where the engine has none? -/
  emulatedTransactions : Bool := true
  readCapacity : Option Int := none
  writeCapacity : Option Int := none
  cacheSize : Option Nat := none
  fsyncMs : Option Nat := none
deriving DecidableEq, Repr

namespace Options

/-- The options with another page size; a size of zero is raised to one. -/
def withPageSize (o : Options) (n : UInt64) : Options := { o with pageSize := max n 1 }

/-- The options with another bound on connections; zero is raised to one. -/
def withMaxConnections (o : Options) (n : Nat) : Options := { o with maxConnections := max n 1 }

end Options

/-! ### Settings -/

inductive Setting where
  | credentials
  | accessKeyId
  | secretAccessKey
  | consistency
  | pageSize
  | database
  | endpointUrl
  | maxConnections
  | lockTimeout
  | emulatedTransactions
  | readCapacity
  | writeCapacity
  | cacheSize
  | fsyncMs
deriving DecidableEq, Repr

namespace Setting

def name : Setting → String
  | credentials => "credentials"
  | accessKeyId => "access_key_id"
  | secretAccessKey => "secret_access_key"
  | consistency => "consistency"
  | pageSize => "page_size"
  | database => "database"
  | endpointUrl => "endpoint_url"
  | maxConnections => "max_connections"
  | lockTimeout => "lock_timeout_ms"
  | emulatedTransactions => "emulated_transactions"
  | readCapacity => "read_capacity"
  | writeCapacity => "write_capacity"
  | cacheSize => "cache_size"
  | fsyncMs => "fsync_ms"

def all : List Setting :=
  [credentials, accessKeyId, secretAccessKey, consistency, pageSize, database, endpointUrl,
    maxConnections, lockTimeout, emulatedTransactions, readCapacity, writeCapacity, cacheSize,
    fsyncMs]

def ofName? (text : String) : Option Setting := all.find? fun s => s.name = text

theorem ofName?_name (s : Setting) : ofName? s.name = some s := by cases s <;> decide

end Setting

/-- Why a pair is not accepted. -/
inductive OptionFault where
  | unknown (key : String)
  | notNumber (key value : String)
  | notBoolean (key value : String)
  | zeroPageSize
  | badConsistency (value : String)
  | badSource (value : String)
  /-- Only one of the two static keys is given. -/
  | halfStaticKeys
deriving DecidableEq, Repr

def OptionFault.message : OptionFault → String
  | .unknown key => s!"unknown option '{key}'"
  | .notNumber key value => s!"option '{key}' expects a number, got '{value}'"
  | .notBoolean key value => s!"option '{key}' expects a boolean, got '{value}'"
  | .zeroPageSize => "page_size must be positive"
  | .badConsistency value => s!"invalid consistency '{value}', expected strong or eventual"
  | .badSource value => s!"invalid credentials source '{value}'"
  | .halfStaticKeys => "static credentials need both access_key_id and secret_access_key"

/-- A fault in the options is a failure of kind `configuration`. -/
def OptionFault.failure (fault : OptionFault) : Failure := .stated .configuration fault.message

/-! ### Reading pairs -/

/-- Options being read, with the settings that decide the credentials at the end. -/
structure OptionDraft where
  options : Options := {}
  source : Option String := none
  accessKeyId : Option String := none
  secretAccessKey : Option String := none
deriving DecidableEq, Repr

namespace OptionDraft

/-- The value of a setting as a number of the range. -/
def number (s : Setting) (range : Text.IntRange) (value : String) : Except OptionFault Int :=
  match Text.readInt range value.toList with
  | .ok n => .ok n
  | .error _ => .error (.notNumber s.name value)

def truth (s : Setting) (value : String) : Except OptionFault Bool :=
  let lower := Text.lowerAscii value
  if lower = "true" ∨ lower = "1" ∨ lower = "yes" then .ok true
  else if lower = "false" ∨ lower = "0" ∨ lower = "no" then .ok false
  else .error (.notBoolean s.name value)

def freshness (value : String) : Except OptionFault Consistency :=
  let lower := Text.lowerAscii value
  if lower = "strong" then .ok .strong
  else if lower = "eventual" then .ok .eventual
  else .error (.badConsistency lower)

def put (d : OptionDraft) (s : Setting) (value : String) : Except OptionFault OptionDraft :=
  let o := d.options
  match s with
  | .credentials => .ok { d with source := some value }
  | .accessKeyId => .ok { d with accessKeyId := some value }
  | .secretAccessKey => .ok { d with secretAccessKey := some value }
  | .consistency => do
    let c ← freshness value
    return { d with options := { o with consistency := c } }
  | .pageSize => do
    let n ← number s (.unsigned 64) value
    if n = 0 then .error .zeroPageSize
    else return { d with options := o.withPageSize (UInt64.ofNat n.toNat) }
  | .database => .ok { d with options := { o with database := some value } }
  | .endpointUrl => .ok { d with options := { o with endpointUrl := some value } }
  | .maxConnections => do
    let n ← number s (.unsigned 32) value
    return { d with options := o.withMaxConnections n.toNat }
  | .lockTimeout => do
    let n ← number s (.unsigned 64) value
    return { d with options := { o with lockTimeout := n.toNat } }
  | .emulatedTransactions => do
    let b ← truth s value
    return { d with options := { o with emulatedTransactions := b } }
  | .readCapacity => do
    let n ← number s (.signed 64) value
    return { d with options := { o with readCapacity := some n } }
  | .writeCapacity => do
    let n ← number s (.signed 64) value
    return { d with options := { o with writeCapacity := some n } }
  | .cacheSize => do
    let n ← number s (.unsigned 64) value
    return { d with options := { o with cacheSize := some n.toNat } }
  | .fsyncMs => do
    let n ← number s (.unsigned 16) value
    return { d with options := { o with fsyncMs := some n.toNat } }

/-- Takes over one pair, its name and its value trimmed. -/
def putPair (d : OptionDraft) (pair : String × String) : Except OptionFault OptionDraft :=
  let key := Text.trim pair.1
  match Setting.ofName? key with
  | some s => d.put s (Text.trim pair.2)
  | none => .error (.unknown key)

/-- The static keys, both of which must be there. -/
def staticKeys (d : OptionDraft) : Except OptionFault Credentials :=
  match d.accessKeyId, d.secretAccessKey with
  | some id, some secret => .ok (.keys id secret)
  | _, _ => .error .halfStaticKeys

/-- Where the credentials come from. Without a source, any static key asks for both. -/
def decideCredentials (d : OptionDraft) : Except OptionFault Credentials :=
  match d.source with
  | none => if d.accessKeyId.isSome || d.secretAccessKey.isSome then d.staticKeys else .ok .default
  | some source =>
    if source = "default" then .ok .default
    else if source = "environment" then .ok .environment
    else if source = "static" then d.staticKeys
    else
      let chars := source.toList
      let name := chars.drop 8
      if chars.take 8 = ['p', 'r', 'o', 'f', 'i', 'l', 'e', ':'] ∧ name ≠ [] then
        .ok (.profile (String.ofList name))
      else .error (.badSource source)

def finish (d : OptionDraft) : Except OptionFault Options := do
  let credentials ← d.decideCredentials
  return { d.options with credentials }

end OptionDraft

namespace Options

/-- Reads options from pairs, from left to right; the first fault is reported. -/
def ofPairs? (pairs : List (String × String)) : Except OptionFault Options := do
  (← pairs.foldlM OptionDraft.putPair {}).finish

def ofPairs (pairs : List (String × String)) : Except Failure Options :=
  (ofPairs? pairs).mapError OptionFault.failure

end Options

end BucketStore
