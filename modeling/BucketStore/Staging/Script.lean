/-
  BucketStore/Staging/Script.lean
  ===============================
  **A store that follows a script: replies bent, and other writers let in.**

  Every load, write and scan is counted in its class.  The first rule that matches
  a call may first change the store behind the caller's back, and then let the
  call through, refuse it, fail it, or carry it out and report a failure all the
  same.  Every call is traced with its reply.
-/
import BucketStore.Staging.MemoryItems

namespace BucketStore.Staging.Script

/-! ### Rules -/

/-- The classes in which calls are counted. -/
inductive CallClass where
  | write
  | load
  | scan
deriving DecidableEq, Repr

/-- A change made by another writer. -/
inductive Mutation where
  | put (bucket key : Bytes) (item : Item)
  | drop (bucket key : Bytes)
  /-- Replaces the state of a transaction's record. -/
  | flip (bucket : Bytes) (id : String) (state : TxState)
  | dropBucket (bucket : Bytes)
deriving DecidableEq, Repr

inductive Verdict where
  | pass
  /-- A write is told that its condition did not hold. -/
  | refuse
  | fail
  /-- A write is carried out, and then reported as failed. -/
  | failAfter
deriving DecidableEq, Repr

/-- A rule for the calls number `first` to `first + times - 1` of a class. -/
structure Rule where
  on : CallClass
  first : Nat
  times : Nat := 1
  /-- Made once, before the first call that the rule applies to. -/
  before : List Mutation := []
  verdict : Verdict := .pass
  failure : Failure := .stated .unavailable "scripted fault"
deriving DecidableEq, Repr

/-- Does the rule apply to the call of that number? -/
def Rule.matches (rule : Rule) (on : CallClass) (n : Nat) : Bool :=
  rule.on == on && rule.first ≤ n && n < rule.first + rule.times

/-- A traced call with its reply. -/
inductive Traced where
  | load (bucket key : Bytes) (reply : Except Failure (Option Item))
  | write (bucket key : Bytes) (item : Option Item) (condition : Precondition)
      (reply : Except Failure Bool)
  | scan (bucket : Bytes) (token : Option Token) (limit : UInt64)
      (reply : Except Failure (Page (Bytes × Item)))

/-! ### Changes of other writers -/

/-- Replaces the state of a stored record, and tells whether there was one. What is stored in its
    place and is no record is a failure. -/
def flipRecord (bucket : Bytes) (id : String) (state : TxState) : Action MemoryItems Bool := fun s =>
  match ((s.raw bucket (recordKey id)).bind Item.value).map Record.decode with
  | none => ⟨.ok false, s, []⟩
  | some (.error f) => ⟨.error f, s, []⟩
  | some (.ok record) =>
    s.write bucket (recordKey id) (some ({ record with state } : Record).item) .none

/-- Carries out a change of another writer. Failures of it are nobody's concern. -/
def mutate (s : MemoryItems) : Mutation → MemoryItems
  | .put bucket key item => (s.write bucket key (some item) .none).state
  | .drop bucket key => (s.write bucket key none .none).state
  | .flip bucket id state => (flipRecord bucket id state s).state
  | .dropBucket bucket => (MemoryItems.deleteBucket bucket s).state

/-! ### The scripted store -/

/-- A store in memory with a script, the counts of calls, and their trace. -/
structure Scripted where
  store : MemoryItems := {}
  rules : List Rule := []
  writes : Nat := 0
  loads : Nat := 0
  scans : Nat := 0
  trace : List Traced := []

namespace Scripted

def count (s : Scripted) : CallClass → Nat
  | .write => s.writes
  | .load => s.loads
  | .scan => s.scans

def counted (s : Scripted) : CallClass → Scripted
  | .write => { s with writes := s.writes + 1 }
  | .load => { s with loads := s.loads + 1 }
  | .scan => { s with scans := s.scans + 1 }

/-- Finds the rule for the next call of a class, and spends its mutations. -/
def takeRule (on : CallClass) (n : Nat) : List Rule → Option Rule × List Rule
  | [] => (none, [])
  | rule :: rest =>
    if rule.matches on n then (some rule, { rule with before := [] } :: rest)
    else
      let (found, rest) := takeRule on n rest
      (found, rule :: rest)

/-- Counts a call and lets other writers in. Answers with what becomes of the call. -/
def meet (on : CallClass) (s : Scripted) : Verdict × Failure × Scripted :=
  let (found, rules) := takeRule on (s.count on) s.rules
  let s := { s.counted on with rules }
  match found with
  | none => (.pass, .closed, s)
  | some rule => (rule.verdict, rule.failure, { s with store := rule.before.foldl mutate s.store })

def traced (s : Scripted) (call : Traced) : Scripted := { s with trace := s.trace ++ [call] }

def load (bucket key : Bytes) (s : Scripted) : Step Scripted (Except Failure (Option Item)) :=
  let (verdict, failure, s) := s.meet .load
  let reply := match verdict with
    | .pass | .refuse => s.store.load bucket key
    | .fail | .failAfter => .error failure
  ⟨reply, s.traced (.load bucket key reply), []⟩

/-- Writes or removes an item as the script says. -/
def write (bucket key : Bytes) (item : Option Item) (condition : Precondition) (s : Scripted) :
    Step Scripted (Except Failure Bool) :=
  let (verdict, failure, s) := s.meet .write
  let ⟨reply, store, log⟩ : Step MemoryItems (Except Failure Bool) := match verdict with
    | .pass => s.store.write bucket key item condition
    | .refuse => ⟨.ok false, s.store, []⟩
    | .fail => ⟨.error failure, s.store, []⟩
    | .failAfter =>
      match s.store.write bucket key item condition with
      | ⟨.ok _, store, log⟩ => ⟨.error failure, store, log⟩
      | r => r
  ⟨reply, { s with store }.traced (.write bucket key item condition reply), log⟩

def scan (bucket : Bytes) (token : Option Token) (limit : UInt64) (s : Scripted) :
    Step Scripted (Except Failure (Page (Bytes × Item))) :=
  let (verdict, failure, s) := s.meet .scan
  let reply := match verdict with
    | .pass | .refuse => s.store.scan bucket token limit
    | .fail | .failAfter => .error failure
  ⟨reply, s.traced (.scan bucket token limit reply), []⟩

def onStore {α : Type} (act : Action MemoryItems α) : Action Scripted α := fun s =>
  let ⟨reply, store, log⟩ := act s.store
  ⟨reply, { s with store }, log⟩

def respond (around : Surroundings) : Responder Call Call.Reply Scripted
  | .load bucket key, s => s.load bucket key
  | .write bucket key item condition, s => s.write bucket key item condition
  | .scan bucket token limit, s => s.scan bucket token limit
  | .now, s =>
    let ⟨reply, store, log⟩ := MemoryItems.respond around .now s.store
    ⟨reply, { s with store }, log⟩
  | .freshId, s =>
    let ⟨reply, store, log⟩ := MemoryItems.respond around .freshId s.store
    ⟨reply, { s with store }, log⟩

/-- The scripted store for staging. Each item, and each one that a rule puts, is on a page of its
    own at most. -/
def itemStore (around : Surroundings) : ItemStore Scripted where
  backend := .memory
  version := MemoryItems.version
  respond := respond around
  createBucket bucket := onStore (MemoryItems.createBucket bucket)
  deleteBucket bucket := onStore (MemoryItems.deleteBucket bucket)
  close := onStore MemoryItems.close
  pageBound s bucket :=
    (s.store.rawItems bucket).length + (s.rules.flatMap Rule.before).length + 1

/-- Puts a script in place and starts counting anew. -/
def install (rules : List Rule) (s : Scripted) : Scripted :=
  { s with rules, writes := 0, loads := 0, scans := 0 }

/-- Replaces the state of a stored record without a word to the script. -/
def flip (bucket : Bytes) (id : String) (state : TxState) : Action Scripted Bool :=
  onStore (flipRecord bucket id state)

end Scripted

end BucketStore.Staging.Script
