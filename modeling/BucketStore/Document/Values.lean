/-
  BucketStore/Document/Values.lean
  ================================
  **The document forms of entries, operations, answers and failures.**

  An operation is a field named for it that lists what it is about; what it
  answers is a word, or a field with the value.  A result is a field `ok`, or the
  fields of a failure: its kind, its message and what lies behind it.
-/
import BucketStore.Document
import BucketStore.Driver
import BucketStore.Listing
import BucketStore.Transaction.WriteSet

namespace BucketStore

/-! ### Failures and results -/

def Kind.labels : List (String × Kind) := [
  ("NotFound", .notFound), ("AlreadyExists", .alreadyExists), ("NotImplemented", .notImplemented),
  ("Conflict", .conflict), ("Unavailable", .unavailable), ("Invalid", .invalid),
  ("Configuration", .configuration), ("Closed", .closed), ("Encoding", .encoding),
  ("Backend", .backend), ("Internal", .internal)]

/-- The names of transaction states in documents. -/
def TxState.labels : List (String × TxState) := [
  ("Pending", .pending), ("Committed", .committed), ("Aborted", .aborted),
  ("Reclaimed", .reclaimed)]

namespace Document

def label {α : Type} [BEq α] (labels : List (String × α)) (a : α) : Document :=
  .text (((labels.find? fun l => l.2 == a).map (·.1)).getD "")

def labelled {α : Type} (labels : List (String × α)) : Document → Reading α
  | .text s =>
    match labels.find? fun l => l.1 == s with
    | some (_, a) => .ok a
    | none => .error s!"no such word: {s}"
  | _ => .error "a word was expected"

end Document

instance : ToDocument Kind := ⟨.label Kind.labels⟩
instance : OfDocument Kind := ⟨Document.labelled Kind.labels⟩
instance : ToDocument TxState := ⟨.label TxState.labels⟩
instance : OfDocument TxState := ⟨Document.labelled TxState.labels⟩

/-- The fields of a failure, with what is to be told of the failures behind it. -/
def Failure.fields (f : Failure) (causes : List String) : List (String × Document) :=
  [("error", toDocument f.kind), ("message", .text f.message)] ++
    if causes.isEmpty then [] else [("causes", toDocument causes)]

instance : ToDocument Failure := ⟨fun f => .fields (f.fields f.causes)⟩

/-- A failure told in words is read from its kind and its message. -/
instance : OfDocument Failure where
  ofDocument d := do
    let (kind, message) ← ofDocument d
    return .stated kind message

instance {α : Type} [ToDocument α] : ToDocument (Except Failure α) where
  toDocument
    | .ok a => .fields [("ok", a)]
    | .error f => f

/-! ### The log -/

def Log.Level.label : Log.Level → String
  | .error => "ERROR"
  | .warn => "WARN"
  | .debug => "DEBUG"

/-- Of a line, what stands before the first line break is reported. -/
instance : ToDocument Log.Line where
  toDocument l := (l.level.label, String.ofList (l.text.toList.takeWhile (· ≠ '\n')))

/-! ### Entries, pages, operations and answers -/

instance : ToDocument Entry := ⟨fun e => .list [e.bucket, e.key, e.value]⟩

instance : OfDocument Entry where
  ofDocument
    | .list [b, k, v] => return ⟨← ofDocument b, ← ofDocument k, ← ofDocument v⟩
    | _ => .error "an entry was expected"

instance {τ : Type} [ToDocument τ] : ToDocument (Page τ) :=
  ⟨fun p => .fields [("items", p.items), ("next", p.next)]⟩

instance {τ : Type} [OfDocument τ] : OfDocument (Page τ) :=
  ⟨fun d => return ⟨← d.get "items", ← d.get "next"⟩⟩

instance : ToDocument Operation where
  toDocument
    | .get b k => .fields [("get", .list [b, k])]
    | .set b k v => .fields [("set", .list [b, k, v])]
    | .delete b k => .fields [("delete", .list [b, k])]
    | .compareAndSwap b k old new => .fields [("cas", .list [b, k, old, new])]

instance : OfDocument Operation where
  ofDocument d := do
    let (name, args) ← d.tagged
    match name, ← args.items with
    | "get", [b, k] => return .get (← ofDocument b) (← ofDocument k)
    | "set", [b, k, v] => return .set (← ofDocument b) (← ofDocument k) (← ofDocument v)
    | "delete", [b, k] => return .delete (← ofDocument b) (← ofDocument k)
    | "cas", [b, k, old, new] =>
      return .compareAndSwap (← ofDocument b) (← ofDocument k) (← ofDocument old) (← ofDocument new)
    | _, _ => .error s!"no such operation: {name}"

instance : ToDocument Swap :=
  ⟨fun s => .fields [("current", s.current), ("swapped", s.swapped)]⟩

instance : OfDocument Swap := ⟨fun d => return ⟨← d.get "current", ← d.get "swapped"⟩⟩

instance : ToDocument OpResult where
  toDocument
    | .read value => .fields [("read", value)]
    | .written => "written"
    | .deleted => "deleted"
    | .swap s => .fields [("swap", s)]

instance : OfDocument OpResult where
  ofDocument
    | .text "written" => .ok .written
    | .text "deleted" => .ok .deleted
    | d => do
      match ← d.tagged with
      | ("read", value) => return .read (← ofDocument value)
      | ("swap", s) => return .swap (← ofDocument s)
      | (name, _) => .error s!"no such answer: {name}"

/-! ### Staged values -/

instance : ToDocument Change := ⟨fun c => .list [c.bucket, c.key, c.value]⟩

instance : ToDocument ((Bytes × Bytes) × Slot) :=
  ⟨fun (place, slot) => .list [place.1, place.2, slot.committed, slot.current]⟩

/-! ### Calls on a driver -/

instance : OfDocument Request where
  ofDocument d := do
    match ← d.invocation with
    | ("create", [b]) => return .create (← ofDocument b)
    | ("drop", [b]) => return .drop (← ofDocument b)
    | ("get", [b, k]) => return .get (← ofDocument b) (← ofDocument k)
    | ("set", [b, k, v]) => return .set (← ofDocument b) (← ofDocument k) (← ofDocument v)
    | ("del", [b, k]) => return .delete (← ofDocument b) (← ofDocument k)
    | ("list", [b]) => return .list (← ofDocument b)
    | ("cas", [b, k, old, new]) =>
      return .compareAndSwap (← ofDocument b) (← ofDocument k) (← ofDocument old) (← ofDocument new)
    | ("update", [tx]) => return .update (← ofDocument tx)
    | ("close", []) => return .close
    | (name, _) => .error s!"no such call: {name}"

instance : ToDocument Response where
  toDocument
    | .done => .null
    | .value value => value
    | .entries entries => entries
    | .outcome outcome => outcome
    | .swap s => s

end BucketStore
