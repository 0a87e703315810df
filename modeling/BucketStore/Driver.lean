/-
  BucketStore/Driver.lean
  =======================
  **What every driver offers.**

  Buckets are created and dropped; keys are read, written and removed; a bucket is
  listed whole; a compare-and-swap and an update of several keys are atomic.
  Absent keys, absent buckets and buckets that exist already are told by the kind
  of the failure, a compare-and-swap that finds another value by its answer.
-/
import BucketStore.Backend
import BucketStore.Transaction
import BucketStore.Action

namespace BucketStore

/-- A driver on stores of type `σ`. -/
structure Driver (σ : Type) where
  backend : Backend
  version : σ → String
  /-- Releases the store. It may be called again. -/
  close : Action σ Unit
  /-- Creates a bucket that does not exist. -/
  create : Bytes → Action σ Unit
  /-- Deletes a bucket with all it holds. -/
  drop : Bytes → Action σ Unit
  get : Bytes → Bytes → Action σ Bytes
  set : Bytes → Bytes → Bytes → Action σ Unit
  /-- Removes; an absent key is fine. -/
  delete : Bytes → Bytes → Action σ Unit
  list : Bytes → Action σ (List Entry)
  /-- Applies the operations as one unit. -/
  update : Transaction → Action σ TxOutcome
  /-- Writes the new value if the current one is `old`. -/
  compareAndSwap : Bytes → Bytes → Option Bytes → Bytes → Action σ Swap

inductive Request where
  | create (bucket : Bytes)
  | drop (bucket : Bytes)
  | get (bucket key : Bytes)
  | set (bucket key value : Bytes)
  | delete (bucket key : Bytes)
  | list (bucket : Bytes)
  | update (tx : Transaction)
  | compareAndSwap (bucket key : Bytes) (old : Option Bytes) (new : Bytes)
  | close
deriving DecidableEq, Repr

/-- The answer to a call on a driver. -/
inductive Response where
  | done
  | value (value : Bytes)
  | entries (entries : List Entry)
  | outcome (outcome : TxOutcome)
  | swap (swap : Swap)
deriving DecidableEq, Repr

namespace Driver

variable {σ : Type}

def perform (d : Driver σ) : Request → Action σ Response
  | .create b => do d.create b; return .done
  | .drop b => do d.drop b; return .done
  | .get b k => return .value (← d.get b k)
  | .set b k v => do d.set b k v; return .done
  | .delete b k => do d.delete b k; return .done
  | .list b => return .entries (← d.list b)
  | .update tx => return .outcome (← d.update tx)
  | .compareAndSwap b k old new => return .swap (← d.compareAndSwap b k old new)
  | .close => do d.close; return .done

/-- Opens a store by an action, with a line in the log about what was opened. -/
def opening (d : Driver σ) (act : Action σ Unit) : Action σ Unit := do
  act
  .note (Log.debug s!"Opened {d.backend.name} backend: {d.version (← .state)}")

/-- Opens a store like `opening`, with a line in the log if that fails. -/
def openDatabase (d : Driver σ) (act : Action σ Unit) : Action σ Unit :=
  (d.opening act).noteFailure fun f =>
    [Log.error s!"Failed to open {d.backend.name} backend: {f.message}"]

def display (d : Driver σ) (s : σ) : String := s!"Database({d.version s})"

end Driver

end BucketStore
