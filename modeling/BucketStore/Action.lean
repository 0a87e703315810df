/-
  BucketStore/Action.lean
  =======================
  **Operations on a state that may fail and that write a log.**

  An action turns a state into a `Step`: the answer or the failure, the state
  left behind, and the lines logged on the way.  A failure keeps the state and
  the log as they were at that point; nothing is rolled back unless an operation
  says so.
-/
import BucketStore.Failure

namespace BucketStore

/-- What a piece of work leaves behind. -/
structure Step (σ ρ : Type) where
  reply : ρ
  state : σ
  log : List Log.Line := []

/-- An operation on states of type `σ` that answers with an `α` or fails. -/
def Action (σ α : Type) := σ → Step σ (Except Failure α)

namespace Action

variable {σ α β : Type}

def run (act : Action σ α) (s : σ) : Step σ (Except Failure α) := act s

/-- Runs `next` on what `act` answers and on the state it leaves; stops at a failure. -/
def bind (act : Action σ α) (next : α → Action σ β) : Action σ β := fun s =>
  match act s with
  | ⟨.ok a, s', log⟩ => let r := next a s'; ⟨r.reply, r.state, log ++ r.log⟩
  | ⟨.error f, s', log⟩ => ⟨.error f, s', log⟩

instance : Monad (Action σ) where
  pure a := fun s => ⟨.ok a, s, []⟩
  bind := bind

def fail (f : Failure) : Action σ α := fun s => ⟨.error f, s, []⟩

/-- Fails where the failure is detected, with its notice in the log. -/
def raise (f : Failure) : Action σ α := fun s => ⟨.error f, s, f.notice⟩

instance : MonadExceptOf Failure (Action σ) where
  throw := raise
  tryCatch act handle := fun s =>
    match act s with
    | ⟨.ok a, s', log⟩ => ⟨.ok a, s', log⟩
    | ⟨.error f, s', log⟩ => let r := handle f s'; ⟨r.reply, r.state, log ++ r.log⟩

def state : Action σ σ := fun s => ⟨.ok s, s, []⟩

/-- Puts another state in place of the current one. -/
def become (s : σ) : Action σ Unit := fun _ => ⟨.ok (), s, []⟩

def complain (line : String) (f : Failure) : Action σ α := fun s => ⟨.error f, s, [Log.error line]⟩

def change (f : σ → σ) : Action σ Unit := fun s => ⟨.ok (), f s, []⟩

def note (line : Log.Line) : Action σ Unit := fun s => ⟨.ok (), s, [line]⟩

/-- Takes over the answer or failure of a computation without effects. -/
def ofExcept : Except Failure α → Action σ α
  | .ok a => pure a
  | .error f => fail f

/-- Takes over a check: its failure is detected here. -/
def check : Except Failure α → Action σ α
  | .ok a => pure a
  | .error f => raise f

def mapFailure (reword : Failure → Failure) (act : Action σ α) : Action σ α := fun s =>
  match act s with
  | ⟨.ok a, s', log⟩ => ⟨.ok a, s', log⟩
  | ⟨.error f, s', log⟩ => ⟨.error (reword f), s', log⟩

def noteFailure (lines : Failure → List Log.Line) (act : Action σ α) : Action σ α := fun s =>
  match act s with
  | ⟨.ok a, s', log⟩ => ⟨.ok a, s', log⟩
  | ⟨.error f, s', log⟩ => ⟨.error f, s', log ++ lines f⟩

/-- Undoes every change of state if the action fails. -/
def atomically (act : Action σ α) : Action σ α := fun s =>
  match act s with
  | ⟨.ok a, s', log⟩ => ⟨.ok a, s', log⟩
  | ⟨.error f, _, log⟩ => ⟨.error f, s, log⟩

/-- Names the key that an interrupted action was about. -/
def named (action : String) (bucket key : Bytes) (act : Action σ α) : Action σ α :=
  act.mapFailure (.during action bucket key)

/-- Names the bucket that an interrupted action was about. -/
def namedBucket (action : String) (bucket : Bytes) (act : Action σ α) : Action σ α :=
  act.mapFailure (.duringBucket action bucket)

/-! ### Equations -/

@[simp] theorem pure_run (a : α) (s : σ) : (pure a : Action σ α) s = ⟨.ok a, s, []⟩ := rfl

@[simp] theorem fail_run (f : Failure) (s : σ) : (fail f : Action σ α) s = ⟨.error f, s, []⟩ := rfl

@[simp] theorem raise_run (f : Failure) (s : σ) :
    (raise f : Action σ α) s = ⟨.error f, s, f.notice⟩ := rfl

theorem bind_run (act : Action σ α) (next : α → Action σ β) (s : σ) :
    (act >>= next) s =
      match act s with
      | ⟨.ok a, s', log⟩ => ⟨(next a s').reply, (next a s').state, log ++ (next a s').log⟩
      | ⟨.error f, s', log⟩ => ⟨.error f, s', log⟩ := rfl

end Action

end BucketStore
