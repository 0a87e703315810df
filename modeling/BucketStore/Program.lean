/-
  BucketStore/Program.lean
  ========================
  **Programs that talk to a store, as data.**

  A program is a finite tree: it ends with an answer or a failure, logs a line,
  or makes a call and goes on with whatever is replied.  What the calls mean is
  left to a `Responder`, so one program can be run against a store in memory, a
  remote service or a store that fails on purpose, and a statement about the
  tree itself holds whatever the replies are.
-/
import BucketStore.Action

namespace BucketStore

/-- A program making calls `c : Call`, each replied to with a `Reply c`. -/
inductive Program (Call : Type) (Reply : Call → Type) (α : Type) : Type where
  | done (a : α)
  | fail (f : Failure)
  | note (line : Log.Line) (next : Program Call Reply α)
  | call (c : Call) (next : Reply c → Program Call Reply α)

/-- What replies to calls, on states of type `σ`. -/
def Responder (Call : Type) (Reply : Call → Type) (σ : Type) :=
  (c : Call) → σ → Step σ (Reply c)

namespace Program

variable {Call : Type} {Reply : Call → Type} {σ α β : Type}

/-- Goes on with `next` after the answer of the program. -/
def bind : Program Call Reply α → (α → Program Call Reply β) → Program Call Reply β
  | .done a, next => next a
  | .fail f, _ => .fail f
  | .note line p, next => .note line (p.bind next)
  | .call c k, next => .call c fun r => (k r).bind next

instance : Monad (Program Call Reply) where
  pure := .done
  bind := bind

def ask (c : Call) : Program Call Reply (Reply c) := .call c .done

def log (line : Log.Line) : Program Call Reply Unit := .note line (.done ())

def logAll : List Log.Line → Program Call Reply Unit
  | [] => .done ()
  | line :: rest => .note line (logAll rest)

def ofExcept : Except Failure α → Program Call Reply α
  | .ok a => .done a
  | .error f => .fail f

/-- Fails where the failure is detected, with its notice in the log. -/
def raise (f : Failure) : Program Call Reply α :=
  f.notice.foldr .note (.fail f)

/-- Takes over a check: its failure is detected here. -/
def check : Except Failure α → Program Call Reply α
  | .ok a => .done a
  | .error f => raise f

/-- Answers with the outcome of the program instead of failing. -/
def attempt : Program Call Reply α → Program Call Reply (Except Failure α)
  | .done a => .done (.ok a)
  | .fail f => .done (.error f)
  | .note line p => .note line p.attempt
  | .call c k => .call c fun r => (k r).attempt

instance : MonadExceptOf Failure (Program Call Reply) where
  throw := raise
  tryCatch p handle := p.attempt.bind fun
    | .ok a => .done a
    | .error f => handle f

def mapFailure (reword : Failure → Failure) : Program Call Reply α → Program Call Reply α
  | .done a => .done a
  | .fail f => .fail (reword f)
  | .note line p => .note line (p.mapFailure reword)
  | .call c k => .call c fun r => (k r).mapFailure reword

def noteFailure (lines : Failure → List Log.Line) : Program Call Reply α → Program Call Reply α
  | .done a => .done a
  | .fail f => (lines f).foldr .note (.fail f)
  | .note line p => .note line (p.noteFailure lines)
  | .call c k => .call c fun r => (k r).noteFailure lines

/-- Runs the program, with `respond` replying to its calls. -/
def run (respond : Responder Call Reply σ) : Program Call Reply α → Action σ α
  | .done a => fun s => ⟨.ok a, s, []⟩
  | .fail f => fun s => ⟨.error f, s, []⟩
  | .note line p => fun s =>
    let r := p.run respond s
    ⟨r.reply, r.state, line :: r.log⟩
  | .call c k => fun s =>
    let r := respond c s
    let r' := (k r.reply).run respond r.state
    ⟨r'.reply, r'.state, r.log ++ r'.log⟩

/-! ### Equations -/

@[simp] theorem bind_done (a : α) (next : α → Program Call Reply β) :
    (Program.done a : Program Call Reply α).bind next = next a := rfl

@[simp] theorem bind_fail (f : Failure) (next : α → Program Call Reply β) :
    (Program.fail f : Program Call Reply α).bind next = .fail f := rfl

/-- Running one program after another is running the second on what the first leaves. -/
theorem run_bind (respond : Responder Call Reply σ) (p : Program Call Reply α)
    (next : α → Program Call Reply β) :
    (p.bind next).run respond = (p.run respond).bind fun a => (next a).run respond := by
  induction p with
  | done a => funext s; simp [bind, run, Action.bind]
  | fail f => rfl
  | note line p ih =>
    funext s
    simp only [bind, run, ih, Action.bind]
    rcases p.run respond s with ⟨_ | _, _, _⟩ <;> simp
  | call c k ih =>
    funext s
    simp only [bind, run, ih, Action.bind]
    rcases (k (respond c s).reply).run respond (respond c s).state with ⟨_ | _, _, _⟩ <;> simp

end Program

end BucketStore
