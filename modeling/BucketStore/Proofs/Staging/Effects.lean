/-
  BucketStore/Proofs/Staging/Effects.lean
  =======================================
  **What an event does to a store.**

  An `Event` is a call of an engine, a recovery, or a change of the fault plan.  It
  runs one call of the engine, or has the store make, delete or close, or sets the
  fault plan, or is refused (`Event.effect`).  So what is to be shown of every event
  is shown of every call's program, and of four changes that no program makes.
-/
import BucketStore.Proofs.ActionLogic
import BucketStore.Proofs.Staging.RecordLife

namespace BucketStore.Staging

open MemoryItems

/-! ### Events -/

/-- What may be done to a store. -/
inductive Event where
  /-- An engine with these settings is called. -/
  | request (config : Config) (r : Request)
  /-- The transactions whose records are in a bucket are recovered. -/
  | recover (config : Config) (bucket : Bytes)
  /-- Writes are made to fail, or let through again. -/
  | faults (plan : Option FaultPlan)
deriving DecidableEq, Repr

namespace Event

/-- The transaction of an update, and the empty one for any other event. -/
def transaction : Event → Transaction
  | .request _ (.update tx) => tx
  | _ => []

def Addressable (e : Event) : Prop := e.transaction.Addressable

instance (e : Event) : Decidable e.Addressable :=
  inferInstanceAs (Decidable e.transaction.Addressable)

def step (around : Surroundings) (s : MemoryItems) : Event → MemoryItems
  | .request config r => ((Engine.driver (itemStore around) config).perform r s).state
  | .recover config bucket => (Engine.recoverOn (itemStore around) config bucket s).state
  | .faults plan => { s with fault := plan }

/-- Does the event delete a bucket? -/
def drops : Event → Bool
  | .request _ (.drop _) => true
  | _ => false

/-- The lock timeout of the engine that is called. -/
def timeout : Event → Nat
  | .request config _ | .recover config _ => config.lockTimeout
  | .faults _ => 0

end Event

/-- The lock timeout by which a call judges the locks that it meets, if it clears any. -/
def EngineCall.timeout? : EngineCall → Option Nat
  | get _ _ | list _ _ _ => none
  | set config _ _ _ | delete config _ _ | compareAndSwap config _ _ _ _ | update config _ _
  | recover config _ _ => some config.lockTimeout

/-! ### What a request does to a store -/

theorem state_discard {σ α : Type} {respond : Responder Call Call.Reply σ} {t : σ} (p : Protocol α) :
    ((discard p : Protocol Unit).run respond t).state = (p.run respond t).state := by
  have hrun := Program.run_bind respond p fun _ => .done ()
  rw [Program.discard_eq]
  change ((p.bind fun _ => .done ()).run respond t).state = _
  rw [hrun]
  exact Action.state_map _

/-- A request runs a call of the engine, or has the store make, drop or close; or it is refused. What
    is true after each of these is true after the request. -/
theorem state_perform_of {σ : Type} {store : ItemStore σ} {t : σ} {P : σ → Prop} {config : Config}
    {r : Request}
    (hrun : ∀ call : EngineCall, ((Event.request config r).Addressable → call.Addressable) →
      (∀ n, call.timeout? = some n → n = config.lockTimeout) → P (call.program.run store.respond t).state)
    (hcreate : ∀ bucket, checkBucket bucket = .ok () → P (store.createBucket bucket t).state)
    (hdelete : ∀ bucket, r = .drop bucket → P (store.deleteBucket bucket t).state)
    (hclose : P (store.close t).state) (hrefused : P t) :
    P ((Engine.driver store config).perform r t).state := by
  have hdiscard : ∀ (call : EngineCall) {α : Type} {p : Protocol α}, call.program = discard p →
      ((Event.request config r).Addressable → call.Addressable) →
      (∀ n, call.timeout? = some n → n = config.lockTimeout) → P (p.run store.respond t).state := by
    intro call α p hprogram hsize htimeout
    have hcall := hrun call hsize htimeout
    rwa [hprogram, state_discard] at hcall
  rw [Driver.state_perform]
  cases r with
  | create bucket =>
    dsimp only [Engine.driver]
    rw [Action.state_check_note]
    split
    · next hname => exact hcreate bucket hname
    · exact hrefused
  | drop bucket =>
    dsimp only [Engine.driver]
    rw [Action.state_check_note]
    split
    · exact hdelete bucket rfl
    · exact hrefused
  | get bucket key => exact hdiscard (.get bucket key) rfl (fun _ => trivial) (by rintro _ ⟨⟩)
  | set bucket key value =>
    exact hrun (.set config bucket key value) (fun _ => trivial) (by rintro _ ⟨⟩; rfl)
  | delete bucket key => exact hrun (.delete config bucket key) (fun _ => trivial) (by rintro _ ⟨⟩; rfl)
  | list bucket => exact hdiscard (.list config _ bucket) rfl (fun _ => trivial) (by rintro _ ⟨⟩)
  | update tx => exact hdiscard (.update config _ tx) rfl id (by rintro _ ⟨⟩; rfl)
  | compareAndSwap bucket key old new =>
    exact hdiscard (.compareAndSwap config bucket key old new) rfl (fun _ => trivial)
      (by rintro _ ⟨⟩; rfl)
  | close =>
    dsimp only [Engine.driver]
    rw [Action.state_note]
    exact hclose

/-! ### What an event does to a store -/

namespace Event

variable {around : Surroundings} {s : MemoryItems}

/-- What becomes of the store in an event. -/
inductive Effect (around : Surroundings) (s : MemoryItems) (e : Event) : MemoryItems → Prop
  | runs (call : EngineCall) (hsize : e.Addressable → call.Addressable)
      (htimeout : ∀ n, call.timeout? = some n → n = e.timeout) :
      Effect around s e (call.program.run (respond around) s).state
  | creates (bucket : Bytes) (hname : checkBucket bucket = .ok ()) :
      Effect around s e (createBucket bucket s).state
  | deletes (bucket : Bytes) (hdrops : e.drops = true) : Effect around s e (deleteBucket bucket s).state
  | closes : Effect around s e (close s).state
  | faults (plan : Option FaultPlan) : Effect around s e { s with fault := plan }
  | refused : Effect around s e s

/-- Every event does one of these things. -/
theorem effect (around : Surroundings) (s : MemoryItems) (e : Event) :
    e.Effect around s (e.step around s) := by
  cases e with
  | faults plan => exact .faults plan
  | recover config bucket =>
    have heffect : Effect around s (.recover config bucket)
        ((EngineCall.recover config ((itemStore around).pageBound s bucket) bucket).program.run
          (respond around) s).state := .runs _ (fun _ => trivial) (by rintro _ ⟨⟩; rfl)
    rwa [EngineCall.program, state_discard] at heffect
  | request config r =>
    apply state_perform_of (P := Effect around s (.request config r))
    · exact fun call hsize htimeout => .runs call hsize htimeout
    · exact fun bucket hname => .creates bucket hname
    · rintro bucket rfl
      exact .deletes bucket rfl
    · exact .closes
    · exact .refused

end Event

end BucketStore.Staging
