/-
  BucketStore/Proofs/ActionLogic.lean
  ===================================
  **What actions answer, and the state they leave.**

  The log of an action is of no account here: each rule gives the reply and the
  state of an action from those of its parts.
-/
import BucketStore.Driver

namespace BucketStore

namespace Action

variable {σ α β : Type} {act : Action σ α} {s : σ}

/-! ### Sequences -/

@[simp] theorem reply_map (g : α → β) :
    ((act >>= fun a => pure (g a)) s).reply = (act s).reply.map g := by
  rw [bind_run]
  rcases act s with ⟨_ | _, _, _⟩ <;> rfl

@[simp] theorem state_map (g : α → β) : ((act >>= fun a => pure (g a)) s).state = (act s).state := by
  rw [bind_run]
  rcases act s with ⟨_ | _, _, _⟩ <;> rfl

theorem bind_of_ok {next : α → Action σ β} {a : α} {s' : σ} (h : act s = ⟨.ok a, s', []⟩) :
    (act >>= next) s = next a s' := by
  rw [bind_run, h]
  rfl

theorem bind_of_error {next : α → Action σ β} {f : Failure} {s' : σ}
    (h : act s = ⟨.error f, s', []⟩) : (act >>= next) s = ⟨.error f, s', []⟩ := by
  rw [bind_run, h]

theorem ofExcept_bind (a : α) (next : α → Action σ β) : ofExcept (.ok a) >>= next = next a := rfl

theorem state_bind (next : σ → Action σ α) : (state >>= next) s = next s s := rfl

theorem bind_pure (act : Action σ α) : act >>= pure = act := by
  funext s
  rw [bind_run]
  rcases act s with ⟨_ | _, _, _⟩ <;> simp

theorem bind_assoc {γ : Type} (act : Action σ α) (next : α → Action σ β) (last : β → Action σ γ) :
    act >>= next >>= last = act >>= fun a => next a >>= last := by
  funext s
  simp only [bind_run]
  rcases act s with ⟨_ | a, s', _⟩
  · rfl
  · dsimp only
    rcases next a s' with ⟨_ | _, _, _⟩ <;> simp

instance : LawfulMonad (Action σ) :=
  LawfulMonad.mk' (Action σ) bind_pure (fun _ _ => rfl) bind_assoc

/-- What answers without a change of state does so for every member of a list. -/
theorem mapM_run {l : List α} {f : α → Action σ β} {g : α → β}
    (hf : ∀ a, (f a s).reply = .ok (g a) ∧ (f a s).state = s) :
    (l.mapM f s).reply = .ok (l.map g) ∧ (l.mapM f s).state = s := by
  induction l with
  | nil => exact ⟨rfl, rfl⟩
  | cons a rest ih =>
    obtain ⟨hreply, hstate⟩ := hf a
    rw [List.mapM_cons, bind_run]
    rcases hstep : f a s with ⟨r, s', log⟩
    rw [hstep] at hreply hstate
    dsimp only at hreply hstate
    subst hreply hstate
    dsimp only
    rw [reply_map, state_map, ih.1]
    exact ⟨rfl, ih.2⟩

/-- The same of what answers some members only. -/
theorem filterMapM_run {l : List α} {f : α → Action σ (Option β)} {g : α → Option β}
    (hf : ∀ a, (f a s).reply = .ok (g a) ∧ (f a s).state = s) :
    ((l.mapM f >>= fun found => pure (found.filterMap id)) s).reply = .ok (l.filterMap g) ∧
      ((l.mapM f >>= fun found => pure (found.filterMap id)) s).state = s := by
  obtain ⟨hreply, hstate⟩ := mapM_run (l := l) hf
  rw [reply_map, state_map, hreply]
  refine ⟨?_, hstate⟩
  change Except.ok ((l.map g).filterMap id) = _
  rw [List.filterMap_map]
  rfl

/-! ### Failures reworded -/

@[simp] theorem reply_mapFailure (reword : Failure → Failure) :
    (act.mapFailure reword s).reply = (act s).reply.mapError reword := by
  unfold mapFailure
  rcases act s with ⟨_ | _, _, _⟩ <;> rfl

@[simp] theorem state_mapFailure (reword : Failure → Failure) :
    (act.mapFailure reword s).state = (act s).state := by
  unfold mapFailure
  rcases act s with ⟨_ | _, _, _⟩ <;> rfl

theorem reply_atomically : (act.atomically s).reply = (act s).reply := by
  unfold atomically
  rcases act s with ⟨_ | _, _, _⟩ <;> rfl

/-! ### What actions keep -/

/-- The action leaves a state of which `I` is true if it finds one, whether it answers or fails. -/
def Keeps (I : σ → Prop) (act : Action σ α) : Prop := ∀ s, I s → I (act s).state

section

variable {I : σ → Prop} {next : α → Action σ β}

theorem keeps_pure (a : α) : Keeps I (pure a : Action σ α) := fun _ h => h

theorem keeps_fail (f : Failure) : Keeps I (fail f : Action σ α) := fun _ h => h

theorem keeps_check (e : Except Failure α) : Keeps I (check e) := by
  intro s h
  cases e <;> exact h

theorem keeps_change {f : σ → σ} (h : ∀ s, I s → I (f s)) : Keeps I (change f) := h

/-- It is kept by a sequence if the first part and what follows its answers keep it. -/
theorem Keeps.bind (h : Keeps I act) (hnext : ∀ a, Keeps I (next a)) : Keeps I (act >>= next) := by
  intro s hs
  have hfirst := h s hs
  rw [bind_run]
  generalize act s = step at hfirst ⊢
  obtain ⟨_ | a, s', log⟩ := step
  · exact hfirst
  · exact hnext a s' hfirst

theorem Keeps.map (h : Keeps I act) (g : α → β) : Keeps I (act >>= fun a => pure (g a)) :=
  h.bind fun a => keeps_pure (g a)

theorem Keeps.mapFailure (h : Keeps I act) (reword : Failure → Failure) :
    Keeps I (act.mapFailure reword) := by
  intro s hs
  rw [state_mapFailure]
  exact h s hs

theorem Keeps.atomically (h : Keeps I act) : Keeps I act.atomically := by
  intro s hs
  have hafter := h s hs
  unfold Action.atomically
  generalize act s = step at hafter ⊢
  obtain ⟨_ | a, s', log⟩ := step
  · exact hs
  · exact hafter

theorem keeps_forM {l : List α} {f : α → Action σ Unit} (h : ∀ a, Keeps I (f a)) :
    Keeps I (l.forM f) := by
  induction l with
  | nil => exact keeps_pure ()
  | cons a rest ih => exact (h a).bind fun _ => ih

theorem keeps_foldlM {l : List α} {f : β → α → Action σ β} (h : ∀ b a, Keeps I (f b a)) (b : β) :
    Keeps I (l.foldlM f b) := by
  induction l generalizing b with
  | nil => exact keeps_pure b
  | cons a rest ih =>
    rw [List.foldlM_cons]
    exact (h b a).bind fun b' => ih b'

end

/-! ### Checks and notes -/

theorem reply_note {act : Action σ Unit} {line : Log.Line} :
    ((act >>= fun _ => note line) s).reply = (act s).reply := by
  rw [bind_run]
  rcases act s with ⟨_ | _, _, _⟩ <;> rfl

theorem state_note {act : Action σ Unit} {line : Log.Line} :
    ((act >>= fun _ => note line) s).state = (act s).state := by
  rw [bind_run]
  rcases act s with ⟨_ | _, _, _⟩ <;> rfl

theorem reply_check_note {e : Except Failure Unit} {act : Action σ Unit} {line : Log.Line} :
    ((check e >>= fun _ => act >>= fun _ => note line) s).reply = match e with
      | .ok _ => (act s).reply
      | .error f => .error f := by
  cases e with
  | error f => rfl
  | ok _ => exact reply_note

theorem state_check_note {e : Except Failure Unit} {act : Action σ Unit} {line : Log.Line} :
    ((check e >>= fun _ => act >>= fun _ => note line) s).state = match e with
      | .ok _ => (act s).state
      | .error _ => s := by
  cases e with
  | error f => rfl
  | ok _ => exact state_note

end Action

/-! ### Calls on a driver -/

/-- The call leaves the driver open, and `P` is true of every bucket that it names. -/
def Request.Within (P : Bytes → Prop) : Request → Prop
  | .create b | .drop b | .list b => P b
  | .get b _ | .set b _ _ | .delete b _ | .compareAndSwap b _ _ _ => P b
  | .update tx => ∀ op ∈ tx, P op.bucket
  | .close => False

instance (P : Bytes → Prop) [DecidablePred P] : DecidablePred (Request.Within P)
  | .create b | .drop b | .list b => inferInstanceAs (Decidable (P b))
  | .get b _ | .set b _ _ | .delete b _ | .compareAndSwap b _ _ _ => inferInstanceAs (Decidable (P b))
  | .update tx => inferInstanceAs (Decidable (∀ op ∈ tx, P op.bucket))
  | .close => inferInstanceAs (Decidable False)

/-- `P` is true of every key that the call names. -/
def Request.KeysWithin (P : Bytes → Prop) : Request → Prop
  | .get _ k | .set _ k _ | .delete _ k | .compareAndSwap _ k _ _ => P k
  | .update tx => ∀ op ∈ tx, P op.key
  | .create _ | .drop _ | .list _ | .close => True

instance (P : Bytes → Prop) [DecidablePred P] : DecidablePred (Request.KeysWithin P)
  | .get _ k | .set _ k _ | .delete _ k | .compareAndSwap _ k _ _ => inferInstanceAs (Decidable (P k))
  | .update tx => inferInstanceAs (Decidable (∀ op ∈ tx, P op.key))
  | .create _ | .drop _ | .list _ | .close => inferInstanceAs (Decidable True)

namespace Driver

variable {σ : Type} (d : Driver σ) (s : σ)

/-- The steps that calls take which are made one after another. -/
def trace (d : Driver σ) : σ → List Request → List (Step σ (Except Failure Response))
  | _, [] => []
  | s, r :: rest => d.perform r s :: d.trace (d.perform r s).state rest

theorem state_perform (r : Request) : (d.perform r s).state = match r with
    | .create b => (d.create b s).state
    | .drop b => (d.drop b s).state
    | .get b k => (d.get b k s).state
    | .set b k v => (d.set b k v s).state
    | .delete b k => (d.delete b k s).state
    | .list b => (d.list b s).state
    | .update tx => (d.update tx s).state
    | .compareAndSwap b k old new => (d.compareAndSwap b k old new s).state
    | .close => (d.close s).state := by
  cases r <;> exact Action.state_map _

end Driver

end BucketStore
