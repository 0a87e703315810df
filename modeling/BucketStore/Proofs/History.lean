/-
  BucketStore/Proofs/History.lean
  ===============================
  **What was true on the way.**

  The answer of a program and the state at its end do not tell what happened in
  between.  `Contract.noting` adds a note to the state that says whether a property
  was true after any of the calls, and changes nothing else: what a program ensures
  without the note it ensures with it (`Ensures.noting`).

  `Ensures.run_noting` reads the note back from a run: it is true if the property
  was true of one of the states that the run passed through.
-/
import BucketStore.Proofs.ProgramLogic

namespace BucketStore

variable {Call : Type} {Reply : Call → Type} {σ τ α : Type}

/-- The contract on states with a note, whether `P` was true after any call so far. -/
def Contract.noting (K : Contract Call Reply σ) (P : σ → Prop) : Contract Call Reply (σ × Prop) where
  needs c s := K.needs c s.1
  allows c s r s' := K.allows c s.1 r s'.1 ∧ (s'.2 ↔ s.2 ∨ P s'.1)

namespace Program

/-- The states that a run passes through, one after each call. -/
def passes (respond : Responder Call Reply τ) : Program Call Reply α → τ → List τ
  | .done _, _ => []
  | .fail _, _ => []
  | .note _ p, t => p.passes respond t
  | .call c k, t =>
    (respond c t).state :: (k (respond c t).reply).passes respond (respond c t).state

variable {K : Contract Call Reply σ} {P : σ → Prop} {p : Program Call Reply α}

/-- Taking notes changes nothing else. -/
theorem Ensures.noting {Q : Except Failure α → σ → Prop} {s : σ} (h : p.Ensures K s Q) (seen : Prop) :
    p.Ensures (K.noting P) (s, seen) fun r s' => Q r s'.1 := by
  refine (Ensures.transfer (fun (s' : σ × Prop) s => s'.1 = s) ?_ h rfl).mono ?_
  · rintro c s _ rfl hneeds
    exact ⟨hneeds, fun r s' hr => ⟨s'.1, hr.1, rfl⟩⟩
  · rintro r s' ⟨_, hQ, rfl⟩
    exact hQ

/-- What was noted stays noted. -/
theorem Ensures.noted {Q : Except Failure α → σ × Prop → Prop} {s : σ × Prop}
    (h : p.Ensures (K.noting P) s Q) :
    p.Ensures (K.noting P) s fun r s' => Q r s' ∧ (s.2 → s'.2) := by
  refine h.frame (R := fun s s' => s.2 → s'.2) (fun _ => id) ?_ ?_
  · exact fun _ _ _ h h' => h' ∘ h
  · rintro c s r s' ⟨_, hnoted⟩ hs
    exact hnoted.mpr (.inl hs)

/-- A run has noted what was true of a state that it passed through. -/
theorem Ensures.run_noting (respond : Responder Call Reply τ) (view : τ → σ) (I : τ → Prop)
    (hrespond : ∀ c t, I t → K.needs c (view t) →
      K.allows c (view t) (respond c t).reply (view (respond c t).state) ∧ I (respond c t).state)
    {Q : Except Failure α → σ × Prop → Prop} {t : τ} {seen : Prop}
    (h : p.Ensures (K.noting P) (view t, seen) Q) (ht : I t) :
    ∃ seen', Q (p.run respond t).reply (view (p.run respond t).state, seen') ∧
      (seen' ↔ seen ∨ ∃ u ∈ p.passes respond t, P (view u)) := by
  induction p generalizing t seen with
  | done a => exact ⟨seen, h, by simp [passes]⟩
  | fail f => exact ⟨seen, h, by simp [passes]⟩
  | note line p ih => exact ih h ht
  | call c k ih =>
    obtain ⟨hallowed, ht'⟩ := hrespond c t ht h.1
    have hrest := h.2 _ (view (respond c t).state, seen ∨ P (view (respond c t).state)) ⟨hallowed, .rfl⟩
    obtain ⟨seen', hQ, hseen'⟩ := ih _ hrest ht'
    refine ⟨seen', hQ, hseen'.trans ?_⟩
    simp only [passes, List.mem_cons, exists_eq_or_imp, or_assoc]

end Program

end BucketStore
