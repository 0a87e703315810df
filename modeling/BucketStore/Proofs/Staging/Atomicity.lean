/-
  BucketStore/Proofs/Staging/Atomicity.lean
  =========================================
  **A staged update is seen as a whole or not at all.**

  Whatever fault plan strikes an update, and whatever crashed transactions have
  left in the store before it, readers see afterwards exactly what its operations
  make of the values that they saw before if it answers, and what they saw before
  if it fails (`update_all_or_nothing`).
-/
import BucketStore.Proofs.Staging.Committing
import BucketStore.Proofs.Staging.Reachable

namespace BucketStore.Staging

open MemoryItems

/-- What readers see in `c'` is what the operations make of what they see in `c`, with these answers;
    after a failure it is the same as before. -/
def AllOrNothing (tx : Transaction) (c c' : Contents) : Except Failure TxOutcome → Prop
  | .ok outcome => ∃ v, Transaction.on c.visible tx = .ok (outcome, v) ∧
      ∀ bucket key, isReservedKey key = false → c'.visible bucket key = v bucket key
  | .error _ => c.SameView c'

variable {around : Surroundings} {t : Trouble} {tx : Transaction} {s s' : MemoryItems}

theorem Updated.allOrNothing {r : Except Failure TxOutcome} (h : Updated around t tx s r s')
    (hs : s.Sound around) : AllOrNothing tx s.raw s'.raw r := by
  cases h with
  | empty htx =>
    subst htx
    exact ⟨_, rfl, fun _ _ _ => rfl⟩
  | refused hraw _ =>
    change Contents.SameView s.raw s'.raw
    rw [hraw]
    exact .refl _
  | ended hid hkeys hproper h =>
    cases h with
    | applied _ _ _ _ _ hon hshows _ _ => exact ⟨_, hon, hshows⟩
    | failed htidied hlaid hstate _ _ _ =>
      refine (htidied.sameView hs).trans (hlaid.layers.sameView hproper.addressable ?_)
      rintro rfl
      rcases hstate _ rfl with heq | heq <;> cases heq

/-- **Staged updates are all-or-nothing.** From every reachable store, under every fault plan: an
    update that answers has applied its operations, in order and as a whole, to the values that
    readers saw, and an update that fails has changed none of them. Its identifier has to be new. -/
theorem update_all_or_nothing (hids : around.Addressable)
    (hs : Reachable around (fun _ => True) s) (htx : tx.Addressable)
    (hnew : ∀ i < s.drawn, around.ids i ≠ around.ids s.drawn) (config : Config)
    (plan : Option FaultPlan) :
    AllOrNothing tx s.raw
      ((Engine.driver (itemStore around) config).update tx { s with fault := plan }).state.raw
      ((Engine.driver (itemStore around) config).update tx { s with fault := plan }).reply := by
  have hsound := sound_of_reachable hids hs
  have hforeign : Contents.Foreign (around.ids s.drawn) s.raw :=
    Contents.Sound.foreign hsound fun ⟨i, hi, heq⟩ => hnew i hi heq
  have hensures : (Engine.update config .memory tx).Ensures (storing around .faults)
      { s with fault := plan } fun r s' => AllOrNothing tx s.raw s'.raw r := by
    have hrefused : ∀ f, AllOrNothing tx s.raw s.raw (.error f) := fun _ => .refl s.raw
    apply ensures_engineUpdate
    · exact fun _ => hrefused _
    · exact fun f _ => hrefused f
    · exact fun _ f => hrefused f
    · intro _ huser
      have hended : (updateKeys config tx).Ensures (storing around .faults) { s with fault := plan }
          (Updated around .faults tx { s with fault := plan }) :=
        ensures_updateKeys_ended htx huser hids hsound hforeign
      exact hended.mono fun r s' h => h.allOrNothing hsound
  exact run_of_faults hensures

/-- The store holds a committed transaction that was not applied, and a later write fails. -/
theorem update_all_or_nothing_after_crash :
    (still.Addressable ∧ Reachable still (fun _ => True) crashed ∧ crashed.drawn = 1) ∧
      AllOrNothing [.get [65] [97], .delete [66] [98]] crashed.raw
        ((Engine.driver (itemStore still) {}).update [.get [65] [97], .delete [66] [98]]
          { crashed with fault := some ⟨5, false⟩ }).state.raw
        ((Engine.driver (itemStore still) {}).update [.get [65] [97], .delete [66] [98]]
          { crashed with fault := some ⟨5, false⟩ }).reply := by
  have hdrawn : crashed.drawn = 1 := by decide +kernel
  refine ⟨⟨addressable_still, reachable_crashed, hdrawn⟩,
    update_all_or_nothing addressable_still reachable_crashed (by decide) ?_ {} (some ⟨5, false⟩)⟩
  rw [hdrawn]
  decide

end BucketStore.Staging
