/-
  BucketStore/Proofs/Sql/Locking.lean
  ===================================
  **An update locks all that it touches, in one order, before it writes.**

  A key is locked by reading it to be updated, until the transaction ends; so what a
  transaction has locked is told from its statements and how they are answered
  (`Call.locks`).  If every update locks in the same order, no two of them wait for each
  other, and if none writes before it has locked all keys that it touches, what it has
  read of them is still so when it writes.  Updates keep to both, and swaps to the second,
  whatever is replied to them (`calls_lock_first`).
-/
import BucketStore.Proofs.Sql.Isolation

namespace BucketStore.Sql

open Program hiding bind
open Protocol

/-- Places in tables, the last one that was locked in front. -/
abbrev Locks := List (Bytes × Bytes)

variable {τ : Type} {d : Dialect} {tx : Transaction} {touched held : Locks}

/-! ### The order of locks -/

theorem lockBefore_eq (a b : Bytes × Bytes) :
    lockBefore a b = (compareLex (compareOn Prod.fst) (compareOn Prod.snd) a b).isLE := by
  unfold lockBefore compareLex compareOn
  cases compare a.1 b.1 with
  | lt => rfl
  | gt => rfl
  | eq => cases compare a.2 b.2 <;> rfl

theorem pairwise_lockBefore (places : Locks) :
    (places.mergeSort lockBefore).Pairwise fun a b => lockBefore a b = true := by
  apply List.pairwise_mergeSort
  · intro a b c hab hbc
    rw [lockBefore_eq] at *
    exact Std.TransCmp.isLE_trans hab hbc
  · intro a b
    have hswap : compareLex (compareOn Prod.fst) (compareOn Prod.snd) a b =
      (compareLex (compareOn Prod.fst) (compareOn Prod.snd) b a).swap := Std.OrientedCmp.eq_swap
    rw [lockBefore_eq, lockBefore_eq, hswap]
    cases compareLex (compareOn Prod.fst) (compareOn Prod.snd) b a <;> rfl

/-! ### What is locked -/

/-- What is locked after a call was replied to like this. -/
def Call.locks (held : Locks) : (call : Call) → call.Reply → Locks
  | .execute (.on table (.select true key)), .ok _ => (table.bytes, key) :: held
  | .execute .beginTransaction, .ok _ => []
  | .execute .commit, .ok _ => []
  | .execute .rollback, .ok _ => []
  | .execute _, .error fault => if fault.isLoss then [] else held
  | .abandon, _ => []
  | _, _ => held

/-- A place is locked behind those that are locked already, and written after all places that the
    transaction touches are locked, itself among them. -/
def TableStatement.LocksFirst (touched held : Locks) (table : Table) : TableStatement → Prop
  | .select true key => ∀ place ∈ held, lockBefore place (table.bytes, key) = true
  | .upsert key _ | .updateValue key _ | .delete key =>
    (table.bytes, key) ∈ held ∧ ∀ place ∈ touched, place ∈ held
  | _ => True

def locking (touched : Locks) : Contract Call Call.Reply Locks where
  needs
    | .execute (.on table t), held => t.LocksFirst touched held table
    | _, _ => True
  allows call held reply held' := held' = call.locks held reply

/-! ### Locking and writing -/

theorem leaves_tableOf_bytes (bucket : Bytes) : (tableOf d bucket).Leaves (locking touched) held
    fun table held' => table.bytes = bucket ∧ held' = held := by
  refine leaves_ofExcept fun table htable => ⟨?_, rfl⟩
  cases hnamed : d.table bucket with
  | error fault =>
    rw [hnamed] at htable
    cases htable
  | ok table' =>
    rw [hnamed] at htable
    cases htable
    exact bytes_of_table hnamed

theorem leaves_committing {α : Type} (a : α) (held : Locks) :
    (do commit d; return a : Protocol α).Leaves (locking touched) held fun _ _ => True := by
  refine (leaves_perform (I := fun _ => True) ?_ fun _ _ _ => trivial).bind ?_
  · trivial
  · exact fun _ _ _ => leaves_pure trivial

/-- A transaction begins without locks. -/
theorem leaves_begun (level : Isolation) (held : Locks) :
    (beginIsolated d level).Leaves (locking touched) held fun _ held' => held' = [] := by
  unfold beginIsolated
  cases d with
  | postgres =>
    refine (leaves_perform (I := (· = [])) ?_ fun _ _ hallows => hallows).bind ?_
    · trivial
    · rintro _ _ rfl
      exact leaves_perform trivial fun _ _ hallows => hallows
  | mysql =>
    refine (leaves_perform (I := fun _ => True) ?_ fun _ _ _ => trivial).bind ?_
    · trivial
    · intro _ held' _
      exact leaves_perform trivial fun _ _ hallows => hallows

section

variable {place : Bytes × Bytes} {ws : WriteSet}

/-- A place that comes behind those that are locked is locked, too, and its value is noted. -/
theorem leaves_lockPlace (h : ∀ p ∈ held, lockBefore p place = true) :
    (lockKey d ws place).Leaves (locking touched) held fun ws' held' =>
      held' = place :: held ∧ ∃ value, ws' = ws.load place.1 place.2 value := by
  refine (leaves_tableOf_bytes place.1).bind ?_
  rintro table held' ⟨hbytes, rfl⟩
  have hplace : (table.bytes, place.2) = place := Prod.ext hbytes rfl
  refine (leaves_execute (R := fun _ held => held = place :: held') ?_ ?_).mapFailure.bind ?_
  · exact fun p hp => hplace ▸ h p hp
  · rintro rows _ rfl
    exact congrArg (· :: held') hplace
  · rintro rows _ rfl
    refine (leaves_ofExcept (R := fun _ held => held = place :: held') fun _ _ => rfl).bind ?_
    rintro value _ rfl
    exact leaves_pure ⟨rfl, value, rfl⟩

/-- Places that come in the order of locks, and behind those that are locked, are all locked. -/
theorem leaves_lockPlaces {places : Locks}
    (hordered : places.Pairwise fun a b => lockBefore a b = true)
    (hbehind : ∀ p ∈ held, ∀ place ∈ places, lockBefore p place = true)
    (hws : ∀ p ∈ ws.places, p ∈ held) :
    (places.foldlM (lockKey d) ws).Leaves (locking touched) held fun ws' held' =>
      (∀ p ∈ ws'.places, p ∈ held') ∧ (∀ p ∈ held, p ∈ held') ∧ ∀ p ∈ places, p ∈ held' := by
  induction places generalizing ws held with
  | nil => exact leaves_pure ⟨hws, fun _ => id, by simp⟩
  | cons place rest ih =>
    obtain ⟨hfirst, hrest⟩ := List.pairwise_cons.mp hordered
    rw [List.foldlM_cons]
    refine (leaves_lockPlace fun p hp => hbehind p hp place (List.mem_cons_self ..)).bind ?_
    rintro _ _ ⟨rfl, value, rfl⟩
    refine (ih hrest ?_ ?_).mono ?_
    · intro p hp q hq
      rcases List.mem_cons.mp hp with rfl | hp
      · exact hfirst q hq
      · exact hbehind p hp q (List.mem_cons_of_mem _ hq)
    · intro p hp
      rcases WriteSet.mem_places_load hp with hp | rfl
      · exact List.mem_cons_of_mem _ (hws p hp)
      · exact List.mem_cons_self ..
    · rintro ws' held' ⟨hws', hheld, hall⟩
      have hplace := hheld place (List.mem_cons_self ..)
      exact ⟨hws', fun p hp => hheld p (List.mem_cons_of_mem _ hp),
        List.forall_mem_cons.mpr ⟨hplace, hall⟩⟩

end

theorem leaves_writeLocked {change : Change} (hlocked : (change.bucket, change.key) ∈ held)
    (htouched : ∀ p ∈ touched, p ∈ held) :
    (writeChange d change).Leaves (locking touched) held fun _ held' => held' = held := by
  refine (leaves_tableOf_bytes change.bucket).bind ?_
  rintro table _ ⟨hbytes, rfl⟩
  rw [← hbytes] at hlocked
  have hlocks := And.intro hlocked htouched
  cases hvalue : change.value with
  | none => exact (leaves_perform hlocks fun _ _ hallows => hallows).mapFailure
  | some value => exact (leaves_perform hlocks fun _ _ hallows => hallows).mapFailure

/-! ### Updates -/

theorem leaves_lockingUpdate (tx : Transaction) (held : Locks) :
    (tryUpdate d tx).Leaves (locking tx.touched) held fun _ _ => True := by
  refine leaves_transaction (fun _ => trivial) ((leaves_begun _ held).bind ?_)
  rintro _ _ rfl
  have hnone : ({} : WriteSet).places = [] := rfl
  refine (leaves_lockPlaces (pairwise_lockBefore tx.touched) (by simp) (by simp [hnone])).bind ?_
  rintro ws held' ⟨hws, -, hlocked⟩
  have htouched : ∀ p ∈ tx.touched, p ∈ held' := fun p hp => hlocked p (List.mem_mergeSort.mpr hp)
  have hplaces := ws.places_execute tx
  split
  · exact leaves_fail
  · next outcome ws' hexecute =>
    rw [hexecute] at hplaces
    refine (leaves_forM (I := (· = held')) _ ?_ rfl).bind fun _ held'' _ => ?_
    · rintro change _ hchange rfl
      exact leaves_writeLocked (hws _ (hplaces ▸ WriteSet.mem_places_of_changes hchange)) htouched
    · exact leaves_committing outcome held''

/-! ### Swaps -/

theorem leaves_replaceValue {bucket key : Bytes} {table : Table} (hbytes : table.bytes = bucket)
    (old new : Bytes) (held : Locks) : (replaceValue d bucket table key old new).Leaves
      (locking [(bucket, key)]) held fun _ _ => True := by
  subst hbytes
  refine (leaves_perform (I := (· = [])) ?_ fun _ _ hallows => hallows).bind ?_
  · trivial
  rintro _ _ rfl
  refine (leaves_execute (R := fun _ held => held = [(table.bytes, key)]) ?_ ?_).bind ?_
  · exact fun place hplace => absurd hplace List.not_mem_nil
  · exact fun _ _ hallows => hallows
  rintro rows _ rfl
  refine (leaves_ofExcept (R := fun _ held => held = [(table.bytes, key)]) fun _ _ => rfl).bind ?_
  rintro value _ rfl
  dsimp only
  split
  · refine (leaves_perform (I := fun _ => True) ?_ fun _ _ _ => trivial).bind ?_
    · exact ⟨List.mem_singleton_self _, fun _ => id⟩
    · exact fun _ held _ => leaves_committing _ held
  · exact leaves_committing _ _

theorem leaves_claimKey {bucket key : Bytes} {table : Table} (new : Bytes) (held : Locks) :
    (claimKey d bucket table key new).Leaves (locking touched) held fun _ _ => True := by
  refine (leaves_perform (I := fun _ => True) ?_ fun _ _ _ => trivial).bind ?_
  · trivial
  intro _ held₁ _
  refine ⟨trivial, ?_⟩
  rintro (fault | rows) held₂ -
  · change Leaves (locking touched) (ite _ _ _) held₂ _
    split
    · refine (leaves_perform (I := fun _ => True) ?_ fun _ _ _ => trivial).bind ?_
      · trivial
      intro _ held₃ _
      refine (leaves_execute (R := fun _ _ => True) ?_ fun _ _ _ => trivial).bind ?_
      · trivial
      · intro rows held₄ _
        refine (leaves_ofExcept (R := fun _ _ => True) fun _ _ => trivial).bind ?_
        exact fun _ _ _ => leaves_pure trivial
    · exact leaves_fail
  · exact leaves_committing (Swap.took none) held₂

theorem leaves_compareAndSwap (bucket key : Bytes) (old : Option Bytes) (new : Bytes) (held : Locks) :
    (compareAndSwap d bucket key old new).Leaves (locking [(bucket, key)]) held fun _ _ => True := by
  refine (leaves_check (R := fun _ _ => True) fun _ _ => trivial).bind fun _ held₁ _ => ?_
  refine (leaves_tableOf_bytes bucket).bind ?_
  rintro table held₂ ⟨hbytes, -⟩
  refine Leaves.mapFailure (Leaves.noteFailure (leaves_transaction (fun _ => trivial) ?_))
  cases old with
  | none => exact leaves_claimKey new held₂
  | some old => exact leaves_replaceValue hbytes old new held₂

/-! ### Runs -/

/-- What responds, together with what is locked. -/
def watched (respond : Responder Call Call.Reply τ) : Responder Call Call.Reply (τ × Locks) :=
  fun call s =>
    let r := respond call s.1
    ⟨r.reply, (r.state, call.locks s.2 r.reply), r.log⟩

/-- Every statement about a table locks or writes as it should. -/
def CallsLockFirst (touched : Locks) (calls : List (Call × (τ × Locks))) : Prop :=
  ∀ table t s, (Call.execute (.on table t), s) ∈ calls → t.LocksFirst touched s.2 table

theorem callsLockFirst_of_leaves {α : Type} {p : Protocol α}
    (h : ∀ held, p.Leaves (locking touched) held fun _ _ => True)
    (respond : Responder Call Call.Reply τ) (s : τ × Locks) :
    CallsLockFirst touched (p.calls (watched respond) s) := by
  intro table t s' hcall
  obtain ⟨_, rfl, hneeds⟩ := Ensures.needs_along (watched respond) (fun t s => t.2 = s)
    (fun _ _ => True) (fun call t _ _ hs _ => ⟨_, hs ▸ rfl, rfl⟩) (h s.2) (fun _ _ => trivial) rfl _
    hcall
  exact hneeds

/-- **Updates and swaps lock first, and updates in one order.** Whatever is replied to their calls,
    each key that an update locks comes behind those that it holds, and each that it writes is one
    that it holds, together with all others that it touches. A swap that overwrites a value holds the
    lock of its key. -/
theorem calls_lock_first (respond : Responder Call Call.Reply τ) (d : Dialect) (s : τ × Locks) :
    (∀ tx : Transaction, CallsLockFirst tx.touched ((update d tx).calls (watched respond) s)) ∧
    ∀ bucket key old new, CallsLockFirst [(bucket, key)]
      ((compareAndSwap d bucket key old new).calls (watched respond) s) :=
  ⟨fun tx => callsLockFirst_of_leaves (leaves_update (leaves_lockingUpdate tx)) respond s,
    fun bucket key old new =>
      callsLockFirst_of_leaves (leaves_compareAndSwap bucket key old new) respond s⟩

end BucketStore.Sql
