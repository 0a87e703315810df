/-
  BucketStore/Proofs/Transaction/WriteSet.lean
  ============================================
  **Evaluating on copies is applying the operations one by one.**

  `Transaction.on` applies operations directly to the values under all keys.  A
  write set that holds copies of the touched values tracks that
  (`execute_tracks`): it answers the same and fails where the direct application
  fails, its staged values are the new values, and no key that it does not hold
  has another value than before.

  What it publishes are therefore exactly the loaded keys whose value is another
  one afterwards (`mem_changes`).
-/
import BucketStore.Proofs.ActionLogic
import BucketStore.Proofs.Fallible
import BucketStore.Proofs.Places
import BucketStore.Proofs.Transaction.Touched
import BucketStore.Transaction.WriteSet

namespace BucketStore

/-! ### Operations applied directly -/

/-- Applies the operation to values: what it answers, and the values afterwards. -/
def Operation.on (v : Places Bytes) : Operation → Except Failure (OpResult × Places Bytes)
  | .get b k =>
    match v b k with
    | some value => .ok (.read value, v)
    | none => .error (.keyNotFound b k)
  | .set b k value => .ok (.written, v.put b k (some value))
  | .delete b k => .ok (.deleted, v.put b k none)
  | .compareAndSwap b k old new =>
    .ok (.swap ⟨v b k, v b k == old⟩, if v b k = old then v.put b k (some new) else v)

/-- Applies the operations to values in order, up to the first that fails. -/
def Transaction.on (v : Places Bytes) : Transaction → Except Failure (TxOutcome × Places Bytes)
  | [] => .ok ([], v)
  | op :: rest =>
    match op.on v with
    | .error f => .error f
    | .ok (result, v) => (Transaction.on v rest).map fun out => (result :: out.1, out.2)

theorem Operation.on_other {v v' : Places Bytes} {op : Operation} {result : OpResult}
    (h : op.on v = .ok (result, v')) {b k : Bytes} (hplace : ¬(b = op.bucket ∧ k = op.key)) :
    v' b k = v b k := by
  cases op with
  | get bucket key =>
    unfold Operation.on at h
    dsimp only at h
    split at h
    · cases h
      rfl
    · cases h
  | set bucket key value =>
    cases h
    exact Places.put_other hplace
  | delete bucket key =>
    cases h
    exact Places.put_other hplace
  | compareAndSwap bucket key old new =>
    cases h
    split
    · exact Places.put_other hplace
    · rfl

/-- A transaction answers if its first operation does, and the others on what that leaves. -/
theorem Transaction.on_cons_eq_ok {v v' : Places Bytes} {op : Operation} {rest : Transaction}
    {outcome : TxOutcome} : Transaction.on v (op :: rest) = .ok (outcome, v') ↔
      ∃ result v₁ later, op.on v = .ok (result, v₁) ∧ Transaction.on v₁ rest = .ok (later, v') ∧
        result :: later = outcome := by
  rw [Transaction.on]
  cases op.on v with
  | error f => exact ⟨nofun, nofun⟩
  | ok out =>
    simp only [map_eq_ok, Prod.exists, Prod.mk.injEq, Except.ok.injEq]
    constructor
    · rintro ⟨later, v', hrest, rfl, rfl⟩
      exact ⟨out.1, out.2, later, rfl, hrest, rfl⟩
    · rintro ⟨_, _, later, rfl, hrest, rfl⟩
      exact ⟨later, v', hrest, rfl, rfl⟩

/-- A transaction leaves the places alone that it does not touch. -/
theorem Transaction.on_other {v v' : Places Bytes} {tx : Transaction} {outcome : TxOutcome}
    (h : Transaction.on v tx = .ok (outcome, v')) {b k : Bytes}
    (hplace : ∀ op ∈ tx, ¬(b = op.bucket ∧ k = op.key)) : v' b k = v b k := by
  induction tx generalizing v outcome with
  | nil =>
    cases h
    rfl
  | cons op rest ih =>
    obtain ⟨hop, hrest⟩ := List.forall_mem_cons.mp hplace
    obtain ⟨_, _, _, hon, hlater, -⟩ := Transaction.on_cons_eq_ok.mp h
    exact (ih hlater hrest).trans (Operation.on_other hon hop)

theorem Transaction.length_on {v v' : Places Bytes} {tx : Transaction} {outcome : TxOutcome}
    (h : Transaction.on v tx = .ok (outcome, v')) : outcome.length = tx.length := by
  induction tx generalizing v outcome with
  | nil =>
    cases h
    rfl
  | cons op rest ih =>
    obtain ⟨_, _, _, -, hrest, rfl⟩ := Transaction.on_cons_eq_ok.mp h
    exact congrArg (· + 1) (ih hrest)

namespace WriteSet

variable {ws : WriteSet} {b k bucket key : Bytes} {value : Option Bytes}

/-! ### Slots -/

theorem slot?_load (ws : WriteSet) (bucket key : Bytes) (value : Option Bytes) (b k : Bytes) :
    (ws.load bucket key value).slot? b k =
      if b = bucket ∧ k = key ∧ ws.isLoaded bucket key = false then some ⟨value, value⟩
      else ws.slot? b k := by
  unfold load
  cases hloaded : ws.isLoaded bucket key with
  | true => simp
  | false =>
    have hnone : ws.slot? bucket key = none := by
      simpa [isLoaded, Option.isSome_eq_false_iff] using hloaded
    simp only [Bool.false_eq_true, if_false, and_true]
    unfold slot? at hnone ⊢
    rw [List.find?_append]
    by_cases heq : b = bucket ∧ k = key
    · rw [heq.1, heq.2, if_pos ⟨rfl, rfl⟩]
      rw [Option.map_eq_none_iff] at hnone
      simp [hnone]
    · rw [if_neg heq]
      have hne : ¬(bucket = b ∧ key = k) := fun h => heq ⟨h.1.symm, h.2.symm⟩
      simp [hne]

theorem slot?_stage (ws : WriteSet) (bucket key : Bytes) (value : Option Bytes) (b k : Bytes) :
    (ws.stage bucket key value).slot? b k =
      (ws.slot? b k).map fun slot =>
        if b = bucket ∧ k = key then { slot with current := value } else slot := by
  unfold slot? stage
  rw [List.find?_map]
  have hkeep : ((fun e : (Bytes × Bytes) × Slot => e.1 == (b, k)) ∘ fun e =>
      if e.1 == (bucket, key) then (e.1, { e.2 with current := value }) else e) =
      fun e => e.1 == (b, k) := by
    funext e
    simp only [Function.comp]
    split <;> rfl
  rw [hkeep, Option.map_map, Option.map_map]
  cases hfind : ws.slots.find? fun e => e.1 == (b, k) with
  | none => rfl
  | some e =>
    have hplace : e.1 = (b, k) := by simpa using List.find?_some hfind
    simp only [Option.map_some, Function.comp, hplace, beq_iff_eq, Prod.mk.injEq]
    split <;> rfl

@[simp] theorem isLoaded_stage :
    (ws.stage bucket key value).isLoaded b k = ws.isLoaded b k := by
  simp [isLoaded, slot?_stage]

@[simp] theorem committed_stage :
    (ws.stage bucket key value).committed b k = ws.committed b k := by
  unfold committed
  rw [slot?_stage]
  cases ws.slot? b k with
  | none => rfl
  | some slot =>
    simp only [Option.map_some, Option.bind_some]
    split <;> rfl

theorem current_stage (hloaded : ws.isLoaded b k = true) :
    (ws.stage bucket key value).current b k =
      if b = bucket ∧ k = key then value else ws.current b k := by
  obtain ⟨slot, hslot⟩ := Option.isSome_iff_exists.mp hloaded
  simp only [current, slot?_stage, hslot, Option.map_some, Option.bind_some]
  split <;> rfl

/-! ### Tracking -/

/-- The write set holds copies for a transaction that has turned the values `v₀` into `v`. -/
structure Tracks (ws : WriteSet) (v₀ v : Places Bytes) : Prop where
  committed : ∀ b k, ws.isLoaded b k = true → ws.committed b k = v₀ b k
  current : ∀ b k, ws.isLoaded b k = true → ws.current b k = v b k
  others : ∀ b k, ws.isLoaded b k = false → v b k = v₀ b k

variable {v₀ v : Places Bytes}

theorem tracks_empty (v : Places Bytes) : ({} : WriteSet).Tracks v v :=
  ⟨fun _ _ h => (nomatch h), fun _ _ h => (nomatch h), fun _ _ _ => rfl⟩

theorem isLoaded_load :
    (ws.load bucket key value).isLoaded b k = true ↔
      (b = bucket ∧ k = key) ∨ ws.isLoaded b k = true := by
  unfold isLoaded
  rw [slot?_load]
  by_cases heq : b = bucket ∧ k = key
  · obtain ⟨rfl, rfl⟩ := heq
    cases hloaded : ws.isLoaded b k with
    | false => simp
    | true => simpa [isLoaded] using hloaded
  · simp only [← and_assoc, heq, false_and, if_false, false_or]

theorem Tracks.load (h : ws.Tracks v v) (bucket key : Bytes) :
    (ws.load bucket key (v bucket key)).Tracks v v := by
  have hslot : ∀ b k, (ws.load bucket key (v bucket key)).isLoaded b k = true →
      (ws.load bucket key (v bucket key)).committed b k = v b k ∧
        (ws.load bucket key (v bucket key)).current b k = v b k := by
    intro b k hloaded
    unfold WriteSet.committed WriteSet.current
    rw [slot?_load]
    split
    · next heq => exact ⟨by rw [heq.1, heq.2.1]; rfl, by rw [heq.1, heq.2.1]; rfl⟩
    · next hne =>
      have hbefore : ws.isLoaded b k = true := by
        rcases isLoaded_load.mp hloaded with ⟨rfl, rfl⟩ | hbefore
        · cases hcase : ws.isLoaded b k with
          | true => rfl
          | false => exact absurd ⟨rfl, rfl, hcase⟩ hne
        · exact hbefore
      exact ⟨h.committed b k hbefore, h.current b k hbefore⟩
  exact ⟨fun b k hb => (hslot b k hb).1, fun b k hb => (hslot b k hb).2, fun _ _ _ => rfl⟩

theorem Tracks.stage (h : ws.Tracks v₀ v) (hloaded : ws.isLoaded bucket key = true)
    (value : Option Bytes) : (ws.stage bucket key value).Tracks v₀ (v.put bucket key value) := by
  refine ⟨?_, ?_, ?_⟩
  · intro b k hbk
    rw [isLoaded_stage] at hbk
    rw [committed_stage, h.committed b k hbk]
  · intro b k hbk
    rw [isLoaded_stage] at hbk
    rw [current_stage hbk, h.current b k hbk]
    rfl
  · intro b k hbk
    rw [isLoaded_stage] at hbk
    rw [Places.put_other, h.others b k hbk]
    rintro ⟨rfl, rfl⟩
    rw [hloaded] at hbk
    exact absurd hbk (by decide)

@[simp] theorem isLoaded_apply (op : Operation) :
    (ws.apply op).2.isLoaded b k = ws.isLoaded b k := by
  unfold apply
  split
  · rfl
  · cases op with
    | get b' k' =>
      dsimp only
      split <;> rfl
    | set b' k' value => exact isLoaded_stage
    | delete b' k' => exact isLoaded_stage
    | compareAndSwap b' k' old new =>
      dsimp only
      split
      · exact isLoaded_stage
      · rfl

/-- An operation fails for what is not there, be it a slot or a value. -/
theorem apply_eq_error {op : Operation} {f : Failure} (h : (ws.apply op).1 = .error f) :
    ∃ b k, f = .notLoaded b k ∨ f = .keyNotFound b k := by
  unfold apply at h
  split at h
  · exact ⟨op.bucket, op.key, .inl (Except.error.inj h).symm⟩
  · cases op with
    | get b' k' =>
      dsimp only at h
      split at h
      · cases h
      · exact ⟨b', k', .inr (Except.error.inj h).symm⟩
    | set | delete | compareAndSwap => cases h

theorem execute_eq_error {tx : Transaction} {f : Failure} (h : (ws.execute tx).1 = .error f) :
    ∃ b k, f = .notLoaded b k ∨ f = .keyNotFound b k := by
  induction tx generalizing ws with
  | nil => cases h
  | cons op rest ih =>
    unfold execute at h
    split at h
    · next g ws' hop =>
      cases h
      exact apply_eq_error (congrArg Prod.fst hop)
    · next result ws' hop =>
      have hrest : (ws'.execute rest).1 = .error f := by
        rcases hexecute : ws'.execute rest with ⟨g | results, _⟩ <;> rw [hexecute] at h <;> cases h
        rfl
      exact ih hrest

@[simp] theorem isLoaded_execute (tx : Transaction) :
    (ws.execute tx).2.isLoaded b k = ws.isLoaded b k := by
  induction tx generalizing ws with
  | nil => rfl
  | cons op rest ih =>
    have hop : (ws.apply op).2.isLoaded b k = ws.isLoaded b k := isLoaded_apply op
    unfold execute
    split
    · next heq =>
      rw [heq] at hop
      exact hop
    · next heq =>
      rw [heq] at hop
      exact ih.trans hop

theorem apply_tracks (h : ws.Tracks v₀ v) {op : Operation}
    (hloaded : ws.isLoaded op.bucket op.key = true) :
    (ws.apply op).1 = (op.on v).map (·.1) ∧
      ∀ out, op.on v = .ok out → (ws.apply op).2.Tracks v₀ out.2 := by
  obtain ⟨slot, hslot⟩ := Option.isSome_iff_exists.mp hloaded
  have hcurrent : slot.current = v op.bucket op.key := by
    rw [← h.current _ _ hloaded]
    simp [WriteSet.current, hslot]
  unfold apply
  rw [hslot]
  cases op with
  | get b k =>
    change slot.current = v b k at hcurrent
    simp only [Operation.on, hcurrent]
    cases v b k with
    | none =>
      refine ⟨rfl, fun _ hout => ?_⟩
      cases hout
    | some value => exact ⟨rfl, fun _ hout => Except.ok.inj hout ▸ h⟩
  | set b k value => exact ⟨rfl, fun _ hout => Except.ok.inj hout ▸ h.stage hloaded (some value)⟩
  | delete b k => exact ⟨rfl, fun _ hout => Except.ok.inj hout ▸ h.stage hloaded none⟩
  | compareAndSwap b k old new =>
    change slot.current = v b k at hcurrent
    simp only [Operation.on, Swap.evaluate, hcurrent]
    refine ⟨rfl, fun _ hout => ?_⟩
    cases hout
    by_cases heq : v b k = old
    · simp only [heq, beq_self_eq_true, if_true]
      exact h.stage hloaded (some new)
    · simp only [beq_iff_eq, heq, if_false]
      exact h

/-- Operations on loaded keys answer as on the values, or fail as on the values. -/
theorem execute_tracks {tx : Transaction} (h : ws.Tracks v₀ v)
    (hloaded : ∀ op ∈ tx, ws.isLoaded op.bucket op.key = true) :
    (ws.execute tx).1 = (Transaction.on v tx).map (·.1) ∧
      ∀ out, Transaction.on v tx = .ok out → (ws.execute tx).2.Tracks v₀ out.2 := by
  induction tx generalizing ws v with
  | nil => exact ⟨rfl, fun _ hout => Except.ok.inj hout ▸ h⟩
  | cons op rest ih =>
    -- The first operation leaves a write set that tracks what it makes of the values.
    obtain ⟨hreply, htracks⟩ := apply_tracks h (hloaded op (List.mem_cons_self ..))
    have hsame : ∀ b k, (ws.apply op).2.isLoaded b k = ws.isLoaded b k := fun b k => isLoaded_apply op
    unfold Transaction.on execute
    cases happly : ws.apply op with
    | mk r ws' =>
    rw [happly] at hreply htracks hsame
    cases hon : op.on v with
    | error f =>
      rw [hon] at hreply
      change r = .error f at hreply
      rw [hreply]
      exact ⟨rfl, fun _ hout => nomatch hout⟩
    | ok out =>
      obtain ⟨result, v'⟩ := out
      rw [hon] at hreply
      change r = .ok result at hreply
      rw [hreply]
      obtain ⟨hreplies, htracks'⟩ := ih (htracks _ hon) fun op' hop' => by
        rw [hsame]
        exact hloaded op' (List.mem_cons_of_mem _ hop')
      constructor
      · dsimp only
        rw [hreplies]
        cases Transaction.on v' rest <;> rfl
      · intro out hout
        obtain ⟨out', hon', rfl⟩ := map_eq_ok.mp hout
        exact htracks' out' hon'

/-! ### Keys once each -/

/-- The keys that are loaded, in order of loading. -/
def places (ws : WriteSet) : List (Bytes × Bytes) := ws.slots.map (·.1)

/-- No key has two slots. -/
def Distinct (ws : WriteSet) : Prop := (ws.slots.map (·.1)).Nodup

theorem places_load_new (hloaded : ws.isLoaded bucket key = false) (value : Option Bytes) :
    (ws.load bucket key value).places = ws.places ++ [(bucket, key)] := by
  simp [load, hloaded, places]

theorem mem_places_load {place : Bytes × Bytes} (h : place ∈ (ws.load bucket key value).places) :
    place ∈ ws.places ∨ place = (bucket, key) := by
  cases hloaded : ws.isLoaded bucket key with
  | true =>
    unfold load at h
    rw [if_pos hloaded] at h
    exact .inl h
  | false =>
    rw [places_load_new hloaded] at h
    simpa using h

theorem mem_places_of_changes {change : Change} (h : change ∈ ws.changes) :
    (change.bucket, change.key) ∈ ws.places := by
  obtain ⟨e, he, hchange⟩ := List.mem_filterMap.mp h
  split at hchange
  · cases hchange
  · cases hchange
    exact List.mem_map.mpr ⟨e, he, rfl⟩

theorem not_mem_places (hloaded : ws.isLoaded bucket key = false) : (bucket, key) ∉ ws.places := by
  intro hmem
  obtain ⟨e, he, hplace⟩ := List.mem_map.mp hmem
  have hsome : ws.isLoaded bucket key = true := by
    unfold isLoaded slot?
    rw [Option.isSome_map, List.find?_isSome]
    exact ⟨e, he, beq_iff_eq.mpr hplace⟩
  rw [hloaded] at hsome
  cases hsome

theorem distinct_load (h : ws.Distinct) (bucket key : Bytes) (value : Option Bytes) :
    (ws.load bucket key value).Distinct := by
  by_cases hloaded : ws.isLoaded bucket key = true
  · simpa only [load, hloaded, if_true] using h
  · rw [Bool.not_eq_true] at hloaded
    change (ws.load bucket key value).places.Nodup
    rw [places_load_new hloaded, List.nodup_append]
    refine ⟨h, by simp, ?_⟩
    rintro place hplace place' hplace' rfl
    rw [List.mem_singleton] at hplace'
    exact not_mem_places hloaded (hplace' ▸ hplace)

theorem places_stage (ws : WriteSet) (bucket key : Bytes) (value : Option Bytes) :
    (ws.stage bucket key value).places = ws.places := by
  simp only [places, stage, List.map_map]
  apply List.map_congr_left
  intro e _
  simp only [Function.comp]
  split <;> rfl

theorem places_apply (ws : WriteSet) (op : Operation) : (ws.apply op).2.places = ws.places := by
  unfold apply
  split
  · rfl
  · cases op with
    | get b k =>
      dsimp only
      split <;> rfl
    | set b k value => exact places_stage ws b k (some value)
    | delete b k => exact places_stage ws b k none
    | compareAndSwap b k old new =>
      dsimp only
      split
      · exact places_stage ws b k (some new)
      · rfl

/-- Operations change what the slots hold, not the slots. -/
theorem places_execute (ws : WriteSet) (tx : Transaction) : (ws.execute tx).2.places = ws.places := by
  induction tx generalizing ws with
  | nil => rfl
  | cons op rest ih =>
    have hop := places_apply ws op
    unfold execute
    split
    · next heq =>
      rw [heq] at hop
      exact hop
    · next heq =>
      rw [heq] at hop
      exact (ih _).trans hop

theorem distinct_execute (h : ws.Distinct) (tx : Transaction) : (ws.execute tx).2.Distinct := by
  change (ws.execute tx).2.places.Nodup
  rw [places_execute]
  exact h

theorem slot?_of_mem (h : ws.Distinct) {slot : Slot} (hmem : ((b, k), slot) ∈ ws.slots) :
    ws.slot? b k = some slot := by
  unfold slot?
  unfold Distinct at h
  generalize ws.slots = slots at h hmem
  induction slots with
  | nil => cases hmem
  | cons e rest ih =>
    rw [List.map_cons, List.nodup_cons] at h
    rcases List.mem_cons.mp hmem with rfl | hmem
    · simp
    · have hne : ¬e.1 = (b, k) := fun heq => h.1 (heq ▸ List.mem_map.mpr ⟨_, hmem, rfl⟩)
      rw [List.find?_cons_of_neg (by simpa using hne)]
      exact ih h.2 hmem

/-- What is published are the loaded keys whose staged value is another one. -/
theorem mem_changes (h : ws.Distinct) {change : Change} :
    change ∈ ws.changes ↔
      ws.isLoaded change.bucket change.key = true ∧
      change.value = ws.current change.bucket change.key ∧
      ws.committed change.bucket change.key ≠ ws.current change.bucket change.key := by
  unfold changes
  rw [List.mem_filterMap]
  constructor
  · rintro ⟨⟨⟨b, k⟩, slot⟩, hmem, hchange⟩
    have hslot := slot?_of_mem h hmem
    split at hchange
    · cases hchange
    · next hne =>
      cases hchange
      refine ⟨?_, ?_, ?_⟩
      · simp [isLoaded, hslot]
      · simp [current, hslot]
      · simpa [committed, current, hslot] using hne
  · rintro ⟨hloaded, hvalue, hne⟩
    obtain ⟨slot, hslot⟩ := Option.isSome_iff_exists.mp hloaded
    obtain ⟨b, k, value⟩ := change
    refine ⟨((b, k), slot), ?_, ?_⟩
    · unfold slot? at hslot
      obtain ⟨e, he, rfl⟩ := Option.map_eq_some_iff.mp hslot
      have hplace : e.1 = (b, k) := by simpa using List.find?_some he
      have hmem := List.mem_of_find?_eq_some he
      rwa [show e = ((b, k), e.2) from Prod.ext hplace rfl] at hmem
    · simp only [committed, current, hslot, Option.bind_some] at hne hvalue
      rw [if_neg hne, hvalue]

/-- What is published after a transaction are the values that it has changed, in order of loading. -/
theorem changes_eq (h : ws.Tracks v₀ v) (hdistinct : ws.Distinct) :
    ws.changes = (ws.places.filter fun p => v₀ p.1 p.2 ≠ v p.1 p.2).map
      fun p => ⟨p.1, p.2, v p.1 p.2⟩ := by
  have hslot : ∀ e ∈ ws.slots, e.2.committed = v₀ e.1.1 e.1.2 ∧ e.2.current = v e.1.1 e.1.2 := by
    rintro ⟨⟨b, k⟩, slot⟩ he
    have hfound := slot?_of_mem hdistinct he
    have hloaded : ws.isLoaded b k = true := by simp [isLoaded, hfound]
    rw [← h.committed b k hloaded, ← h.current b k hloaded]
    simp [committed, current, hfound]
  unfold changes places
  generalize ws.slots = slots at hslot
  induction slots with
  | nil => rfl
  | cons e rest ih =>
    obtain ⟨⟨hcommitted, hcurrent⟩, hrest⟩ := List.forall_mem_cons.mp hslot
    rw [List.filterMap_cons, List.map_cons, hcommitted, hcurrent, ih hrest]
    by_cases hsame : v₀ e.1.1 e.1.2 = v e.1.1 e.1.2
    · rw [if_pos hsame, List.filter_cons_of_neg (by simpa using hsame)]
    · rw [if_neg hsame, List.filter_cons_of_pos (by simpa using hsame), List.map_cons]

/-! ### Evaluation -/

section

variable {σ : Type} (load : Bytes → Bytes → Action σ (Option Bytes))

/-- Loads the values of the places, one after the other. -/
def loading (places : List (Bytes × Bytes)) (ws : WriteSet) : Action σ WriteSet :=
  places.foldlM (fun ws place => return ws.load place.1 place.2 (← load place.1 place.2)) ws

/-- An evaluation answers what the operations answer on what is loaded, and does nothing but load. -/
theorem evaluate_run (tx : Transaction) (s : σ) :
    (evaluate load tx s).state = (loading load tx.touched {} s).state ∧
    (evaluate load tx s).reply = (loading load tx.touched {} s).reply.bind fun ws =>
      (ws.execute tx).1.map fun outcome => ((ws.execute tx).2, outcome) := by
  change ((loading load tx.touched {} >>= fun ws => _) s).state = _ ∧
    ((loading load tx.touched {} >>= fun ws => _) s).reply = _
  rw [Action.bind_run]
  rcases loading load tx.touched {} s with ⟨f | ws, s', log⟩
  · exact ⟨rfl, rfl⟩
  · simp only [Except.bind]
    rcases ws.execute tx with ⟨f | outcome, ws'⟩ <;> exact ⟨rfl, rfl⟩

end

end WriteSet

end BucketStore
