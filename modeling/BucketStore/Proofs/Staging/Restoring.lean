/-
  BucketStore/Proofs/Staging/Restoring.lean
  =========================================
  **An update that fails puts the store back as it was.**

  On the way to its commit an update stores a record, puts locks on and notes changes
  on them.  If one of these writes is struck by a fault, or the commit itself, and
  what is left to do is not, then every lock is dropped and the record is deleted:
  in a store where no update was under way, the buckets hold what they held
  (`failed_update_restores`).

  An item with neither a value nor a lock is not put back.  No engine stores one, but
  a store takes it (`hollow_item_not_restored`).
-/
import BucketStore.Proofs.Staging.Advancing
import BucketStore.Proofs.Staging.Reachable

namespace BucketStore.Staging

open MemoryItems

variable {around : Surroundings} {t : Trouble} {s s' : MemoryItems} {staged : Staged}
  {locks : List Locked}

/-! ### What is put back -/

/-- An item with neither a value nor a lock. -/
def Item.hollow : Item := ⟨none, none⟩

namespace Contents

variable {c c' c'' : Contents} {places : List (Bytes × Bytes)} {b k : Bytes}

theorem AtRest.put (h : c.AtRest) (hk : isReservedKey k = false) (value : Option Bytes) :
    AtRest (c.put b k (value.map .plain)) := by
  constructor
  · intro b' k' item hitem
    unfold Places.put at hitem
    split at hitem
    · exact Bare.lock (hitem ▸ bare_map value)
    · exact h.unlocked b' k' item hitem
  · intro b' k' item hitem
    unfold Places.put at hitem
    split at hitem
    · next heq => rw [heq.2, hk]
    · exact h.userKeys b' k' item hitem

/-- The contents `c'` are the contents `c`, but hollow items on the places may be missing. -/
def Restores (places : List (Bytes × Bytes)) (c c' : Contents) : Prop :=
  ∀ b k, c' b k = c b k ∨ (b, k) ∈ places ∧ c b k = some .hollow ∧ c' b k = none

theorem Restores.refl (places : List (Bytes × Bytes)) (c : Contents) : Restores places c c :=
  fun _ _ => .inl rfl

theorem Restores.trans (h : Restores places c c') (h' : Restores places c' c'') :
    Restores places c c'' := by
  intro b k
  rcases h' b k with heq' | ⟨hplace, hhollow, hnone⟩
  · rw [heq']
    exact h b k
  · rcases h b k with heq | ⟨_, _, hgone⟩
    · exact .inr ⟨hplace, heq ▸ hhollow, hnone⟩
    · rw [hgone] at hhollow
      cases hhollow

theorem Restores.cons (h : Restores places c c') (place : Bytes × Bytes) :
    Restores (place :: places) c c' := fun b k =>
  (h b k).imp_right fun hgone => ⟨List.mem_cons_of_mem _ hgone.1, hgone.2⟩

theorem Restores.atRest (h : Restores places c c') (hc : c.AtRest) : c'.AtRest := by
  have hstored : ∀ b k item, c' b k = some item → c b k = some item := by
    intro b k item hitem
    rcases h b k with heq | ⟨_, _, hnone⟩
    · rw [← heq, hitem]
    · rw [hnone] at hitem
      cases hitem
  exact ⟨fun b k item hitem => hc.unlocked b k item (hstored b k item hitem),
    fun b k item hitem => hc.userKeys b k item (hstored b k item hitem)⟩

/-- Putting back the value of an item without a lock puts back the item, unless it is hollow. -/
theorem AtRest.restores (h : c.AtRest) (hplace : (b, k) ∈ places) :
    Restores places c (c.put b k (((c b k).bind Item.value).map .plain)) := by
  intro b' k'
  by_cases heq : b' = b ∧ k' = k
  · obtain ⟨rfl, rfl⟩ := heq
    rw [Places.put_same]
    cases hitem : c b' k' with
    | none => exact .inl rfl
    | some item =>
      obtain ⟨value, lock⟩ := item
      have hlock : lock = none := h.unlocked b' k' _ hitem
      subst hlock
      cases value with
      | none => exact .inr ⟨hplace, rfl, rfl⟩
      | some v => exact .inl rfl
  · exact .inl (Places.put_other heq)

end Contents

/-! ### Locking where nothing is locked -/

variable {c : Contents} {state : Option TxState} {held : Places Pending} {b k : Bytes} {config : Config}
  {tx : Transaction}

/-- A lock that is put over an item has the item's value below it. -/
theorem Layers.lockOver {x : Contents} (h : Layers staged c state held x) (hk : isReservedKey k = false)
    (value : Option Bytes) (pending : Pending) :
    Layers staged (c.put b k (value.map .plain)) state (held.put b k (some pending))
      (x.put b k (some ⟨value, some (staged.lock pending)⟩)) := by
  have hbelow := h.unlock (b := b) hk value
  have hbare : Bare (c.put b k (value.map .plain) b k) := by
    rw [Places.put_same]
    exact bare_map value
  have hvalue : (value.map Item.plain).bind Item.value = value := by cases value <;> rfl
  have hover := hbelow.putLock hk hbare pending
  rw [Places.put_same, hvalue, Places.put_put, Places.put_put] at hover
  exact hover

/-- How locking a key may end where nothing is locked. -/
inductive LockedOver (staged : Staged) (c : Contents) (state : Option TxState) (held : Places Pending)
    (b k : Bytes) : Except Failure (Option Bytes) → MemoryItems → Prop
  | taken {committed : Option Bytes} {s' : MemoryItems} (hcommitted : (c b k).bind Item.value = committed)
      (hlaid : Laid staged (c.put b k (committed.map .plain)) state (held.put b k (some .keep)) s') :
      LockedOver staged c state held b k (.ok committed) s'
  | failed {f : Failure} {s' : MemoryItems} (hlaid : Laid staged c state held s') :
      LockedOver staged c state held b k (.error f) s'

section

variable (hc : c.AtRest)
include hc

theorem ensures_take_atRest (h : Laid staged c state held s) (hk : isReservedKey k = false)
    (hfree : held b k = none) {committed : Option Bytes}
    (hcommitted : (c b k).bind Item.value = committed) :
    (lockKey.take staged b k committed).Ensures (storing around .faults) s fun
      | .ok (some value), s' => LockedOver staged c state held b k (.ok value) s'
      | .ok none, _ => False
      | .error f, s' => LockedOver staged c state held b k (.error f) s' := by
  have hholds : (Precondition.unlockedWith committed).holds (s.raw b k) = true := by
    rw [h.layers.item_free hk hfree, ← hcommitted]
    cases hitem : c b k with
    | none => rfl
    | some item => simp [Precondition.holds, Item.isLocked, hc.unlocked b k item hitem]
  refine Program.ensures_bind.mpr (ensures_write ?_ ?_ ?_ ?_)
  · intro _ _ s' hsame hraw
    exact .taken hcommitted (h.change hsame (hraw ▸ h.layers.lockOver hk committed .keep))
  · intro hdeclined
    rw [hholds] at hdeclined
    cases hdeclined
  · intro f _ s' hsame hraw
    exact .failed (h.keep hsame hraw)
  · exact fun ht => ht.elim

/-- Where nothing is locked, a key is locked at the first attempt, unless a fault strikes. -/
theorem ensures_lockKey_atRest (h : Laid staged c state held s) (hk : isReservedKey k = false)
    (hfree : held b k = none) :
    (lockKey config staged b k).Ensures (storing around .faults) s
      (LockedOver staged c state held b k) := by
  refine ensures_retry_first (by decide : 0 < maxAttempts) ?_
  refine Program.ensures_bind.mpr (ensures_load ?_ fun f _ => .failed h)
  intro _
  rw [h.layers.item_free hk hfree]
  cases hitem : c b k with
  | none =>
    have hcommitted : (c b k).bind Item.value = none := by simp [hitem]
    refine (ensures_take_atRest hc h hk hfree hcommitted).mono ?_
    rintro (f | _ | value) s' hend <;> exact hend
  | some item =>
    have hunlocked : item.isLocked = false := by simp [Item.isLocked, hc.unlocked b k item hitem]
    have hcommitted : (c b k).bind Item.value = item.value := by simp [hitem]
    dsimp only
    rw [hunlocked, if_neg Bool.false_ne_true]
    refine (ensures_take_atRest hc h hk hfree hcommitted).mono ?_
    rintro (f | _ | value) s' hend <;> exact hend

theorem ensures_lockAll_atRest {places : List (Bytes × Bytes)} (hnodup : places.Nodup)
    (hplaces : ∀ place ∈ places, isReservedKey place.2 = false) (h : Laid staged c state held s)
    (hfree : ∀ place ∈ places, held place.1 place.2 = none) :
    (lockAll config staged places).Ensures (storing around .faults) s fun r s' =>
      ∃ locks failure c' held', r = .ok (locks, failure) ∧ Contents.Restores places c c' ∧
        Laid staged c' state held' s' ∧ Taken .faults places locks failure c' held held' := by
  induction places generalizing c held s with
  | nil => exact ⟨[], none, c, held, rfl, .refl [] c, h, .nil⟩
  | cons place rest ih =>
    obtain ⟨b, k⟩ := place
    obtain ⟨hnew, hrest⟩ := List.nodup_cons.mp hnodup
    have hk := hplaces (b, k) (List.mem_cons_self ..)
    refine Program.ensures_bind.mpr (Program.ensures_attempt.mpr ?_)
    refine (ensures_lockKey_atRest hc h hk (hfree _ (List.mem_cons_self ..))).mono ?_
    intro r s₁ hlocked
    cases hlocked with
    | @failed f _ hlaid =>
      exact ⟨[], some f, c, held, rfl, .refl _ c, hlaid, .stopped fun _ _ => .inl rfl⟩
    | @taken committed _ hcommitted hlaid =>
      have hfree' := free_put hnew hfree (some .keep)
      refine Program.ensures_bind.mpr ((ih (hc.put hk committed) hrest
        (fun place hplace => hplaces place (List.mem_cons_of_mem _ hplace)) hlaid hfree').mono ?_)
      rintro _ s₂ ⟨locks, failure, c', held', rfl, hrestores, hlaid', htaken⟩
      have hvalue : (c' b k).bind Item.value = committed := by
        rcases hrestores b k with heq | ⟨hplace, _⟩
        · rw [heq, Places.put_same]
          cases committed <;> rfl
        · exact absurd hplace hnew
      refine ⟨⟨b, k, committed⟩ :: locks, failure, c', held', rfl, ?_, hlaid', ?_⟩
      · subst hcommitted
        exact (hc.restores (List.mem_cons_self ..)).trans (hrestores.cons (b, k))
      · rw [← hvalue]
        exact htaken.cons hnew

/-- The first half of an update works on contents from which only hollow items are missing. -/
theorem ensures_prepare_atRest (huser : ∀ place ∈ tx.touched, isReservedKey place.2 = false)
    (h : Laid staged c (some .pending) (fun _ _ => none) s) :
    (prepare config staged tx).Ensures (storing around .faults) s fun r s' =>
      ∃ c', Contents.Restores tx.touched c c' ∧ Prepared .faults staged tx c' r s' := by
  refine ensures_prepare_of_locked ((ensures_lockAll_atRest hc tx.nodup_touched huser h
    fun _ _ => rfl).mono ?_)
  rintro _ s' ⟨locks, failure, c', held, rfl, hrestores, hlaid, htaken⟩
  exact ⟨c', hrestores, .refl, .refl c', hlaid, htaken, fun _ _ hu => absurd (.inl (.inl trivial)) hu⟩

end

/-! ### Giving up -/

section

variable (hpending : staged.record.state = .pending)
include hpending

/-- Where no fault strikes any more, an update that is given up leaves nothing behind. -/
theorem ensures_giveUp_clean (hr : staged.record.Addressable) {f : Failure}
    (h : Laid staged c (some .pending) held s) (hnodup : (locks.map Locked.place).Nodup)
    (hcommitted : ∀ l ∈ locks, l.committed = (c l.bucket l.key).bind Item.value)
    (hmine : ∀ l ∈ locks, held l.bucket l.key ≠ none)
    (hheld : ∀ b k, held b k ≠ none → (b, k) ∈ locks.map Locked.place) :
    (do
      abort staged locks
      .fail f : Protocol TxOutcome).Ensures (advancing around) s fun r s' =>
        r = .error f ∧ s'.raw = c := by
  refine Program.ensures_bind.mpr
    (((retreats_abort hr).ensures (ensures_abort hpending h hnodup hcommitted hmine)).mono ?_)
  rintro _ s' ⟨rfl, state, held', hlaid, hless, hstate, hexact⟩
  obtain rfl := hexact Trouble.not_possible_nothing
  have hall : ∀ b k, held' b k = none := by
    intro b k
    by_contra hne
    obtain ⟨l, hl, hplace⟩ := List.mem_map.mp (hheld b k (hless b k hne))
    cases hplace
    rcases hstate with heq | heq | ⟨_, hdropped⟩
    · cases heq
    · cases heq
    · exact hne (hdropped l hl)
  refine ⟨rfl, ?_⟩
  rw [hlaid.layers.eq]
  exact Staged.overlay_nothing hlaid.layers.foreign hall

omit hpending in
/-- Applying what was committed does not fail, whatever write is struck. -/
theorem ensures_applyAll_answers {ws : WriteSet} (h : Laid staged c (some .committed) held s)
    (hnodup : (locks.map Locked.place).Nodup) (hmine : ∀ l ∈ locks, held l.bucket l.key ≠ none) :
    (applyAll staged ws locks).Ensures (storing around t) s fun r _ => r = .ok () := by
  have hclear : (applyAll staged ws locks).Ensures (storing around t) s _ :=
    ensures_clear rfl (x := ws.current) (fun _ _ => rfl) hnodup hmine h
  exact hclear.mono fun _ _ hend => hend.1

theorem ensures_runStaged_restores {known : String → Prop} (hproper : staged.record.Proper known)
    (hc : c.AtRest) (huser : ∀ place ∈ tx.touched, isReservedKey place.2 = false)
    (h : Laid staged c (some .pending) (fun _ _ => none) s) :
    (runStaged config staged tx).Ensures (advancing around) s fun r s' =>
      ∀ f, r = .error f → Contents.Restores tx.touched c s'.raw := by
  have hr := hproper.addressable
  refine Program.ensures_bind.mpr
    ((ensures_advancing (ensures_prepare_atRest hc huser h)).mono ?_)
  rintro r s₁ ⟨c', hrestores, hprepared⟩
  have hc' := hrestores.atRest hc
  cases hprepared with
  | failed htidied hlaid hnodup hcommitted hmine hheld _ =>
    rw [← hc'.eq_of_tidied htidied] at hrestores
    refine (ensures_giveUp_clean hpending hr hlaid hnodup hcommitted hmine fun b k hne =>
      (hheld b k hne).2 id).mono ?_
    rintro _ s' ⟨_, hraw⟩ _ _
    exact hraw ▸ hrestores
  | @ready _ held _ locks _ _ _ htidied hlaid hlocks hcommitted hheld =>
    rw [← hc'.eq_of_tidied htidied] at hrestores
    have hnodup := hlocks ▸ tx.nodup_touched
    have hmine : ∀ l ∈ locks, held l.bucket l.key ≠ none := fun l hl =>
      (hheld _ _).mpr (hlocks ▸ List.mem_map_of_mem (f := Locked.place) hl)
    refine Program.ensures_bind.mpr
      ((ensures_advancing (ensures_commit hproper hpending hlaid)).mono ?_)
    rintro _ s₂ (⟨rfl, hlaid'⟩ | ⟨_, f, rfl, hlaid'⟩)
    · refine Program.ensures_bind.mpr
        ((ensures_advancing (ensures_applyAll_answers hlaid' hnodup hmine)).mono ?_)
      rintro _ s' rfl f hf
      cases hf
    · refine (ensures_giveUp_clean hpending hr hlaid' hnodup hcommitted hmine fun b k hne =>
        hlocks ▸ (hheld b k).mp hne).mono ?_
      rintro _ s' ⟨_, hraw⟩ _ _
      exact hraw ▸ hrestores

end

/-! ### The update -/

/-- The record is stored, or nothing is. -/
theorem ensures_storeRecord (staged : Staged) (hpending : staged.record.state = .pending)
    (hforeign : Contents.Foreign staged.record.id s.raw) :
    (Protocol.write staged.recordBucket staged.record.key (some staged.record.item)
      .absent).Ensures (storing around .faults) s fun r s' =>
      (r = .ok true ∧ Laid staged s.raw (some .pending) (fun _ _ => none) s') ∨
      (r ≠ .ok true ∧ s'.raw = s.raw) := by
  refine ensures_write ?_ ?_ ?_ ?_
  · intro _ hoffers s' hsame hraw
    refine .inl ⟨rfl, hsame.closed.trans hoffers.1, ?_⟩
    rw [hraw]
    exact layers_of_record hpending hforeign
  · exact fun _ _ s' _ hraw => .inr ⟨by simp, hraw⟩
  · exact fun f _ s' _ hraw => .inr ⟨by simp, hraw⟩
  · exact fun ht => ht.elim

theorem ensures_updateKeys_restores (hids : around.Addressable) (htx : tx.Addressable)
    (hs : Contents.AtRest s.raw) (huser : ∀ place ∈ tx.touched, isReservedKey place.2 = false) :
    (updateKeys config tx).Ensures (advancing around) s fun r s' =>
      ∀ f, r = .error f → Contents.Restores tx.touched s.raw s'.raw := by
  unfold updateKeys
  split
  · exact fun _ hr => nomatch hr
  · next recordBucket rest hbuckets =>
    refine Program.ensures_bind.mpr (ensures_advancing (ensures_freshId ?_))
    refine Program.ensures_bind.mpr (ensures_advancing (ensures_now ?_))
    have hproper : Record.Proper (around.drawn (s.drawn + 1))
        ⟨around.ids s.drawn, .pending, tx.touched, around.clock s.readings⟩ :=
      ⟨usable_record htx ⟨s.drawn, Nat.lt_succ_self _, rfl⟩ (hids s.drawn) _ huser, fun h => nomatch h⟩
    let staged : Staged :=
      ⟨⟨around.ids s.drawn, .pending, tx.touched, around.clock s.readings⟩, recordBucket⟩
    refine Program.ensures_bind.mpr
      (.mono (ensures_advancing (ensures_storeRecord staged rfl (hs.foreign _))) ?_)
    rintro r s₁ (⟨rfl, hlaid⟩ | ⟨hrefused, hraw⟩)
    · exact ensures_runStaged_restores rfl hproper hs huser hlaid
    · have hsame : Contents.Restores tx.touched s.raw s₁.raw := hraw ▸ .refl tx.touched s.raw
      cases r with
      | error f => exact fun _ _ => hsame
      | ok stored =>
        cases stored with
        | true => exact absurd rfl hrefused
        | false => exact fun _ _ => hsame

/-- The store `s'` holds what the store at rest `s` held. Only hollow items that the transaction touches
    may be missing, so where there is none, the buckets are the same. -/
structure Restored (tx : Transaction) (s s' : MemoryItems) : Prop where
  sameBuckets : SameBuckets s s'
  items : Contents.Restores tx.touched s.raw s'.raw
  atRest : Contents.AtRest s'.raw
  exact : (∀ place ∈ tx.touched, s.raw place.1 place.2 ≠ some .hollow) → s'.buckets = s.buckets

theorem buckets_of_raw (hsame : SameBuckets s s') (hraw : s'.raw = s.raw) : s'.buckets = s.buckets := by
  apply KeyMap.ext_get?
  intro bucket
  have hcontains := hsame.contains bucket
  cases hget : s.buckets.get? bucket with
  | none =>
    rw [KeyMap.contains_eq_false.mpr hget] at hcontains
    exact KeyMap.contains_eq_false.mp hcontains
  | some items =>
    rw [KeyMap.contains_eq_true.mpr ⟨items, hget⟩] at hcontains
    obtain ⟨items', hget'⟩ := KeyMap.contains_eq_true.mp hcontains
    rw [hget']
    congr 1
    apply KeyMap.ext_get?
    intro key
    have hitem := congrFun (congrFun hraw bucket) key
    unfold raw at hitem
    rwa [hget, hget'] at hitem

/-- **An update that fails restores the store.** For every store with neither locks nor records, every
    transaction and every fault plan: if no fault strikes a write of the update but steps towards its
    commit, and it fails, then every bucket holds the items that it held before, where nothing was
    stored there is nothing again, and neither a lock nor a record is left. Only an item without value
    and lock under a key that the transaction touches may be gone. -/
theorem failed_update_restores (hids : around.Addressable) (hs : Contents.AtRest s.raw)
    (htx : tx.Addressable) (config : Config)
    (hstruck : StruckAhead around (Engine.update config .memory tx) s) {f : Failure}
    (hfails : ((Engine.driver (itemStore around) config).update tx s).reply = .error f) :
    Restored tx s ((Engine.driver (itemStore around) config).update tx s).state := by
  have hupdate : (Engine.update config .memory tx).Ensures (advancing around) s fun r s' =>
      ∀ f, r = .error f → Contents.Restores tx.touched s.raw s'.raw := by
    apply ensures_engineUpdate
    · exact fun _ _ _ => .refl _ _
    · exact fun _ _ _ _ => .refl _ _
    · exact fun _ _ _ _ => .refl _ _
    · exact fun _ huser => ensures_updateKeys_restores hids htx hs huser
  have hcall : ∀ c s r s', (advancing around).allows c s r s' → SameBuckets s s' :=
    fun _ _ _ _ => sameBuckets_of_allows
  have hframed := hupdate.frame .refl (fun _ _ _ => .trans) hcall
  obtain ⟨hitems, hsame⟩ := run_of_struckAhead hframed hstruck
  have hrestores := hitems f hfails
  refine ⟨hsame, hrestores, hrestores.atRest hs, fun hnone => buckets_of_raw hsame ?_⟩
  funext b k
  refine (hrestores b k).resolve_right ?_
  rintro ⟨hplace, hhollow, _⟩
  exact hnone (b, k) hplace hhollow

theorem atRest_iff : Contents.AtRest s.raw ↔ ∀ e ∈ s.buckets.entries, ∀ i ∈ e.2.entries,
    i.2.lock = none ∧ isReservedKey i.1 = false := by
  constructor
  · rintro h ⟨b, items⟩ he ⟨k, item⟩ hi
    have hitem : s.raw b k = some item := by
      unfold raw
      rw [(KeyMap.mem_entries_iff _).mp he]
      exact (KeyMap.mem_entries_iff _).mp hi
    exact ⟨h.unlocked b k item hitem, h.userKeys b k item hitem⟩
  · intro h
    have hstored : ∀ b k item, s.raw b k = some item → item.lock = none ∧ isReservedKey k = false := by
      intro b k item hitem
      obtain ⟨items, hitems, hget⟩ := Option.bind_eq_some_iff.mp hitem
      exact h (b, items) ((KeyMap.mem_entries_iff _).mpr hitems) (k, item)
        ((KeyMap.mem_entries_iff _).mpr hget)
    exact ⟨fun b k item hitem => (hstored b k item hitem).1,
      fun b k item hitem => (hstored b k item hitem).2⟩

instance : Decidable (Contents.AtRest s.raw) := decidable_of_iff _ atRest_iff.symm

/-- A store with two keys in a bucket, whose fifth write from now on will fail. -/
def seeded : MemoryItems :=
  [.request {} (.create [65]), .request {} (.set [65] [97] [49]), .request {} (.set [65] [98] [50]),
    .faults (some ⟨4, false⟩)].foldl (Event.step still) {}

/-- The record is stored, both keys are locked and one change is noted, when the other one cannot be. -/
theorem failed_update_restores_seeded :
    (still.Addressable ∧ Contents.AtRest seeded.raw ∧
      Transaction.Addressable [.set [65] [97] [51], .delete [65] [98]] ∧
      StruckAhead still (Engine.update {} .memory [.set [65] [97] [51], .delete [65] [98]]) seeded ∧
      ((Engine.driver (itemStore still) {}).update [.set [65] [97] [51], .delete [65] [98]]
        seeded).reply = .error (.injectedFault [65] [98])) ∧
    Restored [.set [65] [97] [51], .delete [65] [98]] seeded
      ((Engine.driver (itemStore still) {}).update [.set [65] [97] [51], .delete [65] [98]]
        seeded).state := by
  have hrest : Contents.AtRest seeded.raw := by decide +kernel
  have htx : Transaction.Addressable [.set [65] [97] [51], .delete [65] [98]] := by decide
  have hstruck : StruckAhead still
      (Engine.update {} .memory [.set [65] [97] [51], .delete [65] [98]]) seeded := by decide +kernel
  have hfails : ((Engine.driver (itemStore still) {}).update
      [.set [65] [97] [51], .delete [65] [98]] seeded).reply = .error (.injectedFault [65] [98]) := by
    decide +kernel
  exact ⟨⟨addressable_still, hrest, htx, hstruck, hfails⟩,
    failed_update_restores addressable_still hrest htx {} hstruck hfails⟩

/-- A store with a hollow item. -/
def hollowed : MemoryItems := ({} : MemoryItems).withItems [65] (({} : KeyMap Bytes Item).insert [107] .hollow)

/-- **A hollow item is not put back.** The store has neither locks nor records, and no fault strikes;
    the update reads the item's key and fails, since it has no value; afterwards the item is gone. -/
theorem hollow_item_not_restored :
    Contents.AtRest hollowed.raw ∧ hollowed.fault = none ∧ isReservedKey [107] = false ∧
    ((Engine.driver (itemStore still) {}).update [.get [65] [107]] hollowed).reply =
      .error (.keyNotFound [65] [107]) ∧
    hollowed.raw [65] [107] = some .hollow ∧
    ((Engine.driver (itemStore still) {}).update [.get [65] [107]] hollowed).state.raw [65] [107] =
      none := by
  decide +kernel

end BucketStore.Staging
