/-
  BucketStore/Proofs/Staging/NoOrphans.lean
  =========================================
  **No lock is left without its record.**

  As long as no bucket is deleted, whatever an engine is asked to do, whatever goes
  wrong with its writes, and wherever an update stops: every lock in the store
  names a record that is stored, that lists the locked key, and that says what is
  to become of it (`no_orphans`).  Every call keeps up what `Attended` asks for, so
  it holds of every store that calls lead to (`attended_of_reachable`).
-/
import BucketStore.Proofs.Staging.Reachable
import BucketStore.Proofs.Staging.Recovering

namespace BucketStore.Staging

open MemoryItems

variable {around : Surroundings} {t : Trouble} {s s' : MemoryItems} {known : String → Prop}
  {config : Config} {bucket key : Bytes} {α : Type}

/-! ### Writing one key -/

theorem ensures_resolveIfLocked (h : Contents.Kept known s.raw) :
    (resolveIfLocked config bucket key).Ensures (storing around t) s fun _ s' =>
      Contents.Kept known s'.raw := by
  refine Program.ensures_bind.mpr (ensures_load ?_ fun _ _ => h)
  intro hoffers
  cases hitem : s.raw bucket key with
  | none => exact h
  | some item =>
    dsimp only
    split
    · next hlocked =>
      obtain ⟨lock, hlock⟩ := Option.isSome_iff_exists.mp hlocked
      apply ensures_resolveLock hoffers.1 h.sound hitem hlock
      exact fun _ _ _ htidied => h.tidied htidied
    · exact h

/-- However the write of a value ends, every lock keeps its record. -/
theorem ensures_keptWrite {condition : Precondition} (hkey : isReservedKey key = false)
    (value : Option Bytes) (h : Contents.Kept known s.raw) :
    (Protocol.write bucket key (value.map .plain) condition).Ensures (storing around t) s
      fun _ s' => Contents.Kept known s'.raw := by
  refine ensures_write ?_ ?_ ?_ ?_
  · exact fun _ _ s' _ hraw => hraw ▸ h.put hkey value
  · exact fun _ _ s' _ hraw => hraw ▸ h
  · exact fun f _ s' _ hraw => hraw ▸ h
  · exact fun _ _ _ f s' _ hraw => hraw ▸ h.put hkey value

theorem ensures_writeKey (hkey : isReservedKey key = false) (value : Option Bytes)
    (h : Contents.Kept known s.raw) :
    (writeKey config bucket key value).Ensures (storing around t) s fun _ s' =>
      Contents.Kept known s'.raw := by
  refine ensures_retry (I := fun _ s => Contents.Kept known s.raw) ?_ (fun _ hs => hs) h
  intro n s hs
  refine Program.ensures_bind.mpr ((ensures_keptWrite hkey value hs).mono ?_)
  rintro (f | written) s' hs'
  · exact hs'
  · dsimp only
    split
    · exact hs'
    · refine Program.ensures_bind.mpr ((ensures_resolveIfLocked hs').mono ?_)
      rintro (f | _) s'' hs''
      · exact hs''
      · exact hs''

theorem ensures_swapKey (hkey : isReservedKey key = false) (old : Option Bytes) (new : Bytes)
    (h : Contents.Kept known s.raw) :
    (swapKey config bucket key old new).Ensures (storing around t) s fun _ s' =>
      Contents.Kept known s'.raw := by
  refine ensures_retry (I := fun _ s => Contents.Kept known s.raw) ?_ (fun _ hs => hs) h
  intro n s hs
  refine Program.ensures_bind.mpr ((ensures_keptWrite hkey (some new) hs).mono ?_)
  rintro (f | written) s' hs'
  · exact hs'
  · dsimp only
    split
    · exact hs'
    · refine Program.ensures_bind.mpr (ensures_load ?_ fun _ _ => hs')
      intro hoffers
      cases hitem : s'.raw bucket key with
      | none =>
        dsimp only
        split <;> exact hs'
      | some item =>
        dsimp only
        split
        · next hlocked =>
          obtain ⟨lock, hlock⟩ := Option.isSome_iff_exists.mp hlocked
          refine Program.ensures_bind.mpr ((readsOnly_visible item).stored.mono ?_)
          rintro r s'' ⟨hraw', hclosed⟩
          have hs'' : Contents.Kept known s''.raw := hraw' ▸ hs'
          cases r with
          | error f => exact hs''
          | ok seen =>
            dsimp only
            split
            · exact hs''
            · refine Program.ensures_bind.mpr (ensures_resolveLock (hclosed.trans hoffers.1)
                hs''.sound (hraw' ▸ hitem) hlock fun r s₃ _ htidied => ?_)
              have hs₃ := hs''.tidied htidied
              cases r with
              | error f => exact hs₃
              | ok _ => exact hs₃
        · split <;> exact hs'

/-! ### Identifiers are drawn one after the other -/

/-- No identifier was drawn twice. -/
def MemoryItems.Distinct (around : Surroundings) (s : MemoryItems) : Prop :=
  ∀ i j, i < j → j < s.drawn → around.ids i ≠ around.ids j

/-- What is counted has only been counted on. -/
structure MemoryItems.Later (s s' : MemoryItems) : Prop where
  drawn : s.drawn ≤ s'.drawn
  readings : s.readings ≤ s'.readings

theorem MemoryItems.Later.refl (s : MemoryItems) : s.Later s := ⟨Nat.le_refl _, Nat.le_refl _⟩

theorem MemoryItems.Later.trans {s'' : MemoryItems} (h : s.Later s') (h' : s'.Later s'') :
    s.Later s'' := ⟨Nat.le_trans h.drawn h'.drawn, Nat.le_trans h.readings h'.readings⟩

theorem MemoryItems.Distinct.before (h : Distinct around s') (hle : s.drawn ≤ s'.drawn) :
    Distinct around s := fun i j hij hj => h i j hij (Nat.lt_of_lt_of_le hj hle)

/-- The identifier that was drawn last was not drawn before. -/
theorem MemoryItems.Distinct.new (h : Distinct around s') (hlt : s.drawn < s'.drawn) :
    ¬around.drawn s.drawn (around.ids s.drawn) := fun ⟨i, hi, heq⟩ => h i s.drawn hi hlt heq

/-- The first two identifiers are not the same. -/
theorem distinct_still (h : s.drawn ≤ 2) : Distinct still s := by
  intro i j hij hj
  obtain ⟨rfl, rfl⟩ : i = 0 ∧ j = 1 := by omega
  decide

/-- A call draws identifiers and reads the clock, and takes neither back. -/
theorem later_of_allows {c : Call} {r : Call.Reply c} (h : (storing around t).allows c s r s') :
    s.Later s' := by
  cases c with
  | load _ _ => exact h.2 ▸ .refl s
  | scan _ _ _ => exact h.2 ▸ .refl s
  | now => exact h.2 ▸ ⟨Nat.le_refl _, Nat.le_succ _⟩
  | freshId => exact h.2 ▸ ⟨Nat.le_succ _, Nat.le_refl _⟩
  | write bucket key x condition =>
    have hwritten : Written t bucket key x condition s r s' := h
    cases hwritten <;> exact ⟨Nat.le_refl _, Nat.le_refl _⟩

theorem ensures_later {p : Protocol α} {Q : Except Failure α → MemoryItems → Prop}
    (h : p.Ensures (storing around t) s Q) :
    p.Ensures (storing around t) s fun r s' => Q r s' ∧ s.Later s' :=
  h.frame .refl (fun _ _ _ => .trans) fun _ _ _ _ => later_of_allows

/-- An update that changes anything has drawn an identifier. -/
theorem ensures_updateKeys_drawn {tx : Transaction} :
    (updateKeys config tx).Ensures (storing around t) s fun _ s' =>
      s'.raw = s.raw ∨ s.drawn < s'.drawn := by
  unfold updateKeys
  split
  · exact .inl rfl
  · refine Program.ensures_bind.mpr (ensures_freshId ?_)
    dsimp only
    refine (ensures_later (ensures_true _)).mono ?_
    rintro _ s' ⟨_, hlater⟩
    exact .inr hlater.drawn

/-! ### The calls of an engine -/

theorem ensures_onKey_kept {action : String} {p : Protocol α} (h : Contents.Kept known s.raw)
    (hp : isReservedKey key = false → p.Ensures (storing around t) s fun _ s' =>
      Contents.Kept known s'.raw) :
    (Engine.onKey action bucket key p).Ensures (storing around t) s fun _ s' =>
      Contents.Kept known s'.raw :=
  ensures_onKey (fun _ _ => h) (fun _ _ => h) fun _ hkey => hp hkey

theorem ReadsOnly.kept {p : Protocol α} (hp : ReadsOnly p) (h : Contents.Kept known s.raw) :
    p.Ensures (storing around t) s fun _ s' => Contents.Kept known s'.raw := by
  refine hp.stored.mono ?_
  rintro _ s' ⟨hraw, _⟩
  exact hraw ▸ h

/-- An update that draws a new identifier ends in one of the ways of `Updated`; one that draws none
    changes nothing. -/
theorem ensures_update_of {backend : Backend} {tx : Transaction}
    {Q : Except Failure TxOutcome → MemoryItems → Prop} (htx : tx.Addressable)
    (hids : around.Addressable) (hs : s.Sound around) (hsame : ∀ r s', s'.raw = s.raw → Q r s')
    (hupdated : ∀ r s', Updated around t tx s r s' → Q r s') :
    (Engine.update config backend tx).Ensures (storing around t) s fun r s' =>
      Distinct around s' → Q r s' := by
  apply ensures_engineUpdate
  · exact fun _ _ => hsame _ s rfl
  · exact fun _ _ _ => hsame _ s rfl
  · exact fun _ _ _ => hsame _ s rfl
  · intro _ huser
    by_cases hnew : around.drawn s.drawn (around.ids s.drawn)
    · -- The identifier is an old one: either it is not drawn, or too many are.
      obtain ⟨i, hi, heq⟩ := hnew
      refine ensures_updateKeys_drawn.mono ?_
      rintro r s' (hraw | hdrawn) hdistinct
      · exact hsame r s' hraw
      · exact absurd heq (hdistinct i s.drawn hi hdrawn)
    · have hforeign : Contents.Foreign (around.ids s.drawn) s.raw := Contents.Sound.foreign hs hnew
      refine (ensures_updateKeys_ended htx huser hids hs hforeign).mono ?_
      exact fun r s' h _ => hupdated r s' h

/-- Every call that repeats no identifier keeps every lock its record. -/
theorem ensures_program_attended (hids : around.Addressable) {call : EngineCall}
    (hsize : call.Addressable) (hs : s.Sound around) (ha : Contents.Attended s.raw) :
    call.program.Ensures (storing around .faults) s fun _ s' =>
      Distinct around s' → Contents.Attended s'.raw := by
  have hkept : Contents.Kept (around.drawn s.drawn) s.raw := ⟨hs, ha⟩
  have hdiscard : ∀ {α : Type} {p : Protocol α}, p.Ensures (storing around .faults) s (fun _ s' =>
      Contents.Kept (around.drawn s.drawn) s'.raw) →
      (discard p : Protocol Unit).Ensures (storing around .faults) s fun _ s' =>
        Distinct around s' → Contents.Attended s'.raw :=
    fun h => Program.ensures_discard.mpr (h.mono fun _ _ hafter _ => hafter.attended)
  cases call with
  | get bucket key => exact hdiscard ((readsOnly_get bucket key).kept hkept)
  | list config limit bucket => exact hdiscard ((readsOnly_list config limit bucket).kept hkept)
  | set config bucket key value =>
    refine (ensures_onKey_kept hkept fun hkey => ?_).mono fun _ _ hafter _ => hafter.attended
    exact ensures_writeKey hkey (some value) hkept
  | delete config bucket key =>
    refine (ensures_onKey_kept hkept fun hkey => ?_).mono fun _ _ hafter _ => hafter.attended
    exact ensures_writeKey hkey none hkept
  | compareAndSwap config bucket key old new =>
    exact hdiscard (ensures_onKey_kept hkept fun hkey => ensures_swapKey hkey old new hkept)
  | update config backend tx =>
    refine Program.ensures_discard.mpr (ensures_update_of hsize hids hs ?_ ?_)
    · exact fun _ _ hraw => hraw ▸ ha
    · exact fun _ _ h => h.attended (fun hlost => hlost) hs ha
  | recover config limit bucket =>
    refine hdiscard (Program.ensures_bind.mpr (Program.ensures_check.mpr ?_))
    cases checkBucket bucket with
    | error f => exact hkept
    | ok _ =>
      apply Program.ensures_mapFailure.mpr
      exact (ensures_recoverBucket hkept).mono fun _ _ htidied => hkept.tidied htidied

/-! ### Reachable stores -/

theorem later_run (p : Protocol α) : s.Later (p.run (respond around) s).state :=
  (run_of_faults (ensures_later (ensures_true p))).2

theorem drawn_step (e : Event) : s.drawn ≤ (e.step around s).drawn := by
  have heffect := e.effect around s
  generalize e.step around s = s' at heffect
  cases heffect with
  | runs call _ _ => exact (later_run call.program).drawn
  | creates bucket _ =>
    rcases createBucket_cases s bucket with ⟨_, _, _, hstate⟩ | ⟨_, hstate⟩
    · exact Nat.le_of_eq (congrArg MemoryItems.drawn hstate).symm
    · exact Nat.le_of_eq (congrArg MemoryItems.drawn hstate).symm
  | deletes bucket _ =>
    rcases deleteBucket_cases s bucket with ⟨_, _, _, hstate⟩ | ⟨_, hstate⟩
    · exact Nat.le_of_eq (congrArg MemoryItems.drawn hstate).symm
    · exact Nat.le_of_eq (congrArg MemoryItems.drawn hstate).symm
  | closes => exact Nat.le_refl _
  | faults plan => exact Nat.le_refl _
  | refused => exact Nat.le_refl _

/-- Every event but a bucket's deletion keeps every lock its record. -/
theorem attended_step (hids : around.Addressable) {e : Event} (hsize : e.Addressable)
    (hdrops : e.drops = false) (hs : s.Sound around) (hdistinct : Distinct around (e.step around s))
    (ha : Contents.Attended s.raw) : Contents.Attended (e.step around s).raw := by
  have heffect := e.effect around s
  generalize e.step around s = s' at hdistinct heffect
  cases heffect with
  | runs call hcall _ => exact run_of_faults (ensures_program_attended hids (hcall hsize) hs ha) hdistinct
  | creates bucket _ =>
    rcases createBucket_cases s bucket with ⟨_, _, hmissing, hstate⟩ | ⟨_, hstate⟩
    · rw [hstate, raw_withEmpty hmissing]
      exact ha
    · rw [hstate]
      exact ha
  | deletes bucket hdrops' =>
    rw [hdrops] at hdrops'
    cases hdrops'
  | closes => exact ha
  | faults plan => exact ha
  | refused => exact ha

theorem attended_of_reachable (hids : around.Addressable)
    (h : Reachable around (fun e => e.drops = false) s) (hdistinct : Distinct around s) :
    Contents.Attended s.raw := by
  induction h with
  | empty => exact Contents.attended_empty
  | @step s e hreachable hsize hdrops ih =>
    have hbefore : Distinct around s := hdistinct.before (drawn_step e)
    exact attended_step hids hsize hdrops (sound_of_reachable hids hreachable) hdistinct (ih hbefore)

/-- Every lock's record tells what is to become of the lock. -/
structure Contents.NoOrphans (c : Contents) : Prop where
  /-- The record that a lock names is stored; it can be read, is the transaction's own, lists the
      locked key, and is not given up. -/
  recorded : ∀ b k item lock, c b k = some item → item.lock = some lock →
    ∃ stored bytes r, c lock.recordBucket (recordKey lock.owner) = some stored ∧
      stored.value = some bytes ∧ Record.decode bytes = .ok r ∧ r.id = lock.owner ∧
      (b, k) ∈ r.keys ∧ (r.state = .pending ∨ r.state = .committed ∨ r.state = .aborted)
  /-- What is not locked is a value. -/
  valued : ∀ b k item, c b k = some item → item.lock = none → item.value ≠ none
  /-- The locks of one transaction name one bucket. -/
  oneHome : ∀ b k item lock b' k' item' lock', c b k = some item → item.lock = some lock →
    c b' k' = some item' → item'.lock = some lock' → lock.owner = lock'.owner →
    lock.recordBucket = lock'.recordBucket

/-- **No lock is an orphan.** In every store that events other than deletions of buckets lead to,
    under any faults, every lock has the record that it names, as long as no identifier was drawn
    twice. -/
theorem no_orphans (hids : around.Addressable)
    (h : Reachable around (fun e => e.drops = false) s) (hdistinct : Distinct around s) :
    Contents.NoOrphans s.raw := by
  have hsound := sound_of_reachable hids h
  have hattended := attended_of_reachable hids h hdistinct
  constructor
  · intro b k item lock hitem hlock
    obtain ⟨r, hr, hid, hmem, hstate, hstored⟩ := hattended.record b k item lock hitem hlock
    refine ⟨r.item, r.encode, r, hstored, rfl, Record.decode_encode hr, hid, hmem, ?_⟩
    cases hnow : r.state with
    | pending => exact .inl rfl
    | committed => exact .inr (.inl rfl)
    | aborted => exact .inr (.inr rfl)
    | reclaimed => exact absurd hnow hstate
  · intro b k item hitem hlock hnone
    have hsome := (hsound b k item hitem).isSome_value hlock
    rw [hnone] at hsome
    cases hsome
  · intro b k item lock b' k' item' lock' hitem hlock hitem' hlock' howner
    exact hattended.sameBucket hitem hlock hitem' hlock' howner

/-- After the crash another update locks a key and stops: two transactions hold locks now. -/
def crashedTwice : List Event :=
  crash ++ [.faults (some ⟨2, true⟩), .request {} (.update [.set [66] [99] [51]])]

theorem no_orphans_after_crashes :
    still.Addressable ∧
    Reachable still (fun e => e.drops = false) (crashedTwice.foldl (Event.step still) {}) ∧
    (crashedTwice.foldl (Event.step still) {}).drawn = 2 ∧
    ((crashedTwice.foldl (Event.step still) {}).raw [66] [99]).any Item.isLocked = true ∧
    Contents.NoOrphans (crashedTwice.foldl (Event.step still) {}).raw := by
  have hreachable : Reachable still (fun e => e.drops = false)
      (crashedTwice.foldl (Event.step still) {}) := Reachable.empty.run (by decide) (by decide)
  have hdrawn : (crashedTwice.foldl (Event.step still) {}).drawn = 2 := by decide +kernel
  refine ⟨addressable_still, hreachable, hdrawn, by decide +kernel, no_orphans addressable_still hreachable ?_⟩
  intro i j hij hj
  rw [hdrawn] at hj
  obtain ⟨rfl, rfl⟩ : i = 0 ∧ j = 1 := by omega
  decide

end BucketStore.Staging
