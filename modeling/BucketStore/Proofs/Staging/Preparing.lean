/-
  BucketStore/Proofs/Staging/Preparing.lean
  =========================================
  **The first half of an update: locking, evaluating and staging.**

  Until its record is flipped an update changes nothing that readers see: it puts
  locks over the contents and tidies up after other transactions below them
  (`ensures_lockKey`, `ensures_lockAll`), and then notes on its locks what it is
  going to do (`ensures_stageAll`).

  Once all of this has succeeded, what the update is going to do is what its
  operations do when they are applied to the values that readers see
  (`ensures_prepare`).  Where nothing goes wrong and no locks of others are met,
  it fails only if the operations themselves must fail, and with their failure.
-/
import BucketStore.Proofs.Staging.Overlay

namespace BucketStore.Staging

open MemoryItems

/-- The store is open and consists of the layers. -/
structure Laid (staged : Staged) (c : Contents) (state : Option TxState) (held : Places Pending)
    (s : MemoryItems) : Prop where
  opened : s.closed = false
  layers : Layers staged c state held s.raw

/-- What may keep an update from being carried out: faults, and locks of others. -/
def Disturbed (t : Trouble) (c : Contents) : Prop :=
  t.Possible ∨ ∃ b k item, c b k = some item ∧ item.isLocked = true

variable {around : Surroundings} {t : Trouble} {known : String → Prop} {staged : Staged}
  {c c₀ : Contents} {state : Option TxState} {held : Places Pending} {s s' : MemoryItems}
  {b k : Bytes}

theorem Laid.keep (h : Laid staged c state held s) (hsame : SameBuckets s s')
    (hraw : s'.raw = s.raw) : Laid staged c state held s' :=
  ⟨hsame.closed.trans h.opened, hraw ▸ h.layers⟩

theorem Laid.change {c' : Contents} {state' : Option TxState} {held' : Places Pending}
    (h : Laid staged c state held s) (hsame : SameBuckets s s')
    (hlayers : Layers staged c' state' held' s'.raw) : Laid staged c' state' held' s' :=
  ⟨hsame.closed.trans h.opened, hlayers⟩

theorem Laid.offers_held (h : Laid staged c state held s) {pending : Pending}
    (hheld : held b k = some pending) : s.Offers b :=
  offers_of_raw h.opened (h.layers.item_held hheld)

/-! ### The writes of an update -/

theorem ensures_putLock {pending : Pending} {condition : Precondition}
    (h : Laid staged c state held s) (hk : isReservedKey k = false) (hbare : Bare (c b k))
    (hholds : condition.holds (s.raw b k) = true) {Q : Except Failure Bool → MemoryItems → Prop}
    (hdone : ∀ s', Laid staged c state (held.put b k (some pending)) s' → Q (.ok true) s')
    (hfailed : ∀ f, (t.refusals ∨ s.items b = .error f) → ∀ s', Laid staged c state held s' →
      Q (.error f) s')
    (hlost : t.lostReplies → ∀ f s', Laid staged c state (held.put b k (some pending)) s' →
      Q (.error f) s') :
    (Protocol.write b k (some ⟨(c b k).bind Item.value, some (staged.lock pending)⟩)
      condition).Ensures (storing around t) s Q := by
  have hput := h.layers.putLock hk hbare pending
  refine ensures_write ?_ ?_ ?_ ?_
  · intro _ _ s' hsame hraw
    exact hdone s' (h.change hsame (hraw ▸ hput))
  · intro hdeclined
    rw [hholds] at hdeclined
    cases hdeclined
  · intro f hf s' hsame hraw
    exact hfailed f hf s' (h.keep hsame hraw)
  · intro ht _ _ f s' hsame hraw
    exact hlost ht f s' (h.change hsame (hraw ▸ hput))

theorem ensures_unlock {value : Option Bytes} {pending : Pending}
    (h : Laid staged c state held s) (hheld : held b k = some pending)
    {Q : Except Failure (Except Failure Bool) → MemoryItems → Prop}
    (hdone : ∀ s', Laid staged (c.put b k (value.map .plain)) state (held.put b k none) s' →
      Q (.ok (.ok true)) s')
    (hfailed : t.Possible → ∀ f s', Laid staged c state held s' → Q (.ok (.error f)) s')
    (hlost : t.lostReplies → ∀ f s',
      Laid staged (c.put b k (value.map .plain)) state (held.put b k none) s' →
      Q (.ok (.error f)) s') :
    (Protocol.tryWrite b k (value.map .plain) (.lockedBy staged.record.id)).Ensures
      (storing around t) s Q := by
  have hput := Layers.unlock (b := b) h.layers (h.layers.bare b k pending hheld).1 value
  have hholds : (Precondition.lockedBy staged.record.id).holds (s.raw b k) = true :=
    holds_lockedBy.mpr ⟨_, _, h.layers.item_held hheld, rfl, rfl⟩
  refine ensures_tryWrite ?_ ?_ ?_ ?_
  · intro _ _ s' hsame hraw
    exact hdone s' (h.change hsame (hraw ▸ hput))
  · intro hdeclined
    rw [hholds] at hdeclined
    cases hdeclined
  · intro f hf s' hsame hraw
    refine hfailed ?_ f s' (h.keep hsame hraw)
    exact .inl (hf.resolve_right ((h.offers_held hheld).items_ne_error f))
  · intro ht _ _ f s' hsame hraw
    exact hlost ht f s' (h.change hsame (hraw ▸ hput))

theorem ensures_putRecord {now : TxState} (state' : Option TxState)
    (h : Laid staged c (some now) held s)
    {Q : Except Failure (Except Failure Bool) → MemoryItems → Prop}
    (hdone : ∀ s', Laid staged c state' held s' → Q (.ok (.ok true)) s')
    (hfailed : t.Possible → ∀ f s', Laid staged c (some now) held s' → Q (.ok (.error f)) s')
    (hlost : t.lostReplies → ∀ f s', Laid staged c state' held s' → Q (.ok (.error f)) s') :
    (Protocol.tryWrite staged.recordBucket staged.record.key
      (state'.map fun state => (staged.decided state).item)
      (.valueEquals (staged.decided now).encode)).Ensures (storing around t) s Q := by
  have hput := h.layers.putRecord state'
  have hrecord : s.raw staged.recordBucket staged.record.key = some (staged.decided now).item :=
    h.layers.item_record
  have hholds : (Precondition.valueEquals (staged.decided now).encode).holds
      (s.raw staged.recordBucket staged.record.key) = true := by
    rw [hrecord]
    exact beq_self_eq_true _
  refine ensures_tryWrite ?_ ?_ ?_ ?_
  · intro _ _ s' hsame hraw
    exact hdone s' (h.change hsame (hraw ▸ hput))
  · intro hdeclined
    rw [hholds] at hdeclined
    cases hdeclined
  · intro f hf s' hsame hraw
    refine hfailed ?_ f s' (h.keep hsame hraw)
    exact .inl (hf.resolve_right ((offers_of_raw h.opened hrecord).items_ne_error f))
  · intro ht _ _ f s' hsame hraw
    exact hlost ht f s' (h.change hsame (hraw ▸ hput))

/-! ### Locking -/

theorem bare_of_unlocked (hc : c.Sound known) {item : Item} (hitem : c b k = some item)
    (hlock : item.isLocked = false) : Bare (some item) := by
  have hnone : item.lock = none := by simpa [Item.isLocked] using hlock
  obtain ⟨v, hv⟩ := Option.isSome_iff_exists.mp ((hc b k item hitem).isSome_value hnone)
  unfold Bare
  obtain ⟨value, lock⟩ := item
  cases hnone
  cases hv
  rfl

/-- Where a key is not locked after tidying up, it was not touched. -/
theorem Tidied.bare {P : String → Prop} {c' : Contents} (h : Tidied P c c')
    (hk : isReservedKey k = false) (hbare : Bare (c b k)) : c' b k = c b k := by
  refine h.same (fun id _ => ne_recordKey hk id) fun item lock hitem hlock => ?_
  rw [hitem] at hbare
  rw [hbare.lock] at hlock
  cases hlock

theorem ensures_take (h : Laid staged c state held s) (hk : isReservedKey k = false)
    (hfree : held b k = none) (hbare : Bare (c b k)) (hoffers : s.Offers b)
    {committed : Option Bytes} (hcommitted : committed = (c b k).bind Item.value)
    {Q : Except Failure (Option (Option Bytes)) → MemoryItems → Prop}
    (hdone : ∀ s', Laid staged c state (held.put b k (some .keep)) s' → Q (.ok (some committed)) s')
    (hfailed : t.Possible → ∀ f s' held', Laid staged c state held' s' →
      (held' = held ∨ t.lostReplies ∧ held' = held.put b k (some .keep)) → Q (.error f) s') :
    (lockKey.take staged b k committed).Ensures (storing around t) s Q := by
  subst hcommitted
  have hholds : (Precondition.unlockedWith ((c b k).bind Item.value)).holds (s.raw b k) = true := by
    rw [h.layers.item_free hk hfree]
    cases hitem : c b k with
    | none => rfl
    | some item =>
      rw [hitem] at hbare
      simp [Precondition.holds, Item.isLocked, hbare.lock]
  refine Program.ensures_bind.mpr (ensures_putLock h hk hbare hholds ?_ ?_ ?_)
  · exact hdone
  · intro f hf s' hlaid
    exact hfailed (.inl (hf.resolve_right (hoffers.items_ne_error f))) f s' held hlaid (.inl rfl)
  · intro ht f s' hlaid
    exact hfailed (.inr ht) f s' _ hlaid (.inr ⟨ht, rfl⟩)

/-- How locking a key may end: with the lock and the value that is there, or with a failure that may
    come after the lock was put on. Where nothing disturbs it, only the bucket may be missing. -/
inductive KeyLocked (t : Trouble) (staged : Staged) (c : Contents) (held : Places Pending)
    (b k : Bytes) : Except Failure (Option Bytes) → MemoryItems → Prop
  | taken {c' : Contents} {s' : MemoryItems} (htidied : Tidied (· ≠ staged.record.id) c c')
      (hlaid : Laid staged c' (some .pending) (held.put b k (some .keep)) s') :
      KeyLocked t staged c held b k (.ok ((c' b k).bind Item.value)) s'
  | failed {c' : Contents} {held' : Places Pending} {f : Failure} {s' : MemoryItems}
      (htidied : Tidied (· ≠ staged.record.id) c c') (hlaid : Laid staged c' (some .pending) held' s')
      (hheld : held' = held ∨ t.lostReplies ∧ held' = held.put b k (some .keep))
      (hblame : ¬Disturbed t c → f = .bucketNotFound b ∧ s'.buckets.contains b = false) :
      KeyLocked t staged c held b k (.error f) s'

theorem ensures_lockKey {config : Config} (hproper : staged.record.Proper known)
    (hc : c.Sound known) (h : Laid staged c (some .pending) held s)
    (hk : isReservedKey k = false) (hfree : held b k = none) :
    (lockKey config staged b k).Ensures (storing around t) s (KeyLocked t staged c held b k) := by
  -- While attempts are left, some locks of others may have been cleared.
  refine ensures_retry (I := fun n s => ∃ c', Tidied (· ≠ staged.record.id) c c' ∧
    Laid staged c' (some .pending) held s ∧ (n = maxAttempts ∨ Disturbed t c)) ?_ ?_ ⟨c, .refl, h, .inl rfl⟩
  · rintro n s ⟨c', htidied, h, _⟩
    have hc' := htidied.sound hc
    refine Program.ensures_bind.mpr (ensures_load ?_ ?_)
    · intro hoffers
      rw [h.layers.item_free hk hfree]
      cases hitem : c' b k with
      | none =>
        refine ensures_take h hk hfree (hitem ▸ bare_map none) hoffers (by rw [hitem]; rfl) ?_ ?_
        · intro s' hlaid
          have htaken : KeyLocked t staged c held b k _ s' := .taken htidied hlaid
          rwa [hitem] at htaken
        · intro ht f s' held' hlaid hheld
          exact .failed htidied hlaid hheld fun hu => absurd (.inl ht) hu
      | some item =>
        dsimp only
        split
        · next hlocked =>
          obtain ⟨lock, hlock⟩ := Option.isSome_iff_exists.mp hlocked
          have hother : lock.owner ≠ staged.record.id :=
            h.layers.foreign.locks b k item lock hitem hlock
          have hdisturbed : Disturbed t c :=
            .inr ⟨b, k, item, htidied.lock_of hitem hlock, hlocked⟩
          have hsound := h.layers.sound hproper hc' (by decide)
          have hraw := h.layers.item_lock hk hitem hlock
          refine Program.ensures_bind.mpr (ensures_resolveLock h.opened hsound hraw hlock ?_)
          intro r s' hsame hresolved
          obtain ⟨c'', htidied', hlayers⟩ := h.layers.tidied hc'
            (fun id hid => by rw [hid]; exact hother) hresolved
          have htidied'' : Tidied (· ≠ staged.record.id) c c'' :=
            htidied.trans (htidied'.mono fun id hid => by rw [hid]; exact hother)
          cases r with
          | ok _ => exact ⟨c'', htidied'', h.change hsame hlayers, .inr hdisturbed⟩
          | error f =>
            exact .failed htidied'' (h.change hsame hlayers) (.inl rfl) fun hu => absurd hdisturbed hu
        · next hlocked =>
          have hbare := bare_of_unlocked hc' hitem (by simpa using hlocked)
          refine ensures_take h hk hfree (hitem ▸ hbare) hoffers (by rw [hitem]; rfl) ?_ ?_
          · intro s' hlaid
            have htaken : KeyLocked t staged c held b k _ s' := .taken htidied hlaid
            rwa [hitem] at htaken
          · intro ht f s' held' hlaid hheld
            exact .failed htidied hlaid hheld fun hu => absurd (.inl ht) hu
    · intro f hf
      obtain ⟨rfl, hmissing⟩ := items_error h.opened hf
      exact .failed htidied h (.inl rfl) fun _ => ⟨rfl, hmissing⟩
  · rintro s ⟨c', htidied, h, hn | hdisturbed⟩
    · cases hn
    · exact .failed htidied h (.inl rfl) fun hu => absurd hdisturbed hu

/-- The locks taken on a prefix of the places, up to the first that could not be locked. -/
structure Taken (t : Trouble) (places : List (Bytes × Bytes)) (locks : List Locked)
    (failure : Option Failure) (c : Contents) (held held' : Places Pending) : Prop where
  inOrder : locks.map Locked.place <+: places
  all : failure = none → locks.map Locked.place = places
  committed : ∀ l ∈ locks, l.committed = (c l.bucket l.key).bind Item.value
  mine : ∀ l ∈ locks, held' l.bucket l.key = some .keep
  /-- A lock whose reply was lost is held without being known. -/
  others : ∀ b k, (b, k) ∉ locks.map Locked.place → held' b k = held b k ∨
    t.lostReplies ∧ failure ≠ none ∧ (b, k) ∈ places ∧ held' b k = some .keep

/-- The first place whose bucket does not exist is the reason of the failure. -/
def MissesBucket (s : MemoryItems) (places : List (Bytes × Bytes)) (f : Failure) : Prop :=
  ∃ place, places.find? (fun place => !s.buckets.contains place.1) = some place ∧
    f = .bucketNotFound place.1

theorem Taken.nil : Taken t [] [] none c held held :=
  ⟨List.prefix_rfl, fun _ => rfl, fun _ hl => (nomatch hl), fun _ hl => (nomatch hl),
    fun _ _ _ => .inl rfl⟩

theorem Taken.stopped {places : List (Bytes × Bytes)} {f : Failure} {held' : Places Pending}
    (hothers : ∀ b k, held' b k = held b k ∨
      t.lostReplies ∧ (b, k) ∈ places ∧ held' b k = some .keep) :
    Taken t places [] (some f) c held held' := by
  refine ⟨List.nil_prefix, fun hf => (nomatch hf), fun _ hl => (nomatch hl),
    fun _ hl => (nomatch hl), fun b k _ => ?_⟩
  rcases hothers b k with heq | ⟨ht, hplace, hkeep⟩
  · exact .inl heq
  · exact .inr ⟨ht, Option.some_ne_none f, hplace, hkeep⟩

/-- What is put at a new place leaves the other places free. -/
theorem free_put {rest : List (Bytes × Bytes)} (hnew : (b, k) ∉ rest)
    (hfree : ∀ place ∈ (b, k) :: rest, held place.1 place.2 = none) (x : Option Pending) :
    ∀ place ∈ rest, (held.put b k x) place.1 place.2 = none := by
  intro place hplace
  rw [Places.put_other]
  · exact hfree place (List.mem_cons_of_mem _ hplace)
  · rintro ⟨rfl, rfl⟩
    exact hnew hplace

theorem Taken.cons {rest : List (Bytes × Bytes)} {locks : List Locked} {failure : Option Failure}
    {c' : Contents} {held' : Places Pending} (hnew : (b, k) ∉ rest)
    (h : Taken t rest locks failure c' (held.put b k (some .keep)) held') :
    Taken t ((b, k) :: rest) (⟨b, k, (c' b k).bind Item.value⟩ :: locks) failure c' held held' := by
  have hnew' : (b, k) ∉ locks.map Locked.place := fun hmem => hnew (h.inOrder.subset hmem)
  refine ⟨?_, ?_, ?_, ?_, ?_⟩
  · exact (List.prefix_cons_inj _).mpr h.inOrder
  · intro hnone
    rw [List.map_cons, h.all hnone]
    rfl
  · intro l hl
    rcases List.mem_cons.mp hl with rfl | hl
    · rfl
    · exact h.committed l hl
  · intro l hl
    rcases List.mem_cons.mp hl with rfl | hl
    · rcases h.others b k hnew' with hheld | ⟨_, _, _, hheld⟩
      · rw [hheld, Places.put_same]
      · exact hheld
    · exact h.mine l hl
  · intro b' k' hmem
    rw [List.map_cons, List.mem_cons, not_or] at hmem
    have hne : ¬(b' = b ∧ k' = k) := fun heq => hmem.1 (Prod.ext heq.1 heq.2)
    rcases h.others b' k' hmem.2 with hheld | ⟨ht, hfailure, hplace, hheld⟩
    · rw [Places.put_other hne] at hheld
      exact .inl hheld
    · exact .inr ⟨ht, hfailure, List.mem_cons_of_mem _ hplace, hheld⟩

section

variable {places : List (Bytes × Bytes)} {locks : List Locked} {failure : Option Failure}

theorem Taken.mine_ne_none {held' : Places Pending} (h : Taken t places locks failure c held held') :
    ∀ l ∈ locks, held' l.bucket l.key ≠ none := by
  intro l hl
  rw [h.mine l hl]
  exact Option.some_ne_none _

/-- What is held, if nothing was held before, are locks that do nothing yet on the places. -/
theorem Taken.of_held (h : Taken t places locks failure c (fun _ _ => none) held)
    (hne : held b k ≠ none) : held b k = some .keep ∧ (b, k) ∈ places ∧
      (¬t.lostReplies → (b, k) ∈ locks.map Locked.place) := by
  by_cases hmem : (b, k) ∈ locks.map Locked.place
  · obtain ⟨l, hl, heq⟩ := List.mem_map.mp hmem
    cases heq
    exact ⟨h.mine l hl, h.inOrder.subset hmem, fun _ => hmem⟩
  · rcases h.others b k hmem with heq | ⟨ht, _, hplace, hkeep⟩
    · exact absurd heq hne
    · exact ⟨hkeep, hplace, fun hn => absurd ht hn⟩

theorem Taken.held_iff (h : Taken t places locks none c (fun _ _ => none) held) :
    held b k ≠ none ↔ (b, k) ∈ places := by
  constructor
  · exact fun hne => (h.of_held hne).2.1
  · intro hplace
    rw [← h.all rfl] at hplace
    obtain ⟨l, hl, heq⟩ := List.mem_map.mp hplace
    cases heq
    exact h.mine_ne_none l hl

end

/-- What an update locks has the value under it that readers saw before. -/
theorem value_of_held {c' : Contents} (hsame : c.SameView c') (h : Laid staged c' state held s)
    (hne : held b k ≠ none) : (c' b k).bind Item.value = c.visible b k := by
  obtain ⟨pending, hpending⟩ := Option.ne_none_iff_exists'.mp hne
  obtain ⟨hk, hbare⟩ := h.layers.bare b k pending hpending
  rw [← hbare.visible]
  exact hsame b k hk

/-- Locking keys in order locks them all, or fails at one of them. -/
theorem ensures_lockAll {config : Config} (hproper : staged.record.Proper known)
    {places : List (Bytes × Bytes)} (hnodup : places.Nodup)
    (hplaces : ∀ place ∈ places, isReservedKey place.2 = false)
    (hc : c.Sound known) (h : Laid staged c (some .pending) held s)
    (hfree : ∀ place ∈ places, held place.1 place.2 = none) :
    (lockAll config staged places).Ensures (storing around t) s fun r s' =>
      ∃ locks failure c' held', r = .ok (locks, failure) ∧
        Tidied (· ≠ staged.record.id) c c' ∧ Laid staged c' (some .pending) held' s' ∧
        Taken t places locks failure c' held held' ∧
        ∀ f, failure = some f → ¬Disturbed t c → MissesBucket s' places f := by
  induction places generalizing c held s with
  | nil =>
    exact ⟨[], none, c, held, rfl, .refl, h, .nil, fun f hf => nomatch hf⟩
  | cons place rest ih =>
    obtain ⟨b, k⟩ := place
    obtain ⟨hnew, hrest⟩ := List.nodup_cons.mp hnodup
    have hk := hplaces (b, k) (List.mem_cons_self ..)
    refine Program.ensures_bind.mpr (Program.ensures_attempt.mpr ?_)
    refine (ensures_lockKey hproper hc h hk (hfree _ (List.mem_cons_self ..))).mono ?_
    intro r s' hlocked
    cases hlocked with
    | @failed c' held' f s' htidied hlaid hheld hblame =>
      refine ⟨[], some f, c', held', rfl, htidied, hlaid, ?_, ?_⟩
      · refine .stopped fun b' k' => ?_
        rcases hheld with rfl | ⟨ht, rfl⟩
        · exact .inl rfl
        · by_cases heq : b' = b ∧ k' = k
          · obtain ⟨rfl, rfl⟩ := heq
            exact .inr ⟨ht, List.mem_cons_self .., Places.put_same⟩
          · exact .inl (Places.put_other heq)
      · rintro _ ⟨⟩ hundisturbed
        obtain ⟨rfl, hmissing⟩ := hblame hundisturbed
        exact ⟨(b, k), by rw [List.find?_cons_of_pos (by simp [hmissing])], rfl⟩
    | @taken c₁ s₁ htidied hlaid =>
      have hfree' := free_put hnew hfree (some .keep)
      refine Program.ensures_bind.mpr ((ih hrest
        (fun place hplace => hplaces place (List.mem_cons_of_mem _ hplace)) (htidied.sound hc) hlaid
        hfree').mono ?_)
      rintro _ s₂ ⟨locks, failure, c₂, held₂, rfl, htidied', hlaid', htaken, hblame⟩
      have hsame : c₂ b k = c₁ b k :=
        htidied'.bare hk (hlaid.layers.bare b k .keep Places.put_same).2
      refine ⟨⟨b, k, (c₁ b k).bind Item.value⟩ :: locks, failure, c₂, held₂, rfl,
        htidied.trans htidied', hlaid', hsame ▸ htaken.cons hnew, ?_⟩
      intro f hf hundisturbed
      have hundisturbed' : ¬Disturbed t c₁ := by
        rintro (ht | ⟨b', k', item, hitem, hlocked⟩)
        · exact hundisturbed (.inl ht)
        · obtain ⟨lock, hlock⟩ := Option.isSome_iff_exists.mp hlocked
          exact hundisturbed (.inr ⟨b', k', item, htidied.lock_of hitem hlock, hlocked⟩)
      obtain ⟨place, hfind, hf'⟩ := hblame f hf hundisturbed'
      have hmine := (htaken.cons hnew).mine _ (List.mem_cons_self ..)
      have hexists := (hlaid'.offers_held hmine).2
      exact ⟨place, by rw [List.find?_cons_of_neg (by simpa using hexists), hfind], hf'⟩

/-! ### Staging -/

@[simp] theorem resolve_ofChange (value committed : Option Bytes) :
    (Pending.ofChange value).resolve committed = value := by
  cases value <;> rfl

/-- On some of the locks there is noted what the write set has for their keys, the others are as
    before. -/
def Noted (ws : WriteSet) (held held' : Places Pending) : Prop :=
  ∀ b k, held' b k = held b k ∨ held b k ≠ none ∧ held' b k = some (.ofChange (ws.current b k))

theorem Noted.refl (ws : WriteSet) (held : Places Pending) : Noted ws held held :=
  fun _ _ => .inl rfl

theorem Noted.put (ws : WriteSet) (h : held b k ≠ none) :
    Noted ws held (held.put b k (some (.ofChange (ws.current b k)))) := by
  intro b' k'
  by_cases heq : b' = b ∧ k' = k
  · obtain ⟨rfl, rfl⟩ := heq
    exact .inr ⟨h, Places.put_same⟩
  · exact .inl (Places.put_other heq)

theorem Noted.trans {ws : WriteSet} {held' held'' : Places Pending} (h : Noted ws held held')
    (h' : Noted ws held' held'') : Noted ws held held'' := by
  intro b k
  rcases h' b k with heq' | ⟨hne', heq'⟩
  · rw [heq']
    exact h b k
  · rcases h b k with heq | ⟨hne, _⟩
    · exact .inr ⟨heq ▸ hne', heq'⟩
    · exact .inr ⟨hne, heq'⟩

theorem Noted.ne_none_iff {ws : WriteSet} {held' : Places Pending} (h : Noted ws held held') :
    held' b k ≠ none ↔ held b k ≠ none := by
  rcases h b k with heq | ⟨hne, heq⟩
  · rw [heq]
  · rw [heq]
    exact ⟨fun _ => hne, fun _ => Option.some_ne_none _⟩

/-- Locks that do nothing yet, with every change noted on them, do what the operations did to the write
    set. -/
theorem committing_noted {ws : WriteSet} {held' : Places Pending} {v₀ v : Places Bytes}
    (hws : ws.Tracks v₀ v) (hdistinct : ws.Distinct)
    (hheld : ∀ b k, ws.isLoaded b k = true ↔ held b k ≠ none)
    (hkeep : ∀ b k, held b k ≠ none → held b k = some .keep) (hnoted : Noted ws held held')
    (hall : ∀ change ∈ ws.changes, held' change.bucket change.key =
      some (.ofChange (ws.current change.bucket change.key))) :
    committing held' v₀ = v := by
  funext b k
  unfold committing
  cases hheld' : held' b k with
  | none =>
    refine (hws.others b k ?_).symm
    rw [← Bool.not_eq_true, hheld, ← hnoted.ne_none_iff, hheld']
    exact fun hne => hne rfl
  | some pending =>
    have hne : held b k ≠ none := hnoted.ne_none_iff.mp (hheld' ▸ Option.some_ne_none pending)
    have hin := (hheld b k).mpr hne
    change pending.resolve (v₀ b k) = v b k
    rw [← hws.current b k hin]
    by_cases hsame : ws.committed b k = ws.current b k
    · rcases hnoted b k with heq | ⟨_, heq⟩
      · rw [heq, hkeep b k hne] at hheld'
        cases hheld'
        rw [← hsame, hws.committed b k hin]
        rfl
      · rw [heq] at hheld'
        cases hheld'
        exact resolve_ofChange _ _
    · have hchange := hall ⟨b, k, ws.current b k⟩ ((WriteSet.mem_changes hdistinct).mpr ⟨hin, rfl, hsame⟩)
      rw [hheld'] at hchange
      cases hchange
      exact resolve_ofChange _ _

/-- Staging notes on locks of the update what the write set has for their keys. -/
theorem ensures_stageAll {ws : WriteSet} {changes : List Change}
    (hvalue : ∀ change ∈ changes, change.value = ws.current change.bucket change.key)
    (hcommitted : ∀ change ∈ changes,
      ws.committed change.bucket change.key = (c change.bucket change.key).bind Item.value)
    (hheld : ∀ change ∈ changes, held change.bucket change.key ≠ none)
    (h : Laid staged c state held s) :
    (stageAll staged ws changes).Ensures (storing around t) s fun r s' =>
      ∃ held', Laid staged c state held' s' ∧ Noted ws held held' ∧
        match r with
        | .ok _ => ∀ change ∈ changes, held' change.bucket change.key =
            some (.ofChange (ws.current change.bucket change.key))
        | .error _ => t.Possible := by
  induction changes generalizing held s with
  | nil => exact ⟨held, h, .refl ws held, fun _ hchange => nomatch hchange⟩
  | cons change rest ih =>
    have hfirst := List.mem_cons_self (a := change) (l := rest)
    obtain ⟨pending, hpending⟩ := Option.ne_none_iff_exists'.mp (hheld change hfirst)
    obtain ⟨hk, hbare⟩ := h.layers.bare _ _ pending hpending
    have hholds : (Precondition.lockedBy staged.record.id).holds (s.raw change.bucket change.key) = true :=
      holds_lockedBy.mpr ⟨_, _, h.layers.item_held hpending, rfl, rfl⟩
    have hnoted := Noted.put ws (hheld change hfirst)
    refine Program.ensures_bind.mpr ?_
    rw [hcommitted change hfirst, hvalue change hfirst]
    refine ensures_putLock h hk hbare hholds ?_ ?_ ?_
    · intro s' hlaid
      refine (ih (fun ch hch => hvalue ch (List.mem_cons_of_mem _ hch))
        (fun ch hch => hcommitted ch (List.mem_cons_of_mem _ hch)) (fun ch hch => ?_) hlaid).mono ?_
      · unfold Places.put
        split
        · exact Option.some_ne_none _
        · exact hheld ch (List.mem_cons_of_mem _ hch)
      · rintro r s'' ⟨held', hlaid', hnoted', hr⟩
        refine ⟨held', hlaid', hnoted.trans hnoted', ?_⟩
        cases r with
        | error f => exact hr
        | ok _ =>
          intro ch hch
          rcases List.mem_cons.mp hch with rfl | hch
          · rcases hnoted' ch.bucket ch.key with heq | ⟨_, heq⟩
            · rw [heq, Places.put_same]
            · exact heq
          · exact hr ch hch
    · intro f hf s' hlaid
      refine ⟨held, hlaid, .refl ws held, ?_⟩
      exact .inl (hf.resolve_right ((h.offers_held hpending).items_ne_error f))
    · intro ht f s' hlaid
      exact ⟨_, hlaid, hnoted, .inr ht⟩

/-! ### Both together -/

/-- The transaction cannot be applied: a bucket is missing, or an operation fails. -/
def Rejected (s : MemoryItems) (v : Places Bytes) (tx : Transaction) (f : Failure) : Prop :=
  MissesBucket s tx.touched f ∨
    (∀ place ∈ tx.touched, s.buckets.contains place.1 = true) ∧ Transaction.on v tx = .error f

/-- How the first half of an update may end, for operations on the contents `c`. -/
inductive Prepared (t : Trouble) (staged : Staged) (tx : Transaction) (c : Contents) :
    Except Failure (List Locked × Except Failure (WriteSet × TxOutcome)) → MemoryItems → Prop
  /-- Every touched key is locked, and once the locks have taken effect, readers will see what the
      operations make of what they see now. -/
  | ready {c' : Contents} {held : Places Pending} {s' : MemoryItems} {locks : List Locked}
      {ws : WriteSet} {outcome : TxOutcome} {v : Places Bytes}
      (htidied : Tidied (· ≠ staged.record.id) c c') (hlaid : Laid staged c' (some .pending) held s')
      (hlocks : locks.map Locked.place = tx.touched)
      (hcommitted : ∀ l ∈ locks, l.committed = (c' l.bucket l.key).bind Item.value)
      (hheld : ∀ b k, held b k ≠ none ↔ (b, k) ∈ tx.touched)
      (hon : Transaction.on c.visible tx = .ok (outcome, v))
      (hcurrent : ∀ l ∈ locks, ws.current l.bucket l.key = v l.bucket l.key)
      (hcommitting : ∀ b k, isReservedKey k = false → committing held c'.visible b k = v b k) :
      Prepared t staged tx c (.ok (locks, .ok (ws, outcome))) s'
  | failed {c' : Contents} {held : Places Pending} {s' : MemoryItems} {locks : List Locked}
      {f : Failure} (htidied : Tidied (· ≠ staged.record.id) c c')
      (hlaid : Laid staged c' (some .pending) held s') (hnodup : (locks.map Locked.place).Nodup)
      (hcommitted : ∀ l ∈ locks, l.committed = (c' l.bucket l.key).bind Item.value)
      (hmine : ∀ l ∈ locks, held l.bucket l.key ≠ none)
      (hheld : ∀ b k, held b k ≠ none → (b, k) ∈ tx.touched ∧
        (¬t.lostReplies → (b, k) ∈ locks.map Locked.place))
      (hblame : ¬Disturbed t c → Rejected s' c.visible tx f) :
      Prepared t staged tx c (.ok (locks, .error f)) s'

/-- How locking may end: on the places, up to the first that cannot be locked, there are locks, over
    contents in which readers see what they see in `c`. -/
inductive PlacesLocked (t : Trouble) (staged : Staged) (places : List (Bytes × Bytes)) (c : Contents) :
    Except Failure (List Locked × Option Failure) → MemoryItems → Prop
  | mk {locks : List Locked} {failure : Option Failure} {c' : Contents} {held : Places Pending}
      {s' : MemoryItems} (htidied : Tidied (· ≠ staged.record.id) c c') (hsame : c.SameView c')
      (hlaid : Laid staged c' (some .pending) held s')
      (htaken : Taken t places locks failure c' (fun _ _ => none) held)
      (hblame : ∀ f, failure = some f → ¬Disturbed t c → MissesBucket s' places f) :
      PlacesLocked t staged places c (.ok (locks, failure)) s'

/-- However the keys were locked, the rest of the first half of an update goes on from there. -/
theorem ensures_prepare_of_locked {config : Config} {tx : Transaction} {R : Contents → Prop}
    (hlock : (lockAll config staged tx.touched).Ensures (storing around t) s fun r s' =>
      ∃ c, R c ∧ PlacesLocked t staged tx.touched c r s') :
    (prepare config staged tx).Ensures (storing around t) s fun r s' =>
      ∃ c, R c ∧ Prepared t staged tx c r s' := by
  refine Program.ensures_bind.mpr (hlock.mono ?_)
  rintro _ s₁ ⟨c, hR, @⟨locks, failure, c', held, _, htidied, hsame, hlaid, htaken, hblame⟩⟩
  have hnodup : (locks.map Locked.place).Nodup := htaken.inOrder.sublist.nodup tx.nodup_touched
  cases failure with
  | some f =>
    refine ⟨c, hR, .failed htidied hlaid hnodup htaken.committed htaken.mine_ne_none ?_ ?_⟩
    · exact fun b k hne => (htaken.of_held hne).2
    · exact fun hu => .inl (hblame f rfl hu)
  | none =>
    have hlocks := htaken.all rfl
    have hvalue : ∀ {b k}, (b, k) ∈ tx.touched → (c' b k).bind Item.value = c.visible b k :=
      fun hplace => value_of_held hsame hlaid (htaken.held_iff.mpr hplace)
    -- The write set holds copies of what readers see, and goes on tracking it.
    have hlocked : ∀ {b k}, (loadLocked locks).isLoaded b k = true ↔ (b, k) ∈ tx.touched := by
      intro b k
      rw [isLoaded_loadLocked, hlocks]
    have htracks : (loadLocked locks).Tracks c.visible c.visible := by
      apply loadLocked_tracks
      intro l hl
      have hplace := htaken.held_iff.mp (htaken.mine_ne_none l hl)
      exact (htaken.committed l hl).trans (hvalue hplace)
    obtain ⟨hreply, htracks'⟩ := WriteSet.execute_tracks htracks fun op hop =>
      hlocked.mpr (Transaction.mem_touched.mpr ⟨op, hop, rfl⟩)
    have hdistinct := WriteSet.distinct_execute (distinct_loadLocked locks) tx
    have hloaded : ∀ {b k}, ((loadLocked locks).execute tx).2.isLoaded b k = true ↔
        (b, k) ∈ tx.touched := by
      intro b k
      rw [WriteSet.isLoaded_execute, hlocked]
    dsimp only
    cases hexecute : (loadLocked locks).execute tx with
    | mk r ws =>
    rw [hexecute] at hreply htracks' hdistinct hloaded
    cases hon : Transaction.on c.visible tx with
    | error f =>
      rw [hon] at hreply
      cases hreply
      refine ⟨c, hR, .failed htidied hlaid hnodup htaken.committed htaken.mine_ne_none ?_ ?_⟩
      · exact fun b k hne => (htaken.of_held hne).2
      · refine fun _ => .inr ⟨?_, hon⟩
        intro place hplace
        obtain ⟨pending, hpending⟩ := Option.ne_none_iff_exists'.mp (htaken.held_iff.mpr hplace)
        exact (hlaid.offers_held hpending).2
    | ok out =>
      obtain ⟨outcome, v⟩ := out
      rw [hon] at hreply
      cases hreply
      have hws : ws.Tracks c.visible v := htracks' _ hon
      refine Program.ensures_bind.mpr (Program.ensures_attempt.mpr
        ((ensures_stageAll ?_ ?_ ?_ hlaid).mono ?_))
      · exact fun change hchange => ((WriteSet.mem_changes hdistinct).mp hchange).2.1
      · intro change hchange
        have hin := ((WriteSet.mem_changes hdistinct).mp hchange).1
        rw [hvalue (hloaded.mp hin), hws.committed _ _ hin]
      · intro change hchange
        have hin := ((WriteSet.mem_changes hdistinct).mp hchange).1
        exact htaken.held_iff.mpr (hloaded.mp hin)
      · rintro r s₂ ⟨held', hlaid', hnoted, hr⟩
        cases r with
        | error f =>
          refine ⟨c, hR, .failed htidied hlaid' hnodup htaken.committed ?_ ?_ fun hu =>
            absurd (.inl hr) hu⟩
          · exact fun l hl => hnoted.ne_none_iff.mpr (htaken.mine_ne_none l hl)
          · exact fun b k hne => (htaken.of_held (hnoted.ne_none_iff.mp hne)).2
        | ok _ =>
          refine ⟨c, hR, .ready htidied hlaid' hlocks htaken.committed ?_ hon ?_ ?_⟩
          · exact fun b k => hnoted.ne_none_iff.trans htaken.held_iff
          · intro l hl
            refine hws.current _ _ (hloaded.mpr ?_)
            rw [← hlocks]
            exact List.mem_map.mpr ⟨l, hl, rfl⟩
          · intro b k hk
            have hcommitting : committing held' c.visible = v := committing_noted hws hdistinct
              (fun b k => hloaded.trans htaken.held_iff.symm)
              (fun b k hne => (htaken.of_held hne).1) hnoted hr
            rw [← hcommitting]
            unfold committing
            rw [hsame b k hk]

theorem ensures_prepare {config : Config} {tx : Transaction}
    (hproper : staged.record.Proper known)
    (huser : ∀ place ∈ tx.touched, isReservedKey place.2 = false)
    (hc : c.Sound known) (h : Laid staged c (some .pending) (fun _ _ => none) s) :
    (prepare config staged tx).Ensures (storing around t) s (Prepared t staged tx c) := by
  have hprepare : (prepare config staged tx).Ensures (storing around t) s fun r s' =>
      ∃ c', c' = c ∧ Prepared t staged tx c' r s' := by
    refine ensures_prepare_of_locked ((ensures_lockAll hproper tx.nodup_touched huser hc h
      fun _ _ => rfl).mono ?_)
    rintro _ s' ⟨locks, failure, c', held, rfl, htidied, hlaid, htaken, hblame⟩
    exact ⟨c, rfl, htidied, htidied.sameView hc, hlaid, htaken, hblame⟩
  refine hprepare.mono ?_
  rintro r s' ⟨_, rfl, hprepared⟩
  exact hprepared

end BucketStore.Staging
