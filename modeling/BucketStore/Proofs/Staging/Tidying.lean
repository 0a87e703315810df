/-
  BucketStore/Proofs/Staging/Tidying.lean
  =======================================
  **Clearing away what a transaction has left is not seen by readers.**

  `Tidy id` lists the steps in which what is left of the transaction `id` goes
  away: a lock is dropped and its item keeps what readers see there, a pending
  record becomes aborted, the record of a decided transaction is deleted once no
  lock names it.  No such step is seen (`Tidied.sameView`), and none touches what
  belongs to other transactions or to none (`Tidied.same`).

  Clearing a lock makes steps of this kind only (`ensures_resolveLock`), whatever
  state the lock's transaction is in and whatever goes wrong on the way.
-/
import BucketStore.Proofs.Staging.WellFormed
import Mathlib.Logic.Relation

namespace BucketStore.Staging

/-- A step of clearing away what is left of the transaction `id`. -/
inductive Tidy (id : String) (c : Contents) : Contents → Prop
  /-- A lock is dropped. -/
  | release {bucket key : Bytes} {item : Item} {lock : Lock} (hitem : c bucket key = some item)
      (hlock : item.lock = some lock) (howner : lock.owner = id) :
      Tidy id c (c.put bucket key ((item.seen c.committed).map .plain))
  /-- The transaction is decided against. -/
  | abort {bucket : Bytes} {r : Record} (hr : r.Addressable) (hid : r.id = id)
      (hrecord : c bucket (recordKey id) = some r.item) (hpending : r.state = .pending) :
      Tidy id c (c.put bucket (recordKey id) (some ({ r with state := .aborted } : Record).item))
  /-- The record is deleted. -/
  | forget {bucket : Bytes} {r : Record} (hr : r.Addressable) (hid : r.id = id)
      (hrecord : c bucket (recordKey id) = some r.item)
      (hdecided : r.state.canBecome .reclaimed = true)
      (hfree : ∀ b k item lock, c b k = some item → item.lock = some lock → lock.owner = id →
        lock.recordBucket ≠ bucket) :
      Tidy id c (c.put bucket (recordKey id) none)

/-- Steps of clearing away what is left of the transactions of `P`. -/
abbrev Tidied (P : String → Prop) : Contents → Contents → Prop :=
  Relation.ReflTransGen fun c c' => ∃ id, P id ∧ Tidy id c c'

section

variable {id : String} {P P' : String → Prop} {c c' : Contents} {known : String → Prop}
  {bucket key : Bytes} {item : Item} {lock : Lock}

theorem Tidy.tidied (h : Tidy id c c') : Tidied (· = id) c c' := .single ⟨id, rfl, h⟩

theorem Tidied.mono (h : Tidied P c c') (hP : ∀ id, P id → P' id) : Tidied P' c c' :=
  Relation.ReflTransGen.mono (fun _ _ ⟨id, hid, hstep⟩ => ⟨id, hP id hid, hstep⟩) _ _ h

/-! ### What a step leaves alone -/

theorem Tidy.same (h : Tidy id c c') (hkey : key ≠ recordKey id)
    (hfree : ∀ item lock, c bucket key = some item → item.lock = some lock → lock.owner ≠ id) :
    c' bucket key = c bucket key := by
  cases h with
  | release hitem hlock howner =>
    refine Places.put_other ?_
    rintro ⟨rfl, rfl⟩
    exact hfree _ _ hitem hlock howner
  | abort => exact Places.put_other_key hkey
  | forget => exact Places.put_other_key hkey

theorem Tidy.lock_of (h : Tidy id c c') (hitem : c' bucket key = some item)
    (hlock : item.lock = some lock) : c bucket key = some item := by
  have hplain : ∀ {b k x}, c' = c.put b k x → (∀ i, x = some i → i.lock = none) →
      c bucket key = some item := by
    rintro b k x rfl hx
    unfold Places.put at hitem
    split at hitem
    · rw [hx item hitem] at hlock
      cases hlock
    · exact hitem
  cases h with
  | release _ _ _ =>
    refine hplain rfl fun i hi => ?_
    obtain ⟨v, _, rfl⟩ := Option.map_eq_some_iff.mp hi
    rfl
  | abort => exact hplain rfl fun i hi => Option.some.inj hi ▸ rfl
  | forget => exact hplain rfl fun i hi => nomatch hi

theorem Tidied.same (h : Tidied P c c') (hkey : ∀ id, P id → key ≠ recordKey id)
    (hfree : ∀ item lock, c bucket key = some item → item.lock = some lock → ¬P lock.owner) :
    c' bucket key = c bucket key := by
  induction h with
  | refl => rfl
  | tail _ hstep ih =>
    obtain ⟨id, hid, hstep⟩ := hstep
    rw [← ih]
    refine hstep.same (hkey id hid) fun item lock hitem hlock howner => ?_
    rw [ih] at hitem
    exact hfree item lock hitem hlock (howner ▸ hid)

theorem Tidied.lock_of (h : Tidied P c c') (hitem : c' bucket key = some item)
    (hlock : item.lock = some lock) : c bucket key = some item := by
  induction h with
  | refl => exact hitem
  | tail _ hstep ih =>
    obtain ⟨id, _, hstep⟩ := hstep
    exact ih (hstep.lock_of hitem hlock)

/-! ### What a step keeps -/

theorem Tidy.sound (h : Tidy id c c') (hs : c.Sound known) : c'.Sound known := by
  cases h with
  | release hitem hlock _ => exact hs.put (wellFormed_plain ((hs _ _ _ hitem).of_lock hlock).1 _)
  | @abort bucket r hr hid hrecord hpending =>
    refine hs.put fun item hitem => ?_
    obtain ⟨r', hproper, _, heq⟩ := hs.record hrecord
    have hsame : r = r' := by
      refine Record.encode_injective hr hproper.addressable ?_
      simpa [Record.item, Item.plain] using heq
    subst hsame hid
    cases hitem
    exact .record (hproper.withState .aborted (by decide))
  | forget =>
    refine hs.put fun item hitem => ?_
    cases hitem

theorem Tidy.sameView (h : Tidy id c c') (hs : c.Sound known) : c.SameView c' := by
  cases h with
  | @release bucket key item lock hitem hlock _ =>
    refine Contents.sameView_put ((hs _ _ _ hitem).of_lock hlock).1 ?_
    rw [Contents.visible_of_item hitem]
    cases item.seen c.committed <;> rfl
  | @abort bucket r hr hid hrecord hpending =>
    subst hid
    refine Contents.sameView_putRecord_of_committed fun lock howner hbucket => ?_
    subst hbucket
    rw [Contents.committed_of_item hr howner hrecord, hpending,
      Contents.committed_of_item (hr.withState .aborted) howner Places.put_same]
    rfl
  | forget _ _ _ _ hfree =>
    refine Contents.sameView_putRecord fun b k item lock _ hitem hlock howner hbucket => ?_
    exact absurd hbucket (hfree b k item lock hitem hlock howner)

theorem Tidied.sound (h : Tidied P c c') (hs : c.Sound known) : c'.Sound known := by
  induction h with
  | refl => exact hs
  | tail _ hstep ih =>
    obtain ⟨id, _, hstep⟩ := hstep
    exact hstep.sound ih

/-- Tidying up after transactions leaves the records of the others. -/
theorem Tidied.record_same (h : Tidied P c c') (hs : c.Sound known) {id : String} (hid : ¬P id) :
    c' bucket (recordKey id) = c bucket (recordKey id) := by
  apply h.same
  · rintro id' hid' heq
    exact hid (recordKey_injective heq ▸ hid')
  · intro item lock hitem hlock
    exact absurd rfl (ne_recordKey ((hs _ _ _ hitem).of_lock hlock).1 id)

theorem Tidied.sameView (h : Tidied P c c') (hs : c.Sound known) : c.SameView c' := by
  induction h with
  | refl => exact .refl c
  | tail hsteps hstep ih =>
    obtain ⟨id, _, hstep⟩ := hstep
    exact ih.trans (hstep.sameView (Tidied.sound hsteps hs))

end

/-! ### Clearing a lock -/

/-- The key is locked by the transaction, which is pending and has not outlived the timeout at the
    time `now`. -/
def Contents.Barred (c : Contents) (timeout : Nat) (now : Int64) (bucket key : Bytes)
    (owner : String) : Prop :=
  ∃ item lock r, c bucket key = some item ∧ item.lock = some lock ∧ lock.owner = owner ∧
    c.record? lock.recordBucket owner = some r ∧ r.state = .pending ∧ r.isExpired timeout now = false

section

open MemoryItems

variable {around : Surroundings} {t : Trouble} {s s' : MemoryItems} {known : String → Prop}
  {bucket key : Bytes} {item : Item} {lock : Lock} {α : Type}

/-- What bars a key is the transaction that its lock names. -/
theorem Contents.Barred.of_lock {c : Contents} {timeout : Nat} {now : Int64} {owner : String}
    (h : c.Barred timeout now bucket key owner) (hitem : c bucket key = some item)
    (hlock : item.lock = some lock) :
    ∃ r, c.record? lock.recordBucket lock.owner = some r ∧ r.state = .pending ∧
      r.isExpired timeout now = false := by
  obtain ⟨item', lock', r, hitem', hlock', rfl, hrecord, hpending⟩ := h
  rw [hitem] at hitem'
  cases hitem'
  rw [hlock] at hlock'
  cases hlock'
  exact ⟨r, hrecord, hpending⟩

theorem holds_lockedBy {id : String} {stored : Option Item} :
    (Precondition.lockedBy id).holds stored = true ↔
      ∃ item lock, stored = some item ∧ item.lock = some lock ∧ lock.owner = id := by
  cases stored with
  | none => simp [Precondition.holds]
  | some item =>
    simp only [Precondition.holds, Item.isLockedBy, Option.any_eq_true, beq_iff_eq,
      Option.some.injEq]
    constructor
    · rintro ⟨lock, hlock, howner⟩
      exact ⟨item, lock, rfl, hlock, howner⟩
    · rintro ⟨_, lock, rfl, hlock, howner⟩
      exact ⟨lock, hlock, howner⟩

/-- How the write of a value in the place of a transaction's lock ends. -/
structure Released (t : Trouble) (s : MemoryItems) (bucket key : Bytes) (value : Option Bytes)
    (owner : String) (r : Except Failure α) (s' : MemoryItems) : Prop where
  same : SameBuckets s s'
  tidied : Tidied (· = owner) s.raw s'.raw
  plain : ∀ a, r = .ok a → s'.raw bucket key = value.map .plain
  failed : ∀ f, r = .error f → t.Possible

/-- Writing what readers see over an item that a transaction has locked is tidying up after it,
    wherever that write ends. If it answers, the item is not locked any more. -/
theorem ensures_releasing {value : Option Bytes} (hopen : s.closed = false)
    (hitem : s.raw bucket key = some item) (hlock : item.lock = some lock)
    (hvalue : value = item.seen (Contents.committed s.raw)) :
    (Protocol.write bucket key (value.map .plain) (.lockedBy lock.owner)).Ensures
      (storing around t) s (Released t s bucket key value lock.owner) := by
  have hput : Tidied (· = lock.owner) s.raw (Places.put s.raw bucket key (value.map .plain)) := by
    rw [hvalue]
    exact (Tidy.release hitem hlock rfl).tidied
  refine ensures_write ?_ ?_ ?_ ?_
  · intro _ _ s' hsame hraw
    refine ⟨hsame, hraw ▸ hput, fun _ _ => ?_, fun _ hr => nomatch hr⟩
    rw [hraw, Places.put_same]
  · intro hdeclined
    rw [holds_lockedBy.mpr ⟨item, lock, hitem, hlock, rfl⟩] at hdeclined
    cases hdeclined
  · intro f hf s' hsame hraw
    refine ⟨hsame, hraw ▸ .refl, fun _ hr => (nomatch hr), fun _ _ => ?_⟩
    rcases hf with hrefusals | hitems
    · exact .inl hrefusals
    · exact absurd hitems ((offers_of_raw hopen hitem).items_ne_error f)
  · intro hlost _ _ f s' hsame hraw
    exact ⟨hsame, hraw ▸ hput, fun _ hr => (nomatch hr), fun _ _ => .inr hlost⟩

theorem ensures_released {value : Option Bytes} (hopen : s.closed = false)
    (hitem : s.raw bucket key = some item) (hlock : item.lock = some lock)
    (hvalue : value = item.seen (Contents.committed s.raw)) :
    (discard (Protocol.write bucket key (value.map .plain) (.lockedBy lock.owner))).Ensures
      (storing around t) s (Released (α := Unit) t s bucket key value lock.owner) := by
  rw [Program.discard_eq]
  refine Program.ensures_bind.mpr ((ensures_releasing hopen hitem hlock hvalue).mono ?_)
  rintro (f | written) s' ⟨hsame, htidied, hplain, hfailed⟩
  · exact ⟨hsame, htidied, fun _ hr => (nomatch hr), fun _ _ => hfailed f rfl⟩
  · exact ⟨hsame, htidied, fun _ _ => hplain written rfl, fun _ hr => nomatch hr⟩

/-- How the write that decides against a pending transaction ends. -/
structure DecidedAgainst (t : Trouble) (s : MemoryItems) (bucket : Bytes) (r : Record)
    (reply : Except Failure Bool) (s' : MemoryItems) : Prop where
  same : SameBuckets s s'
  tidied : Tidied (· = r.id) s.raw s'.raw
  aborted : reply = .ok true → s'.raw = Places.put s.raw bucket (recordKey r.id)
    (some ({ r with state := .aborted } : Record).item)
  /-- Somebody else has decided about the transaction before. -/
  declined : reply = .ok false → s.raw bucket (recordKey r.id) ≠ some r.item
  failed : ∀ f, reply = .error f → t.Possible ∨ s.items bucket = .error f

/-- Deciding against a pending transaction is tidying up after it, wherever that write ends. -/
theorem ensures_aborting {r : Record} (hr : r.Addressable) (hstate : r.state = .pending)
    (hs : Contents.Sound known s.raw) :
    (Protocol.write bucket (recordKey r.id) (some ({ r with state := .aborted } : Record).item)
      (.valueEquals r.encode)).Ensures (storing around t) s (DecidedAgainst t s bucket r) := by
  have habort : (Precondition.valueEquals r.encode).holds (s.raw bucket (recordKey r.id)) = true →
      Tidied (· = r.id) s.raw (Places.put s.raw bucket (recordKey r.id)
        (some ({ r with state := .aborted } : Record).item)) := by
    intro hholds
    have hstored : s.raw bucket r.key = some r.item := eq_item_of_valueEquals hr (hs _ _) hholds
    exact (Tidy.abort hr rfl hstored hstate).tidied
  refine ensures_write ?_ ?_ ?_ ?_
  · intro hholds _ s' hsame hraw
    exact ⟨hsame, hraw ▸ habort hholds, fun _ => hraw, by simp,
      by simp⟩
  · intro hdeclined _ s' hsame hraw
    refine ⟨hsame, hraw ▸ .refl, by simp, fun _ hstored => ?_,
      by simp⟩
    rw [hstored] at hdeclined
    simp [Precondition.holds, Record.item, Item.plain] at hdeclined
  · intro f hf s' hsame hraw
    refine ⟨hsame, hraw ▸ .refl, by simp, by simp,
      fun f' hf' => ?_⟩
    cases hf'
    exact hf.imp_left .inl
  · intro hlost hholds _ f s' hsame hraw
    exact ⟨hsame, hraw ▸ habort hholds, by simp, by simp,
      fun _ _ => .inl (.inr hlost)⟩

/-- How clearing the lock of an item ends. If it answers, the item is as readers saw it, without a
    lock; if nothing went wrong, it fails only for a transaction that bars the key. -/
structure Resolved (around : Surroundings) (t : Trouble) (config : Config) (s : MemoryItems)
    (bucket key : Bytes) (item : Item) (owner : String) (r : Except Failure Unit)
    (s' : MemoryItems) : Prop where
  same : SameBuckets s s'
  tidied : Tidied (· = owner) s.raw s'.raw
  cleared : r = .ok () → s'.raw bucket key = (item.seen (Contents.committed s.raw)).map .plain ∧
    ∀ id, ¬Contents.Barred s.raw config.lockTimeout (around.clock s.readings) bucket key id
  failed : ∀ f, r = .error f → t.Possible ∨ f = .lockedBy bucket key owner ∧ s'.raw = s.raw ∧
    Contents.Barred s.raw config.lockTimeout (around.clock s.readings) bucket key owner

/-- Clearing a lock tidies up after its transaction, and does nothing else. -/
theorem ensures_resolved {config : Config} (hopen : s.closed = false)
    (hs : Contents.Sound known s.raw) (hitem : s.raw bucket key = some item)
    (hlock : item.lock = some lock) :
    (resolveLock config bucket key item).Ensures (storing around t) s
      (Resolved around t config s bucket key item lock.owner) := by
  have hkey := ((hs _ _ _ hitem).of_lock hlock).1
  have hseen : ∀ {c : Contents} {state : Bool}, c.committed lock = state →
      item.seen c.committed = if state = true then lock.pending.resolve item.value else item.value := by
    intro c state hstate
    simp only [Item.seen, hlock, hstate]
  -- Whatever is written in the end, it is written over the item as it was loaded.
  have hrelease : ∀ {s₁ : MemoryItems} {value : Option Bytes}, SameBuckets s s₁ →
      Tidied (· = lock.owner) s.raw s₁.raw → s₁.raw bucket key = some item →
      value = item.seen (Contents.committed s.raw) →
      item.seen (Contents.committed s₁.raw) = item.seen (Contents.committed s.raw) →
      (∀ id, ¬Contents.Barred s.raw config.lockTimeout (around.clock s.readings) bucket key id) →
      (discard (Protocol.write bucket key (value.map .plain) (.lockedBy lock.owner))).Ensures
        (storing around t) s₁ (Resolved around t config s bucket key item lock.owner) := by
    intro s₁ value hsame htidied hitem₁ hvalue hsame₁ hfree
    refine (ensures_released (hsame.closed.trans hopen) hitem₁ hlock (hvalue.trans hsame₁.symm)).mono ?_
    rintro r s' ⟨hsame', htidied', hplain, hfailed⟩
    refine ⟨hsame.trans hsame', htidied.trans htidied', fun hok => ⟨?_, hfree⟩, ?_⟩
    · rw [hplain () hok, hvalue]
    · exact fun f hf => .inl (hfailed f hf)
  unfold resolveLock
  simp only [hlock]
  refine Program.ensures_bind.mpr (ensures_loadRecord hopen ?_ ?_ ?_)
  · intro stored hstored
    obtain ⟨r, hproper, hid, heq⟩ := hs.record hstored
    exact ⟨r, hproper.addressable, hid, heq⟩
  · intro r hr hid hrecord
    have hcommitted : Contents.committed s.raw lock = (r.state == .committed) :=
      Contents.committed_of_item hr hid.symm (hid ▸ hrecord)
    have hfound : Contents.record? s.raw lock.recordBucket lock.owner = some r :=
      hid ▸ Contents.record?_of_item hr (hid ▸ hrecord)
    -- A transaction that is decided, or has outlived the timeout, bars nobody.
    have hfree : (r.state = .pending →
        r.isExpired config.lockTimeout (around.clock s.readings) = true) → ∀ id,
        ¬Contents.Barred s.raw config.lockTimeout (around.clock s.readings) bucket key id := by
      intro hexpired id hbarred
      obtain ⟨r', hfound', hpending, hlive⟩ := hbarred.of_lock hitem hlock
      rw [hfound] at hfound'
      cases hfound'
      rw [hexpired hpending] at hlive
      cases hlive
    cases hstate : r.state with
    | committed =>
      simp only [hstate]
      refine hrelease (.refl s) .refl hitem ?_ rfl (hfree (by simp [hstate]))
      rw [hseen hcommitted, hstate]
      rfl
    | aborted =>
      simp only [hstate]
      refine hrelease (.refl s) .refl hitem ?_ rfl (hfree (by simp [hstate]))
      rw [hseen hcommitted, hstate]
      rfl
    | reclaimed =>
      simp only [hstate]
      refine hrelease (.refl s) .refl hitem ?_ rfl (hfree (by simp [hstate]))
      rw [hseen hcommitted, hstate]
      rfl
    | pending =>
      simp only [hstate]
      refine Program.ensures_bind.mpr (ensures_now ?_)
      have hsame : SameBuckets s { s with readings := s.readings + 1 } := ⟨rfl, fun _ => rfl⟩
      have hvalue : item.value = item.seen (Contents.committed s.raw) := by
        rw [hseen hcommitted, hstate]
        rfl
      dsimp only
      split
      · next hexpired =>
        refine Program.ensures_bind.mpr (Program.ensures_log.mpr ?_)
        have hsound : Contents.Sound known ({ s with readings := s.readings + 1 } : MemoryItems).raw := hs
        refine Program.ensures_bind.mpr (ensures_transition (by rw [hstate]; rfl) ?_)
        refine Program.ensures_bind.mpr ((ensures_aborting hr hstate hsound).mono ?_)
        rintro reply s' ⟨hsame', htidied, haborted, hdeclined, hfailed⟩
        rw [hid] at htidied
        rcases reply with f | (_ | _)
        · refine ⟨hsame.trans hsame', htidied, by simp, fun f' hf' => .inl ?_⟩
          apply (hfailed f rfl).resolve_right
          exact (offers_of_raw (s := { s with readings := s.readings + 1 }) hopen
            hrecord).items_ne_error f
        · exact absurd (hid ▸ hrecord) (hdeclined rfl)
        · have hraw := haborted rfl
          have hunseen : Contents.committed s'.raw lock = false := by
            rw [hraw]
            exact Contents.committed_of_item (hr.withState .aborted) hid.symm Places.put_same
          refine hrelease (hsame.trans hsame') htidied ?_ hvalue ?_ (hfree fun _ => hexpired)
          · rw [hraw, Places.put_other_key (ne_recordKey hkey _)]
            exact hitem
          · rw [hseen hunseen, ← hvalue]
            rfl
      · next hlive =>
        refine ⟨hsame, .refl, by simp, fun f hf => .inr ⟨?_, rfl, ?_⟩⟩
        · exact (Except.error.inj hf).symm
        · exact ⟨item, lock, r, hitem, hlock, rfl, hfound, hstate, by simpa using hlive⟩
  · intro hnone
    refine hrelease (.refl s) .refl hitem ?_ rfl ?_
    · rw [hseen (Contents.committed_of_none hnone)]
      rfl
    · intro id hbarred
      obtain ⟨r, hfound, _⟩ := hbarred.of_lock hitem hlock
      simp [Contents.record?, hnone] at hfound

theorem ensures_resolveLock {config : Config} (hopen : s.closed = false)
    (hs : Contents.Sound known s.raw) (hitem : s.raw bucket key = some item)
    (hlock : item.lock = some lock) {Q : Except Failure Unit → MemoryItems → Prop}
    (h : ∀ r s', SameBuckets s s' → Tidied (· = lock.owner) s.raw s'.raw → Q r s') :
    (resolveLock config bucket key item).Ensures (storing around t) s Q := by
  refine (ensures_resolved hopen hs hitem hlock).mono ?_
  exact fun r s' hresolved => h r s' hresolved.same hresolved.tidied

end

end BucketStore.Staging
