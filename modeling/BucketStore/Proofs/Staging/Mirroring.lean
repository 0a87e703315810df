/-
  BucketStore/Proofs/Staging/Mirroring.lean
  =========================================
  **A store of items that mirrors the driver in memory.**

  An item store `Mirrors` the store of the driver in memory if it has the same
  buckets, and in them the same values as items without locks, and nothing else.
  Where nothing goes wrong, the protocols for one key and for a listing answer as
  the driver in memory does on the store that is mirrored, and leave a store that
  mirrors what that leaves.
-/
import BucketStore.Proofs.Memory
import BucketStore.Proofs.Staging.Committing
import BucketStore.Proofs.Staging.Reachable
import BucketStore.Proofs.Staging.Reading

namespace BucketStore.Staging

open MemoryItems

/-! ### The correspondence -/

/-- The item store holds the values of the store in memory, without locks and without records. -/
structure Mirrors (s : MemoryItems) (m : Memory.Store) : Prop where
  opened : s.closed = false
  memoryOpened : m.closed = false
  buckets : ∀ b, s.buckets.contains b = m.buckets.contains b
  items : ∀ b k, s.raw b k = (m.values b k).map .plain
  noRecords : ∀ b k, isReservedKey k = true → s.raw b k = none

/-- The same answer, or failures of the same kind. -/
def Agree {α : Type} : Except Failure α → Except Failure α → Prop
  | .ok a, .ok a' => a = a'
  | .error f, .error f' => f.kind = f'.kind
  | _, _ => False

/-- A call was answered alike on both sides, and left stores that correspond. -/
structure Corresponds {α : Type} (step : Step MemoryItems (Except Failure α))
    (step' : Step Memory.Store (Except Failure α)) : Prop where
  reply : Agree step.reply step'.reply
  mirrors : Mirrors step.state step'.state
  unfailing : step.state.fault = none

variable {around : Surroundings} {config : Config} {s s' : MemoryItems} {m m' : Memory.Store}
  {bucket key : Bytes} {known : String → Prop} {α β : Type}

theorem Agree.refl (r : Except Failure α) : Agree r r := by
  cases r <;> exact rfl

theorem Agree.map {r r' : Except Failure α} (h : Agree r r') (g : α → β) :
    Agree (r.map g) (r'.map g) := by
  cases r <;> cases r'
  · exact h
  · cases h
  · cases h
  · exact congrArg g h

theorem Agree.mapError_left {r r' : Except Failure α} (h : Agree r r') {reword : Failure → Failure}
    (hkind : ∀ f, (reword f).kind = f.kind) : Agree (r.mapError reword) r' := by
  cases r <;> cases r'
  · exact (hkind _).trans h
  · cases h
  · cases h
  · exact h

theorem Agree.mapError_right {r r' : Except Failure α} (h : Agree r r') {reword : Failure → Failure}
    (hkind : ∀ f, (reword f).kind = f.kind) : Agree r (r'.mapError reword) := by
  cases r <;> cases r'
  · exact Eq.trans h (hkind _).symm
  · cases h
  · cases h
  · exact h

theorem Corresponds.mapFailure {step : Step MemoryItems (Except Failure α)}
    {act : Action Memory.Store α} {reword : Failure → Failure}
    (hkind : ∀ f, (reword f).kind = f.kind) (h : Corresponds step (act m)) :
    Corresponds step (act.mapFailure reword m) where
  reply := by
    rw [Action.reply_mapFailure]
    exact h.reply.mapError_right hkind
  mirrors := by
    rw [Action.state_mapFailure]
    exact h.mirrors
  unfailing := h.unfailing

theorem Corresponds.map {act : Action MemoryItems α} {act' : Action Memory.Store α}
    (h : Corresponds (act s) (act' m)) (g : α → β) :
    Corresponds ((act >>= fun a => pure (g a)) s) ((act' >>= fun a => pure (g a)) m) where
  reply := by
    rw [Action.reply_map, Action.reply_map]
    exact h.reply.map g
  mirrors := by
    rw [Action.state_map, Action.state_map]
    exact h.mirrors
  unfailing := by
    rw [Action.state_map]
    exact h.unfailing

namespace Mirrors

theorem empty : Mirrors {} {} := ⟨rfl, rfl, fun _ => rfl, fun _ _ => rfl, fun _ _ _ => rfl⟩

theorem atRest (h : Mirrors s m) : Contents.AtRest s.raw where
  unlocked := by
    intro b k item hitem
    rw [h.items] at hitem
    obtain ⟨v, _, rfl⟩ := Option.map_eq_some_iff.mp hitem
    rfl
  userKeys := by
    intro b k item hitem
    cases hkey : isReservedKey k with
    | true =>
      rw [h.noRecords b k hkey] at hitem
      cases hitem
    | false => rfl

theorem unlocked (h : Mirrors s m) {b k : Bytes} {item : Item} (hitem : s.raw b k = some item) :
    item.lock = none := h.atRest.unlocked b k item hitem

theorem sound (h : Mirrors s m) : Contents.Sound known s.raw := by
  intro b k item hitem
  have hkey := h.atRest.userKeys b k item hitem
  rw [h.items] at hitem
  exact wellFormed_plain hkey _ item hitem

theorem foreign (h : Mirrors s m) (id : String) : Contents.Foreign id s.raw := h.atRest.foreign id

theorem undisturbed (h : Mirrors s m) : ¬Disturbed .nothing s.raw := by
  rintro (ht | ⟨b, k, item, hitem, hlocked⟩)
  · exact Trouble.not_possible_nothing ht
  · have hnone := h.unlocked hitem
    simp [Item.isLocked, hnone] at hlocked

theorem tidied {P : String → Prop} {c : Contents} (h : Mirrors s m) (htidied : Tidied P s.raw c) :
    c = s.raw := h.atRest.eq_of_tidied htidied

theorem visible (h : Mirrors s m) : Contents.visible s.raw = m.values := by
  funext b k
  unfold Contents.visible
  rw [h.items]
  cases m.values b k <;> rfl

theorem found (h : Mirrors s m) (hoffers : s.Offers bucket) :
    ∃ found, m.buckets.get? bucket = some found :=
  KeyMap.contains_eq_true.mp ((h.buckets bucket).symm.trans hoffers.2)

theorem not_found (h : Mirrors s m) {f : Failure} (hitems : s.items bucket = .error f) :
    f = .bucketNotFound bucket ∧ m.buckets.get? bucket = none := by
  obtain ⟨hf, hnone⟩ := items_error h.opened hitems
  rw [h.buckets] at hnone
  exact ⟨hf, KeyMap.contains_eq_false.mp hnone⟩

theorem same (h : Mirrors s m) (hsame : SameBuckets s s') (hraw : s'.raw = s.raw) : Mirrors s' m := by
  refine ⟨hsame.closed.trans h.opened, h.memoryOpened, ?_, ?_, ?_⟩
  · exact fun b => (hsame.contains b).trans (h.buckets b)
  · rw [hraw]
    exact h.items
  · rw [hraw]
    exact h.noRecords

/-- A user's key is given a value, or none, on both sides. -/
theorem put {found : Memory.Bucket} {value : Option Bytes} (h : Mirrors s m)
    (hkey : isReservedKey key = false) (hbucket : m.buckets.get? bucket = some found)
    (hsame : SameBuckets s s')
    (hraw : s'.raw = Places.put s.raw bucket key (value.map .plain)) :
    Mirrors s' (m.withBucket bucket (found.put key value)) := by
  refine ⟨hsame.closed.trans h.opened, h.memoryOpened, ?_, ?_, ?_⟩
  · intro b
    have hcontains := KeyMap.contains_eq_true.mpr ⟨found, hbucket⟩
    rw [hsame.contains, h.buckets, Memory.Store.contains_withBucket hcontains]
  · intro b k
    rw [hraw, Memory.Store.values_withBucket hbucket]
    unfold Places.put
    split
    · rfl
    · exact h.items b k
  · intro b k hreserved
    rw [hraw, Places.put_other]
    · exact h.noRecords b k hreserved
    · rintro ⟨_, rfl⟩
      rw [hkey] at hreserved
      cases hreserved

theorem withEmpty (h : Mirrors s m) (hbucket : m.buckets.contains bucket = false) :
    Mirrors (s.withItems bucket {}) (m.withBucket bucket {}) := by
  have hraw := raw_withEmpty ((h.buckets bucket).trans hbucket)
  refine ⟨h.opened, h.memoryOpened, ?_, ?_, ?_⟩
  · intro b
    have hcontains := h.buckets b
    unfold KeyMap.contains withItems Memory.Store.withBucket at *
    rw [KeyMap.get?_insert, KeyMap.get?_insert]
    split
    · rfl
    · exact hcontains
  · intro b k
    rw [hraw, Memory.Store.values_withEmpty hbucket]
    exact h.items b k
  · intro b k
    rw [hraw]
    exact h.noRecords b k

theorem erase (h : Mirrors s m) (bucket : Bytes) :
    Mirrors { s with buckets := s.buckets.erase bucket }
      { m with buckets := m.buckets.erase bucket } := by
  refine ⟨h.opened, h.memoryOpened, ?_, ?_, ?_⟩
  · intro b
    have hcontains := h.buckets b
    unfold KeyMap.contains at *
    rw [KeyMap.get?_erase, KeyMap.get?_erase]
    split
    · rfl
    · exact hcontains
  · intro b k
    rw [raw_erase, Memory.Store.values_erase, h.items]
    split <;> rfl
  · intro b k hreserved
    rw [raw_erase, h.noRecords b k hreserved]
    split <;> rfl

end Mirrors

/-! ### Writing and reading one key -/

/-- What a protocol has to ensure if it is to correspond to a step of the driver in memory. -/
def AnswersLike (step : Step Memory.Store (Except Failure α)) (r : Except Failure α)
    (s' : MemoryItems) : Prop :=
  Agree r step.reply ∧ Mirrors s' step.state

/-- A write where nothing goes wrong fails only for its bucket. -/
theorem Mirrors.ensures_write {condition : Precondition}
    {Q : Except Failure Bool → MemoryItems → Prop} (h : Mirrors s m)
    (hkey : isReservedKey key = false) (value : Option Bytes)
    (hmissing : m.buckets.get? bucket = none → ∀ s', Mirrors s' m →
      Q (.error (.bucketNotFound bucket)) s')
    (happlied : ∀ found, m.buckets.get? bucket = some found →
      condition.holds ((found.get? key).map .plain) = true → ∀ s',
      Mirrors s' (m.withBucket bucket (found.put key value)) → Q (.ok true) s')
    (hdeclined : ∀ found, m.buckets.get? bucket = some found →
      condition.holds ((found.get? key).map .plain) = false → ∀ s', Mirrors s' m →
      Q (.ok false) s') :
    (Protocol.write bucket key (value.map .plain) condition).Ensures (storing around .nothing) s Q := by
  -- Where the write is decided on, the bucket exists on both sides.
  have hfound : s.Offers bucket → ∃ found, m.buckets.get? bucket = some found ∧
      s.raw bucket key = (found.get? key).map .plain := by
    intro hoffers
    obtain ⟨found, hget⟩ := h.found hoffers
    refine ⟨found, hget, ?_⟩
    rw [h.items, Memory.Store.values_of_bucket hget]
  refine Staging.ensures_write ?_ ?_ ?_ ?_
  · intro hholds hoffers s' hsame hraw
    obtain ⟨found, hget, hitem⟩ := hfound hoffers
    rw [hitem] at hholds
    exact happlied found hget hholds s' (h.put hkey hget hsame hraw)
  · intro hholds hoffers s' hsame hraw
    obtain ⟨found, hget, hitem⟩ := hfound hoffers
    rw [hitem] at hholds
    exact hdeclined found hget hholds s' (h.same hsame hraw)
  · intro f hf s' hsame hraw
    obtain ⟨rfl, hnone⟩ := h.not_found (hf.resolve_left fun ht => ht)
    exact hmissing hnone s' (h.same hsame hraw)
  · exact fun ht => ht.elim

theorem Mirrors.ensures_load {Q : Except Failure (Option Item) → MemoryItems → Prop}
    (h : Mirrors s m)
    (hmissing : m.buckets.get? bucket = none → Q (.error (.bucketNotFound bucket)) s)
    (hfound : ∀ found, m.buckets.get? bucket = some found →
      Q (.ok ((found.get? key).map .plain)) s) :
    (Protocol.load bucket key).Ensures (storing around .nothing) s Q := by
  refine Staging.ensures_load ?_ ?_
  · intro hoffers
    obtain ⟨found, hget⟩ := h.found hoffers
    rw [h.items, Memory.Store.values_of_bucket hget]
    exact hfound found hget
  · intro f hitems
    obtain ⟨rfl, hnone⟩ := h.not_found hitems
    exact hmissing hnone

theorem answersLike_missing {next : Memory.Bucket → Action Memory.Store α}
    (hget : m.buckets.get? bucket = none) (hs' : Mirrors s' m) :
    AnswersLike ((Memory.bucket bucket >>= next) m) (.error (.bucketNotFound bucket)) s' := by
  rw [Action.bind_run, Memory.bucket_run, hget]
  exact ⟨rfl, hs'⟩

theorem answersLike_found {next : Memory.Bucket → Action Memory.Store α} {found : Memory.Bucket}
    {r : Except Failure α} (hget : m.buckets.get? bucket = some found)
    (h : AnswersLike (next found m) r s') : AnswersLike ((Memory.bucket bucket >>= next) m) r s' := by
  rw [Action.bind_run, Memory.bucket_run, hget]
  exact h

theorem ensures_writeKey_like (h : Mirrors s m) (hkey : isReservedKey key = false)
    (value : Option Bytes) :
    (writeKey config bucket key value).Ensures (storing around .nothing) s
      (AnswersLike ((Memory.bucket bucket >>= fun found =>
        Action.change fun m => m.withBucket bucket (found.put key value)) m)) := by
  refine ensures_retry_first (by decide) (Program.ensures_bind.mpr (h.ensures_write hkey value ?_ ?_ ?_))
  · exact fun hget s' hs' => answersLike_missing hget hs'
  · exact fun found hget _ s' hs' => answersLike_found hget ⟨rfl, hs'⟩
  · intro found hget hholds
    cases hitem : found.get? key with
    | none =>
      rw [hitem] at hholds
      cases hholds
    | some v =>
      rw [hitem] at hholds
      cases hholds

theorem ensures_readKey_like (h : Mirrors s m) :
    (readKey bucket key).Ensures (storing around .nothing) s
      (AnswersLike ((Memory.bucket bucket >>= fun found =>
        match found.get? key with
        | some value => pure value
        | none => Action.fail (.keyNotFound bucket key)) m)) := by
  refine Program.ensures_bind.mpr (h.ensures_load ?_ ?_)
  · exact fun hget => answersLike_missing hget h
  · intro found hget
    cases hitem : found.get? key with
    | none =>
      apply answersLike_found hget
      rw [hitem]
      exact ⟨rfl, h⟩
    | some value =>
      apply answersLike_found hget
      rw [hitem]
      exact ⟨rfl, h⟩

theorem holds_unlockedWith (value old : Option Bytes) :
    (Precondition.unlockedWith old).holds (value.map .plain) = (value == old) := by
  cases value with
  | none => cases old <;> rfl
  | some v => rfl

theorem ensures_swapKey_like (h : Mirrors s m) (hkey : isReservedKey key = false)
    (old : Option Bytes) (new : Bytes) :
    (swapKey config bucket key old new).Ensures (storing around .nothing) s
      (AnswersLike ((Memory.bucket bucket >>= fun found => do
        let result := Swap.evaluate (found.get? key) old
        if result.swapped then Action.change fun m => m.withBucket bucket (found.insert key new)
        return result) m)) := by
  refine ensures_retry_first (by decide) (Program.ensures_bind.mpr
    (h.ensures_write hkey (some new) ?_ ?_ ?_))
  · exact fun hget s' hs' => answersLike_missing hget hs'
  · intro found hget hholds s' hs'
    rw [holds_unlockedWith] at hholds
    apply answersLike_found hget
    rw [Memory.swap_run, hholds, eq_of_beq hholds]
    exact ⟨rfl, hs'⟩
  · intro found hget hholds s' hs'
    rw [holds_unlockedWith] at hholds
    refine Program.ensures_bind.mpr (hs'.ensures_load ?_ ?_)
    · intro hmissing
      rw [hmissing] at hget
      cases hget
    · intro found' hget'
      rw [hget] at hget'
      cases hget'
      cases hitem : found.get? key with
      | none =>
        rw [hitem] at hholds
        cases old with
        | none => cases hholds
        | some v =>
          apply answersLike_found hget
          rw [Memory.swap_run, hitem]
          exact ⟨rfl, hs'⟩
      | some v =>
        rw [hitem] at hholds
        have hne : some v ≠ old := by
          rintro rfl
          rw [beq_self_eq_true] at hholds
          cases hholds
        simp only [Option.map_some, Item.isLocked, Item.plain, Option.isSome_none,
          Bool.false_eq_true, if_false, if_pos hne]
        apply answersLike_found hget
        rw [Memory.swap_run, hitem, hholds]
        exact ⟨rfl, hs'⟩

/-! ### Listing a bucket -/

theorem ensures_listBucket_like (h : Mirrors s m) (hsize : config.pageSize.toNat + 1 < UInt64.size) :
    (listBucket config ((s.rawItems bucket).length + 1) bucket).Ensures (storing around .nothing) s
      fun r s' => r = (Memory.bucket bucket m).reply.map
        (fun found => found.entries.map (Keyset.entry bucket)) ∧ s' = s := by
  rw [Memory.bucket_run]
  cases hitems : s.items bucket with
  | error f =>
    obtain ⟨rfl, hget⟩ := h.not_found hitems
    refine ensures_listAll_fails (Nat.succ_pos _) (Program.ensures_bind.mpr (ensures_scan ?_))
    unfold scan
    rw [hitems, hget]
    exact ⟨_, rfl, rfl, rfl⟩
  | ok items =>
    obtain ⟨found, hget⟩ := h.found (offers_of_items hitems)
    have hentries : items.entries = found.entries.map fun e => (e.1, Item.plain e.2) := by
      apply KeyMap.entries_of_map
      intro k
      rw [get?_eq_raw hitems, h.items, Memory.Store.values_of_bucket hget]
    have hentry : ∀ e ∈ found.entries,
        Contents.entry? s.raw bucket (e.1, .plain e.2) = some (Keyset.entry bucket e) := by
      intro e he
      have hitem : s.raw bucket e.1 = some (.plain e.2) := by
        rw [h.items, Memory.Store.values_of_bucket hget, (KeyMap.mem_entries_iff found).mp he]
        rfl
      cases hkey : isReservedKey e.1 with
      | false => simp [Contents.entry?, hkey, Item.seen, Item.plain, Keyset.entry]
      | true =>
        rw [h.noRecords bucket e.1 hkey] at hitem
        cases hitem
    have hunlocked : ∀ e ∈ items.entries, ∀ lock, e.2.lock = some lock → lock.recordBucket = [] := by
      intro e he lock hlock
      have hitem := (KeyMap.mem_entries_iff items).mp he
      rw [get?_eq_raw hitems] at hitem
      rw [h.unlocked hitem] at hlock
      cases hlock
    have hsound : Contents.Sound (fun _ => True) s.raw := h.sound
    refine (ensures_listBucket (fun _ => []) hsize hitems hsound (size_lt_pageBound hitems)
      hunlocked).mono ?_
    rintro r s' ⟨rfl, rfl⟩
    refine ⟨?_, rfl⟩
    rw [hget, hentries, List.filterMap_map, ← List.filterMap_eq_map']
    exact congrArg Except.ok (List.filterMap_congr hentry)

end BucketStore.Staging
