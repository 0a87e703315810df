/-
  BucketStore/Proofs/Staging/Reading.lean
  =======================================
  **Readers are told what is seen, of one key and of a whole bucket.**

  What readers see of an item is its value, or what a committed transaction makes of
  it.  Reading a key tells that of the key's item (`ensures_readKey`).  A listing
  reads a bucket page by page, leaves the records out, and asks for the state of a
  transaction when it first meets one of its locks.  What it remembers by the
  transaction alone is right for the next lock if both name the same bucket
  (`SeenStates.Right`); then every binding is listed as it is seen, wherever the
  pages are cut (`ensures_listBucket`).
-/
import BucketStore.Proofs.Listing
import BucketStore.Proofs.Staging.Soundness

namespace BucketStore.Staging

open MemoryItems

variable {around : Surroundings} {t : Trouble} {s : MemoryItems} {known : String → Prop}
  {homes : String → Bytes} {config : Config} {bucket key : Bytes} {item : Item} {lock : Lock}
  {c : Contents}

/-! ### Reading an item -/

/-- What readers see of a locked item is told by the state of the lock's transaction. -/
theorem visibleIn_record (hlock : item.lock = some lock) :
    item.visibleIn lock ((c.record? lock.recordBucket lock.owner).map Record.state) =
      item.seen c.committed := by
  have hfound : ∀ found : Option Record, item.visibleIn lock (found.map Record.state) =
      if found.any (fun r => r.state == .committed) then lock.pending.resolve item.value
      else item.value := by
    rintro (_ | r)
    · rfl
    · cases hstate : r.state <;> simp [hstate, Item.visibleIn]
  simp only [Item.seen, hlock]
  exact hfound _

/-- The state of a lock's transaction is read off its record. -/
theorem ensures_recordState {Q : Except Failure (Option TxState) → MemoryItems → Prop}
    (hopen : s.closed = false) (hs : Contents.Sound known s.raw)
    (h : Q (.ok ((Contents.record? s.raw lock.recordBucket lock.owner).map Record.state)) s) :
    (recordState lock).Ensures (storing around t) s Q := by
  refine Program.ensures_bind.mpr (ensures_loadRecord hopen ?_ ?_ ?_)
  · intro stored hstored
    obtain ⟨r, hproper, hid, heq⟩ := hs.record hstored
    exact ⟨r, hproper.addressable, hid, heq⟩
  · intro r hr hid hrecord
    have hfound : Contents.record? s.raw lock.recordBucket lock.owner = some r := by
      rw [← hid]
      exact Contents.record?_of_item hr (hid ▸ hrecord)
    rw [hfound] at h
    exact h
  · intro hnone
    have hmissing : Contents.record? s.raw lock.recordBucket lock.owner = none := by
      rw [Contents.record?_eq, hnone]
      rfl
    rw [hmissing] at h
    exact h

/-- A reader is told what is seen of the item. -/
theorem ensures_visible {Q : Except Failure (Option Bytes) → MemoryItems → Prop}
    (hopen : s.closed = false) (hs : Contents.Sound known s.raw)
    (h : Q (.ok (item.seen (Contents.committed s.raw))) s) :
    (visible item).Ensures (storing around t) s Q := by
  unfold visible
  cases hlock : item.lock with
  | none =>
    have hseen : item.seen (Contents.committed s.raw) = item.value := by
      simp only [Item.seen, hlock]
    rw [hseen] at h
    exact h
  | some lock =>
    rw [← visibleIn_record hlock] at h
    exact Program.ensures_bind.mpr (ensures_recordState hopen hs h)

/-- Reading a key answers with what readers see there, and leaves the store as it is. -/
theorem ensures_readKey (hoffers : s.Offers bucket) (hs : Contents.Sound known s.raw) :
    (readKey bucket key).Ensures (storing around t) s fun r s' => s' = s ∧
      r = match Contents.visible s.raw bucket key with
        | some value => .ok value
        | none => .error (.keyNotFound bucket key) := by
  refine Program.ensures_bind.mpr (ensures_load ?_ ?_)
  · intro _
    cases hitem : s.raw bucket key with
    | none =>
      refine ⟨rfl, ?_⟩
      simp only [Contents.visible, hitem]
      rfl
    | some item =>
      refine Program.ensures_bind.mpr (ensures_visible hoffers.1 hs ?_)
      rw [Contents.visible_of_item hitem]
      cases item.seen (Contents.committed s.raw) with
      | none => exact ⟨rfl, rfl⟩
      | some value => exact ⟨rfl, rfl⟩
  · exact fun f hitems => absurd hitems (hoffers.items_ne_error f)

/-! ### States remembered -/

/-- The states that a listing remembers are those of the records at the homes of the transactions. -/
def SeenStates.Right (homes : String → Bytes) (c : Contents) (seen : SeenStates) : Prop :=
  ∀ e ∈ seen, e.2 = (c.record? (homes e.1) e.1).map Record.state

theorem ensures_seenState {seen : SeenStates} {lock : Lock} (hopen : s.closed = false)
    (hs : Contents.Sound known s.raw) (hhome : lock.recordBucket = homes lock.owner)
    (hseen : seen.Right homes s.raw) :
    (seenState seen lock).Ensures (storing around t) s fun r s' => s' = s ∧
      ∃ seen' : SeenStates, seen'.Right homes s.raw ∧ r = .ok
        ((Contents.record? s.raw lock.recordBucket lock.owner).map Record.state, seen') := by
  unfold seenState
  split
  · next id state hfound =>
    have howner : id = lock.owner := by simpa using List.find?_some hfound
    have hstate := hseen _ (List.mem_of_find?_eq_some hfound)
    subst howner
    rw [hhome, ← hstate]
    exact ⟨rfl, seen, hseen, rfl⟩
  · refine Program.ensures_bind.mpr (ensures_recordState hopen hs ⟨rfl, _, ?_, rfl⟩)
    refine List.forall_mem_cons.mpr ⟨?_, hseen⟩
    rw [← hhome]

/-! ### The items of a page -/

/-- What a listing shows of a binding: nothing of records, and of users' keys what readers see. -/
def Contents.shown (c : Contents) (e : Bytes × Item) : Option (Bytes × Option Bytes) :=
  if isReservedKey e.1 then none else some (e.1, e.2.seen c.committed)

theorem ensures_visibleItems {items : List (Bytes × Item)} {seen : SeenStates}
    (hopen : s.closed = false) (hs : Contents.Sound known s.raw)
    (hhomes : ∀ e ∈ items, ∀ lock, e.2.lock = some lock → lock.recordBucket = homes lock.owner)
    (hseen : seen.Right homes s.raw) :
    (visibleItems seen items).Ensures (storing around t) s fun r s' => s' = s ∧
      ∃ seen' : SeenStates, seen'.Right homes s.raw ∧
        r = .ok (items.filterMap (Contents.shown s.raw), seen') := by
  induction items generalizing seen with
  | nil => exact ⟨rfl, seen, hseen, rfl⟩
  | cons e rest ih =>
    obtain ⟨key, item⟩ := e
    obtain ⟨hfirst, hrest⟩ := List.forall_mem_cons.mp hhomes
    unfold visibleItems
    rw [List.filterMap_cons]
    cases hkey : isReservedKey key with
    | true =>
      simp only [Contents.shown, hkey, if_true]
      exact ih hrest hseen
    | false =>
      have hshown : Contents.shown s.raw (key, item) =
          some (key, item.seen (Contents.committed s.raw)) := by
        simp [Contents.shown, hkey]
      simp only [hshown, Bool.false_eq_true, if_false]
      cases hlock : item.lock with
      | none =>
        have hvalue : item.seen (Contents.committed s.raw) = item.value := by
          simp only [Item.seen, hlock]
        refine Program.ensures_bind.mpr ((ih hrest hseen).mono ?_)
        rintro _ _ ⟨rfl, seen', hseen', rfl⟩
        rw [hvalue]
        exact ⟨rfl, seen', hseen', rfl⟩
      | some lock =>
        refine Program.ensures_bind.mpr
          ((ensures_seenState hopen hs (hfirst lock hlock) hseen).mono ?_)
        rintro _ s₁ ⟨hs₁, seen', hseen', rfl⟩
        subst hs₁
        refine Program.ensures_bind.mpr ((ih hrest hseen').mono ?_)
        rintro _ _ ⟨rfl, seen'', hseen'', rfl⟩
        refine ⟨rfl, seen'', hseen'', ?_⟩
        rw [← visibleIn_record hlock]

/-! ### The bindings of a bucket -/

theorem rawItems_of_items {items : KeyMap Bytes Item} (hitems : s.items bucket = .ok items) :
    s.rawItems bucket = items.entries := by
  unfold rawItems
  rw [get?_of_items hitems]
  rfl

theorem mem_rawItems : (key, item) ∈ s.rawItems bucket ↔ s.raw bucket key = some item := by
  unfold rawItems raw
  cases s.buckets.get? bucket with
  | none => simp
  | some items => exact KeyMap.mem_entries_iff items

theorem pairwise_rawItems (s : MemoryItems) (bucket : Bytes) :
    (s.rawItems bucket).Pairwise fun e e' => compare e.1 e'.1 = .lt := by
  unfold rawItems
  cases s.buckets.get? bucket with
  | none => exact .nil
  | some items => exact items.ascending

/-- There are fewer bindings than a listing may read pages. -/
theorem size_lt_pageBound {items : KeyMap Bytes Item} (hitems : s.items bucket = .ok items) :
    items.size < (s.rawItems bucket).length + 1 := by
  rw [rawItems_of_items hitems]
  exact Nat.lt_succ_self _

/-! ### Pages -/

/-- The pages of the store in memory are cut like all others, unless their size overflows. -/
theorem page_eq_pageOf {size : UInt64} (hsize : size.toNat + 1 < UInt64.size)
    (items : KeyMap Bytes Item) (token : Option Token) :
    page size (items.after token) = .ok (pageOf (max size 1).toNat id items token) := by
  unfold page pageOf
  rw [lookAhead_eq hsize, ← max_one_toNat]
  change (if _ then _ else _ : Except Failure (Page (Bytes × Item))) = _
  rw [List.take_take, List.length_take, List.map_id]
  simp only [Nat.min_eq_left (Nat.le_succ _), Nat.lt_min, Nat.lt_succ_self, true_and]
  split
  · rfl
  · next hless =>
    rw [List.take_of_length_le (by omega), List.take_of_length_le (by omega)]
    rfl

theorem scan_eq_pageOf {size : UInt64} {items : KeyMap Bytes Item}
    (hsize : size.toNat + 1 < UInt64.size) (hitems : s.items bucket = .ok items)
    (token : Option Token) :
    s.scan bucket token size = .ok (pageOf (max size 1).toNat id items token) := by
  unfold scan
  rw [hitems]
  exact page_eq_pageOf hsize items token

/-! ### The whole bucket -/

/-- The entry of a binding, if readers see a value there. -/
def Contents.entry? (c : Contents) (bucket : Bytes) (e : Bytes × Item) : Option Entry :=
  if isReservedKey e.1 then none
  else (e.2.seen c.committed).map fun value => ⟨bucket, e.1, value⟩

theorem elim_shown (c : Contents) (bucket : Bytes) (e : Bytes × Item) :
    (c.shown e).elim (.ok none) (entryOf bucket) = .ok (c.entry? bucket e) := by
  unfold Contents.shown Contents.entry?
  split <;> rfl

/-- A bucket is listed as readers see it, whatever is locked in it. -/
theorem ensures_listBucket (homes : String → Bytes) {items : KeyMap Bytes Item} {limit : Nat}
    (hsize : config.pageSize.toNat + 1 < UInt64.size) (hitems : s.items bucket = .ok items)
    (hs : Contents.Sound known s.raw) (hlimit : items.size < limit)
    (hhomes : ∀ e ∈ items.entries, ∀ lock, e.2.lock = some lock →
      lock.recordBucket = homes lock.owner) :
    (listBucket config limit bucket).Ensures (storing around t) s fun r s' => s' = s ∧
      r = .ok (items.entries.filterMap (Contents.entry? s.raw bucket)) := by
  have hlist : listAll (m := Except Failure) (fun () token => .ok
      (⟨(pageOf (max config.pageSize 1).toNat id items token).items.filterMap (Contents.shown s.raw),
        (pageOf (max config.pageSize 1).toNat id items token).next⟩, ()))
      (entryOf bucket) limit () = .ok (items.entries.filterMap (Contents.entry? s.raw bucket)) := by
    have hall : listAll (m := Except Failure)
        (fun () token => .ok (pageOf (max config.pageSize 1).toNat id items token, ()))
        (fun e => .ok (Contents.entry? s.raw bucket e)) limit () =
        .ok (items.entries.filterMap (Contents.entry? s.raw bucket)) := by
      refine listAll_pageOf ?_ (max_one_pos config.pageSize) hlimit
      exact fun _ => rfl
    rw [← hall]
    apply listAll_congr
    · exact fun _ => rfl
    · intro token
      simp only [decodeAll_filterMap, elim_shown]
  refine (ensures_listAll (P := fun (seen : SeenStates) s' => s' = s ∧ seen.Right homes s.raw) ?_
    ⟨rfl, by rintro _ ⟨⟩⟩ hlist).mono ?_
  · rintro seen token _ ⟨rfl, hseen⟩
    refine Program.ensures_bind.mpr (ensures_scan ?_)
    rw [scan_eq_pageOf hsize hitems]
    have hpage : ∀ e ∈ (pageOf (max config.pageSize 1).toNat id items token).items, e ∈ items.entries := by
      intro e he
      unfold pageOf at he
      rw [List.map_id] at he
      exact mem_after (List.mem_of_mem_take he)
    refine Program.ensures_bind.mpr ((ensures_visibleItems (offers_of_items hitems).1 hs
      (fun e he => hhomes e (hpage e he)) hseen).mono ?_)
    · rintro _ _ ⟨rfl, seen', hseen', rfl⟩
      exact ⟨seen', rfl, rfl, hseen'⟩
  · rintro r s' ⟨rfl, _, rfl, _⟩
    exact ⟨rfl, rfl⟩

end BucketStore.Staging
