/-
  BucketStore/Proofs/Staging/ListsAndGets.lean
  ============================================
  **`list` and `get` agree.**

  A listing asks for the state of each transaction once, and a `get` asks for it
  every time.  They agree because all locks of a transaction name its home, so that
  what was read of its record for one lock is right for the next.  Hence from every
  store that events lead to, a bucket is listed exactly as readers see it, whatever
  is locked in it, and wherever its pages are cut (`list_agrees_with_get`).
-/
import BucketStore.Proofs.Staging.Homes
import BucketStore.Proofs.Staging.SingleKey

namespace BucketStore.Staging

open MemoryItems

variable {around : Surroundings} {admits : Event → Prop} {s : MemoryItems} {c : Contents}
  {homes : String → Bytes} {config : Config} {bucket key value : Bytes} {e : Entry}

/-! ### The entries of a bucket -/

/-- The entries that readers see in a bucket, in the order of the bindings. -/
def MemoryItems.entries (s : MemoryItems) (bucket : Bytes) : List Entry :=
  (s.rawItems bucket).filterMap (Contents.entry? s.raw bucket)

theorem Contents.entry?_eq_some {binding : Bytes × Item} : c.entry? bucket binding = some e ↔
    isReservedKey binding.1 = false ∧ binding.2.seen c.committed = some e.value ∧
      e.bucket = bucket ∧ e.key = binding.1 := by
  obtain ⟨b, k, v⟩ := e
  unfold Contents.entry?
  split
  · next hreserved => simp [hreserved]
  · next huser =>
    rw [Option.map_eq_some_iff]
    constructor
    · rintro ⟨value, hseen, hentry⟩
      cases hentry
      exact ⟨by simpa using huser, hseen, rfl, rfl⟩
    · rintro ⟨_, hseen, hbucket, hkey⟩
      dsimp only at hseen hbucket hkey
      subst hbucket hkey
      exact ⟨v, hseen, rfl⟩

/-- An entry is among them if its key is a user's, and readers see its value there. -/
theorem mem_entries : e ∈ s.entries bucket ↔ e.bucket = bucket ∧ isReservedKey e.key = false ∧
    Contents.visible s.raw bucket e.key = some e.value := by
  unfold entries Contents.visible
  rw [List.mem_filterMap]
  constructor
  · rintro ⟨⟨k, item⟩, hitem, hentry⟩
    obtain ⟨huser, hseen, hbucket, hkey⟩ := Contents.entry?_eq_some.mp hentry
    dsimp only at huser hseen hkey
    rw [hkey, mem_rawItems.mp hitem]
    exact ⟨hbucket, huser, hseen⟩
  · rintro ⟨hbucket, huser, hvisible⟩
    obtain ⟨item, hitem, hseen⟩ := Option.bind_eq_some_iff.mp hvisible
    exact ⟨(e.key, item), mem_rawItems.mpr hitem,
      Contents.entry?_eq_some.mpr ⟨huser, hseen, hbucket, rfl⟩⟩

/-- They ascend in their keys, so no key occurs twice. -/
theorem pairwise_entries (s : MemoryItems) (bucket : Bytes) :
    (s.entries bucket).Pairwise fun e e' => compare e.key e'.key = .lt := by
  unfold entries
  refine (pairwise_rawItems s bucket).filterMap _ ?_
  intro a a' hlt e he e' he'
  obtain ⟨_, _, _, hkey⟩ := Contents.entry?_eq_some.mp he
  obtain ⟨_, _, _, hkey'⟩ := Contents.entry?_eq_some.mp he'
  rw [hkey, hkey']
  exact hlt

/-! ### The two calls -/

/-- `list` answers as the listing of the bucket does, and names the bucket if that fails. -/
theorem list_run_of {r : Except Failure (List Entry)} (hname : checkBucket bucket = .ok ())
    (h : (listBucket config ((s.rawItems bucket).length + 1) bucket).Ensures (storing around .faults) s
      fun r' s' => s' = s ∧ r' = r) :
    ((Engine.driver (itemStore around) config).list bucket s).state = s ∧
      ((Engine.driver (itemStore around) config).list bucket s).reply =
        r.mapError (.duringBucket "list" bucket) := by
  have hlist : (Engine.list config ((s.rawItems bucket).length + 1) bucket).Ensures
      (storing around .faults) s fun r' s' =>
        s' = s ∧ r' = r.mapError (.duringBucket "list" bucket) := by
    refine Program.ensures_bind.mpr (Program.ensures_check.mpr ?_)
    rw [hname]
    refine Program.ensures_mapFailure.mpr (Program.ensures_noteFailure.mpr (h.mono ?_))
    rintro _ _ ⟨rfl, rfl⟩
    exact ⟨rfl, rfl⟩
  exact run_of_faults hlist

/-- `list` answers with the entries that readers see, and leaves the store as it is. -/
theorem list_run (hs : s.Sound around) (hhoused : Contents.Housed homes s.raw)
    (hoffers : s.Offers bucket) (hname : checkBucket bucket = .ok ())
    (hsize : config.pageSize.toNat + 1 < UInt64.size) :
    ((Engine.driver (itemStore around) config).list bucket s).state = s ∧
      ((Engine.driver (itemStore around) config).list bucket s).reply = .ok (s.entries bucket) := by
  cases hitems : s.items bucket with
  | error f => exact absurd hitems (hoffers.items_ne_error f)
  | ok items =>
    have hbindings := rawItems_of_items hitems
    have hhomes : ∀ b ∈ items.entries, ∀ lock, b.2.lock = some lock →
        lock.recordBucket = homes lock.owner := by
      intro b hb lock
      rw [← hbindings] at hb
      exact hhoused.lock bucket b.1 b.2 lock (mem_rawItems.mp hb)
    refine list_run_of (r := .ok (s.entries bucket)) hname ?_
    refine (ensures_listBucket homes hsize hitems hs (size_lt_pageBound hitems) hhomes).mono ?_
    rintro _ _ ⟨rfl, rfl⟩
    unfold MemoryItems.entries
    rw [hbindings]
    exact ⟨rfl, rfl⟩

/-- `get` answers with what readers see under the key, and leaves the store as it is. -/
theorem get_run (hname : checkKey bucket key = .ok ()) (hkey : isReservedKey key = false)
    (hoffers : s.Offers bucket) (hs : s.Sound around) :
    ((Engine.get bucket key).run (respond around) s).state = s ∧
      ((Engine.get bucket key).run (respond around) s).reply =
        match Contents.visible s.raw bucket key with
        | some value => .ok value
        | none => .error (.during "get" bucket key (.keyNotFound bucket key)) := by
  have hread : (readKey bucket key).Ensures (storing around .faults) s _ := ensures_readKey hoffers hs
  have hget : (Engine.get bucket key).Ensures (storing around .faults) s _ :=
    ensures_onKey_named hname hkey hread
  obtain ⟨r, hreply, hstate, rfl⟩ := run_of_faults hget
  refine ⟨hstate, hreply.trans ?_⟩
  cases Contents.visible s.raw bucket key <;> rfl

/-- A key that is not empty may be named, in a bucket whose name may be used. -/
theorem checkKey_of_ne (hbucket : checkBucket bucket = .ok ()) (hne : key ≠ []) :
    checkKey bucket key = .ok () := by
  unfold checkKey
  rw [hbucket]
  cases key with
  | nil => exact absurd rfl hne
  | cons _ _ => rfl

/-- `get` answers with a value exactly if it is listed. -/
theorem get_iff_listed (hs : s.Sound around) (hhoused : Contents.Housed homes s.raw)
    (hoffers : s.Offers bucket) (hname : checkBucket bucket = .ok ())
    (hkey : isReservedKey key = false) :
    ((Engine.driver (itemStore around) config).get bucket key s).reply = .ok value ↔
      ⟨bucket, key, value⟩ ∈ s.entries bucket := by
  rw [mem_entries]
  change ((Engine.get bucket key).run (respond around) s).reply = .ok value ↔ _
  by_cases hne : key = []
  · -- The empty key is refused, and nothing is stored under it.
    have hrefused : (Engine.get bucket key).Ensures (storing around .faults) s
        fun r _ => r ≠ .ok value := by
      refine ensures_onKey ?_ ?_ ?_
      · simp
      · simp
      · exact fun hcheck _ => absurd hne (named_of_checkKey hcheck)
    have hunseen : Contents.visible s.raw bucket key = none := by
      simp [Contents.visible, hne, hhoused.named bucket]
    simp [run_of_faults hrefused, hunseen]
  · obtain ⟨_, hreply⟩ := get_run (checkKey_of_ne hname hne) hkey hoffers hs
    rw [hreply]
    cases hvisible : Contents.visible s.raw bucket key with
    | none => simp
    | some v => simp [hkey]

/-- **`list` and `get` agree.** In every reachable store, and whatever the size of the pages: a
    listing of a bucket has, in the order of the keys and each key once, the values that readers see
    under the keys of users, and nothing else; and `get` answers with a value exactly if it is listed.
    No identifier may have been drawn twice. -/
theorem list_agrees_with_get (hids : around.Addressable) (hreachable : Reachable around admits s)
    (hdistinct : Distinct around s) (hoffers : s.Offers bucket) (config : Config)
    (hsize : config.pageSize.toNat + 1 < UInt64.size) :
    ∃ entries : List Entry,
      ((Engine.driver (itemStore around) config).list bucket s).reply = .ok entries ∧
      ((Engine.driver (itemStore around) config).list bucket s).state = s ∧
      (entries.Pairwise fun e e' => compare e.key e'.key = .lt) ∧
      (∀ e, e ∈ entries ↔ e.bucket = bucket ∧ isReservedKey e.key = false ∧
        Contents.visible s.raw bucket e.key = some e.value) ∧
      ∀ key value, isReservedKey key = false →
        (((Engine.driver (itemStore around) config).get bucket key s).reply = .ok value ↔
          ⟨bucket, key, value⟩ ∈ entries) := by
  have hs := sound_of_reachable hids hreachable
  have hname := named_of_reachable hreachable hoffers.2
  obtain ⟨homes, hhoused⟩ := housed_of_reachable hids hreachable hdistinct
  obtain ⟨hstate, hreply⟩ := list_run hs hhoused hoffers hname hsize
  refine ⟨s.entries bucket, hreply, hstate, pairwise_entries s bucket, fun e => mem_entries, ?_⟩
  exact fun key value hkey => get_iff_listed hs hhoused hoffers hname hkey

/-- In the bucket there are a key that a committed transaction has locked, one that a pending one has
    locked before it exists, and a record; each is on a page of its own. -/
theorem list_agrees_with_get_after_crashes :
    (still.Addressable ∧
      Reachable still (fun _ => True) (crashedTwice.foldl (Event.step still) {}) ∧
      Distinct still (crashedTwice.foldl (Event.step still) {}) ∧
      (crashedTwice.foldl (Event.step still) {}).Offers [66] ∧
      ((crashedTwice.foldl (Event.step still) {}).rawItems [66]).length = 3) ∧
    ∃ entries : List Entry,
      ((Engine.driver (itemStore still) { pageSize := 1 }).list [66]
        (crashedTwice.foldl (Event.step still) {})).reply = .ok entries ∧
      (⟨[66], [98], [50]⟩ : Entry) ∈ entries ∧
      ∀ key value, isReservedKey key = false →
        (((Engine.driver (itemStore still) { pageSize := 1 }).get [66] key
          (crashedTwice.foldl (Event.step still) {})).reply = .ok value ↔
          ⟨[66], key, value⟩ ∈ entries) := by
  have hreachable : Reachable still (fun _ => True) (crashedTwice.foldl (Event.step still) {}) :=
    Reachable.empty.run (by decide) (fun _ _ => trivial)
  have hdistinct : Distinct still (crashedTwice.foldl (Event.step still) {}) :=
    distinct_still (by decide +kernel)
  have hoffers : (crashedTwice.foldl (Event.step still) {}).Offers [66] :=
    ⟨by decide +kernel, by decide +kernel⟩
  obtain ⟨entries, hreply, _, _, hmem, hget⟩ := list_agrees_with_get addressable_still hreachable
    hdistinct hoffers { pageSize := 1 } (by decide)
  refine ⟨⟨addressable_still, hreachable, hdistinct, hoffers, by decide +kernel⟩, entries, hreply, ?_,
    hget⟩
  exact (hmem _).mpr ⟨rfl, by decide, by decide +kernel⟩

end BucketStore.Staging
