/-
  BucketStore/Proofs/Staging/Homes.lean
  =====================================
  **Every transaction has one home, and live ones are left alone.**

  In a store that events lead to, the record of a transaction is in one bucket
  only, and every lock of the transaction names that bucket (`Contents.Housed`).
  A transaction gets its home when its identifier is drawn: nothing in the store
  is its own before that, so the home may still be chosen.

  Homes are what the contract `sparing` promises to a call: where a lock says that
  its record is, the record of a live transaction is found.  So a call that runs on
  such a store leaves live transactions as they are and keeps the homes
  (`spared_run`), and with it every event (`spared_step`).
-/
import BucketStore.Proofs.Staging.NoOrphans
import BucketStore.Proofs.Staging.Sparing

namespace BucketStore.Staging

open MemoryItems

/-! ### Homes -/

/-- What belongs to a transaction is at its home, and nothing is stored under the empty key. -/
structure Contents.Housed (homes : String → Bytes) (c : Contents) : Prop where
  lock : ∀ b k item lock, c b k = some item → item.lock = some lock →
    lock.recordBucket = homes lock.owner
  record : ∀ b id item, c b (recordKey id) = some item → b = homes id
  named : ∀ b, c b [] = none

section

variable {homes : String → Bytes} {c c' : Contents}

theorem Contents.Housed.mono (h : c.Housed homes)
    (hless : ∀ b k item, c' b k = some item → c b k = some item) : c'.Housed homes := by
  constructor
  · intro b k item lock hitem
    exact h.lock b k item lock (hless b k item hitem)
  · intro b id item hitem
    exact h.record b id item (hless b _ item hitem)
  · intro b
    rw [Option.eq_none_iff_forall_ne_some]
    intro item hitem
    have hbefore := hless b [] item hitem
    rw [h.named b] at hbefore
    cases hbefore

/-- What is put somewhere is at home if its lock names the lock's home, and a record is put there. -/
theorem Contents.Housed.put {bucket key : Bytes} {x : Option Item} (h : c.Housed homes)
    (hlock : ∀ item lock, x = some item → item.lock = some lock → lock.recordBucket = homes lock.owner)
    (hrecord : ∀ id, key = recordKey id → bucket = homes id) (hnamed : x ≠ none → key ≠ []) :
    Contents.Housed homes (c.put bucket key x) := by
  constructor
  · intro b k item lock hitem hlocked
    unfold Places.put at hitem
    split at hitem
    · exact hlock item lock hitem hlocked
    · exact h.lock b k item lock hitem hlocked
  · intro b id item hitem
    unfold Places.put at hitem
    split at hitem
    · next hplace =>
      rw [hplace.1]
      exact hrecord id hplace.2.symm
    · exact h.record b id item hitem
  · intro b
    by_cases hplace : b = bucket ∧ [] = key
    · obtain ⟨rfl, rfl⟩ := hplace
      rw [Places.put_same]
      by_contra hx
      exact hnamed hx rfl
    · rw [Places.put_other hplace]
      exact h.named b

/-- A transaction that nothing belongs to may get any home. -/
theorem Contents.Housed.update (h : c.Housed homes) {id : String} (hforeign : c.Foreign id)
    (home : Bytes) : c.Housed (Function.update homes id home) := by
  constructor
  · intro b k item lock hitem hlock
    rw [Function.update_of_ne (hforeign.locks b k item lock hitem hlock)]
    exact h.lock b k item lock hitem hlock
  · intro b id' item hitem
    rw [Function.update_of_ne]
    · exact h.record b id' item hitem
    · rintro rfl
      rw [hforeign.record b] at hitem
      cases hitem
  · exact h.named

end

/-! ### Live transactions in a store -/

namespace Watch

/-- The contents are as the watch says. -/
structure Of (w : Watch) (c : Contents) : Prop where
  live : ∀ b r, w.live b r → c.record? b r.id = some r
  held : ∀ b k, w.held b k → ∃ item, c b k = some item ∧ w.Locks item

/-- Live transactions have the same records, and the same locked items. -/
structure Kept (w : Watch) (c c' : Contents) : Prop where
  record : ∀ b r, w.live b r → c' b r.key = c b r.key
  locked : ∀ b k item, w.Locks item → (c' b k = some item ↔ c b k = some item)

variable {w : Watch} {c c' c'' : Contents} {homes : String → Bytes}

theorem Kept.refl (w : Watch) (c : Contents) : w.Kept c c :=
  ⟨fun _ _ _ => rfl, fun _ _ _ _ => Iff.rfl⟩

theorem Kept.trans (h : w.Kept c c') (h' : w.Kept c' c'') : w.Kept c c'' := by
  constructor
  · intro b r hlive
    exact (h'.record b r hlive).trans (h.record b r hlive)
  · intro b k item hlocks
    exact (h'.locked b k item hlocks).trans (h.locked b k item hlocks)

theorem not_locks_of_unlocked {item : Item} (h : item.lock = none) : ¬w.Locks item := by
  intro hlocks
  have hlocked := hlocks.isLocked
  simp [Item.isLocked, h] at hlocked

/-- A write is kept out of what live transactions have if neither the item that it makes nor the one
    that it replaces is theirs. -/
theorem Kept.put {bucket key : Bytes} {x : Option Item} (hrecord : ∀ r, w.live bucket r → key ≠ r.key)
    (hafter : ∀ item, x = some item → ¬w.Locks item)
    (hbefore : ∀ item, c bucket key = some item → ¬w.Locks item) : w.Kept c (c.put bucket key x) := by
  constructor
  · intro b r hlive
    apply Places.put_other
    rintro ⟨rfl, hkey⟩
    exact hrecord r hlive hkey.symm
  · intro b k item hlocks
    by_cases hplace : b = bucket ∧ k = key
    · obtain ⟨rfl, rfl⟩ := hplace
      rw [Places.put_same]
      exact ⟨fun hitem => absurd hlocks (hafter item hitem),
        fun hitem => absurd hlocks (hbefore item hitem)⟩
    · rw [Places.put_other hplace]

theorem Of.kept (h : w.Of c) (hkept : w.Kept c c') : w.Of c' := by
  constructor
  · intro b r hlive
    rw [Contents.record?_eq, ← Record.key, hkept.record b r hlive, Record.key, ← Contents.record?_eq]
    exact h.live b r hlive
  · intro b k hheld
    obtain ⟨item, hitem, hlocks⟩ := h.held b k hheld
    exact ⟨item, (hkept.locked b k item hlocks).mpr hitem, hlocks⟩

theorem Kept.nobody (c c' : Contents) : Watch.nobody.Kept c c' := by
  constructor
  · rintro b r ⟨⟩
  · rintro b k item ⟨_, _, ⟨⟩, _⟩

theorem of_nobody (c : Contents) : Watch.nobody.Of c := by
  constructor
  · rintro b r ⟨⟩
  · rintro b k ⟨⟩

/-- The item that holds the record of a live transaction. -/
theorem Of.item (h : w.Of c) {b : Bytes} {r : Record} (hlive : w.live b r) :
    ∃ item, c b r.key = some item ∧ item.record? = some r := by
  have hrecord := h.live b r hlive
  rw [Contents.record?_eq] at hrecord
  exact Option.bind_eq_some_iff.mp hrecord

/-- A transaction that nothing belongs to is not live. -/
theorem Of.free (h : w.Of c) {id : String} (hforeign : c.Foreign id) : w.Free id := by
  rintro b r hlive rfl
  obtain ⟨item, hitem, _⟩ := h.item hlive
  exact absurd (hitem.symm.trans (hforeign.record b)) (by simp)

/-- What a call finds in such contents is what `sparing` promises. -/
theorem Of.knows {known : String → Prop} (h : w.Of c) (hhoused : c.Housed homes)
    (hsound : c.Sound known) {bucket key : Bytes} {item : Item} (hitem : c bucket key = some item) :
    w.Knows bucket key item := by
  constructor
  · intro hreserved
    obtain ⟨r, hproper, hkey, rfl⟩ := (hsound bucket key item hitem).record_of_reserved hreserved
    exact ⟨r, record?_item hproper.addressable, hkey, hproper.places⟩
  · rintro lock hlock b r hlive howner
    obtain ⟨stored, hstored, _⟩ := h.item hlive
    rw [hhoused.lock bucket key item lock hitem hlock, ← howner]
    exact hhoused.record b r.id stored hstored
  · rintro b r hlive rfl
    obtain ⟨stored, hstored, hrecord⟩ := h.item hlive
    have hhome : bucket = b :=
      (hhoused.record bucket r.id item hitem).trans (hhoused.record b r.id stored hstored).symm
    subst hhome
    cases hstored.symm.trans hitem
    exact hrecord

theorem Of.finds {known : String → Prop} (h : w.Of c) (hhoused : c.Housed homes)
    (hsound : c.Sound known) (bucket key : Bytes) : w.Finds bucket key (c bucket key) := by
  constructor
  · exact fun item hitem => h.knows hhoused hsound hitem
  · exact h.held bucket key
  · rintro r hlive rfl
    obtain ⟨item, hitem, _⟩ := h.item hlive
    simp [hitem]

end Watch

/-! ### Writes that spare -/

section

variable {w : Watch} {c : Contents} {homes : String → Bytes} {home bucket key : Bytes}
  {own : Option String} {x : Option Item} {condition : Precondition}

/-- A write that spares live transactions leaves their records and their locked items. -/
theorem Spares.kept {known : String → Prop} (h : Spares w home own bucket key x condition)
    (hsound : c.Sound known) (hown : ∀ id, own = some id → w.Free id)
    (hholds : condition.holds (c bucket key) = true) : w.Kept c (c.put bucket key x) := by
  have hbarred : w.Bars condition → ∀ item, c bucket key = some item → ¬w.Locks item := by
    intro hbars item hitem hlocks
    rw [hitem, hbars item hlocks] at hholds
    cases hholds
  cases h with
  | value hkey value hbars hnamed =>
    refine .put (fun r _ => ne_recordKey hkey r.id) ?_ (hbarred hbars)
    intro item hitem
    obtain ⟨v, _, rfl⟩ := Option.map_eq_some_iff.mp hitem
    exact Watch.not_locks_of_unlocked rfl
  | @lock _ _ hkey value lock howner hhome _ hbars hnamed =>
    refine .put (fun r _ => ne_recordKey hkey r.id) ?_ (hbarred hbars)
    rintro _ ⟨⟩ ⟨b, r, hlive, hlocked⟩
    obtain ⟨lock', hlock, howner'⟩ := Watch.isLockedBy_iff.mp hlocked
    cases hlock
    exact hown lock.owner howner b r hlive howner'.symm
  | @announces r howner =>
    have hnone : c home r.key = none := by simpa [Precondition.holds] using hholds
    refine .put ?_ ?_ ?_
    · intro r' hlive hkey
      exact hown r.id howner home r' hlive (recordKey_injective hkey).symm
    · rintro _ ⟨⟩
      exact Watch.not_locks_of_unlocked rfl
    · intro item hitem
      rw [hnone] at hitem
      cases hitem
  | @records _ r hfree _ hx bytes =>
    refine .put ?_ ?_ ?_
    · intro r' hlive hkey
      exact hfree bucket r' hlive (recordKey_injective hkey).symm
    · exact fun item hitem => Watch.not_locks_of_unlocked (hx item hitem)
    · intro item hitem
      obtain ⟨r', _, _, rfl⟩ := hsound.record hitem
      exact Watch.not_locks_of_unlocked rfl

/-- Such a write puts what belongs to a transaction at its home. -/
theorem Spares.housed (h : Spares w home own bucket key x condition) (hhoused : c.Housed homes)
    (hown : ∀ id, own = some id → homes id = home)
    (hholds : condition.holds (c bucket key) = true) : Contents.Housed homes (c.put bucket key x) := by
  have huser : isReservedKey key = false → ∀ id, key = recordKey id → bucket = homes id :=
    fun hkey id heq => absurd heq (ne_recordKey hkey id)
  have hnonempty : (condition.holds none = true → key ≠ []) → x ≠ none → key ≠ [] := by
    rintro hnamed - rfl
    rw [hhoused.named bucket] at hholds
    exact hnamed hholds rfl
  cases h with
  | value hkey value hbars hnamed =>
    refine hhoused.put ?_ (huser hkey) (hnonempty hnamed)
    intro item lock hitem hlock
    obtain ⟨v, _, rfl⟩ := Option.map_eq_some_iff.mp hitem
    cases hlock
  | lock hkey value howner hhome hbars hnamed =>
    refine hhoused.put ?_ (huser hkey) (hnonempty hnamed)
    rintro _ lock' ⟨⟩ ⟨⟩
    rw [hhome, hown _ howner]
  | @announces r howner =>
    refine hhoused.put ?_ ?_ fun _ => (ne_recordKey (by decide) r.id).symm
    · rintro _ lock ⟨⟩ ⟨⟩
    · intro id hkey
      rw [← hown r.id howner, recordKey_injective hkey]
  | @records _ r hfree _ hx bytes =>
    refine hhoused.put ?_ ?_ fun _ => (ne_recordKey (by decide) r.id).symm
    · intro item lock hitem hlock
      rw [hx item hitem] at hlock
      cases hlock
    · intro id hkey
      cases hitem : c bucket r.key with
      | none =>
        rw [hitem] at hholds
        cases hholds
      | some item =>
        rw [hkey] at hitem
        exact hhoused.record bucket id item hitem

end

/-! ### Runs -/

section

variable {around : Surroundings} {s : MemoryItems} {α : Type}

/-- A call of a run is made after the run begins, and it is over before the run ends. -/
theorem later_of_calls (p : Protocol α) : ∀ e ∈ p.calls (respond around) s,
    s.Later e.2 ∧ (respond around e.1 e.2).state.Later (p.run (respond around) s).state := by
  induction p generalizing s with
  | done a => simp [Program.calls]
  | fail f => simp [Program.calls]
  | note line p ih => exact ih
  | call c k ih =>
    have hlater : s.Later (respond around c s).state :=
      later_of_allows (storing_of_respond (t := .faults) c s (.inl trivial))
    refine List.forall_mem_cons.mpr ⟨⟨.refl s, later_run _⟩, fun e he => ?_⟩
    obtain ⟨hbefore, hafter⟩ := ih _ e he
    exact ⟨hlater.trans hbefore, hafter⟩

/-- The store is sound at every call of a run. -/
theorem sound_of_calls {p : Protocol α} (h : Issues p) (hids : around.Addressable)
    (hs : s.Sound around) : ∀ e ∈ p.calls (respond around) s, e.2.Sound around := by
  have hcalls := (h (around.drawn s.drawn)).calls_along (respond around)
    (fun (s : MemoryItems) (names : Names) =>
      Contents.Sound names.known s.raw ∧ names.known = around.drawn s.drawn) ?_ ⟨hs, rfl⟩
  · intro e he
    obtain ⟨names, hsound, hknown⟩ := hcalls e he
    unfold MemoryItems.Sound
    rw [← hknown]
    exact hsound
  · rintro c s names ⟨hs, hknown⟩ hneeds
    obtain ⟨names', hallowed, hs', hknown'⟩ :=
      issuing_of_storing hids hs hneeds (storing_of_respond (t := .faults) c s (.inl trivial))
    exact ⟨names', hallowed, hs', hknown' hknown⟩

variable {w : Watch} {timeout : Nat} {home : Bytes} {homes : String → Bytes}

theorem Watch.Timely.nobody (timeout : Nat) (now : Int64) : Watch.nobody.Timely timeout now := by
  rintro b r ⟨⟩

/-- Where something is stored, no bucket is missing. -/
theorem isNotFound_of_items {bucket key : Bytes} {item : Item} (h : s.raw bucket key = some item)
    {f : Failure} (hf : s.items bucket = .error f) : f.isNotFound = false := by
  cases hclosed : s.closed with
  | false => exact absurd hf ((offers_of_raw hclosed h).items_ne_error f)
  | true =>
    have hfailure : f = .closed := by simpa [MemoryItems.items, hclosed] using hf.symm
    rw [hfailure]
    rfl

/-- What `sparing` asks of the state in which a call is made: it is sound, it does not repeat an
    identifier, and its clock shows no live transaction to be expired. -/
structure Fair (around : Surroundings) (w : Watch) (timeout : Nat) (c : Call) (s : MemoryItems) :
    Prop where
  sound : s.Sound around
  fresh : c = .freshId → ¬around.drawn s.drawn (around.ids s.drawn)
  timely : c = .now → w.Timely timeout (around.clock s.readings)

/-- Live transactions are as they were at first, everything is at its home, and the identifier that
    the call has drawn is its own. -/
structure Spared (w : Watch) (home : Bytes) (before : Contents) (s : MemoryItems)
    (own : Option String) (homes : String → Bytes) : Prop where
  kept : w.Kept before s.raw
  housed : Contents.Housed homes s.raw
  own : ∀ id, own = some id → homes id = home ∧ w.Free id

/-- A store in memory replies to a call as `sparing` promises. -/
theorem sparing_of_respond {before : Contents} (hof : w.Of before) {c : Call} {s : MemoryItems}
    {own : Option String} (hfair : Fair around w timeout c s) (h : Spared w home before s own homes)
    (hneeds : (sparing w timeout home).needs c own) :
    ∃ own', (sparing w timeout home).allows c own (respond around c s).reply own' ∧
      ∃ homes', Spared w home before (respond around c s).state own' homes' := by
  have hofs : w.Of s.raw := hof.kept h.kept
  cases c with
  | load bucket key =>
    refine ⟨own, ⟨?_, rfl⟩, homes, h⟩
    change (∀ found, s.load bucket key = .ok found → w.Finds bucket key found) ∧
      ∀ f r, s.load bucket key = .error f → w.live bucket r → key = r.key → f.isNotFound = false
    unfold MemoryItems.load
    cases hitems : s.items bucket with
    | error f =>
      refine ⟨by rintro _ ⟨⟩, ?_⟩
      rintro _ r ⟨⟩ hlive rfl
      obtain ⟨item, hitem, _⟩ := hofs.item hlive
      exact isNotFound_of_items hitem hitems
    | ok items =>
      refine ⟨?_, by rintro _ _ ⟨⟩⟩
      rintro _ ⟨⟩
      rw [get?_eq_raw hitems]
      exact hofs.finds h.housed hfair.sound bucket key
  | scan bucket token limit =>
    refine ⟨own, ⟨fun page hpage e he => ?_, rfl⟩, homes, h⟩
    exact hofs.knows h.housed hfair.sound (raw_of_scan hpage e he)
  | now => exact ⟨own, ⟨hfair.timely rfl, rfl⟩, homes, h.kept, h.housed, h.own⟩
  | freshId =>
    have hforeign : Contents.Foreign (around.ids s.drawn) s.raw :=
      Contents.Sound.foreign hfair.sound (hfair.fresh rfl)
    have hfree := hofs.free hforeign
    refine ⟨some (around.ids s.drawn), ⟨hfree, rfl⟩, Function.update homes _ home, h.kept,
      h.housed.update hforeign home, ?_⟩
    rintro id ⟨⟩
    exact ⟨Function.update_self _ _ _, hfree⟩
  | write bucket key x condition =>
    have hwritten : Written .faults bucket key x condition s
        (respond around (.write bucket key x condition) s).reply
        (respond around (.write bucket key x condition) s).state :=
      storing_of_respond (.write bucket key x condition) s (.inl trivial)
    have hspares : Spares w home own bucket key x condition := hneeds
    refine ⟨own, rfl, homes, ?_, ?_, h.own⟩
    · rcases hwritten.raw with hraw | ⟨hholds, hraw⟩
      · exact hraw ▸ h.kept
      · rw [hraw]
        exact h.kept.trans (hspares.kept hfair.sound (fun id hid => (h.own id hid).2) hholds)
    · rcases hwritten.raw with hraw | ⟨hholds, hraw⟩
      · exact hraw ▸ h.housed
      · rw [hraw]
        exact hspares.housed h.housed (fun id hid => (h.own id hid).1) hholds

/-- A run in which no identifier is repeated, and that does not outlive the live transactions, makes
    its calls in states that are fair to them. -/
theorem fair_of_calls {p : Protocol α} (h : Issues p) (hids : around.Addressable)
    (hs : s.Sound around) (hdistinct : Distinct around (p.run (respond around) s).state)
    (htimely : ∀ n, s.readings ≤ n → n < (p.run (respond around) s).state.readings →
      w.Timely timeout (around.clock n)) :
    ∀ e ∈ p.calls (respond around) s, Fair around w timeout e.1 e.2 := by
  rintro ⟨c, s'⟩ he
  obtain ⟨hbefore, hafter⟩ := later_of_calls p _ he
  constructor
  · exact sound_of_calls h hids hs _ he
  · rintro rfl
    exact hdistinct.new hafter.drawn
  · rintro rfl
    exact htimely s'.readings hbefore.readings hafter.readings

/-- **A run that spares live transactions leaves them as they are**, and everything at its home. -/
theorem spared_run {p : Protocol α} {Q : Except Failure α → Option String → Prop}
    (h : p.Ensures (sparing w timeout home) none Q) (hfair : ∀ e ∈ p.calls (respond around) s,
      Fair around w timeout e.1 e.2) (hof : w.Of s.raw) (hhoused : Contents.Housed homes s.raw) :
    ∃ own homes', Q (p.run (respond around) s).reply own ∧
      Spared w home s.raw (p.run (respond around) s).state own homes' := by
  have hstart : Spared w home s.raw s none homes := ⟨.refl w s.raw, hhoused, by rintro _ ⟨⟩⟩
  have hrun := h.run_along (respond around)
    (fun t own => ∃ homes', Spared w home s.raw t own homes') (Fair around w timeout) ?_ hfair
    ⟨homes, hstart⟩
  · obtain ⟨own, hreply, homes', hspared⟩ := hrun
    exact ⟨own, homes', hreply, hspared⟩
  · rintro c t own hfair ⟨homes', hspared⟩ hneeds
    exact sparing_of_respond hof hfair hspared hneeds

/-! ### Events -/

/-- **An event spares live transactions**, if it deletes no bucket of theirs, repeats no identifier
    and does not outlive them. -/
theorem spared_step (hids : around.Addressable) {e : Event} (hsize : e.Addressable)
    (hs : s.Sound around) (hdistinct : Distinct around (e.step around s))
    (htimely : ∀ n, s.readings ≤ n → n < (e.step around s).readings →
      w.Timely e.timeout (around.clock n))
    (hdrops : e.drops = true → w = .nobody) (hof : w.Of s.raw)
    (hhoused : Contents.Housed homes s.raw) :
    ∃ homes', Contents.Housed homes' (e.step around s).raw ∧ w.Kept s.raw (e.step around s).raw := by
  have hless : ∀ {s' : MemoryItems}, s'.raw = s.raw → ∃ homes', Contents.Housed homes' s'.raw ∧
      w.Kept s.raw s'.raw := fun hraw => ⟨homes, hraw ▸ hhoused, hraw ▸ .refl w s.raw⟩
  have heffect := e.effect around s
  generalize e.step around s = s' at hdistinct htimely heffect
  cases heffect with
  | runs call hcall htimeout =>
    have hfair := fair_of_calls (issues_program (hcall hsize)) hids hs hdistinct htimely
    obtain ⟨_, homes', _, hspared⟩ := spared_run (sparing_program call htimeout) hfair hof hhoused
    exact ⟨homes', hspared.housed, hspared.kept⟩
  | creates bucket _ =>
    rcases createBucket_cases s bucket with ⟨_, _, hmissing, hstate⟩ | ⟨_, hstate⟩
    · exact hless (by rw [hstate, raw_withEmpty hmissing])
    · exact hless (by rw [hstate])
  | deletes bucket hdrops' =>
    have hnobody := hdrops hdrops'
    subst hnobody
    exact ⟨homes, hhoused.mono fun _ _ _ => raw_of_deleteBucket, .nobody _ _⟩
  | closes => exact hless rfl
  | faults plan => exact hless rfl
  | refused => exact hless rfl

theorem housed_of_reachable {admits : Event → Prop} (hids : around.Addressable)
    (h : Reachable around admits s) (hdistinct : Distinct around s) :
    ∃ homes, Contents.Housed homes s.raw := by
  induction h with
  | empty =>
    refine ⟨fun _ => [], ?_, ?_, fun _ => rfl⟩
    · rintro _ _ _ _ ⟨⟩
    · rintro _ _ _ ⟨⟩
  | @step s e hreachable hsize _ ih =>
    obtain ⟨homes, hhoused⟩ := ih (hdistinct.before (drawn_step e))
    obtain ⟨homes', hhoused', _⟩ := spared_step hids hsize (sound_of_reachable hids hreachable)
      hdistinct (fun _ _ _ => .nobody _ _) (fun _ => rfl) (Watch.of_nobody _) hhoused
    exact ⟨homes', hhoused'⟩

end

end BucketStore.Staging
