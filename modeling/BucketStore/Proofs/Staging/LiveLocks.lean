/-
  BucketStore/Proofs/Staging/LiveLocks.lean
  =========================================
  **A live lock is inviolable.**

  As long as a transaction is pending and not expired, no call of another client
  touches its record or an item that it has locked, whatever the call is and
  whatever goes wrong with its writes; an update that meets one of its locks fails,
  and readers see no difference (`live_locks_inviolable`).

  Only locks bar others.  A key that the record of a transaction lists, but that it
  has not locked yet, may still be changed (`listed_key_not_barred`).
-/
import BucketStore.Proofs.Staging.Atomicity
import BucketStore.Proofs.Staging.Homes
import BucketStore.Proofs.Staging.SingleKey

namespace BucketStore.Staging

open MemoryItems

/-! ### One transaction -/

/-- The transaction has locked the key. -/
def Contents.Holds (c : Contents) (id : String) (bucket key : Bytes) : Prop :=
  ∃ item, c bucket key = some item ∧ item.isLockedBy id = true

namespace Watch

/-- One transaction that is pending, and the keys that it has locked. -/
def one (c : Contents) (home : Bytes) {r : Record} (hpending : r.state = .pending) : Watch where
  live b r' := b = home ∧ r' = r
  held := c.Holds r.id
  pending := by
    rintro b r' ⟨-, rfl⟩
    exact hpending

variable {c : Contents} {home : Bytes} {r : Record} {hpending : r.state = .pending} {item : Item}

theorem locks_one : (one c home hpending).Locks item ↔ item.isLockedBy r.id = true := by
  constructor
  · rintro ⟨b, r', ⟨-, rfl⟩, hlocked⟩
    exact hlocked
  · intro hlocked
    exact ⟨home, r, ⟨rfl, rfl⟩, hlocked⟩

theorem of_one (h : c.record? home r.id = some r) : (one c home hpending).Of c := by
  constructor
  · rintro b r' ⟨rfl, rfl⟩
    exact h
  · rintro b k ⟨item, hitem, hlocked⟩
    exact ⟨item, hitem, locks_one.mpr hlocked⟩

theorem timely_one {timeout : Nat} {now : Int64} (h : r.isExpired timeout now = false) :
    (one c home hpending).Timely timeout now := by
  rintro b r' ⟨-, rfl⟩
  exact h

end Watch

/-- The record of a transaction, and the items that it has locked, are what they were. -/
structure Contents.Intact (c c' : Contents) (home : Bytes) (id : String) : Prop where
  record : c' home (recordKey id) = c home (recordKey id)
  locked : ∀ b k item, item.isLockedBy id = true → (c' b k = some item ↔ c b k = some item)

theorem Watch.Kept.intact {c c' : Contents} {home : Bytes} {r : Record}
    {hpending : r.state = .pending} (h : (Watch.one c home hpending).Kept c c') :
    c.Intact c' home r.id := by
  constructor
  · exact h.record home r ⟨rfl, rfl⟩
  · intro b k item hlocked
    exact h.locked b k item (locks_one.mpr hlocked)

/-! ### Live transactions -/

/-- A transaction is pending, and while the event lasts the clock does not show it to be expired. -/
structure LivesThrough (around : Surroundings) (s : MemoryItems) (e : Event) (home : Bytes)
    (id : String) (r : Record) : Prop where
  stored : Contents.record? s.raw home id = some r
  pending : r.state = .pending
  unexpired : ∀ n, s.readings ≤ n → n < (e.step around s).readings →
    r.isExpired e.timeout (around.clock n) = false

variable {around : Surroundings} {admits : Event → Prop} {s : MemoryItems} {e : Event}
  {home : Bytes} {id : String} {r : Record} {config : Config} {tx : Transaction}

/-- A record that can be read under a transaction's key is the transaction's own. -/
theorem id_of_record? (hs : s.Sound around) (h : Contents.record? s.raw home id = some r) :
    r.id = id := by
  rw [Contents.record?_eq] at h
  obtain ⟨item, hitem, hrecord⟩ := Option.bind_eq_some_iff.mp h
  obtain ⟨r', hproper, hid, rfl⟩ := Contents.Sound.record hs hitem
  rw [record?_item hproper.addressable] at hrecord
  rw [← Option.some.inj hrecord]
  exact hid

theorem LivesThrough.intact (h : LivesThrough around s e home id r) (hids : around.Addressable)
    (hreachable : Reachable around admits s) (hsize : e.Addressable) (hdrops : e.drops = false)
    (hdistinct : Distinct around (e.step around s)) :
    Contents.Intact s.raw (e.step around s).raw home id := by
  have hs := sound_of_reachable hids hreachable
  obtain ⟨homes, hhoused⟩ := housed_of_reachable hids hreachable (hdistinct.before (drawn_step e))
  obtain rfl := id_of_record? hs h.stored
  have hof : (Watch.one s.raw home h.pending).Of s.raw := Watch.of_one h.stored
  obtain ⟨_, _, hkept⟩ := spared_step hids hsize hs hdistinct
    (fun n hfirst hlast => Watch.timely_one (h.unexpired n hfirst hlast)) (by simp [hdrops]) hof
    hhoused
  exact hkept.intact

/-- An update that meets a lock of a live transaction fails, and readers see no difference. -/
theorem LivesThrough.refuses
    (h : LivesThrough around s (.request config (.update tx)) home id r) (hids : around.Addressable)
    (hreachable : Reachable around admits s) (hsize : tx.Addressable)
    (hdistinct : Distinct around (Event.step around s (.request config (.update tx))))
    (hheld : ∃ place ∈ tx.touched, Contents.Holds s.raw id place.1 place.2) :
    (∃ f, ((Engine.driver (itemStore around) config).update tx s).reply = .error f) ∧
      Contents.SameView s.raw ((Engine.driver (itemStore around) config).update tx s).state.raw := by
  have hs := sound_of_reachable hids hreachable
  obtain ⟨homes, hhoused⟩ := housed_of_reachable hids hreachable (hdistinct.before (drawn_step _))
  obtain rfl := id_of_record? hs h.stored
  have hstate : Event.step around s (.request config (.update tx)) =
      ((Engine.driver (itemStore around) config).update tx s).state := Driver.state_perform _ s _
  have hunexpired := h.unexpired
  rw [hstate] at hdistinct hunexpired
  have hview : Distinct around ((Engine.driver (itemStore around) config).update tx s).state →
      ∀ f, ((Engine.driver (itemStore around) config).update tx s).reply = .error f →
        Contents.SameView s.raw ((Engine.driver (itemStore around) config).update tx s).state.raw := by
    refine run_of_faults (ensures_update_of (Q := fun r s' => ∀ f, r = .error f →
      Contents.SameView s.raw s'.raw) hsize hids hs ?_ ?_)
    · intro _ s' hraw f _
      rw [hraw]
      exact .refl _
    · rintro _ s' hupdated f rfl
      exact hupdated.allOrNothing hs
  have hof : (Watch.one s.raw home h.pending).Of s.raw := Watch.of_one h.stored
  have hspares : (Engine.update config .memory tx).Ensures
      (sparing (Watch.one s.raw home h.pending) config.lockTimeout (tx.buckets.headD [])) none
      fun reply _ => ∀ outcome, reply = .ok outcome → ∀ place ∈ tx.touched,
        ¬Contents.Holds s.raw r.id place.1 place.2 :=
    ensures_update_sparing fun b hb => by simp [hb]
  obtain ⟨_, _, hreply, _⟩ := spared_run hspares
    (fair_of_calls (issues_update config .memory hsize) hids hs hdistinct fun n hfirst hlast =>
      Watch.timely_one (hunexpired n hfirst hlast)) hof hhoused
  cases hanswer : ((Engine.driver (itemStore around) config).update tx s).reply with
  | error f => exact ⟨⟨f, rfl⟩, hview hdistinct f hanswer⟩
  | ok outcome =>
    obtain ⟨place, hplace, hholds⟩ := hheld
    exact absurd hholds (hreply outcome hanswer place hplace)

/-- **A live lock is inviolable.** In every reachable store, while a transaction is pending and not
    expired at any reading of the clock, an event other than a bucket's deletion leaves its record and
    every item that it has locked as they are. An update that touches a key which it has locked fails,
    and readers see what they saw. No identifier may be drawn twice. -/
theorem live_locks_inviolable (hids : around.Addressable) (hreachable : Reachable around admits s)
    (hsize : e.Addressable) (hdrops : e.drops = false) (hdistinct : Distinct around (e.step around s))
    (hlive : LivesThrough around s e home id r) :
    Contents.Intact s.raw (e.step around s).raw home id ∧
      ∀ config tx, e = .request config (.update tx) →
        (∃ place ∈ tx.touched, Contents.Holds s.raw id place.1 place.2) →
        (∃ f, ((Engine.driver (itemStore around) config).update tx s).reply = .error f) ∧
          Contents.SameView s.raw ((Engine.driver (itemStore around) config).update tx s).state.raw := by
  refine ⟨hlive.intact hids hreachable hsize hdrops hdistinct, ?_⟩
  rintro config tx rfl hheld
  exact hlive.refuses hids hreachable hsize hdistinct hheld

/-- An update of a key that is free and of one that the interrupted update has locked. -/
def rival : Transaction := [.set [65] [99] [51], .set [66] [98] [51]]

theorem live_locks_inviolable_interrupted :
    (still.Addressable ∧ Reachable still (fun _ => True) interrupted ∧
      Distinct still (Event.step still interrupted (.request {} (.update rival))) ∧
      LivesThrough still interrupted (.request {} (.update rival)) [65] "p"
        ⟨"p", .pending, [([65], [97]), ([66], [98])], 0⟩ ∧
      Contents.Holds interrupted.raw "p" [66] [98]) ∧
    Contents.Intact interrupted.raw
      (Event.step still interrupted (.request {} (.update rival))).raw [65] "p" ∧
    (∃ f, ((Engine.driver (itemStore still) {}).update rival interrupted).reply = .error f) ∧
    Contents.SameView interrupted.raw
      ((Engine.driver (itemStore still) {}).update rival interrupted).state.raw := by
  have hreachable : Reachable still (fun _ => True) interrupted :=
    Reachable.empty.run (by decide) (fun _ _ => trivial)
  have hdistinct : Distinct still (Event.step still interrupted (.request {} (.update rival))) :=
    distinct_still (by decide +kernel)
  have hlive : LivesThrough still interrupted (.request {} (.update rival)) [65] "p"
      ⟨"p", .pending, [([65], [97]), ([66], [98])], 0⟩ :=
    ⟨by decide +kernel, rfl, fun _ _ _ => rfl⟩
  have hholds : Contents.Holds interrupted.raw "p" [66] [98] :=
    ⟨⟨none, some ⟨"p", [65], .keep⟩⟩, by decide +kernel⟩
  obtain ⟨hintact, hrefuses⟩ :=
    live_locks_inviolable addressable_still hreachable (by decide) rfl hdistinct hlive
  exact ⟨⟨addressable_still, hreachable, hdistinct, hlive, hholds⟩, hintact,
    hrefuses {} rival rfl ⟨([66], [98]), by decide, hholds⟩⟩

/-- An update stops when it has stored its record and locked nothing, and nothing fails any more. -/
def announced : MemoryItems :=
  [.request {} (.create [65]), .faults (some ⟨1, true⟩),
    .request {} (.update [.set [65] [97] [49]]), .faults none].foldl (Event.step still) {}

/-- The key that the update was to write is in its record, the transaction is live, and another
    update writes the key. -/
theorem listed_key_not_barred :
    (Reachable still (fun _ => True) announced ∧
      Distinct still (Event.step still announced (.request {} (.update [.set [65] [97] [50]]))) ∧
      LivesThrough still announced (.request {} (.update [.set [65] [97] [50]])) [65] "p"
        ⟨"p", .pending, [([65], [97])], 0⟩) ∧
    ((Engine.driver (itemStore still) {}).update [.set [65] [97] [50]] announced).reply =
      .ok [.written] ∧
    Contents.visible announced.raw [65] [97] = none ∧
    Contents.visible ((Engine.driver (itemStore still) {}).update [.set [65] [97] [50]]
      announced).state.raw [65] [97] = some [50] := by
  have hreachable : Reachable still (fun _ => True) announced :=
    Reachable.empty.run (by decide) (fun _ _ => trivial)
  have hdistinct : Distinct still (Event.step still announced
      (.request {} (.update [.set [65] [97] [50]]))) := distinct_still (by decide +kernel)
  have hlive : LivesThrough still announced (.request {} (.update [.set [65] [97] [50]])) [65] "p"
      ⟨"p", .pending, [([65], [97])], 0⟩ := ⟨by decide +kernel, rfl, fun _ _ _ => rfl⟩
  exact ⟨⟨hreachable, hdistinct, hlive⟩, by decide +kernel, by decide +kernel, by decide +kernel⟩

end BucketStore.Staging
