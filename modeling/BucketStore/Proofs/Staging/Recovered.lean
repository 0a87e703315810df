/-
  BucketStore/Proofs/Staging/Recovered.lean
  =========================================
  **Recovery is not seen, finishes what is due, and has nothing to do the second time.**

  Readers see the same before and after a recovery, whatever fault strikes it
  (`recovery_exact`).  Where none does, recovery finds every record of the bucket
  once (`ensures_findRecords_all`) and counts it; a record that is due, because its
  transaction is decided or has outlived the timeout, is gone afterwards, and so
  are the locks of that transaction in every bucket (`ensures_recoverAll`).  What
  is left is not due, and recovering it changes nothing (`ensures_recoverNone`).
-/
import BucketStore.Proofs.Staging.Mirroring
import BucketStore.Proofs.Staging.NoOrphans

namespace BucketStore.Staging

open MemoryItems

/-- The record under a key, if that is a key of records. -/
def recordOf? (e : Bytes × Item) : Option Record :=
  if isReservedKey e.1 then e.2.record? else none

/-- The records that are stored in a bucket, in the order of their keys. -/
def MemoryItems.records (s : MemoryItems) (bucket : Bytes) : List Record :=
  (s.rawItems bucket).filterMap recordOf?

variable {around : Surroundings} {t : Trouble} {s s' : MemoryItems} {known : String → Prop}
  {config : Config} {bucket : Bytes} {r : Record} {records : List Record} {now : Int64}
  {c c' : Contents}

/-! ### The records of a bucket -/

theorem recordOf?_eq_some {e : Bytes × Item} (he : WellFormed known e.1 e.2) :
    recordOf? e = some r ↔ r.Proper known ∧ e = (r.key, r.item) := by
  constructor
  · intro h
    unfold recordOf? at h
    split at h
    · next hreserved =>
      obtain ⟨r', hproper, hkey, hitem⟩ := he.record_of_reserved hreserved
      rw [hitem, record?_item hproper.addressable] at h
      cases h
      exact ⟨hproper, Prod.ext hkey hitem⟩
    · cases h
  · rintro ⟨hproper, rfl⟩
    have hreserved : isReservedKey r.key = true := isReservedKey_recordKey r.id
    simp only [recordOf?, hreserved, if_true, record?_item hproper.addressable]

/-- The records of a bucket are those that are stored there under their keys. -/
theorem mem_records (hs : Contents.Sound known s.raw) :
    r ∈ s.records bucket ↔ r.Proper known ∧ s.raw bucket r.key = some r.item := by
  unfold records
  rw [List.mem_filterMap]
  constructor
  · rintro ⟨e, hmem, hrecord⟩
    have hstored := mem_rawItems.mp hmem
    obtain ⟨hproper, rfl⟩ := (recordOf?_eq_some (hs _ _ _ hstored)).mp hrecord
    exact ⟨hproper, hstored⟩
  · rintro ⟨hproper, hstored⟩
    exact ⟨(r.key, r.item), mem_rawItems.mpr hstored,
      (recordOf?_eq_some (hs _ _ _ hstored)).mpr ⟨hproper, rfl⟩⟩

/-- No transaction has two records in a bucket. -/
theorem pairwise_records (hs : Contents.Sound known s.raw) :
    (s.records bucket).Pairwise fun r r' => r.id ≠ r'.id := by
  unfold records
  rw [List.pairwise_filterMap]
  refine (pairwise_rawItems s bucket).imp_of_mem ?_
  intro e e' hmem hmem' hlt r hrecord r' hrecord' hid
  obtain ⟨_, rfl⟩ := (recordOf?_eq_some (hs _ _ _ (mem_rawItems.mp hmem))).mp hrecord
  obtain ⟨_, rfl⟩ := (recordOf?_eq_some (hs _ _ _ (mem_rawItems.mp hmem'))).mp hrecord'
  have hkey : r.key = r'.key := congrArg recordKey hid
  rw [hkey, Std.compare_eq_iff_eq.mpr rfl] at hlt
  cases hlt

theorem recordsOf_eq {entries : List (Bytes × Item)}
    (hentries : ∀ e ∈ entries, WellFormed known e.1 e.2) :
    recordsOf entries = .ok ((entries.filterMap recordOf?).map fun r => (r, r.encode)) := by
  induction entries with
  | nil => rfl
  | cons e rest ih =>
    obtain ⟨hfirst, hrest⟩ := List.forall_mem_cons.mp hentries
    rw [List.filterMap_cons]
    cases hrecord : recordOf? e with
    | none =>
      have hskip : recordsOf (e :: rest) = recordsOf rest := by
        obtain ⟨key, item⟩ := e
        rw [recordsOf]
        split
        · next bytes hreserved hvalue =>
          obtain ⟨r, hproper, hkey, hitem⟩ := hfirst.record_of_reserved hreserved
          have hsome := (recordOf?_eq_some hfirst).mpr ⟨hproper, Prod.ext hkey hitem⟩
          rw [hsome] at hrecord
          cases hrecord
        · rfl
      exact hskip.trans (ih hrest)
    | some r =>
      obtain ⟨hproper, rfl⟩ := (recordOf?_eq_some hfirst).mp hrecord
      have hreserved : isReservedKey r.key = true := isReservedKey_recordKey r.id
      simp only [recordsOf, hreserved, Record.item, Item.plain,
        Record.decode_encode hproper.addressable, ih hrest]
      rfl

/-- Recovery finds the records of a bucket, from whatever page on, in the order of their keys. -/
theorem ensures_findRecords_all {items : KeyMap Bytes Item} (hitems : s.items bucket = .ok items)
    (hs : Contents.Sound known s.raw) (hsize : config.pageSize.toNat + 1 < UInt64.size) {limit : Nat}
    {token : Option Token} (hfront : ∃ front, items.entries = front ++ items.after token)
    (hlimit : (items.after token).length < limit) :
    (findRecords config bucket limit token).Ensures (storing around t) s fun reply s' => s' = s ∧
      reply = .ok (((items.after token).filterMap recordOf?).map fun r => (r, r.encode)) := by
  induction limit generalizing token with
  | zero => cases hlimit
  | succ limit ih =>
    obtain ⟨front, hfront⟩ := hfront
    have hscan := scan_eq_pageOf hsize hitems token
    have hpositive := max_one_pos config.pageSize
    generalize (max config.pageSize 1).toNat = n at hscan hpositive
    have hentries : ∀ e ∈ (items.after token).take n, WellFormed known e.1 e.2 := by
      intro e he
      apply hs bucket
      rw [← get?_eq_raw hitems]
      exact (KeyMap.mem_entries_iff items).mp (mem_after (List.mem_of_mem_take he))
    refine Program.ensures_bind.mpr (ensures_scan ?_)
    rw [hscan]
    refine Program.ensures_bind.mpr (Program.ensures_ofExcept.mpr ?_)
    have hitemsOf : (pageOf n id items token).items = (items.after token).take n := List.map_id _
    rw [hitemsOf, recordsOf_eq hentries]
    dsimp only
    cases hnext : (pageOf n id items token).next with
    | none =>
      rw [take_of_lastPage hpositive hnext]
      exact ⟨rfl, rfl⟩
    | some next =>
      obtain ⟨hmore, hafter, _⟩ := after_pageOf hfront hnext
      have hfront' : ∃ front', items.entries = front' ++ items.after (some next) := by
        refine ⟨front ++ (items.after token).take n, ?_⟩
        rw [hafter, List.append_assoc, List.take_append_drop]
        exact hfront
      have hlimit' : (items.after (some next)).length < limit := by
        rw [hafter, List.length_drop]
        omega
      refine Program.ensures_bind.mpr ((ih hfront' hlimit').mono ?_)
      rintro _ s' ⟨hs', rfl⟩
      refine ⟨hs', ?_⟩
      rw [hafter, ← List.map_append, ← List.filterMap_append, List.take_append_drop]

/-! ### Finishing what is due -/

theorem count_eq (timeout : Nat) (report : RecoveryReport) (r : Record) :
    report.count timeout now r =
      ⟨report.rolledForward + if (r.state == .committed) = true then 1 else 0,
        report.rolledBack + if (r.state == .aborted ||
          r.state == .pending && r.isExpired timeout now) = true then 1 else 0,
        report.inFlight + if (!r.isDue timeout now) = true then 1 else 0⟩ := by
  unfold RecoveryReport.count Record.isDue
  cases r.state with
  | committed => rfl
  | aborted => rfl
  | reclaimed => rfl
  | pending => cases r.isExpired timeout now <;> rfl

/-- The report of recovery counts the records by what becomes of them. -/
theorem foldl_count (timeout : Nat) (report : RecoveryReport) :
    records.foldl (RecoveryReport.count timeout now) report =
      ⟨report.rolledForward + records.countP (fun r => r.state == .committed),
        report.rolledBack + records.countP
          (fun r => r.state == .aborted || r.state == .pending && r.isExpired timeout now),
        report.inFlight + records.countP (fun r => !r.isDue timeout now)⟩ := by
  induction records generalizing report with
  | nil => rfl
  | cons r rest ih =>
    rw [List.foldl_cons, ih, count_eq, List.countP_cons, List.countP_cons, List.countP_cons]
    dsimp only
    congr 1
    · omega
    · omega
    · omega

/-- How dealing with records ends where nothing goes wrong. -/
structure FinishedAll (config : Config) (now : Int64) (s : MemoryItems) (bucket : Bytes)
    (records : List Record) (report : RecoveryReport) (reply : Except Failure RecoveryReport)
    (s' : MemoryItems) : Prop where
  counted : reply = .ok (records.foldl (RecoveryReport.count config.lockTimeout now) report)
  tidied : Tidied (fun id => ∃ r ∈ records, r.isDue config.lockTimeout now = true ∧ r.id = id)
    s.raw s'.raw
  gone : ∀ r ∈ records, r.isDue config.lockTimeout now = true → s'.raw bucket r.key = none

/-- Where nothing goes wrong, every record is counted, and those that are due are gone in the end. -/
theorem ensures_recoverAll (hclock : ∀ n, s.readings ≤ n → around.clock n = now)
    (hopen : s.closed = false) (h : Contents.Kept known s.raw)
    (hdistinct : records.Pairwise fun r r' => r.id ≠ r'.id)
    (hstored : ∀ r ∈ records, r.Addressable ∧ s.raw bucket r.key = some r.item)
    (report : RecoveryReport) :
    ((records.map fun r => (r, r.encode)).foldlM (recoverRecord config bucket) report).Ensures
      (storing around .nothing) s (FinishedAll config now s bucket records report) := by
  induction records generalizing s report with
  | nil => exact ⟨rfl, .refl, fun _ hmem => nomatch hmem⟩
  | cons r rest ih =>
    obtain ⟨hfirst, hdistinct⟩ := List.pairwise_cons.mp hdistinct
    obtain ⟨hr, hitem⟩ := hstored r (List.mem_cons_self ..)
    rw [List.map_cons, List.foldlM_cons]
    refine Program.ensures_bind.mpr
      ((ensures_later (ensures_recoverRecord hr hopen h (h.attended.followed hitem))).mono ?_)
    rintro reply s₁ ⟨⟨hsame, htidied, hcounted, hgone, halone⟩, hlater⟩
    have hreply := hcounted Trouble.not_possible_nothing hitem
    have hgone := hgone Trouble.not_possible_nothing hitem
    rw [hclock s.readings (Nat.le_refl _)] at hreply hgone halone
    subst hreply
    -- The other records are stored as they were found.
    have hrest : ∀ r' ∈ rest, r'.Addressable ∧ s₁.raw bucket r'.key = some r'.item := by
      intro r' hmem
      obtain ⟨hr', hitem'⟩ := hstored r' (List.mem_cons_of_mem _ hmem)
      have hkept : s₁.raw bucket r'.key = s.raw bucket r'.key :=
        htidied.record_same h.sound fun hid => hfirst r' hmem hid.symm
      exact ⟨hr', hkept.trans hitem'⟩
    have hclock₁ : ∀ n, s₁.readings ≤ n → around.clock n = now := fun n hn =>
      hclock n (Nat.le_trans hlater.readings hn)
    refine (ih hclock₁ (hsame.closed.trans hopen) (h.tidied htidied) hdistinct hrest _).mono ?_
    rintro reply s' ⟨hreply, htidied', hgone'⟩
    refine ⟨hreply, ?_, ?_⟩
    · have hlater' : Tidied (fun id => ∃ r' ∈ r :: rest,
          r'.isDue config.lockTimeout now = true ∧ r'.id = id) s₁.raw s'.raw :=
        htidied'.mono fun id ⟨r', hmem, hdue⟩ => ⟨r', List.mem_cons_of_mem _ hmem, hdue⟩
      cases hdue : r.isDue config.lockTimeout now with
      | true =>
        have hnow : Tidied (fun id => ∃ r' ∈ r :: rest,
            r'.isDue config.lockTimeout now = true ∧ r'.id = id) s.raw s₁.raw :=
          htidied.mono fun id hid => ⟨r, List.mem_cons_self .., hdue, hid.symm⟩
        exact hnow.trans hlater'
      | false =>
        rw [halone hdue] at hlater'
        exact hlater'
    · intro r' hmem hdue
      rcases List.mem_cons.mp hmem with rfl | hmem
      · have hkept : s'.raw bucket r'.key = s₁.raw bucket r'.key := by
          refine htidied'.record_same (htidied.sound h.sound) ?_
          rintro ⟨r'', hmem'', _, hid⟩
          exact hfirst r'' hmem'' hid.symm
        exact hkept.trans (hgone hdue)
      · exact hgone' r' hmem hdue

/-! ### Nothing to finish -/

/-- A record that is not due is counted, and left alone whatever might go wrong. -/
theorem ensures_recoverRecord_alone (hclock : around.clock s.readings = now)
    (hdue : r.isDue config.lockTimeout now = false) (report : RecoveryReport) :
    (recoverRecord config bucket report (r, r.encode)).Ensures (storing around t) s fun reply s' =>
      reply = .ok report.alone ∧ ∃ n, s.readings ≤ n ∧ s' = { s with readings := n } := by
  unfold recoverRecord
  dsimp only
  cases hstate : r.state with
  | committed => simp [Record.isDue, hstate] at hdue
  | aborted => simp [Record.isDue, hstate] at hdue
  | reclaimed => exact ⟨rfl, s.readings, Nat.le_refl _, rfl⟩
  | pending =>
    have hlive : r.isExpired config.lockTimeout now = false := by
      simpa [Record.isDue, hstate] using hdue
    refine Program.ensures_bind.mpr (ensures_now ?_)
    rw [hclock]
    simp only [hlive, Bool.false_eq_true, if_false]
    exact ⟨rfl, s.readings + 1, Nat.le_succ _, rfl⟩

theorem ensures_recoverNone (hclock : ∀ n, s.readings ≤ n → around.clock n = now)
    (hdue : ∀ r ∈ records, r.isDue config.lockTimeout now = false) (report : RecoveryReport) :
    ((records.map fun r => (r, r.encode)).foldlM (recoverRecord config bucket) report).Ensures
      (storing around t) s fun reply s' =>
        reply = .ok { report with inFlight := report.inFlight + records.length } ∧
          ∃ n, s' = { s with readings := n } := by
  induction records generalizing s report with
  | nil => exact ⟨rfl, s.readings, rfl⟩
  | cons r rest ih =>
    obtain ⟨hfirst, hrest⟩ := List.forall_mem_cons.mp hdue
    rw [List.map_cons, List.foldlM_cons]
    refine Program.ensures_bind.mpr
      ((ensures_recoverRecord_alone (hclock _ (Nat.le_refl _)) hfirst report).mono ?_)
    rintro _ s₁ ⟨rfl, n, hn, rfl⟩
    refine (ih (fun m hm => hclock m (Nat.le_trans hn hm)) hrest _).mono ?_
    rintro _ s' ⟨rfl, n', hs'⟩
    refine ⟨?_, n', hs'⟩
    simp only [RecoveryReport.alone, List.length_cons]
    congr 2
    omega

/-! ### Recovering a bucket -/

section

variable {items : KeyMap Bytes Item} (hitems : s.items bucket = .ok items)
  (hs : Contents.Sound known s.raw) (hsize : config.pageSize.toNat + 1 < UInt64.size)
include hitems hs hsize

/-- With room for every page, recovery deals with all the records of the bucket. -/
theorem ensures_recoverBucket_records {Q : Except Failure RecoveryReport → MemoryItems → Prop}
    (h : (((s.records bucket).map fun r => (r, r.encode)).foldlM (recoverRecord config bucket)
      {}).Ensures (storing around t) s Q) :
    (recoverBucket config ((s.rawItems bucket).length + 1) bucket).Ensures (storing around t) s Q := by
  refine Program.ensures_bind.mpr
    ((ensures_findRecords_all hitems hs hsize ⟨[], rfl⟩ (size_lt_pageBound hitems)).mono ?_)
  rintro _ s₁ ⟨rfl, rfl⟩
  have hrecords : (items.after none).filterMap recordOf? = s₁.records bucket := by
    unfold records
    rw [rawItems_of_items hitems]
    rfl
  rw [hrecords]
  refine Program.ensures_bind.mpr (h.mono ?_)
  rintro (f | report) s' hQ
  · exact hQ
  · dsimp only
    split
    · exact hQ
    · exact hQ

theorem ensures_recoverBucket_finished (hclock : ∀ n, s.readings ≤ n → around.clock n = now)
    (ha : Contents.Attended s.raw) :
    (recoverBucket config ((s.rawItems bucket).length + 1) bucket).Ensures (storing around .nothing) s
      (FinishedAll config now s bucket (s.records bucket) {}) := by
  apply ensures_recoverBucket_records hitems hs hsize
  apply ensures_recoverAll hclock (offers_of_items hitems).1 ⟨hs, ha⟩ (pairwise_records hs)
  intro r hmem
  obtain ⟨hproper, hstored⟩ := (mem_records hs).mp hmem
  exact ⟨hproper.addressable, hstored⟩

theorem ensures_recoverBucket_idle (hclock : ∀ n, s.readings ≤ n → around.clock n = now)
    (hdue : ∀ r ∈ s.records bucket, r.isDue config.lockTimeout now = false) :
    (recoverBucket config ((s.rawItems bucket).length + 1) bucket).Ensures (storing around t) s
      fun reply s' => reply = .ok ⟨0, 0, (s.records bucket).length⟩ ∧
        ∃ n, s' = { s with readings := n } := by
  apply ensures_recoverBucket_records hitems hs hsize
  refine (ensures_recoverNone hclock hdue {}).mono ?_
  rintro _ s' ⟨rfl, hs'⟩
  refine ⟨?_, hs'⟩
  simp

end

/-! ### What recovery achieves -/

/-- Once the record of a transaction is gone from its bucket, nothing of the transaction is left
    anywhere. -/
theorem Contents.Attended.foreign (ha : c.Attended) (hc : c.Sound known)
    (htidied : Tidied (fun _ => True) c c') (hstored : c bucket r.key ≠ none)
    (hgone : c' bucket r.key = none) : Contents.Foreign r.id c' := by
  have hrecord : ∀ b, c' b (recordKey r.id) = none := by
    intro b
    by_cases hnone : c' b (recordKey r.id) = none
    · exact hnone
    · have hb := ha.home r.id b bucket (htidied.record_of hc hnone) hstored
      subst hb
      exact hgone
  refine ⟨?_, hrecord⟩
  intro b k item lock hitem hlock howner
  obtain ⟨_, _, _, _, _, hnamed⟩ := (htidied.attended hc ha).record b k item lock hitem hlock
  rw [howner, hrecord] at hnamed
  cases hnamed

/-- What a recovery of the bucket has achieved that found the store `s` and left the store `s'`, at
    the time `now`. -/
structure Finished (around : Surroundings) (config : Config) (now : Int64) (s : MemoryItems)
    (bucket : Bytes) (report : RecoveryReport) (s' : MemoryItems) : Prop where
  /-- The records that are left are pending and have not expired. -/
  left : ∀ r ∈ s'.records bucket, r.state = .pending ∧ r.isExpired config.lockTimeout now = false
  /-- Nothing is locked any more by the transactions that were due. -/
  unlocked : ∀ r ∈ s.records bucket, r.state = .committed ∨ r.state = .aborted ∨
      r.state = .pending ∧ r.isExpired config.lockTimeout now = true →
    ∀ b k item lock, s'.raw b k = some item → item.lock = some lock → lock.owner ≠ r.id
  forward : report.rolledForward = (s.records bucket).countP fun r => r.state == .committed
  back : report.rolledBack = (s.records bucket).countP fun r =>
    r.state == .aborted || r.state == .pending && r.isExpired config.lockTimeout now
  inFlight : report.inFlight = (s.records bucket).countP fun r =>
    r.state == .pending && !r.isExpired config.lockTimeout now
  /-- A second recovery finds nothing to finish, and changes nothing but that the clock was read. -/
  again : ∀ plan, ∃ n, (Engine.recoverOn (itemStore around) config bucket
      { s' with fault := plan }).reply = .ok ⟨0, 0, n⟩ ∧
    ∃ readings, (Engine.recoverOn (itemStore around) config bucket
      { s' with fault := plan }).state = { s' with fault := plan, readings }

theorem isDue_iff (timeout : Nat) : r.isDue timeout now = true ↔
    r.state = .committed ∨ r.state = .aborted ∨
      r.state = .pending ∧ r.isExpired timeout now = true := by
  unfold Record.isDue
  cases r.state <;> simp

theorem not_isDue_iff (timeout : Nat) (hstate : r.state ≠ .reclaimed) :
    r.isDue timeout now = false ↔ r.state = .pending ∧ r.isExpired timeout now = false := by
  unfold Record.isDue
  cases hnow : r.state with
  | reclaimed => exact absurd hnow hstate
  | committed | aborted | pending => simp

/-- Once all the records of a bucket are dealt with, none that is left is due. -/
theorem FinishedAll.not_due {reply : Except Failure RecoveryReport}
    (h : FinishedAll config now s bucket (s.records bucket) {} reply s')
    (hs : Contents.Sound known s.raw) :
    ∀ r ∈ s'.records bucket, r.isDue config.lockTimeout now = false := by
  intro r hmem
  obtain ⟨hproper, hstored⟩ := (mem_records (h.tidied.sound hs)).mp hmem
  cases hdue : r.isDue config.lockTimeout now with
  | false => rfl
  | true =>
    -- A record that is due was found, unless one of its transaction was: then it is gone.
    by_cases hfound : ∃ r' ∈ s.records bucket, r'.isDue config.lockTimeout now = true ∧ r'.id = r.id
    · obtain ⟨r', hmem', hdue', hid⟩ := hfound
      have hnone := h.gone r' hmem' hdue'
      have hkey : r'.key = r.key := congrArg recordKey hid
      rw [hkey, hstored] at hnone
      cases hnone
    · have hkept : s'.raw bucket r.key = s.raw bucket r.key := h.tidied.record_same hs hfound
      exact absurd ⟨r, (mem_records hs).mpr ⟨hproper, hkept ▸ hstored⟩, hdue, rfl⟩ hfound

/-- What dealing with all the records of a bucket comes to. -/
theorem FinishedAll.finished {report : RecoveryReport}
    (h : FinishedAll config now s bucket (s.records bucket) {} (.ok report) s')
    (hs : Contents.Sound known s.raw) (ha : Contents.Attended s.raw)
    (hsize : config.pageSize.toNat + 1 < UInt64.size)
    (hclock : ∀ n, s'.readings ≤ n → around.clock n = now) (hname : checkBucket bucket = .ok ())
    (hoffers : s'.Offers bucket) : Finished around config now s bucket report s' := by
  have hleft := h.not_due hs
  obtain ⟨hreport, htidied, hgone⟩ := h
  have hs' := htidied.sound hs
  have hreport := Except.ok.inj hreport
  rw [foldl_count] at hreport
  subst hreport
  refine ⟨?_, ?_, ?_, ?_, ?_, ?_⟩
  · intro r hmem
    exact (not_isDue_iff _ ((mem_records hs').mp hmem).1.state).mp (hleft r hmem)
  · intro r hmem hdue b k item lock hitem hlock
    obtain ⟨_, hstored⟩ := (mem_records hs).mp hmem
    have hforeign := ha.foreign hs (htidied.mono fun _ _ => trivial) (by simp [hstored])
      (hgone r hmem ((isDue_iff _).mpr hdue))
    exact hforeign.locks b k item lock hitem hlock
  · simp
  · simp
  · change 0 + _ = _
    rw [Nat.zero_add]
    apply List.countP_congr
    intro r hmem
    have hstate := ((mem_records hs).mp hmem).1.state
    simpa using not_isDue_iff config.lockTimeout hstate
  · intro plan
    cases hitems : s'.items bucket with
    | error f => exact absurd hitems (hoffers.items_ne_error f)
    | ok items =>
      have hidle : (Engine.recover config ((s'.rawItems bucket).length + 1) bucket).Ensures
          (storing around .faults) { s' with fault := plan } fun reply s'' =>
            reply = .ok ⟨0, 0, (s'.records bucket).length⟩ ∧
              ∃ n, s'' = { s' with fault := plan, readings := n } := by
        refine Program.ensures_bind.mpr (Program.ensures_check.mpr ?_)
        rw [hname]
        apply Program.ensures_mapFailure.mpr
        refine (ensures_recoverBucket_idle (s := { s' with fault := plan }) hitems hs' hsize hclock
          hleft).mono ?_
        rintro _ s'' ⟨rfl, hstate⟩
        exact ⟨rfl, hstate⟩
      obtain ⟨hreply, hstate⟩ := run_of_faults hidle
      exact ⟨_, hreply, hstate⟩

/-- A recovery that answers has found the bucket. -/
theorem ensures_recover_offers {limit : Nat} :
    (Engine.recover config limit bucket).Ensures (storing around t) s fun reply s' =>
      SameBuckets s s' ∧ ∀ report, reply = .ok report →
        checkBucket bucket = .ok () ∧ s.Offers bucket := by
  have hoffers : (Engine.recover config limit bucket).Ensures (storing around t) s fun reply _ =>
      ∀ report, reply = .ok report → checkBucket bucket = .ok () ∧ s.Offers bucket := by
    cases hname : checkBucket bucket with
    | error f =>
      refine Program.ensures_bind.mpr (Program.ensures_check.mpr ?_)
      rw [hname]
      exact fun _ hreply => nomatch hreply
    | ok _ =>
      cases hitems : s.items bucket with
      | ok items => exact (ensures_true _).mono fun _ _ _ _ _ => ⟨rfl, offers_of_items hitems⟩
      | error f =>
        refine Program.ensures_bind.mpr (Program.ensures_check.mpr ?_)
        rw [hname]
        apply Program.ensures_mapFailure.mpr
        refine Program.ensures_bind.mpr ?_
        cases limit with
        | zero => exact fun _ hreply => nomatch hreply
        | succ limit =>
          refine Program.ensures_bind.mpr (ensures_scan ?_)
          unfold scan
          rw [hitems]
          exact fun _ hreply => nomatch hreply
  exact (ensures_sameBuckets hoffers).mono fun _ _ h => ⟨h.2, h.1⟩

/-- **Recovery is safe, complete and idempotent.** In every store that events other than deletions
    of buckets lead to, as long as no identifier was drawn twice: recovering a bucket is not seen by
    readers, whatever fault strikes it. If none does, it answers for every bucket that the store
    offers; and if it answers, it has finished all that was due. -/
theorem recovery_exact (hids : around.Addressable)
    (h : Reachable around (fun e => e.drops = false) s) (hdistinct : Distinct around s)
    (config : Config) (hsize : config.pageSize.toNat + 1 < UInt64.size) (bucket : Bytes) :
    Contents.SameView s.raw (Engine.recoverOn (itemStore around) config bucket s).state.raw ∧
      ∀ now, (∀ n, s.readings ≤ n → around.clock n = now) →
        Unstruck around (Engine.recover config ((itemStore around).pageBound s bucket) bucket) s →
        (s.Offers bucket → ∃ report,
          (Engine.recoverOn (itemStore around) config bucket s).reply = .ok report) ∧
        ∀ report, (Engine.recoverOn (itemStore around) config bucket s).reply = .ok report →
          Finished around config now s bucket report
            (Engine.recoverOn (itemStore around) config bucket s).state := by
  have hsound := sound_of_reachable hids h
  have hattended := attended_of_reachable hids h hdistinct
  constructor
  · have htidied : (Engine.recover config ((itemStore around).pageBound s bucket) bucket).Ensures
        (storing around .faults) s fun _ s' => Tidied (fun _ => True) s.raw s'.raw := by
      refine Program.ensures_bind.mpr (Program.ensures_check.mpr ?_)
      cases checkBucket bucket with
      | error f => exact .refl
      | ok _ =>
        apply Program.ensures_mapFailure.mpr
        exact ensures_recoverBucket ⟨hsound, hattended⟩
    exact (run_of_faults htidied).sameView hsound
  · intro now hclock hunstruck
    -- What recovery does to a bucket that the store offers, under a name that may be used.
    have hfinished : checkBucket bucket = .ok () → s.Offers bucket →
        FinishedAll config now s bucket (s.records bucket) {}
          (Engine.recoverOn (itemStore around) config bucket s).reply
          (Engine.recoverOn (itemStore around) config bucket s).state := by
      intro hname hoffers
      cases hitems : s.items bucket with
      | error f => exact absurd hitems (hoffers.items_ne_error f)
      | ok items =>
        have hall : (Engine.recover config ((itemStore around).pageBound s bucket) bucket).Ensures
            (storing around .nothing) s
            (FinishedAll config now s bucket (s.records bucket) {}) := by
          refine Program.ensures_bind.mpr (Program.ensures_check.mpr ?_)
          rw [hname]
          apply Program.ensures_mapFailure.mpr
          refine (ensures_recoverBucket_finished hitems hsound hsize hclock hattended).mono ?_
          rintro r s' hfinished
          rw [hfinished.counted]
          exact ⟨rfl, hfinished.tidied, hfinished.gone⟩
        exact run_of_unstruck hall hunstruck
    constructor
    · intro hoffers
      exact ⟨_, (hfinished (named_of_reachable h hoffers.2) hoffers).counted⟩
    · intro report hreply
      have hanswered : (Engine.recover config ((itemStore around).pageBound s bucket) bucket).Ensures
          (storing around .faults) s _ := ensures_later ensures_recover_offers
      obtain ⟨⟨hsame, hoffered⟩, hlater⟩ := run_of_faults hanswered
      obtain ⟨hname, hoffers⟩ := hoffered report hreply
      have hall := hfinished hname hoffers
      rw [hreply] at hall
      refine hall.finished hsound hattended hsize ?_ hname ?_
      · exact fun n hn => hclock n (Nat.le_trans hlater.readings hn)
      · exact ⟨hsame.closed.trans hoffers.1, (hsame.contains bucket).trans hoffers.2⟩

/-- After the second of two crashes nothing fails any more. -/
def healed : MemoryItems := (crashedTwice ++ [Event.faults none]).foldl (Event.step still) {}

/-- Of two transactions that stopped half way, the committed one has its record in the bucket that
    is recovered: it is rolled forward, and the other is left alone. -/
theorem recovery_exact_after_crashes :
    (still.Addressable ∧ Reachable still (fun e => e.drops = false) healed ∧ Distinct still healed ∧
      (∀ n, healed.readings ≤ n → still.clock n = 0) ∧
      Unstruck still (Engine.recover ⟨1, 30000, true⟩ ((itemStore still).pageBound healed [65]) [65])
        healed ∧
      (Engine.recoverOn (itemStore still) ⟨1, 30000, true⟩ [65] healed).reply = .ok ⟨1, 0, 0⟩) ∧
    Contents.SameView healed.raw
      (Engine.recoverOn (itemStore still) ⟨1, 30000, true⟩ [65] healed).state.raw ∧
    Finished still ⟨1, 30000, true⟩ 0 healed [65] ⟨1, 0, 0⟩
      (Engine.recoverOn (itemStore still) ⟨1, 30000, true⟩ [65] healed).state := by
  have hreachable : Reachable still (fun e => e.drops = false) healed :=
    Reachable.empty.run (by decide) (by decide)
  have hdistinct : Distinct still healed := distinct_still (by decide +kernel)
  have hclock : ∀ n, healed.readings ≤ n → still.clock n = 0 := fun _ _ => rfl
  have hunstruck : Unstruck still
      (Engine.recover ⟨1, 30000, true⟩ ((itemStore still).pageBound healed [65]) [65]) healed := by
    decide +kernel
  obtain ⟨hview, hfinished⟩ :=
    recovery_exact addressable_still hreachable hdistinct ⟨1, 30000, true⟩ (by decide) [65]
  obtain ⟨hanswers, hfinished⟩ := hfinished 0 hclock hunstruck
  obtain ⟨report, hreply⟩ := hanswers ⟨by decide +kernel, by decide +kernel⟩
  have hreport : (Engine.recoverOn (itemStore still) ⟨1, 30000, true⟩ [65] healed).reply.toOption =
      some ⟨1, 0, 0⟩ := by decide +kernel
  rw [hreply] at hreport
  cases hreport
  exact ⟨⟨addressable_still, hreachable, hdistinct, hclock, hunstruck, hreply⟩, hview,
    hfinished _ hreply⟩

end BucketStore.Staging
