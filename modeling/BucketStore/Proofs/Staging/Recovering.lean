/-
  BucketStore/Proofs/Staging/Recovering.lean
  ==========================================
  **Recovery tidies up after the transactions whose records it finds.**

  A record that was found may have been aborted or deleted since, and nothing else
  may have become of it (`Followed`).  While that is so, rolling the keys of a
  decided transaction forward or back drops its locks as readers see them
  (`ensures_settleKeys`), and once none of its keys is locked its record can go,
  because no other key can be (`ensures_settle`).  So recovery does nothing but
  tidy up, whatever goes wrong on the way (`ensures_recoverBucket`).
-/
import BucketStore.Proofs.Staging.Attended
import BucketStore.Proofs.Staging.Soundness

namespace BucketStore.Staging

open MemoryItems

variable {around : Surroundings} {t : Trouble} {s : MemoryItems} {known : String → Prop}
  {bucket : Bytes} {r : Record} {c c' : Contents} {P : String → Prop}

/-! ### What has become of a record -/

/-- The record was found in the bucket. It may be gone since, or aborted if it was pending. -/
def Followed (bucket : Bytes) (r : Record) (c : Contents) : Prop :=
  ∀ b item, c b (recordKey r.id) = some item → b = bucket ∧
    (item = r.item ∨ r.state = .pending ∧ item = ({ r with state := .aborted } : Record).item)

theorem Contents.Attended.followed (h : c.Attended) (hfound : c bucket r.key = some r.item) :
    Followed bucket r c := by
  intro b item hitem
  have hb : b = bucket := by
    apply h.home r.id
    · simp [hitem]
    · change c bucket (recordKey r.id) = _ at hfound
      simp [hfound]
  subst hb
  refine ⟨rfl, .inl ?_⟩
  exact Option.some.inj (hitem.symm.trans hfound)

theorem item_injective {r' : Record} (hr : r.Addressable) (hr' : r'.Addressable)
    (h : r.item = r'.item) : r = r' := by
  apply Record.encode_injective hr hr'
  simpa [Record.item, Item.plain] using h

theorem Followed.decided (h : Followed bucket r c) (hstate : r.state ≠ .pending) {b : Bytes}
    {item : Item} (hitem : c b (recordKey r.id) = some item) : b = bucket ∧ item = r.item := by
  rcases h b item hitem with ⟨hb, heq | ⟨hpending, _⟩⟩
  · exact ⟨hb, heq⟩
  · exact absurd hpending hstate

theorem Followed.tidy {id : String} (h : Followed bucket r c) (hr : r.Addressable)
    (hc : c.Sound known) (htidy : Tidy id c c') : Followed bucket r c' := by
  intro b item hitem
  cases htidy with
  | release hstored hlock _ =>
    have hkey := ((hc _ _ _ hstored).of_lock hlock).1
    rw [Places.put_other_key (ne_recordKey hkey _).symm] at hitem
    exact h b item hitem
  | @abort b' r' hr' hid hstored hpending =>
    by_cases heq : b = b' ∧ recordKey r.id = recordKey id
    · obtain ⟨rfl, hkey⟩ := heq
      rw [hkey, Places.put_same] at hitem
      rw [← hkey] at hstored
      rcases h b _ hstored with ⟨hb, hsame | ⟨_, hsame⟩⟩
      · -- The step aborts the record as it was found.
        have heq := item_injective hr' hr hsame
        subst heq
        exact ⟨hb, .inr ⟨hpending, (Option.some.inj hitem).symm⟩⟩
      · have heq := item_injective hr' (hr.withState .aborted) hsame
        rw [heq] at hpending
        cases hpending
    · rw [Places.put_other heq] at hitem
      exact h b item hitem
  | forget =>
    unfold Places.put at hitem
    split at hitem
    · cases hitem
    · exact h b item hitem

theorem Followed.tidied (h : Followed bucket r c) (hr : r.Addressable) (hc : c.Sound known)
    (htidied : Tidied P c c') : Followed bucket r c' := by
  induction htidied with
  | refl => exact h
  | tail hsteps hstep ih =>
    obtain ⟨id, _, hstep⟩ := hstep
    exact ih.tidy hr (Tidied.sound hsteps hc) hstep

/-- A lock of the transaction names the bucket where its decided record was found, and the record
    as it was found. -/
theorem Followed.of_lock (h : Followed bucket r c) (hr : r.Addressable) (ha : c.Attended)
    (hstate : r.state ≠ .pending) {b k : Bytes} {item : Item} {lock : Lock}
    (hitem : c b k = some item) (hlock : item.lock = some lock) (howner : lock.owner = r.id) :
    (b, k) ∈ r.keys ∧ c.committed lock = (r.state == .committed) := by
  obtain ⟨r', hr', hid, hmem, _, hstored⟩ := ha.record b k item lock hitem hlock
  rw [howner] at hstored
  obtain ⟨hb, hsame⟩ := h.decided hstate hstored
  have heq := item_injective hr' hr hsame
  subst heq
  exact ⟨hmem, Contents.committed_of_item hr' howner hstored⟩

/-! ### Settling -/

/-- None of the places is locked by the transaction. -/
def Settled (id : String) (places : List (Bytes × Bytes)) (c : Contents) : Prop :=
  ∀ b k item lock, (b, k) ∈ places → c b k = some item → item.lock = some lock → lock.owner ≠ id

theorem Settled.cons {id : String} {b k : Bytes} {places : List (Bytes × Bytes)}
    (h : Settled id places c)
    (hfree : ∀ item lock, c b k = some item → item.lock = some lock → lock.owner ≠ id) :
    Settled id ((b, k) :: places) c := by
  intro b' k' item lock hmem hitem hlock
  rcases List.mem_cons.mp hmem with heq | hmem
  · cases heq
    exact hfree item lock hitem hlock
  · exact h b' k' item lock hmem hitem hlock

/-- How settling places ends: with tidying up only, and with every place settled unless it fails. -/
structure SettledFrom (t : Trouble) (s : MemoryItems) (id : String) (places : List (Bytes × Bytes))
    (reply : Except Failure Unit) (s' : MemoryItems) : Prop where
  same : SameBuckets s s'
  tidied : Tidied (· = id) s.raw s'.raw
  settled : reply = .ok () → Settled id places s'.raw
  failed : ∀ f, reply = .error f → t.Possible

/-- Rolling one key forward or back drops the lock of a decided transaction on it, as readers see
    the key. -/
theorem ensures_settlePlace {b k : Bytes} {item : Item} {lock : Lock} {value : Option Bytes}
    (hr : r.Addressable) (hstate : r.state ≠ .pending)
    (hvalue : value = if (r.state == .committed) = true then lock.pending.resolve item.value
      else item.value)
    (hopen : s.closed = false) (h : Contents.Kept known s.raw) (hfound : Followed bucket r s.raw)
    (hitem : s.raw b k = some item) (hlock : item.lock = some lock) (howner : lock.owner = r.id) :
    (discard (Protocol.write b k (value.map .plain) (.lockedBy r.id)) : Protocol Unit).Ensures
      (storing around t) s (Released t s b k value r.id) := by
  have hseen : value = item.seen (Contents.committed s.raw) := by
    have hcommitted := (hfound.of_lock hr h.attended hstate hitem hlock howner).2
    simp only [hvalue, Item.seen, hlock, hcommitted]
  simp only [← howner]
  exact ensures_released hopen hitem hlock hseen

/-- Rolling the keys of a decided transaction forward or back drops its locks on them. -/
theorem ensures_settleKeys {forward : Bool} (hr : r.Addressable) (hstate : r.state ≠ .pending)
    (hforward : forward = (r.state == .committed)) (places : List (Bytes × Bytes))
    (hopen : s.closed = false) (h : Contents.Kept known s.raw) (hfound : Followed bucket r s.raw) :
    (settleKeys r forward places).Ensures (storing around t) s (SettledFrom t s r.id places) := by
  induction places generalizing s with
  | nil => exact ⟨.refl s, .refl, fun _ _ _ _ _ hmem => (nomatch hmem), fun _ hf => nomatch hf⟩
  | cons place rest ih =>
    obtain ⟨b, k⟩ := place
    -- From wherever the first place is settled, the others are settled in the same way.
    have hrest : ∀ s₁ : MemoryItems, SameBuckets s s₁ → Tidied (· = r.id) s.raw s₁.raw →
        (∀ item lock, s₁.raw b k = some item → item.lock = some lock → lock.owner ≠ r.id) →
        (settleKeys r forward rest).Ensures (storing around t) s₁
          (SettledFrom t s r.id ((b, k) :: rest)) := by
      intro s₁ hsame htidied hfree
      have hfollowed := hfound.tidied hr h.sound htidied
      refine (ih (hsame.closed.trans hopen) (h.tidied htidied) hfollowed).mono ?_
      rintro reply s' ⟨hsame', htidied', hsettled, hfailed⟩
      refine ⟨hsame.trans hsame', htidied.trans htidied', fun hok => (hsettled hok).cons ?_, hfailed⟩
      intro item lock hitem hlock
      exact hfree item lock (htidied'.lock_of hitem hlock) hlock
    -- A place that is left as it is must not be locked by the transaction.
    have hleave : (∀ item lock, s.raw b k = some item → item.lock = some lock → lock.owner ≠ r.id) →
        (settleKeys r forward rest).Ensures (storing around t) s
          (SettledFrom t s r.id ((b, k) :: rest)) := hrest s (.refl s) .refl
    refine ensures_callLoad ?_ ?_
    · intro _
      cases hitem : s.raw b k with
      | none =>
        apply hleave
        intro item lock hsome
        rw [hitem] at hsome
        cases hsome
      | some item =>
        have hmine : ∀ item' lock, s.raw b k = some item' → item'.lock = some lock →
            item.lock = some lock := by
          intro item' lock hsome hlock
          rw [hitem] at hsome
          cases hsome
          exact hlock
        dsimp only
        cases hlock : item.lock with
        | none =>
          apply hleave
          intro item' lock hsome hlock'
          rw [hmine item' lock hsome hlock'] at hlock
          cases hlock
        | some lock =>
          dsimp only
          split
          · next howner =>
            have hsettle : ∀ value : Option Bytes, value = (if forward = true then
                lock.pending.resolve item.value else item.value) →
                (discard (Protocol.write b k (value.map .plain) (.lockedBy r.id)) >>= fun _ =>
                  settleKeys r forward rest).Ensures (storing around t) s
                  (SettledFrom t s r.id ((b, k) :: rest)) := by
              intro value hvalue
              rw [hforward] at hvalue
              refine Program.ensures_bind.mpr
                ((ensures_settlePlace hr hstate hvalue hopen h hfound hitem hlock howner).mono ?_)
              rintro (f | _) s₁ ⟨hsame, htidied, hplain, hfailed⟩
              · exact ⟨hsame, htidied, fun hok => (nomatch hok), fun _ _ => hfailed f rfl⟩
              · apply hrest s₁ hsame htidied
                intro item' lock' hitem' hlock'
                rw [hplain () rfl] at hitem'
                obtain ⟨v, _, rfl⟩ := Option.map_eq_some_iff.mp hitem'
                cases hlock'
            unfold rollForward rollBack
            rw [howner]
            split
            · next hforwards => exact hsettle _ (if_pos hforwards).symm
            · next hbackwards => exact hsettle _ (if_neg hbackwards).symm
          · next hother =>
            apply hleave
            intro item' lock' hsome hlock'
            rw [hmine item' lock' hsome hlock'] at hlock
            cases hlock
            exact hother
    · intro f hitems
      obtain ⟨rfl, hmissing⟩ := items_error hopen hitems
      apply hleave
      intro item lock hitem
      have hoffers := offers_of_raw hopen hitem
      rw [hoffers.2] at hmissing
      cases hmissing

/-- How giving up the record of a decided transaction ends: with tidying up only, and without the
    record unless something goes wrong. -/
structure Forgotten (t : Trouble) (s : MemoryItems) (bucket : Bytes) (r : Record)
    (reply : Except Failure Unit) (s' : MemoryItems) : Prop where
  same : SameBuckets s s'
  tidied : Tidied (· = r.id) s.raw s'.raw
  failed : ∀ f, reply = .error f → t.Possible
  gone : ¬t.Possible → s'.raw bucket r.key = none

/-- Once none of its keys is locked by it, the record of a decided transaction may go. -/
theorem ensures_forget (hr : r.Addressable) (hdecided : r.state.canBecome .reclaimed = true)
    (hopen : s.closed = false) (h : Contents.Kept known s.raw) (hfound : Followed bucket r s.raw)
    (hsettled : Settled r.id r.keys s.raw) :
    (reclaim bucket r).Ensures (storing around t) s (Forgotten t s bucket r) := by
  have hstate : r.state ≠ .pending := by
    intro heq
    rw [heq] at hdecided
    cases hdecided
  have hforget : (Precondition.valueEquals r.encode).holds (s.raw bucket r.key) = true →
      Tidied (· = r.id) s.raw (Places.put s.raw bucket r.key none) := by
    intro hholds
    have hstored : s.raw bucket r.key = some r.item := eq_item_of_valueEquals hr (h.sound _ _) hholds
    apply Tidy.tidied
    apply Tidy.forget hr rfl hstored hdecided
    intro b k item lock hitem hlock howner _
    have hmem := (hfound.of_lock hr h.attended hstate hitem hlock howner).1
    exact hsettled b k item lock hmem hitem hlock howner
  refine Program.ensures_bind.mpr (Program.ensures_attempt.mpr (ensures_transition hdecided ?_))
  refine Program.ensures_bind.mpr (ensures_tryWrite ?_ ?_ ?_ ?_)
  · intro hholds _ s' hsame hraw
    refine ⟨hsame, hraw ▸ hforget hholds, fun _ hf => (nomatch hf), fun _ => ?_⟩
    rw [hraw, Places.put_same]
  · intro hdeclined _ s' hsame hraw
    refine ⟨hsame, hraw ▸ .refl, fun _ hf => (nomatch hf), fun _ => ?_⟩
    rw [hraw]
    cases hitem : s.raw bucket r.key with
    | none => rfl
    | some item =>
      -- What is stored could only be the record as it was found, which the condition asks for.
      obtain ⟨_, rfl⟩ := hfound.decided hstate hitem
      rw [hitem] at hdeclined
      simp [Precondition.holds, Record.item, Item.plain] at hdeclined
  · intro f hf s' hsame hraw
    refine ⟨hsame, hraw ▸ .refl, fun _ hf => (nomatch hf), fun hsafe => ?_⟩
    rw [hraw]
    cases hitem : s.raw bucket r.key with
    | none => rfl
    | some item =>
      rcases hf with hrefusals | hitems
      · exact absurd (.inl hrefusals) hsafe
      · exact absurd hitems ((offers_of_raw hopen hitem).items_ne_error f)
  · intro hlost hholds _ f s' hsame hraw
    exact ⟨hsame, hraw ▸ hforget hholds, fun _ hf => (nomatch hf),
      fun hsafe => absurd (.inr hlost) hsafe⟩

theorem ensures_settle {forward : Bool} (hr : r.Addressable)
    (hdecided : r.state.canBecome .reclaimed = true) (hforward : forward = (r.state == .committed))
    (hopen : s.closed = false) (h : Contents.Kept known s.raw) (hfound : Followed bucket r s.raw) :
    (settle bucket r forward).Ensures (storing around t) s (Forgotten t s bucket r) := by
  have hstate : r.state ≠ .pending := by
    intro heq
    rw [heq] at hdecided
    cases hdecided
  refine Program.ensures_bind.mpr
    ((ensures_settleKeys hr hstate hforward r.keys hopen h hfound).mono ?_)
  rintro (f | _) s₁ ⟨hsame, htidied, hsettled, hfailed⟩
  · exact ⟨hsame, htidied, fun _ _ => hfailed f rfl, fun hsafe => absurd (hfailed f rfl) hsafe⟩
  · have hfollowed := hfound.tidied hr h.sound htidied
    refine (ensures_forget hr hdecided (hsame.closed.trans hopen) (h.tidied htidied) hfollowed
      (hsettled rfl)).mono ?_
    rintro _ s' ⟨hsame', htidied', hfailed', hgone⟩
    exact ⟨hsame.trans hsame', htidied.trans htidied', hfailed', hgone⟩

/-! ### Recovery -/

namespace RecoveryReport

/-- The report with a record counted that was found at the time `now`. -/
def count (timeout : Nat) (now : Int64) (report : RecoveryReport) (r : Record) : RecoveryReport :=
  match r.state with
  | .committed => report.forward
  | .aborted => report.back
  | .pending => if r.isExpired timeout now then report.back else report.alone
  | .reclaimed => report.alone

end RecoveryReport

/-- Is recovery to finish the transaction at the time `now`? -/
def Record.isDue (timeout : Nat) (now : Int64) (r : Record) : Bool :=
  match r.state with
  | .committed | .aborted => true
  | .pending => r.isExpired timeout now
  | .reclaimed => false

/-- How dealing with a record ends. Where nothing goes wrong, a record that is stored as it was
    found is counted, and it is gone if recovery was to finish it. A record that recovery was not to
    finish is left alone. -/
structure Handled (around : Surroundings) (t : Trouble) (config : Config) (s : MemoryItems)
    (bucket : Bytes) (report : RecoveryReport) (r : Record) (reply : Except Failure RecoveryReport)
    (s' : MemoryItems) : Prop where
  same : SameBuckets s s'
  tidied : Tidied (· = r.id) s.raw s'.raw
  counted : ¬t.Possible → s.raw bucket r.key = some r.item →
    reply = .ok (report.count config.lockTimeout (around.clock s.readings) r)
  gone : ¬t.Possible → s.raw bucket r.key = some r.item →
    r.isDue config.lockTimeout (around.clock s.readings) = true → s'.raw bucket r.key = none
  alone : r.isDue config.lockTimeout (around.clock s.readings) = false → s'.raw = s.raw

/-- Dealing with a record tidies up after its transaction. -/
theorem ensures_recoverRecord {config : Config} {report : RecoveryReport} (hr : r.Addressable)
    (hopen : s.closed = false) (h : Contents.Kept known s.raw) (hfound : Followed bucket r s.raw) :
    (recoverRecord config bucket report (r, r.encode)).Ensures (storing around t) s
      (Handled around t config s bucket report r) := by
  have hsame : SameBuckets s { s with readings := s.readings + 1 } := ⟨rfl, fun _ => rfl⟩
  -- Settling is the same for a record that was found decided and for one that was aborted here.
  have hsettle : ∀ (s₁ : MemoryItems) (r' : Record) (forward : Bool) (report' : RecoveryReport),
      r'.Addressable → r'.id = r.id → r'.state.canBecome .reclaimed = true →
      forward = (r'.state == .committed) → SameBuckets s s₁ → Tidied (· = r.id) s.raw s₁.raw →
      Followed bucket r' s₁.raw →
      report' = report.count config.lockTimeout (around.clock s.readings) r →
      r.isDue config.lockTimeout (around.clock s.readings) = true →
      (settle bucket r' forward >>= fun _ => pure report').Ensures (storing around t) s₁
        (Handled around t config s bucket report r) := by
    intro s₁ r' forward report' hr' hid hdecided hforward hsame htidied hfound' hreport hdue
    have hleft : ∀ {s' : MemoryItems}, r.isDue config.lockTimeout (around.clock s.readings) = false →
        s'.raw = s.raw := by
      intro s' hnot
      rw [hdue] at hnot
      cases hnot
    have hopen' := hsame.closed.trans hopen
    have hkey : r'.key = r.key := congrArg recordKey hid
    refine Program.ensures_bind.mpr
      ((ensures_settle hr' hdecided hforward hopen' (h.tidied htidied) hfound').mono ?_)
    rintro (f | _) s' ⟨hsame', htidied', hfailed, hgone⟩
    · refine ⟨hsame.trans hsame', htidied.trans (hid ▸ htidied'), fun hsafe => ?_,
        fun hsafe _ _ => hkey ▸ hgone hsafe, hleft⟩
      exact absurd (hfailed f rfl) hsafe
    · exact ⟨hsame.trans hsame', htidied.trans (hid ▸ htidied'), fun _ _ => congrArg _ hreport,
        fun hsafe _ _ => hkey ▸ hgone hsafe, hleft⟩
  unfold recoverRecord
  dsimp only
  cases hstate : r.state with
  | committed =>
    exact hsettle s r true _ hr rfl (by rw [hstate]; rfl) (by rw [hstate]; rfl) (.refl s) .refl hfound
      (by simp only [RecoveryReport.count, hstate]) (by simp only [Record.isDue, hstate])
  | aborted =>
    exact hsettle s r false _ hr rfl (by rw [hstate]; rfl) (by rw [hstate]; rfl) (.refl s) .refl hfound
      (by simp only [RecoveryReport.count, hstate]) (by simp only [Record.isDue, hstate])
  | reclaimed =>
    refine ⟨.refl s, .refl, fun _ _ => ?_, fun _ _ hdue => ?_, fun _ => rfl⟩
    · simp only [RecoveryReport.count, hstate]
    · simp [Record.isDue, hstate] at hdue
  | pending =>
    refine Program.ensures_bind.mpr (ensures_now ?_)
    dsimp only
    split
    · next hexpired =>
      have hdue : r.isDue config.lockTimeout (around.clock s.readings) = true := by
        simp only [Record.isDue, hstate, hexpired]
      have hsound : Contents.Sound known ({ s with readings := s.readings + 1 } : MemoryItems).raw :=
        h.sound
      refine Program.ensures_bind.mpr (ensures_transition (by rw [hstate]; rfl) ?_)
      refine Program.ensures_bind.mpr ((ensures_aborting hr hstate hsound).mono ?_)
      rintro reply s₁ ⟨hsame', htidied, haborted, hdeclined, hfailed⟩
      rcases reply with f | (_ | _)
      · have htrouble : s.raw bucket r.key = some r.item → t.Possible := by
          intro hstored
          apply (hfailed f rfl).resolve_right
          exact (offers_of_raw (s := { s with readings := s.readings + 1 }) hopen
            hstored).items_ne_error f
        exact ⟨hsame.trans hsame', htidied, fun hsafe hstored => absurd (htrouble hstored) hsafe,
          fun hsafe hstored _ => absurd (htrouble hstored) hsafe, fun hnot => nomatch hdue.symm.trans hnot⟩
      · exact ⟨hsame.trans hsame', htidied, fun _ hstored => absurd hstored (hdeclined rfl),
          fun _ hstored _ => absurd hstored (hdeclined rfl), fun hnot => nomatch hdue.symm.trans hnot⟩
      · refine hsettle s₁ { r with state := .aborted } false _ (hr.withState _) rfl rfl rfl
          (hsame.trans hsame') htidied ?_ ?_ hdue
        · apply (h.tidied htidied).attended.followed
          rw [haborted rfl]
          exact Places.put_same
        · simp only [RecoveryReport.count, hstate, hexpired, if_true]
    · next hlive =>
      refine ⟨hsame, .refl, fun _ _ => ?_, fun _ _ hdue => ?_, fun _ => rfl⟩
      · simp [RecoveryReport.count, hstate, hlive]
      · simp [Record.isDue, hstate, hlive] at hdue

/-- A record as it was found in the bucket of a store. -/
structure Found (s : MemoryItems) (bucket : Bytes) (found : Record × Bytes) : Prop where
  opened : s.closed = false
  addressable : found.1.Addressable
  bytes : found.2 = found.1.encode
  stored : s.raw bucket found.1.key = some found.1.item

theorem ensures_findRecords {config : Config} {limit : Nat} {token : Option Token}
    (hs : Contents.Sound known s.raw) :
    (findRecords config bucket limit token).Ensures (storing around t) s fun reply s' => s' = s ∧
      ∀ records, reply = .ok records → ∀ found ∈ records, Found s bucket found := by
  induction limit generalizing token with
  | zero => exact ⟨rfl, fun _ hreply => nomatch hreply⟩
  | succ limit ih =>
    refine Program.ensures_bind.mpr (ensures_scan ?_)
    cases hscan : s.scan bucket token config.pageSize with
    | error f => exact ⟨rfl, fun _ hok => nomatch hok⟩
    | ok page =>
      refine Program.ensures_bind.mpr (Program.ensures_ofExcept.mpr ?_)
      have hentries := raw_of_scan hscan
      cases hfound : recordsOf page.items with
      | error f => exact ⟨rfl, fun _ hok => nomatch hok⟩
      | ok records =>
        have hrecords : ∀ found ∈ records, Found s bucket found := by
          intro found hmem
          obtain ⟨⟨key, item⟩, hentry, hreserved, hvalue, hread⟩ := mem_recordsOf hfound found hmem
          have hstored := hentries _ hentry
          obtain ⟨r, hproper, rfl, rfl⟩ := (hs bucket key item hstored).record_of_reserved hreserved
          have hbytes : found.2 = r.encode := (Option.some.inj hvalue).symm
          rw [hbytes, Record.decode_encode hproper.addressable] at hread
          cases hread
          exact ⟨open_of_scan hscan, hproper.addressable, hbytes, hstored⟩
        dsimp only
        cases page.next with
        | none =>
          refine ⟨rfl, fun _ hok => ?_⟩
          cases hok
          exact hrecords
        | some next =>
          refine Program.ensures_bind.mpr (ih.mono ?_)
          rintro (f | later) s' ⟨hs', hlater⟩
          · exact ⟨hs', fun _ hok => nomatch hok⟩
          · refine ⟨hs', fun _ hok found hmem => ?_⟩
            cases hok
            rcases List.mem_append.mp hmem with hmem | hmem
            · exact hrecords found hmem
            · exact hlater later rfl found hmem

/-- Recovering a bucket tidies up after transactions, and does nothing else. -/
theorem ensures_recoverBucket {config : Config} {limit : Nat} (h : Contents.Kept known s.raw) :
    (recoverBucket config limit bucket).Ensures (storing around t) s fun _ s' =>
      Tidied (fun _ => True) s.raw s'.raw := by
  -- However far recovery has come, every record that was found can still be followed.
  have hfold : ∀ (records : List (Record × Bytes)) (report : RecoveryReport) (s₁ : MemoryItems),
      (∀ found ∈ records, Found s bucket found) → SameBuckets s s₁ →
      Tidied (fun _ => True) s.raw s₁.raw →
      (records.foldlM (recoverRecord config bucket) report).Ensures (storing around t) s₁ fun _ s' =>
        Tidied (fun _ => True) s.raw s'.raw := by
    intro records
    induction records with
    | nil => exact fun _ _ _ _ htidied => htidied
    | cons found rest ih =>
      intro report s₁ hfound hsame htidied
      obtain ⟨r, bytes⟩ := found
      obtain ⟨hopen, hr, hbytes, hstored⟩ := hfound _ (List.mem_cons_self ..)
      dsimp only at hr hbytes hstored
      subst hbytes
      have hfollowed := (h.attended.followed hstored).tidied hr h.sound htidied
      rw [List.foldlM_cons]
      refine Program.ensures_bind.mpr ((ensures_recoverRecord hr (hsame.closed.trans hopen)
        (h.tidied htidied) hfollowed).mono ?_)
      rintro (f | report') s₂ ⟨hsame', htidied', _, _, _⟩
      · exact htidied.trans (htidied'.mono fun _ _ => trivial)
      · exact ih report' s₂ (fun found hmem => hfound found (List.mem_cons_of_mem _ hmem))
          (hsame.trans hsame') (htidied.trans (htidied'.mono fun _ _ => trivial))
  refine Program.ensures_bind.mpr ((ensures_findRecords h.sound).mono ?_)
  rintro (f | records) s₁ ⟨rfl, hfound⟩
  · exact .refl
  · refine Program.ensures_bind.mpr
      ((hfold records {} s₁ (hfound records rfl) (.refl s₁) .refl).mono ?_)
    rintro (f | report) s' htidied
    · exact htidied
    · dsimp only
      split
      · exact htidied
      · exact htidied

end BucketStore.Staging
