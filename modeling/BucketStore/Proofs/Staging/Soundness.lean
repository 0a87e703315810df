/-
  BucketStore/Proofs/Staging/Soundness.lean
  =========================================
  **Whatever the engine is asked to do, the store stays well-formed.**

  Recovery and the calls of the engine keep to the lifecycle of records like the
  protocols that they are made of (`Issues`).  Put on a store in memory, that makes
  well-formedness an invariant (`sound_run`): no run leaves a store that is not
  sound, whatever goes wrong with its writes.
-/
import BucketStore.Proofs.Staging.Lifecycle

namespace BucketStore.Staging

variable {commits : Prop} {known : String → Prop} {α : Type}

/-! ### Recovery -/

theorem abides_findRecords (config : Config) (bucket : Bytes) (limit : Nat)
    (token : Option Token) :
    Abides commits known (findRecords config bucket limit token) fun found =>
      ∀ e ∈ found, e.1.Usable known ∧ Record.decode e.2 = .ok e.1 := by
  refine Abides.mono (steady_findRecords (fun _ => abides_scan) limit token) fun found hfound e he => ?_
  obtain ⟨entry, hreadable, hreserved, hvalue, hread⟩ := hfound e he
  obtain ⟨r, hrecord, _, husable⟩ := hreadable hreserved
  obtain ⟨bytes, hbytes, hr⟩ := Item.record?_eq_some.mp hrecord
  cases hvalue.symm.trans hbytes
  cases hread.symm.trans hr
  exact ⟨husable, hread⟩

theorem abides_settle (bucket : Bytes) {record : Record} (husable : record.Usable known)
    (hnext : record.state.canBecome .reclaimed = true) (forward : Bool) :
    Abides commits known (settle bucket record forward) fun _ => True := by
  have hkeys : Abides commits known (settleKeys record forward record.keys) fun _ => True :=
    keeps_settleKeys reads_issuing fun place hplace value =>
      abides_write (.plain (husable.places place hplace) value _)
  exact hkeys.bind fun _ _ => abides_reclaim bucket husable hnext

theorem abides_recoverRecord (config : Config) (bucket : Bytes) (report : RecoveryReport)
    {found : Record × Bytes} (husable : found.1.Usable known) (hread : Record.decode found.2 = .ok found.1) :
    Abides commits known (recoverRecord config bucket report found) fun _ => True := by
  obtain ⟨record, bytes⟩ := found
  dsimp only at husable hread
  unfold recoverRecord
  dsimp only
  cases hstate : record.state with
  | committed =>
    exact (abides_settle bucket husable (by rw [hstate]; rfl) true).bind fun _ _ => abides_pure trivial
  | aborted =>
    exact (abides_settle bucket husable (by rw [hstate]; rfl) false).bind fun _ _ => abides_pure trivial
  | reclaimed => exact abides_pure trivial
  | pending =>
    refine abides_now.bind fun now _ => ?_
    split
    · refine steady_transition.bind ?_
      rintro _ rfl
      refine (abides_write (issued_abort husable hread hstate)).bind fun written _ => ?_
      split
      · exact (abides_settle bucket (husable.withState .aborted) rfl false).bind fun _ _ =>
          abides_pure trivial
      · exact abides_pure trivial
    · exact abides_pure trivial

theorem abides_recoverBucket (config : Config) (limit : Nat) (bucket : Bytes) :
    Abides commits known (recoverBucket config limit bucket) fun _ => True :=
  keeps_recoverBucket (abides_findRecords config bucket limit none)
    fun report _ hfound => abides_recoverRecord config bucket report hfound.1 hfound.2

/-! ### The calls of the engine -/

/-- The protocol issues writes of the known kinds only, whatever is known before. -/
def Issues (p : Protocol α) : Prop :=
  ∀ known, p.Ensures (issuing True) ⟨known, none⟩ fun _ _ => True

theorem Abides.issues {p : Protocol α} {P : α → Prop} (h : ∀ known, Abides True known p P) :
    Issues p := fun known => Program.Ensures.mono (h known) fun _ _ _ => trivial

theorem ReadsOnly.issues {p : Protocol α} (h : ReadsOnly p) : Issues p := by
  intro known
  refine ReadsOnly.ensures (P := fun _ => True) h ?_ (fun _ _ _ _ _ _ _ => trivial) trivial
  intro c names hreads
  cases c with
  | write => cases hreads
  | load => trivial
  | scan => trivial
  | now => trivial
  | freshId => trivial

theorem abides_onKey {action : String} {bucket key : Bytes} {p : Protocol α}
    (h : isReservedKey key = false → Abides commits known p fun _ => True) :
    Abides commits known (Engine.onKey action bucket key p) fun _ => True :=
  keeps_onKey fun _ hkey => h hkey

theorem issues_get (bucket key : Bytes) : Issues (Engine.get bucket key) :=
  (readsOnly_get bucket key).issues

theorem issues_list (config : Config) (limit : Nat) (bucket : Bytes) :
    Issues (Engine.list config limit bucket) := (readsOnly_list config limit bucket).issues

theorem issues_set (config : Config) (bucket key value : Bytes) :
    Issues (Engine.set config bucket key value) :=
  Abides.issues fun _ => abides_onKey fun hkey => abides_writeKey config bucket hkey (some value)

theorem issues_delete (config : Config) (bucket key : Bytes) :
    Issues (Engine.delete config bucket key) :=
  Abides.issues fun _ => abides_onKey fun hkey => abides_writeKey config bucket hkey none

theorem issues_compareAndSwap (config : Config) (bucket key : Bytes) (old : Option Bytes)
    (new : Bytes) : Issues (Engine.compareAndSwap config bucket key old new) :=
  Abides.issues fun _ => abides_onKey fun hkey => abides_swapKey config bucket hkey old new

theorem issues_recover (config : Config) (limit : Nat) (bucket : Bytes) :
    Issues (Engine.recover config limit bucket) :=
  Abides.issues fun _ => (abides_check fun _ _ => trivial).bind fun _ _ =>
    (abides_recoverBucket config limit bucket).mapFailure _

theorem forM_checkUserKey {tx : Transaction} :
    List.forM tx (fun op => checkUserKey op.bucket op.key) = .ok () ↔
      ∀ place ∈ tx.touched, isReservedKey place.2 = false := by
  have hops : List.forM tx (fun op => checkUserKey op.bucket op.key) = .ok () ↔
      ∀ op ∈ tx, isReservedKey op.key = false := by
    induction tx with
    | nil => exact ⟨fun _ _ hop => (nomatch hop), fun _ => rfl⟩
    | cons op rest ih =>
      change (checkUserKey op.bucket op.key >>= fun _ =>
        List.forM rest fun op => checkUserKey op.bucket op.key) = .ok () ↔ _
      rw [List.forall_mem_cons, ← ih]
      unfold checkUserKey
      cases hkey : isReservedKey op.key with
      | true => simp [bind, Except.bind]
      | false => simp [bind, Except.bind]
  rw [hops]
  constructor
  · intro h place hplace
    obtain ⟨op, hop, rfl⟩ := Transaction.mem_touched.mp hplace
    exact h op hop
  · intro h op hop
    exact h _ (Transaction.mem_touched.mpr ⟨op, hop, rfl⟩)

theorem ensures_engineUpdate {σ : Type} {K : Contract Call Call.Reply σ} {s : σ} {config : Config}
    {backend : Backend} {tx : Transaction} {Q : Except Failure TxOutcome → σ → Prop}
    (hoff : config.emulatedTransactions = false → Q (.error (Engine.noUpdates backend)) s)
    (hcheck : ∀ f, tx.check = .error f → Q (.error f) s)
    (hreserved : ¬(∀ place ∈ tx.touched, isReservedKey place.2 = false) → ∀ f, Q (.error f) s)
    (hrun : tx.check = .ok () → (∀ place ∈ tx.touched, isReservedKey place.2 = false) →
      (updateKeys config tx).Ensures K s Q) :
    (Engine.update config backend tx).Ensures K s Q := by
  unfold Engine.update
  split
  · refine Program.ensures_bind.mpr (Program.ensures_check.mpr ?_)
    cases hchecked : tx.check with
    | error f => exact hcheck f hchecked
    | ok _ =>
      refine Program.ensures_bind.mpr (Program.ensures_check.mpr ?_)
      cases huser : List.forM tx fun op => checkUserKey op.bucket op.key with
      | error f =>
        apply hreserved
        rw [← forM_checkUserKey, huser]
        exact fun heq => nomatch heq
      | ok _ =>
        apply Program.ensures_noteFailure.mpr
        exact hrun hchecked (forM_checkUserKey.mp huser)
  · next hoff' => exact hoff (by simpa using hoff')

theorem issues_update (config : Config) (backend : Backend) {tx : Transaction}
    (htx : tx.Addressable) : Issues (Engine.update config backend tx) := by
  intro known
  apply ensures_engineUpdate
  · exact fun _ => trivial
  · exact fun _ _ => trivial
  · exact fun _ _ => trivial
  · exact fun _ huser => ensures_updateKeys trivial config htx huser

/-! ### Runs on a store in memory -/

section

variable {around : Surroundings} {s : MemoryItems}

open MemoryItems

theorem mem_page {limit : UInt64} {entries : List (Bytes × Item)} {found : Page (Bytes × Item)}
    {e : Bytes × Item} (h : page limit entries = .ok found) (he : e ∈ found.items) : e ∈ entries := by
  obtain ⟨most, _, hcut⟩ := bind_eq_ok.mp h
  dsimp only at hcut
  split at hcut
  · cases hcut
    exact List.mem_of_mem_take (List.mem_of_mem_take he)
  · cases hcut
    exact List.mem_of_mem_take he

theorem mem_after {items : KeyMap Bytes Item} {token : Option Token} {e : Bytes × Item}
    (h : e ∈ items.after token) : e ∈ items.entries := by
  unfold KeyMap.after at h
  split at h
  · exact h
  · exact (List.mem_filter.mp h).1

theorem open_of_scan {bucket : Bytes} {token : Option Token} {limit : UInt64}
    {found : Page (Bytes × Item)} (h : s.scan bucket token limit = .ok found) :
    s.closed = false := by
  unfold scan at h
  cases hitems : s.items bucket with
  | error f =>
    rw [hitems] at h
    cases h
  | ok items => exact (offers_of_items hitems).1

theorem raw_of_scan {bucket : Bytes} {token : Option Token} {limit : UInt64}
    {found : Page (Bytes × Item)} (h : s.scan bucket token limit = .ok found) :
    ∀ e ∈ found.items, s.raw bucket e.1 = some e.2 := by
  intro e he
  unfold scan at h
  cases hitems : s.items bucket with
  | error f =>
    rw [hitems] at h
    cases h
  | ok items =>
    rw [hitems] at h
    rw [← get?_eq_raw hitems]
    exact (KeyMap.mem_entries_iff items).mp (mem_after (mem_page h he))

theorem raw_of_load {bucket key : Bytes} {item : Item} (h : s.load bucket key = .ok (some item)) :
    s.raw bucket key = some item := by
  unfold MemoryItems.load at h
  cases hitems : s.items bucket with
  | error f =>
    rw [hitems] at h
    cases h
  | ok items =>
    rw [hitems] at h
    rw [← get?_eq_raw hitems]
    exact Except.ok.inj h

/-- What a sound store replies to the calls that are issued is readable, and it stays sound. -/
theorem issuing_of_storing {t : Trouble} (hids : around.Addressable) {c : Call} {s s' : MemoryItems}
    {names : Names} {r : Call.Reply c} (hs : Contents.Sound names.known s.raw)
    (hneeds : (issuing commits).needs c names) (h : (storing around t).allows c s r s') :
    ∃ names', (issuing commits).allows c names r names' ∧ Contents.Sound names'.known s'.raw ∧
      (names.known = around.drawn s.drawn → names'.known = around.drawn s'.drawn) := by
  cases c with
  | load bucket key =>
    obtain ⟨rfl, rfl⟩ := h
    exact ⟨_, ⟨fun item hitem => (hs bucket key item (raw_of_load hitem)).readable, rfl⟩, hs, id⟩
  | scan bucket token limit =>
    obtain ⟨rfl, rfl⟩ := h
    refine ⟨_, ⟨fun found hfound e he => ?_, rfl⟩, hs, id⟩
    exact (hs bucket e.1 e.2 (raw_of_scan hfound e he)).readable
  | now =>
    obtain ⟨rfl, rfl⟩ := h
    exact ⟨_, rfl, hs, id⟩
  | freshId =>
    obtain ⟨rfl, rfl⟩ := h
    refine ⟨_, ⟨hids s.drawn, rfl⟩, hs.mono fun _ => .inl, fun hknown => ?_⟩
    rw [around.drawn_succ, hknown]
  | write bucket key x condition =>
    have hwritten : Written t bucket key x condition s r s' := h
    have hissued : Issued commits names.known names.fresh key x condition := hneeds
    refine ⟨_, rfl, ?_, fun hknown => by rw [hwritten.drawn]; exact hknown⟩
    rcases hwritten.raw with heq | ⟨_, heq⟩
    · exact heq ▸ hs
    · exact heq ▸ hs.put hissued.wellFormed

/-- A protocol that issues writes of the known kinds only leaves a sound store sound, whatever goes
    wrong. -/
theorem ensures_sound {p : Protocol α} {t : Trouble} (h : Issues p) (hids : around.Addressable)
    (hs : s.Sound around) : p.Ensures (storing around t) s fun _ s' => s'.Sound around := by
  refine (Program.Ensures.transfer (fun (s : MemoryItems) (names : Names) =>
    Contents.Sound names.known s.raw ∧ names.known = around.drawn s.drawn) ?_
    (h (around.drawn s.drawn)) ⟨hs, rfl⟩).mono ?_
  · rintro c s names ⟨hs, hknown⟩ hneeds
    refine ⟨trivial, fun r s' hr => ?_⟩
    obtain ⟨names', hallowed, hs', hknown'⟩ := issuing_of_storing hids hs hneeds hr
    exact ⟨names', hallowed, hs', hknown' hknown⟩
  · rintro r s' ⟨_, _, hs', hknown⟩
    unfold MemoryItems.Sound
    rw [← hknown]
    exact hs'

theorem sound_run {p : Protocol α} (h : Issues p) (hids : around.Addressable)
    (hs : s.Sound around) : (p.run (respond around) s).state.Sound around :=
  run_of_faults (ensures_sound h hids hs)

end

end BucketStore.Staging
