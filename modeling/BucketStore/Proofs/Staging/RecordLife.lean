/-
  BucketStore/Proofs/Staging/RecordLife.lean
  ==========================================
  **A record is announced, decided once, and forgotten.**

  `RecordFits` is all that is supposed of a store: under the keys of records stand
  records that can be read, each under its own key.  Other engines, crashed clients
  and lost replies may have put them there, in whatever state.

  `Lives` says of a write that it moves the record under its key along the record's
  life, wherever its condition holds.  A flip does so because its condition asks for
  the very bytes that were read as the pending record: those bytes stand for that
  record alone, so nothing that was decided in between is overwritten.  Every call
  of the engine makes such writes only (`ensures_lives`).
-/
import BucketStore.Proofs.Listing
import BucketStore.Proofs.Staging.Soundness

namespace BucketStore.Staging

/-! ### The life of a record -/

/-- What stands under a reserved key is a record that can be read, of the transaction that the key
    names, and with keys that users may name. -/
def RecordFits (key : Bytes) (item : Item) : Prop :=
  isReservedKey key = true → ∃ r : Record, item.record? = some r ∧ key = r.key ∧
    ∀ place ∈ r.keys, isReservedKey place.2 = false

/-- Is the transaction committed or aborted? -/
def Record.Decided (r : Record) : Prop := r.state = .committed ∨ r.state = .aborted

/-- How the record under a key may change by one write, when `fresh` is the identifier just drawn. -/
inductive Life (fresh : Option String) : Option Record → Option Record → Prop
  | announced {r : Record} (hfresh : fresh = some r.id) (hpending : r.state = .pending) :
      Life fresh none (some r)
  | committed {r : Record} (hpending : r.state = .pending) :
      Life fresh (some r) (some { r with state := .committed })
  | aborted {r : Record} (hpending : r.state = .pending) :
      Life fresh (some r) (some { r with state := .aborted })
  | forgotten {r : Record} (hdecided : r.Decided) : Life fresh (some r) none

/-- Over whatever fits, the write leaves what fits, and moves the record under its key along its
    life. -/
def Lives (fresh : Option String) (key : Bytes) (x : Option Item) (condition : Precondition) : Prop :=
  ∀ stored, (∀ item, stored = some item → RecordFits key item) → condition.holds stored = true →
    (∀ item, x = some item → RecordFits key item) ∧
      (isReservedKey key = true → Life fresh (stored.bind Item.record?) (x.bind Item.record?))

/-- Writes move records along their lives, and what is read fits. The state of the contract is the
    identifier that was drawn and not used since. -/
def living : Contract Call Call.Reply (Option String) where
  needs
    | .write _ key x condition, fresh => Lives fresh key x condition
    | _, _ => True
  allows
    | .load _ key, fresh, r, fresh' =>
      (∀ item, r = .ok (some item) → RecordFits key item) ∧ fresh' = fresh
    | .scan _ _ _, fresh, r, fresh' =>
      (∀ page, r = .ok page → ∀ e ∈ page.items, RecordFits e.1 e.2) ∧ fresh' = fresh
    | .freshId, _, r, fresh' => (Bytes.ofString r).Addressable ∧ fresh' = some r
    | .write _ _ _ _, _, _, fresh' => fresh' = none
    | .now, fresh, _, fresh' => fresh' = fresh

section

variable {fresh : Option String} {key bytes : Bytes} {x stored : Option Item} {item : Item}
  {condition : Precondition} {r : Record} {α : Type}

theorem recordFits_of_user (hkey : isReservedKey key = false) : RecordFits key item :=
  fun hreserved => absurd (hkey.symm.trans hreserved) nofun

theorem Record.Usable.fits {known : String → Prop} (h : r.Usable known) : RecordFits r.key r.item :=
  fun _ => ⟨r, record?_item h.addressable, rfl, h.places⟩

/-- A record that was read from the bytes that a condition asks for is the one that stands there. -/
theorem record?_of_valueEquals (hread : Record.decode bytes = .ok r)
    (hholds : (Precondition.valueEquals bytes).holds stored = true) :
    stored.bind Item.record? = some r := by
  cases stored with
  | none => cases hholds
  | some item =>
    have hvalue : item.value = some bytes := by simpa [Precondition.holds] using hholds
    exact Item.record?_eq_some.mpr ⟨bytes, hvalue, hread⟩

/-- Whatever is issued moves the record under its key along its life. -/
theorem Issued.lives {commits : Prop} {known : String → Prop}
    (h : Issued commits known fresh key x condition) : Lives fresh key x condition := by
  intro stored _ hholds
  cases h with
  | plain hkey value condition =>
    exact ⟨fun _ _ => recordFits_of_user hkey, fun hreserved => absurd (hkey.symm.trans hreserved) nofun⟩
  | locked hkey value howner condition =>
    exact ⟨fun _ _ => recordFits_of_user hkey, fun hreserved => absurd (hkey.symm.trans hreserved) nofun⟩
  | @announced r hr hpending hfresh =>
    cases stored with
    | some item => cases hholds
    | none =>
      refine ⟨fun _ heq => Option.some.inj heq ▸ hr.fits, fun _ => ?_⟩
      rw [Option.bind_some, record?_item hr.addressable]
      exact .announced hfresh hpending
  | @decided r bytes state hr hread hpending hnext _ =>
    have hr' : ({ r with state } : Record).Usable known := hr.withState state
    refine ⟨fun _ heq => Option.some.inj heq ▸ hr'.fits, fun _ => ?_⟩
    rw [record?_of_valueEquals hread hholds, Option.bind_some, record?_item hr'.addressable]
    rcases canBecome_pending.mp hnext with rfl | rfl
    · exact .committed hpending
    · exact .aborted hpending
  | @forgotten r hr hnext =>
    refine ⟨fun _ heq => (nomatch heq), fun _ => ?_⟩
    rw [record?_of_valueEquals (Record.decode_encode hr.addressable) hholds]
    exact .forgotten (canBecome_reclaimed.mp hnext)

/-- What fits can be read. -/
theorem RecordFits.readable (h : RecordFits key item) : Readable (fun _ => True) key item := by
  intro hreserved
  obtain ⟨r, hrecord, hkey, hplaces⟩ := h hreserved
  obtain ⟨bytes, _, hread⟩ := Item.record?_eq_some.mp hrecord
  exact ⟨r, hrecord, hkey, Record.addressable_of_decode hread, trivial, hplaces⟩

/-- A protocol that issues writes of the known kinds only moves records along their lives. -/
theorem Issues.lives {p : Protocol α} (h : Issues p) :
    p.Ensures living none fun _ _ => True := by
  refine (Program.Ensures.transfer
    (fun (fresh : Option String) (names : Names) => names = ⟨fun _ => True, fresh⟩) ?_
    (h fun _ => True) rfl).mono fun _ _ _ => trivial
  rintro c fresh _ rfl hneeds
  cases c with
  | load bucket key =>
    refine ⟨trivial, ?_⟩
    rintro r _ ⟨hr, rfl⟩
    exact ⟨_, ⟨fun item hitem => (hr item hitem).readable, rfl⟩, rfl⟩
  | scan bucket token limit =>
    refine ⟨trivial, ?_⟩
    rintro r _ ⟨hr, rfl⟩
    exact ⟨_, ⟨fun page hpage e he => (hr page hpage e he).readable, rfl⟩, rfl⟩
  | now =>
    refine ⟨trivial, ?_⟩
    rintro r _ rfl
    exact ⟨_, rfl, rfl⟩
  | freshId =>
    refine ⟨trivial, ?_⟩
    rintro r _ ⟨hr, rfl⟩
    refine ⟨_, ⟨hr, rfl⟩, ?_⟩
    simp only [true_or]
    rfl
  | write bucket key x condition =>
    have hissued : Issued True (fun _ => True) fresh key x condition := hneeds
    refine ⟨hissued.lives, ?_⟩
    rintro r _ rfl
    exact ⟨_, rfl, rfl⟩

end

/-! ### The calls of the engine -/

/-- What an engine can be asked for on a store that is in use. -/
inductive EngineCall where
  | get (bucket key : Bytes)
  | set (config : Config) (bucket key value : Bytes)
  | delete (config : Config) (bucket key : Bytes)
  | compareAndSwap (config : Config) (bucket key : Bytes) (old : Option Bytes) (new : Bytes)
  | list (config : Config) (limit : Nat) (bucket : Bytes)
  | update (config : Config) (backend : Backend) (tx : Transaction)
  | recover (config : Config) (limit : Nat) (bucket : Bytes)

namespace EngineCall

/-- The protocol of the call, without its answer. -/
def program : EngineCall → Protocol Unit
  | get bucket key => discard (Engine.get bucket key)
  | set config bucket key value => Engine.set config bucket key value
  | delete config bucket key => Engine.delete config bucket key
  | compareAndSwap config bucket key old new =>
    discard (Engine.compareAndSwap config bucket key old new)
  | list config limit bucket => discard (Engine.list config limit bucket)
  | update config backend tx => discard (Engine.update config backend tx)
  | recover config limit bucket => discard (Engine.recover config limit bucket)

/-- The places that the caller names. -/
def places : EngineCall → List (Bytes × Bytes)
  | get bucket key => [(bucket, key)]
  | set _ bucket key _ => [(bucket, key)]
  | delete _ bucket key => [(bucket, key)]
  | compareAndSwap _ bucket key _ _ => [(bucket, key)]
  | update _ _ tx => tx.touched
  | list _ _ _ => []
  | recover _ _ _ => []

/-- The call fits into memory. -/
def Addressable : EngineCall → Prop
  | update _ _ tx => tx.Addressable
  | _ => True

end EngineCall

variable {call : EngineCall} {α : Type}

theorem Issues.discard {p : Protocol α} (h : Issues p) : Issues (Functor.discard p) :=
  fun known => Program.ensures_discard.mpr (h known)

theorem issues_program (h : call.Addressable) : Issues call.program := by
  cases call with
  | get bucket key => exact (issues_get bucket key).discard
  | set config bucket key value => exact issues_set config bucket key value
  | delete config bucket key => exact issues_delete config bucket key
  | compareAndSwap config bucket key old new =>
    exact (issues_compareAndSwap config bucket key old new).discard
  | list config limit bucket => exact (issues_list config limit bucket).discard
  | update config backend tx => exact (issues_update config backend h).discard
  | recover config limit bucket => exact (issues_recover config limit bucket).discard

theorem ensures_lives (h : call.Addressable) :
    call.program.Ensures living none fun _ _ => True := (issues_program h).lives

/-! ### Reserved keys -/

theorem ensures_onKey_reserved {action : String} {bucket key : Bytes} {p : Protocol α}
    (hkey : isReservedKey key = true) :
    (Engine.onKey action bucket key p).Ensures .silent () fun r _ => ∃ f, r = .error f := by
  apply ensures_onKey
  · exact fun f _ => ⟨f, rfl⟩
  · exact fun _ f => ⟨f, rfl⟩
  · intro _ huser
    rw [hkey] at huser
    cases huser

theorem ensures_discard_failure {σ : Type} {K : Contract Call Call.Reply σ} {s : σ} {p : Protocol α}
    (h : p.Ensures K s fun r _ => ∃ f, r = .error f) :
    (Functor.discard p).Ensures K s fun r _ => ∃ f, r = .error f := by
  refine Program.ensures_discard.mpr (h.mono ?_)
  rintro _ _ ⟨f, rfl⟩
  exact ⟨f, rfl⟩

/-- A call that names a reserved key fails and asks nothing of the store. -/
theorem ensures_refused (h : ∃ place ∈ call.places, isReservedKey place.2 = true) :
    call.program.Ensures .silent () fun r _ => ∃ f, r = .error f := by
  obtain ⟨⟨b, k⟩, hplace, hkey⟩ := h
  cases call with
  | get bucket key =>
    cases List.mem_singleton.mp hplace
    exact ensures_discard_failure (ensures_onKey_reserved hkey)
  | set config bucket key value =>
    cases List.mem_singleton.mp hplace
    exact ensures_onKey_reserved hkey
  | delete config bucket key =>
    cases List.mem_singleton.mp hplace
    exact ensures_onKey_reserved hkey
  | compareAndSwap config bucket key old new =>
    cases List.mem_singleton.mp hplace
    exact ensures_discard_failure (ensures_onKey_reserved hkey)
  | list config limit bucket => cases hplace
  | recover config limit bucket => cases hplace
  | update config backend tx =>
    refine ensures_discard_failure (ensures_engineUpdate ?_ ?_ ?_ ?_)
    · exact fun _ => ⟨_, rfl⟩
    · exact fun f _ => ⟨f, rfl⟩
    · exact fun _ f => ⟨f, rfl⟩
    · intro _ huser
      rw [huser (b, k) hplace] at hkey
      cases hkey

theorem ensures_visibleItems_user (seen : SeenStates) (items : List (Bytes × Item)) :
    (visibleItems seen items).Ensures .free () fun r _ => ∀ shown seen', r = .ok (shown, seen') →
      ∀ e ∈ shown, isReservedKey e.1 = false := by
  induction items generalizing seen with
  | nil =>
    rintro _ _ ⟨⟩
    simp
  | cons entry rest ih =>
    obtain ⟨key, item⟩ := entry
    -- What is shown of one item is put before what is shown of the rest.
    have hcons : isReservedKey key = false → ∀ (value : Option Bytes) (seen : SeenStates),
        (visibleItems seen rest >>= fun later =>
          pure ((key, value) :: later.1, later.2)).Ensures .free () fun r _ =>
          ∀ shown seen', r = .ok (shown, seen') → ∀ e ∈ shown, isReservedKey e.1 = false := by
      intro hkey value seen
      refine Program.ensures_bind.mpr ((ih seen).mono ?_)
      rintro (f | ⟨later, seen''⟩) _ hlater
      · simp
      · rintro _ _ ⟨⟩
        exact List.forall_mem_cons.mpr ⟨hkey, hlater later seen'' rfl⟩
    unfold visibleItems
    split
    · exact ih seen
    · next hkey =>
      have huser : isReservedKey key = false := by simpa using hkey
      split
      · exact hcons huser item.value seen
      · next lock _ =>
        have hstate : (seenState seen lock).Ensures .free () fun _ _ => True :=
          Program.Ensures.free _
        refine Program.ensures_bind.mpr (hstate.mono ?_)
        rintro (f | ⟨state, seen'⟩) _ _
        · simp
        · exact hcons huser (item.visibleIn lock state) seen'

/-- Whatever a listing is replied to, it gives no reserved key. -/
theorem ensures_list_user (config : Config) (limit : Nat) (bucket : Bytes) :
    (Engine.list config limit bucket).Ensures .free () fun r _ =>
      ∀ entries, r = .ok entries → ∀ e ∈ entries, isReservedKey e.key = false := by
  have hfetch : ∀ (seen : SeenStates) (token : Option Token) (s : Unit),
      (fetchVisible config bucket seen token).Ensures .free s fun r _ => ∀ page seen',
        r = .ok (page, seen') → ∀ item ∈ page.items, ∀ e, entryOf bucket item = .ok (some e) →
          isReservedKey e.key = false := by
    intro seen token _
    refine Program.ensures_bind.mpr ((Program.Ensures.free _).mono ?_)
    rintro (f | page) _ _
    · exact fun _ _ hr => nomatch hr
    · refine Program.ensures_bind.mpr ((ensures_visibleItems_user seen page.items).mono ?_)
      rintro (f | ⟨shown, seen'⟩) _ hshown
      · exact fun _ _ hr => nomatch hr
      · rintro _ _ ⟨⟩ item hitem e hentry
        obtain ⟨value, _, rfl⟩ := Option.map_eq_some_iff.mp (Except.ok.inj hentry)
        exact hshown shown seen' rfl item hitem
  refine Program.ensures_bind.mpr (Program.ensures_check.mpr ?_)
  cases checkBucket bucket with
  | error f => exact fun _ hr => nomatch hr
  | ok _ =>
    apply Program.ensures_mapFailure.mpr
    apply Program.ensures_noteFailure.mpr
    refine (ensures_listAll_forall hfetch limit [] ()).mono ?_
    rintro (f | entries) _ hentries
    · exact fun _ hr => nomatch hr
    · exact hentries

end BucketStore.Staging
