/-
  BucketStore/Proofs/Staging/Truthful.lean
  ========================================
  **An update answers if its record was committed, and fails if it never was.**

  Whether writes are refused or only the replies to them get lost, nothing but the
  commit of an update ever puts its record in the committed state (`Abides.quiet`),
  and the commit knows at its end whether it did: it has read the record back
  unless the flip plainly succeeded (`ensures_commit_noted`).  So the answer of an
  update and the history of its record agree (`ensures_updateKeys_truthful`).
-/
import BucketStore.Proofs.History
import BucketStore.Proofs.Staging.Committing
import BucketStore.Proofs.Staging.Soundness

namespace BucketStore.Staging

open MemoryItems

/-- The record of the transaction stands committed in some bucket. -/
def Contents.HasCommitted (c : Contents) (id : String) : Prop :=
  ∃ bucket r, c.record? bucket id = some r ∧ r.state = .committed

/-- A store in memory, with what may go wrong, and with a note whether the record of the transaction
    was committed after any call. -/
def watching (around : Surroundings) (t : Trouble) (id : String) :
    Contract Call Call.Reply (MemoryItems × Prop) :=
  (storing around t).noting fun s => Contents.HasCommitted s.raw id

/-- The update answers if, and only if, a committed record was noted. -/
def Truthful (r : Except Failure TxOutcome) (s : MemoryItems × Prop) : Prop :=
  (∃ outcome, r = .ok outcome) ↔ s.2

variable {around : Surroundings} {t : Trouble} {known : String → Prop} {staged : Staged}
  {c : Contents} {state : Option TxState} {held : Places Pending} {s : MemoryItems} {id : String}
  {seen : Prop} {α : Type}

theorem truthful_error {f : Failure} {s : MemoryItems × Prop} (h : ¬s.2) : Truthful (.error f) s :=
  ⟨fun ⟨_, heq⟩ => (nomatch heq), fun hseen => absurd hseen h⟩

/-! ### Where the record is -/

theorem Laid.hasCommitted (h : Laid staged c state held s) (hr : staged.record.Addressable) :
    Contents.HasCommitted s.raw staged.record.id ↔ state = some .committed := by
  have hrecord : Contents.record? s.raw staged.recordBucket staged.record.id =
      state.map staged.decided := by
    rw [Contents.record?_eq]
    have hitem : s.raw staged.recordBucket (recordKey staged.record.id) = _ := h.layers.item_record
    rw [hitem]
    cases state with
    | none => rfl
    | some now => exact record?_item (hr.withState now)
  constructor
  · rintro ⟨bucket, r, hr', hcommitted⟩
    have hhome : bucket = staged.recordBucket := by
      refine h.layers.home_record fun hnone => ?_
      rw [Contents.record?_eq, hnone] at hr'
      cases hr'
    rw [hhome, hrecord] at hr'
    obtain ⟨now, rfl, rfl⟩ := Option.map_eq_some_iff.mp hr'
    exact congrArg some hcommitted
  · rintro rfl
    exact ⟨staged.recordBucket, _, hrecord, rfl⟩

theorem Contents.Foreign.not_hasCommitted (h : c.Foreign id) : ¬c.HasCommitted id := by
  rintro ⟨bucket, r, hr, _⟩
  rw [Contents.record?_eq, h.record bucket] at hr
  cases hr

/-- No write but a commit puts a record in the committed state. -/
theorem Issued.not_hasCommitted {fresh : Option String} {bucket key : Bytes} {x : Option Item}
    {condition : Precondition} (h : Issued False known fresh key x condition)
    (hnone : ¬c.HasCommitted id) : ¬Contents.HasCommitted (c.put bucket key x) id := by
  rintro ⟨b, r, hr, hcommitted⟩
  rw [Contents.record?_eq] at hr
  by_cases hplace : b = bucket ∧ recordKey id = key
  · obtain ⟨rfl, rfl⟩ := hplace
    rw [Places.put_same] at hr
    have hreserved := isReservedKey_recordKey id
    generalize recordKey id = key at h hreserved
    cases h with
    | plain hkey value condition => exact absurd (hkey.symm.trans hreserved) nofun
    | locked hkey value howner condition => exact absurd (hkey.symm.trans hreserved) nofun
    | @announced r' hr' hpending _ =>
      rw [Option.bind_some, record?_item hr'.addressable] at hr
      cases hr
      rw [hpending] at hcommitted
      cases hcommitted
    | @decided r' bytes state hr' _ _ _ hcommits =>
      rw [Option.bind_some, record?_item (hr'.addressable.withState state)] at hr
      cases hr
      exact hcommits hcommitted
    | forgotten _ _ => cases hr
  · rw [Places.put_other hplace, ← Contents.record?_eq] at hr
    exact hnone ⟨b, r, hr, hcommitted⟩

/-! ### Protocols that commit nothing -/

/-- A protocol that commits nothing leaves the record uncommitted all the way. -/
theorem Abides.quiet {p : Protocol α} {P : α → Prop} (h : Abides False known p P)
    (hids : around.Addressable) (hs : Contents.Sound known s.raw)
    (hnone : ¬Contents.HasCommitted s.raw id) (hseen : ¬seen) :
    p.Ensures (watching around t id) (s, seen) fun r s' => ¬s'.2 ∧ ∀ a, r = .ok a → P a := by
  refine (Program.Ensures.transfer (fun (s : MemoryItems × Prop) (names : Names) =>
    Contents.Sound names.known s.1.raw ∧ ¬Contents.HasCommitted s.1.raw id ∧ ¬s.2) ?_ h
    ⟨hs, hnone, hseen⟩).mono ?_
  · rintro c s names ⟨hs, hnone, hseen⟩ hneeds
    refine ⟨trivial, ?_⟩
    rintro r s' ⟨hr, hnoted⟩
    obtain ⟨names', hallowed, hs', _⟩ := issuing_of_storing hids hs hneeds hr
    have hnone' : ¬Contents.HasCommitted s'.1.raw id := by
      cases c with
      | write bucket key x condition =>
        have hissued : Issued False names.known names.fresh key x condition := hneeds
        have hwritten : Written t bucket key x condition s.1 r s'.1 := hr
        rcases hwritten.raw with hraw | ⟨_, hraw⟩
        · rw [hraw]
          exact hnone
        · rw [hraw]
          exact hissued.not_hasCommitted hnone
      | freshId =>
        obtain ⟨_, heq⟩ := hr
        rw [heq]
        exact hnone
      | load bucket key => rwa [(stored_of_reads rfl hr).1]
      | scan bucket token limit => rwa [(stored_of_reads rfl hr).1]
      | now => rwa [(stored_of_reads rfl hr).1]
    exact ⟨names', hallowed, hs', hnone', fun h => (hnoted.mp h).elim hseen hnone'⟩
  · rintro r s' ⟨_, ⟨_, hP⟩, _, _, hseen'⟩
    exact ⟨hseen', hP⟩

/-! ### The commit -/

/-- After the flip the record is only read, so a committed record that was noted is still there. -/
theorem ensures_commit_noted (hpending : staged.record.state = .pending) :
    (commit staged).Ensures (watching around t id) (s, seen) fun _ s' =>
      s'.2 ↔ seen ∨ Contents.HasCommitted s'.1.raw id := by
  refine Program.ensures_bind.mpr (ensures_transition (by rw [hpending]; rfl) ?_)
  refine Program.ensures_bind.mpr ⟨trivial, ?_⟩
  rintro r s₁ ⟨_, hnoted⟩
  have hrest : ∀ p : Protocol (Except Failure Unit), ReadsOnly p →
      p.Ensures (watching around t id) s₁ fun _ s' =>
        s'.2 ↔ seen ∨ Contents.HasCommitted s'.1.raw id := by
    intro p hp
    refine ReadsOnly.ensures (P := fun s' : MemoryItems × Prop =>
      s'.2 ↔ seen ∨ Contents.HasCommitted s'.1.raw id) hp (fun _ _ _ => trivial) ?_ hnoted
    rintro c s₂ r s₃ hreads hs₂ ⟨hr, hnoted'⟩
    dsimp only at hnoted'
    rw [hnoted', hs₂, (stored_of_reads hreads hr).1, or_assoc, or_self]
  have hask : ∀ reply : Except Failure Unit, ReadsOnly (do
      if ← isCommitted staged then
        .log (Log.warn
          s!"Commit of transaction {staged.record.id} reported {flipDetail r} but its record is committed")
        return .ok ()
      else return reply : Protocol (Except Failure Unit)) := by
    intro reply
    refine readsOnly_isCommitted.bind fun committed => ?_
    split
    · exact readsOnly_log.bind fun _ => readsOnly_pure
    · exact readsOnly_pure
  cases r with
  | error f => exact hrest _ (hask (.error f))
  | ok flipped =>
    cases flipped with
    | true => exact hrest _ readsOnly_pure
    | false => exact hrest _ (hask (.error (.abortedEarly staged.record.id)))

/-! ### The update -/

variable (hproper : staged.record.Proper known) (hpending : staged.record.state = .pending)
  {locks : List Locked} {tx : Transaction}
include hproper hpending

theorem ensures_giveUp_truthful {f : Failure} (hids : around.Addressable)
    (hs : Contents.Sound known s.raw)
    (hnone : ¬Contents.HasCommitted s.raw id) (hseen : ¬seen)
    (hkeys : ∀ l ∈ locks, isReservedKey l.key = false) :
    (do
      abort staged locks
      .fail f : Protocol TxOutcome).Ensures (watching around t id) (s, seen) Truthful := by
  have habort : Abides False known (abort staged locks) _ :=
    abides_abort hproper.toUsable hpending hkeys
  refine Program.ensures_bind.mpr ((habort.quiet hids hs hnone hseen).mono ?_)
  rintro (f' | _) s' ⟨hseen', _⟩
  · exact truthful_error hseen'
  · exact truthful_error hseen'

theorem ensures_runStaged_truthful {config : Config} (hids : around.Addressable)
    (huser : ∀ place ∈ tx.touched, isReservedKey place.2 = false) (hc : c.Sound known)
    (h : Laid staged c (some .pending) (fun _ _ => none) s) (hseen : ¬seen) :
    (runStaged config staged tx).Ensures (watching around t staged.record.id) (s, seen) Truthful := by
  have haddressable := hproper.addressable
  have hnot : ∀ {c' : Contents} {held : Places Pending} {s' : MemoryItems},
      Laid staged c' (some .pending) held s' →
      ¬Contents.HasCommitted s'.raw staged.record.id := fun hlaid hcommitted =>
    nomatch (hlaid.hasCommitted haddressable).mp hcommitted
  have hsound : ∀ {c' : Contents} {held : Places Pending} {s' : MemoryItems},
      Tidied (· ≠ staged.record.id) c c' → Laid staged c' (some .pending) held s' →
      Contents.Sound known s'.raw := fun htidied hlaid =>
    hlaid.layers.sound hproper (htidied.sound hc) nofun
  have hprepare : Abides False known (prepare config staged tx) _ :=
    abides_prepare hproper.toUsable config huser
  refine Program.ensures_bind.mpr ((((ensures_prepare hproper huser hc h).noting seen).and
    (hprepare.quiet hids (hsound .refl h) (hnot h) hseen)).mono ?_)
  rintro r ⟨s₁, seen₁⟩ ⟨hprepared, hseen₁, hkeys⟩
  dsimp only at hprepared hseen₁
  cases hprepared with
  | failed htidied hlaid _ _ _ _ _ =>
    exact ensures_giveUp_truthful hproper hpending hids (hsound htidied hlaid) (hnot hlaid) hseen₁
      (hkeys _ rfl)
  | @ready c' held s₁ locks ws outcome v htidied hlaid hlocks _ hheld _ hcurrent _ =>
    refine Program.ensures_bind.mpr ((((ensures_commit hproper hpending hlaid).noting seen₁).and
      (ensures_commit_noted hpending)).mono ?_)
    rintro r ⟨s₂, seen₂⟩ ⟨hcommit, hnoted⟩
    rcases hcommit with ⟨rfl, hlaid'⟩ | ⟨_, f, rfl, hlaid'⟩
    · -- What is noted stays noted, and applying the writes cannot fail.
      have hseen₂ : seen₂ := hnoted.mpr (.inr ((hlaid'.hasCommitted haddressable).mpr rfl))
      have hplace : ∀ l ∈ locks, held l.bucket l.key ≠ none := fun l hl =>
        (hheld _ _).mpr (hlocks ▸ List.mem_map.mpr ⟨l, hl, rfl⟩)
      have hclear : (applyAll staged ws locks).Ensures (storing around t) s₂ _ :=
        ensures_clear rfl (x := v) (fun l hl => by rw [← hcurrent l hl]; rfl)
          (hlocks ▸ tx.nodup_touched) hplace hlaid'
      refine Program.ensures_bind.mpr ((hclear.noting seen₂).noted.mono ?_)
      rintro _ s₃ ⟨⟨rfl, _⟩, hkept⟩
      exact ⟨fun _ => hkept hseen₂, fun _ => ⟨outcome, rfl⟩⟩
    · have hseen₂ : ¬seen₂ := fun hseen₂ => (hnoted.mp hseen₂).elim hseen₁ (hnot hlaid')
      exact ensures_giveUp_truthful hproper hpending hids (hsound htidied hlaid') (hnot hlaid')
        hseen₂ (hkeys _ rfl)

theorem ensures_announce_truthful {config : Config} {f : Failure} (hids : around.Addressable)
    (huser : ∀ place ∈ tx.touched, isReservedKey place.2 = false) (hs : Contents.Sound known s.raw)
    (hforeign : Contents.Foreign staged.record.id s.raw) (hseen : ¬seen) :
    (do
      if ← .write staged.recordBucket staged.record.key (some staged.record.item) .absent then
        runStaged config staged tx
      else .fail f : Protocol TxOutcome).Ensures (watching around t staged.record.id) (s, seen)
      Truthful := by
  -- The record is stored, whatever is replied, or nothing is.
  have hstored : (Protocol.write staged.recordBucket staged.record.key (some staged.record.item)
      .absent).Ensures (storing around t) s fun r s' =>
        Laid staged s.raw (some .pending) (fun _ _ => none) s' ∨ s'.raw = s.raw ∧ r ≠ .ok true := by
    have hlaid : s.Offers staged.recordBucket → ∀ s', SameBuckets s s' →
        s'.raw = Places.put s.raw staged.recordBucket staged.record.key (some staged.record.item) →
        Laid staged s.raw (some .pending) (fun _ _ => none) s' := fun hoffers s' hsame hraw =>
      ⟨hsame.closed.trans hoffers.1, hraw ▸ layers_of_record hpending hforeign⟩
    refine ensures_write ?_ ?_ ?_ ?_
    · exact fun _ hoffers s' hsame hraw => .inl (hlaid hoffers s' hsame hraw)
    · exact fun _ _ s' _ hraw => .inr ⟨hraw, nofun⟩
    · exact fun _ _ s' _ hraw => .inr ⟨hraw, nofun⟩
    · exact fun _ _ hoffers _ s' hsame hraw => .inl (hlaid hoffers s' hsame hraw)
  refine Program.ensures_bind.mpr ⟨trivial, ?_⟩
  rintro r ⟨s', seen'⟩ ⟨hwritten, hnoted⟩
  have hends := Program.ensures_ofExcept.mp (hstored.2 r s' hwritten)
  have hseen' : ¬seen' := by
    refine fun h => (hnoted.mp h).elim hseen fun hcommitted => ?_
    rcases hends with hlaid | ⟨hraw, _⟩
    · cases (hlaid.hasCommitted hproper.addressable).mp hcommitted
    · dsimp only at hcommitted
      rw [hraw] at hcommitted
      exact hforeign.not_hasCommitted hcommitted
  refine Program.ensures_ofExcept.mpr ?_
  cases r with
  | error f' => exact truthful_error hseen'
  | ok written =>
    cases written with
    | false => exact truthful_error hseen'
    | true =>
      rcases hends with hlaid | ⟨_, hne⟩
      · exact ensures_runStaged_truthful hproper hpending hids huser hs hlaid hseen'
      · exact absurd rfl hne

omit hproper hpending in
/-- Every run of an update tells the truth, if nothing in the store has its identifier. -/
theorem ensures_updateKeys_truthful {config : Config} (htx : tx.Addressable) (hne : tx ≠ [])
    (huser : ∀ place ∈ tx.touched, isReservedKey place.2 = false) (hids : around.Addressable)
    (hs : s.Sound around) (hforeign : Contents.Foreign (around.ids s.drawn) s.raw) (hseen : ¬seen) :
    (updateKeys config tx).Ensures (watching around t (around.ids s.drawn)) (s, seen) Truthful := by
  have hnone : ∀ {s' : MemoryItems}, s'.raw = s.raw →
      ¬Contents.HasCommitted s'.raw (around.ids s.drawn) := fun hraw =>
    hraw.symm ▸ hforeign.not_hasCommitted
  unfold updateKeys
  split
  · next hbuckets => exact absurd (Transaction.eq_nil_of_buckets hbuckets) hne
  · next recordBucket rest _ =>
    -- Drawing the identifier and reading the clock leave what is stored.
    refine Program.ensures_bind.mpr ⟨trivial, ?_⟩
    rintro _ ⟨s₁, seen₁⟩ ⟨⟨rfl, hs₁⟩, hnoted₁⟩
    have hraw₁ : s₁.raw = s.raw := by
      rw [show s₁ = { s with drawn := s.drawn + 1 } from hs₁]
      rfl
    have hseen₁ : ¬seen₁ := fun h => (hnoted₁.mp h).elim hseen (hnone hraw₁)
    refine Program.ensures_bind.mpr ⟨trivial, ?_⟩
    rintro createdAt ⟨s₂, seen₂⟩ ⟨hnow, hnoted₂⟩
    have hraw₂ : s₂.raw = s.raw := (stored_of_reads rfl hnow).1.trans hraw₁
    have hseen₂ : ¬seen₂ := fun h => (hnoted₂.mp h).elim hseen₁ (hnone hraw₂)
    have hproper : Record.Proper (around.drawn (s.drawn + 1))
        (Staged.mk ⟨around.ids s.drawn, .pending, tx.touched, createdAt⟩ recordBucket).record :=
      ⟨usable_record htx ⟨s.drawn, Nat.lt_succ_self _, rfl⟩ (hids s.drawn) _ huser, nofun⟩
    have hsound : Contents.Sound (around.drawn (s.drawn + 1)) s₂.raw := by
      rw [hraw₂, around.drawn_succ]
      exact Contents.Sound.mono (fun _ => .inl) hs
    exact ensures_announce_truthful hproper rfl hids huser hsound (hraw₂.symm ▸ hforeign) hseen₂

end BucketStore.Staging
