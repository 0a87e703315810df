/-
  BucketStore/Proofs/Staging/Attended.lean
  ========================================
  **Every lock has a record, and every transaction has one home.**

  `Attended` says of the contents of a store that the record which a lock names is
  stored where the lock says, and lists the locked key; and that the record of a
  transaction is in one bucket at most.  So nobody is left to wonder about a lock.

  All that the engine does to a store keeps this up: tidying up
  (`Attended.tidied`), writing a value (`Attended.put`), and an update that ends in
  any of its ways (`Updated.attended`), as long as its reply was not lost on the
  way.
-/
import BucketStore.Proofs.Staging.Committing

namespace BucketStore.Staging

/-- Every lock names a record that is stored and lists the locked key, and the records of one
    transaction are in one bucket. -/
structure Contents.Attended (c : Contents) : Prop where
  record : ∀ b k item lock, c b k = some item → item.lock = some lock →
    ∃ r : Record, r.Addressable ∧ r.id = lock.owner ∧ (b, k) ∈ r.keys ∧ r.state ≠ .reclaimed ∧
      c lock.recordBucket (recordKey lock.owner) = some r.item
  home : ∀ id b b', c b (recordKey id) ≠ none → c b' (recordKey id) ≠ none → b = b'

variable {c c' x : Contents} {known : String → Prop} {id : String} {P : String → Prop}
  {bucket key : Bytes}

namespace Contents

theorem attended_empty : Attended fun _ _ => none where
  record := fun _ _ _ _ hitem => nomatch hitem
  home := fun _ _ _ h => absurd rfl h

/-- Two locks of one transaction name the same bucket. -/
theorem Attended.sameBucket (h : c.Attended) {b k b' k' : Bytes} {item item' : Item}
    {lock lock' : Lock} (hitem : c b k = some item) (hlock : item.lock = some lock)
    (hitem' : c b' k' = some item') (hlock' : item'.lock = some lock')
    (howner : lock.owner = lock'.owner) : lock.recordBucket = lock'.recordBucket := by
  obtain ⟨r, _, _, _, _, hr⟩ := h.record b k item lock hitem hlock
  obtain ⟨r', _, _, _, _, hr'⟩ := h.record b' k' item' lock' hitem' hlock'
  apply h.home lock.owner
  · simp [hr]
  · rw [howner]
    simp [hr']

/-- Users' keys may be given any values, or none: that makes no lock and touches no record. -/
theorem Attended.puts (h : c.Attended) (hput : ∀ b k, c' b k = c b k ∨
    isReservedKey k = false ∧ ∃ value : Option Bytes, c' b k = value.map .plain) :
    c'.Attended := by
  have hrecord : ∀ b id, c' b (recordKey id) = c b (recordKey id) := by
    intro b id
    apply (hput b (recordKey id)).resolve_right
    rintro ⟨huser, _⟩
    exact ne_recordKey huser id rfl
  constructor
  · intro b k item lock hitem hlock
    rw [hrecord]
    apply h.record b k item lock _ hlock
    rcases hput b k with heq | ⟨_, value, heq⟩
    · rw [← heq]
      exact hitem
    · rw [heq] at hitem
      obtain ⟨v, _, rfl⟩ := Option.map_eq_some_iff.mp hitem
      cases hlock
  · intro id b b' hb hb'
    rw [hrecord] at hb hb'
    exact h.home id b b' hb hb'

theorem Attended.put (h : c.Attended) (hkey : isReservedKey key = false) (value : Option Bytes) :
    Contents.Attended (c.put bucket key (value.map .plain)) := by
  apply h.puts
  intro b k
  by_cases heq : b = bucket ∧ k = key
  · obtain ⟨rfl, rfl⟩ := heq
    exact .inr ⟨hkey, value, Places.put_same⟩
  · exact .inl (Places.put_other heq)

end Contents

/-! ### Tidying up -/

theorem Tidy.record_of (h : Tidy id c c') (hc : c.Sound known) {id' : String}
    (hrecord : c' bucket (recordKey id') ≠ none) : c bucket (recordKey id') ≠ none := by
  cases h with
  | release hitem hlock _ =>
    have hkey := ((hc _ _ _ hitem).of_lock hlock).1
    rwa [Places.put_other_key (ne_recordKey hkey _).symm] at hrecord
  | @abort b r hr hid hstored _ =>
    unfold Places.put at hrecord
    split at hrecord
    · next heq => simp [heq.1, heq.2, hstored]
    · exact hrecord
  | forget =>
    unfold Places.put at hrecord
    split at hrecord
    · exact absurd rfl hrecord
    · exact hrecord

theorem Tidied.record_of (h : Tidied P c c') (hc : c.Sound known) {id' : String}
    (hrecord : c' bucket (recordKey id') ≠ none) : c bucket (recordKey id') ≠ none := by
  induction h with
  | refl => exact hrecord
  | tail hsteps hstep ih =>
    obtain ⟨id, _, hstep⟩ := hstep
    exact ih (hstep.record_of (Tidied.sound hsteps hc) hrecord)

theorem Tidy.attended (h : Tidy id c c') (hc : c.Sound known) (ha : c.Attended) : c'.Attended where
  home := fun id' b b' hb hb' => ha.home id' b b' (h.record_of hc hb) (h.record_of hc hb')
  record := by
    intro b k item lock hitem hlock
    have hbefore := h.lock_of hitem hlock
    obtain ⟨r, hr, hid, hmem, hstate, hstored⟩ := ha.record b k item lock hbefore hlock
    cases h with
    | release hitem' hlock' _ =>
      have hkey := ((hc _ _ _ hitem').of_lock hlock').1
      refine ⟨r, hr, hid, hmem, hstate, ?_⟩
      rwa [Places.put_other_key (ne_recordKey hkey _).symm]
    | @abort bucket r' hr' hid' hstored' hpending =>
      by_cases heq : lock.recordBucket = bucket ∧ recordKey lock.owner = recordKey id
      · -- The record is the lock's own: it changes its state and lists the same keys.
        have hsame : r' = r := by
          rw [heq.1, heq.2, hstored'] at hstored
          apply Record.encode_injective hr' hr
          simpa [Record.item, Item.plain] using hstored
        subst hsame
        refine ⟨{ r' with state := .aborted }, hr'.withState _, hid, hmem, by simp, ?_⟩
        rw [heq.1, heq.2, Places.put_same]
      · refine ⟨r, hr, hid, hmem, hstate, ?_⟩
        rwa [Places.put_other heq]
    | @forget bucket r' _ _ _ _ hfree =>
      refine ⟨r, hr, hid, hmem, hstate, ?_⟩
      rwa [Places.put_other]
      rintro ⟨hbucket, hkey⟩
      exact hfree b k item lock hbefore hlock (recordKey_injective hkey) hbucket

theorem Tidied.attended (h : Tidied P c c') (hc : c.Sound known) (ha : c.Attended) :
    c'.Attended := by
  induction h with
  | refl => exact ha
  | tail hsteps hstep ih =>
    obtain ⟨id, _, hstep⟩ := hstep
    exact hstep.attended (Tidied.sound hsteps hc) ih

/-- Contents that are well-formed, and whose locks are attended. -/
structure Contents.Kept (known : String → Prop) (c : Contents) : Prop where
  sound : c.Sound known
  attended : c.Attended

theorem Contents.Kept.tidied (h : c.Kept known) (htidied : Tidied P c c') : c'.Kept known :=
  ⟨htidied.sound h.sound, htidied.attended h.sound h.attended⟩

theorem Contents.Kept.put (h : c.Kept known) (hkey : isReservedKey key = false)
    (value : Option Bytes) : Contents.Kept known (c.put bucket key (value.map .plain)) :=
  ⟨h.sound.put (wellFormed_plain hkey value), h.attended.put hkey value⟩

/-! ### Updates -/

/-- The layers of an update are attended if the bottom is, and the record is not given up before the
    locks are. -/
theorem Layers.attended {staged : Staged} {state : Option TxState} {held : Places Pending}
    (h : Layers staged c state held x) (hr : staged.record.Addressable) (ha : c.Attended)
    (hheld : ∀ b k, held b k ≠ none → (b, k) ∈ staged.record.keys)
    (hstate : ∀ b k, held b k ≠ none → ∃ now, state = some now ∧ now ≠ .reclaimed) :
    x.Attended := by
  constructor
  · intro b k item lock hitem hlock
    by_cases howner : lock.owner = staged.record.id
    · obtain ⟨pending, hpending, rfl⟩ := h.own_lock hitem hlock howner
      have hne : held b k ≠ none := by simp [hpending]
      obtain ⟨now, rfl, hnow⟩ := hstate b k hne
      exact ⟨staged.decided now, hr.withState now, rfl, hheld b k hne, hnow, h.item_record⟩
    · have hbelow := (h.of_lock hitem hlock howner).2
      rw [h.item_otherRecord howner]
      exact ha.record b k item lock hbelow hlock
  · intro id b b' hb hb'
    by_cases hid : id = staged.record.id
    · subst hid
      rw [h.home_record hb, h.home_record hb']
    · rw [h.item_otherRecord hid] at hb hb'
      exact ha.home id b b' hb hb'

variable {around : Surroundings} {t : Trouble} {tx : Transaction} {s s' : MemoryItems}

/-- However an update ends, its locks have their record. -/
theorem Ended.attended {staged : Staged} {r : Except Failure TxOutcome} (h : Ended t staged tx c r s')
    (ht : ¬t.lostReplies) (hkeys : staged.record.keys = tx.touched)
    (hr : staged.record.Addressable) (hc : c.Sound known) (ha : c.Attended) :
    Contents.Attended s'.raw := by
  cases h with
  | @failed c' state held f s' htidied hlaid hstate hheld hrecord _ =>
    apply hlaid.layers.attended hr (htidied.attended hc ha)
    · intro b k hne
      rw [hkeys]
      exact hheld b k hne
    · intro b k hne
      cases hnow : state with
      | none => exact absurd (hrecord ht hnow b k) hne
      | some now =>
        refine ⟨now, rfl, ?_⟩
        rintro rfl
        rcases hstate _ hnow with heq | heq <;> cases heq
  | @applied c' c'' state held outcome v s' htidied hlaid hput hstate hheld _ _ _ _ =>
    have ha' := htidied.attended hc ha
    have ha'' : c''.Attended := by
      apply ha'.puts
      intro b k
      rcases hput b k with heq | ⟨huser, _, heq⟩
      · exact .inl heq
      · exact .inr ⟨huser, _, heq⟩
    apply hlaid.layers.attended hr ha''
    · intro b k hne
      rw [hkeys]
      exact hheld b k hne
    · intro b k hne
      rcases hstate with heq | ⟨_, hnone⟩
      · exact ⟨_, heq, by decide⟩
      · exact absurd (hnone b k) hne

theorem Updated.attended {r : Except Failure TxOutcome} (h : Updated around t tx s r s')
    (ht : ¬t.lostReplies) (hs : s.Sound around) (ha : Contents.Attended s.raw) :
    Contents.Attended s'.raw := by
  cases h with
  | empty _ => exact ha
  | refused hraw _ =>
    rw [hraw]
    exact ha
  | ended _ hkeys hproper h => exact h.attended ht hkeys hproper.addressable hs ha

end BucketStore.Staging
