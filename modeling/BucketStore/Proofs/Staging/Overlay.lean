/-
  BucketStore/Proofs/Staging/Overlay.lean
  =======================================
  **A store in which an update is under way, as layers.**

  Below lie contents that know nothing of the update.  Over them lie the locks
  that it holds (`held`: for each locked key what it is going to do there) and, in
  one state or another, its record.  `Laid` says that a store consists of these
  layers; every write of an update changes one of them: a lock is put on or
  changed (`Laid.lock`), a lock is dropped and a value put in its place
  (`Laid.unlock`), the record changes its state or goes away (`Laid.record`).
  Tidying up after other transactions changes the bottom layer alone
  (`Laid.tidy`).

  Readers see the bottom layer until the record is committed, and from then on
  what the update was going to do (`Laid.visible`).
-/
import BucketStore.Proofs.Staging.Locks
import BucketStore.Proofs.Staging.Tidying

namespace BucketStore.Staging

/-- Nothing in the contents belongs to the transaction. -/
structure Contents.Foreign (id : String) (c : Contents) : Prop where
  locks : ∀ b k item lock, c b k = some item → item.lock = some lock → lock.owner ≠ id
  record : ∀ b, c b (recordKey id) = none

/-- No update is under way: there is neither a lock nor a record. -/
structure Contents.AtRest (c : Contents) : Prop where
  unlocked : ∀ b k item, c b k = some item → item.lock = none
  userKeys : ∀ b k item, c b k = some item → isReservedKey k = false

theorem Contents.AtRest.foreign {c : Contents} (h : c.AtRest) (id : String) : c.Foreign id := by
  constructor
  · intro b k item lock hitem hlock
    rw [h.unlocked b k item hitem] at hlock
    cases hlock
  · intro b
    cases hitem : c b (recordKey id) with
    | none => rfl
    | some item =>
      have huser := h.userKeys b _ item hitem
      rw [isReservedKey_recordKey] at huser
      cases huser

/-- There is nothing to tidy up. -/
theorem Contents.AtRest.eq_of_tidied {P : String → Prop} {c c' : Contents} (h : c.AtRest)
    (htidied : Tidied P c c') : c' = c := by
  induction htidied with
  | refl => rfl
  | tail _ hstep ih =>
    subst ih
    obtain ⟨id, _, hstep⟩ := hstep
    cases hstep with
    | release hitem hlock _ =>
      rw [h.unlocked _ _ _ hitem] at hlock
      cases hlock
    | abort _ _ hrecord _ =>
      rw [(h.foreign id).record] at hrecord
      cases hrecord
    | forget _ _ hrecord _ _ =>
      rw [(h.foreign id).record] at hrecord
      cases hrecord

/-- Nothing, or a value without a lock. -/
def Bare (x : Option Item) : Prop := x = (x.bind Item.value).map .plain

theorem bare_map (value : Option Bytes) : Bare (value.map .plain) := by
  cases value <;> rfl

theorem Bare.lock {item : Item} (h : Bare (some item)) : item.lock = none := by
  unfold Bare at h
  obtain ⟨v, _, heq⟩ := Option.map_eq_some_iff.mp h.symm
  rw [← heq]
  rfl

theorem Bare.visible {c : Contents} {b k : Bytes} (h : Bare (c b k)) :
    c.visible b k = (c b k).bind Item.value := by
  unfold Contents.visible
  cases hitem : c b k with
  | none => rfl
  | some item =>
    rw [hitem] at h
    simp [Item.seen, h.lock]

/-! ### The layers -/

/-- The values once every lock has taken effect on the value under it. -/
def committing (held : Places Pending) (v : Places Bytes) : Places Bytes := fun b k =>
  match held b k with
  | some pending => pending.resolve (v b k)
  | none => v b k

namespace Staged

/-- Contents with the locks of an update over them. -/
def locking (staged : Staged) (c : Contents) (held : Places Pending) : Contents := fun b k =>
  match held b k with
  | some pending => some ⟨(c b k).bind Item.value, some (staged.lock pending)⟩
  | none => c b k

/-- Contents with the locks of an update and its record over them. -/
def overlay (staged : Staged) (c : Contents) (state : Option TxState) (held : Places Pending) :
    Contents :=
  (staged.locking c held).put staged.recordBucket staged.record.key
    (state.map fun state => (staged.decided state).item)

variable {staged : Staged} {c : Contents} {state : Option TxState} {held : Places Pending}
  {b k : Bytes}

theorem locking_held {pending : Pending} (h : held b k = some pending) :
    staged.locking c held b k = some ⟨(c b k).bind Item.value, some (staged.lock pending)⟩ := by
  simp only [locking, h]

theorem locking_free (h : held b k = none) : staged.locking c held b k = c b k := by
  simp only [locking, h]

@[simp] theorem overlay_record :
    staged.overlay c state held staged.recordBucket staged.record.key =
      state.map fun state => (staged.decided state).item := Places.put_same

theorem overlay_other (h : ¬(b = staged.recordBucket ∧ k = staged.record.key)) :
    staged.overlay c state held b k = staged.locking c held b k := Places.put_other h

theorem overlay_user (hk : isReservedKey k = false) :
    staged.overlay c state held b k = staged.locking c held b k :=
  Places.put_other_key (ne_recordKey hk _)

theorem overlay_putRecord (state' : Option TxState) :
    Places.put (staged.overlay c state held) staged.recordBucket staged.record.key
      (state'.map fun state => (staged.decided state).item) = staged.overlay c state' held :=
  Places.put_put _

theorem overlay_lock (hk : isReservedKey k = false) (pending : Pending) :
    Places.put (staged.overlay c state held) b k
        (some ⟨(c b k).bind Item.value, some (staged.lock pending)⟩) =
      staged.overlay c state (held.put b k (some pending)) := by
  have hne : ¬(staged.recordBucket = b ∧ staged.record.key = k) := fun h =>
    ne_recordKey hk _ h.2.symm
  unfold overlay
  rw [Places.put_comm hne]
  congr 1
  funext b' k'
  by_cases heq : b' = b ∧ k' = k
  · obtain ⟨rfl, rfl⟩ := heq
    rw [Places.put_same, locking_held Places.put_same]
  · unfold locking
    rw [Places.put_other heq, Places.put_other heq]

/-- An item in place of a lock is one lock less, and that item in the bottom layer. -/
theorem overlay_unlock (hk : isReservedKey k = false) (x : Option Item) :
    Places.put (staged.overlay c state held) b k x =
      staged.overlay (c.put b k x) state (held.put b k none) := by
  have hne : ¬(staged.recordBucket = b ∧ staged.record.key = k) := fun h =>
    ne_recordKey hk _ h.2.symm
  unfold overlay
  rw [Places.put_comm hne]
  congr 1
  funext b' k'
  by_cases heq : b' = b ∧ k' = k
  · obtain ⟨rfl, rfl⟩ := heq
    rw [Places.put_same, locking_free Places.put_same, Places.put_same]
  · unfold locking
    rw [Places.put_other heq, Places.put_other heq, Places.put_other heq]

theorem overlay_put (hfree : held b k = none)
    (hplace : ¬(b = staged.recordBucket ∧ k = staged.record.key)) (x : Option Item) :
    Places.put (staged.overlay c state held) b k x = staged.overlay (c.put b k x) state held := by
  unfold overlay
  rw [Places.put_comm fun h => hplace ⟨h.1.symm, h.2.symm⟩]
  congr 1
  funext b' k'
  by_cases heq : b' = b ∧ k' = k
  · obtain ⟨rfl, rfl⟩ := heq
    rw [Places.put_same, locking_free hfree, Places.put_same]
  · unfold locking
    rw [Places.put_other heq, Places.put_other heq]

/-- Without locks and without a record there is the bottom layer only. -/
theorem overlay_nothing (hc : c.Foreign staged.record.id) (hheld : ∀ b k, held b k = none) :
    staged.overlay c none held = c := by
  have hlocking : staged.locking c held = c := by
    funext b k
    exact locking_free (hheld b k)
  unfold overlay
  rw [hlocking]
  exact Places.put_self (hc.record _)

end Staged

/-! ### Contents made of layers -/

/-- The contents `x` consist of the contents `c`, the locks `held` and the record in `state`. -/
structure Layers (staged : Staged) (c : Contents) (state : Option TxState) (held : Places Pending)
    (x : Contents) : Prop where
  eq : x = staged.overlay c state held
  foreign : c.Foreign staged.record.id
  /-- Locks are held on keys of users, and there is no lock below. -/
  bare : ∀ b k pending, held b k = some pending → isReservedKey k = false ∧ Bare (c b k)

namespace Layers

variable {staged : Staged} {c : Contents} {state : Option TxState} {held : Places Pending}
  {x x' : Contents} {b k : Bytes} {known : String → Prop} {P : String → Prop}

/-! ### What is stored -/

/-- Under a user's key lies an item with a lock of the update, or what the bottom layer has. -/
theorem item_held (h : Layers staged c state held x) {pending : Pending}
    (hheld : held b k = some pending) :
    x b k = some ⟨(c b k).bind Item.value, some (staged.lock pending)⟩ := by
  rw [h.eq, Staged.overlay_user (h.bare b k pending hheld).1, Staged.locking_held hheld]

theorem item_free (h : Layers staged c state held x) (hk : isReservedKey k = false)
    (hheld : held b k = none) : x b k = c b k := by
  rw [h.eq, Staged.overlay_user hk, Staged.locking_free hheld]

theorem item_record (h : Layers staged c state held x) :
    x staged.recordBucket staged.record.key =
      state.map fun state => (staged.decided state).item := by
  rw [h.eq, Staged.overlay_record]

theorem free_of_reserved (h : Layers staged c state held x) (hk : isReservedKey k = true) :
    held b k = none := by
  cases hheld : held b k with
  | none => rfl
  | some pending =>
    have huser := (h.bare b k pending hheld).1
    rw [hk] at huser
    cases huser

theorem item_otherRecord (h : Layers staged c state held x) {id : String}
    (hid : id ≠ staged.record.id) : x b (recordKey id) = c b (recordKey id) := by
  rw [h.eq, Staged.overlay_other, Staged.locking_free]
  · exact h.free_of_reserved (isReservedKey_recordKey id)
  · exact fun heq => hid (recordKey_injective heq.2)

theorem lock_cases (h : Layers staged c state held x) {item : Item} {lock : Lock}
    (hitem : x b k = some item) (hlock : item.lock = some lock) :
    (held b k = none ∧ c b k = some item) ∨
      ∃ pending, held b k = some pending ∧ lock = staged.lock pending := by
  have hplace : ¬(b = staged.recordBucket ∧ k = staged.record.key) := by
    rintro ⟨rfl, rfl⟩
    rw [h.item_record] at hitem
    obtain ⟨_, _, rfl⟩ := Option.map_eq_some_iff.mp hitem
    cases hlock
  rw [h.eq, Staged.overlay_other hplace] at hitem
  cases hheld : held b k with
  | none =>
    rw [Staged.locking_free hheld] at hitem
    exact .inl ⟨rfl, hitem⟩
  | some pending =>
    rw [Staged.locking_held hheld] at hitem
    cases hitem
    cases hlock
    exact .inr ⟨pending, rfl, rfl⟩

theorem of_lock (h : Layers staged c state held x) {item : Item} {lock : Lock}
    (hitem : x b k = some item) (hlock : item.lock = some lock)
    (howner : lock.owner ≠ staged.record.id) : held b k = none ∧ c b k = some item := by
  rcases h.lock_cases hitem hlock with hbelow | ⟨pending, _, rfl⟩
  · exact hbelow
  · exact absurd rfl howner

theorem own_lock (h : Layers staged c state held x) {item : Item} {lock : Lock}
    (hitem : x b k = some item) (hlock : item.lock = some lock)
    (howner : lock.owner = staged.record.id) :
    ∃ pending, held b k = some pending ∧ lock = staged.lock pending := by
  rcases h.lock_cases hitem hlock with ⟨_, hbelow⟩ | hown
  · exact absurd howner (h.foreign.locks b k item lock hbelow hlock)
  · exact hown

theorem home_record (h : Layers staged c state held x)
    (hrecord : x b (recordKey staged.record.id) ≠ none) : b = staged.recordBucket := by
  by_cases hb : b = staged.recordBucket
  · exact hb
  · rw [h.eq, Staged.overlay_other (fun heq => hb heq.1), Staged.locking_free, h.foreign.record] at hrecord
    · exact absurd rfl hrecord
    · exact h.free_of_reserved (isReservedKey_recordKey _)

theorem item_lock (h : Layers staged c state held x) {item : Item} {lock : Lock}
    (hk : isReservedKey k = false) (hitem : c b k = some item) (hlock : item.lock = some lock) :
    x b k = some item := by
  cases hheld : held b k with
  | none => rw [h.item_free hk hheld, hitem]
  | some pending =>
    have hbare := (h.bare b k pending hheld).2
    rw [hitem] at hbare
    rw [hbare.lock] at hlock
    cases hlock

/-! ### What is seen -/

/-- Whether another transaction is committed can be told from the bottom layer. -/
theorem committed_other (h : Layers staged c state held x) {lock : Lock}
    (howner : lock.owner ≠ staged.record.id) : x.committed lock = c.committed lock :=
  Contents.committed_congr (h.item_otherRecord howner)

/-- The update is committed if its record is. -/
theorem committed_own (h : Layers staged c state held x) (hr : staged.record.Addressable)
    (pending : Pending) : x.committed (staged.lock pending) = (state == some .committed) := by
  have hrecord := h.item_record
  cases state with
  | none => exact Contents.committed_of_none hrecord
  | some state =>
    exact Contents.committed_of_item (r := staged.decided state) (hr.withState state) rfl hrecord

theorem seen_other (h : Layers staged c state held x) {item : Item}
    (howner : ∀ lock, item.lock = some lock → lock.owner ≠ staged.record.id) :
    item.seen x.committed = item.seen c.committed := by
  unfold Item.seen
  split
  · next lock hlock => rw [h.committed_other (howner lock hlock)]
  · rfl

/-- Readers see the bottom layer, and once the record is committed, what the locks do to it. -/
theorem visible (h : Layers staged c state held x) (hr : staged.record.Addressable)
    (hk : isReservedKey k = false) :
    x.visible b k = if state = some .committed then committing held c.visible b k
      else c.visible b k := by
  unfold committing
  cases hheld : held b k with
  | some pending =>
    have hseen : x.visible b k =
        Item.seen ⟨(c b k).bind Item.value, some (staged.lock pending)⟩ x.committed :=
      Contents.visible_of_item (h.item_held hheld)
    rw [hseen, (h.bare b k pending hheld).2.visible]
    simp only [Item.seen, h.committed_own hr, beq_iff_eq]
    rfl
  | none =>
    rw [ite_self]
    unfold Contents.visible
    rw [h.item_free hk hheld]
    cases hitem : c b k with
    | none => rfl
    | some item => exact h.seen_other fun lock hlock => h.foreign.locks b k item lock hitem hlock

/-- As long as the record is not committed, readers see the bottom layer. -/
theorem sameView (h : Layers staged c state held x) (hr : staged.record.Addressable)
    (hstate : state ≠ some .committed) : c.SameView x := by
  intro b k hk
  rw [h.visible hr hk, if_neg hstate]

theorem sound (h : Layers staged c state held x) (hr : staged.record.Proper known)
    (hc : c.Sound known) (hstate : state ≠ some .reclaimed) : x.Sound known := by
  intro b k item hitem
  by_cases hplace : b = staged.recordBucket ∧ k = staged.record.key
  · obtain ⟨rfl, rfl⟩ := hplace
    rw [h.item_record] at hitem
    obtain ⟨state, rfl, rfl⟩ := Option.map_eq_some_iff.mp hitem
    exact .record (r := staged.decided state) (hr.withState _ fun heq => hstate (heq ▸ rfl))
  · rw [h.eq, Staged.overlay_other hplace] at hitem
    cases hheld : held b k with
    | none =>
      rw [Staged.locking_free hheld] at hitem
      exact hc b k item hitem
    | some pending =>
      rw [Staged.locking_held hheld] at hitem
      cases hitem
      exact wellFormed_locked (h.bare b k pending hheld).1 hr.known

/-! ### How the layers change -/

theorem putRecord (h : Layers staged c state held x) (state' : Option TxState) :
    Layers staged c state' held (x.put staged.recordBucket staged.record.key
      (state'.map fun state => (staged.decided state).item)) :=
  ⟨by rw [h.eq, Staged.overlay_putRecord], h.foreign, h.bare⟩

theorem putLock (h : Layers staged c state held x) (hk : isReservedKey k = false)
    (hbare : Bare (c b k)) (pending : Pending) :
    Layers staged c state (held.put b k (some pending))
      (x.put b k (some ⟨(c b k).bind Item.value, some (staged.lock pending)⟩)) := by
  refine ⟨by rw [h.eq, Staged.overlay_lock hk], h.foreign, fun b' k' pending' hheld => ?_⟩
  unfold Places.put at hheld
  split at hheld
  · next heq =>
    rw [heq.1, heq.2]
    exact ⟨hk, hbare⟩
  · exact h.bare b' k' pending' hheld

theorem unlock (h : Layers staged c state held x) (hk : isReservedKey k = false)
    (value : Option Bytes) :
    Layers staged (c.put b k (value.map .plain)) state (held.put b k none)
      (x.put b k (value.map .plain)) := by
  refine ⟨by rw [h.eq, Staged.overlay_unlock hk], ⟨?_, ?_⟩, ?_⟩
  · intro b' k' item lock hitem hlock
    unfold Places.put at hitem
    split at hitem
    · rw [(hitem ▸ bare_map value : Bare (some item)).lock] at hlock
      cases hlock
    · exact h.foreign.locks b' k' item lock hitem hlock
  · intro b'
    rw [Places.put_other_key (ne_recordKey hk _).symm]
    exact h.foreign.record b'
  · intro b' k' pending hheld
    unfold Places.put at hheld ⊢
    split at hheld
    · cases hheld
    · next hne =>
      rw [if_neg hne]
      exact h.bare b' k' pending hheld

/-- Tidying up after another transaction changes the bottom layer alone. -/
theorem tidy (h : Layers staged c state held x) (hc : c.Sound known) {id : String}
    (hid : id ≠ staged.record.id) (htidy : Tidy id x x') :
    ∃ c', Tidy id c c' ∧ Layers staged c' state held x' := by
  have hlayers : ∀ {c' : Contents}, Tidy id c c' → x' = staged.overlay c' state held →
      ∃ c', Tidy id c c' ∧ Layers staged c' state held x' := by
    intro c' htidy heq
    refine ⟨c', htidy, heq, ⟨?_, ?_⟩, ?_⟩
    · intro b k item lock hitem hlock
      exact h.foreign.locks b k item lock (htidy.lock_of hitem hlock) hlock
    · intro b
      rw [htidy.same (fun heq => hid (recordKey_injective heq).symm), h.foreign.record]
      intro item lock hitem
      rw [h.foreign.record] at hitem
      cases hitem
    · intro b k pending hheld
      obtain ⟨hk, hbare⟩ := h.bare b k pending hheld
      rw [htidy.same (ne_recordKey hk _)]
      · exact ⟨hk, hbare⟩
      · intro item lock hitem hlock
        rw [hitem] at hbare
        rw [hbare.lock] at hlock
        cases hlock
  have hrecordPlace : ∀ {b}, ¬(b = staged.recordBucket ∧ recordKey id = staged.record.key) :=
    fun heq => hid (recordKey_injective heq.2)
  have hrecordFree : ∀ {b}, held b (recordKey id) = none :=
    h.free_of_reserved (isReservedKey_recordKey id)
  cases htidy with
  | @release b k item lock hitem hlock howner =>
    have hother : lock.owner ≠ staged.record.id := fun heq => hid (howner ▸ heq)
    obtain ⟨hfree, hbelow⟩ := h.of_lock hitem hlock hother
    have hk := ((hc b k item hbelow).of_lock hlock).1
    refine hlayers (.release hbelow hlock howner) ?_
    rw [h.seen_other fun lock' hlock' => by rw [hlock] at hlock'; cases hlock'; exact hother, h.eq]
    exact Staged.overlay_put hfree (fun heq => ne_recordKey hk _ heq.2) _
  | @abort b r hr hrid hrecord hpending =>
    rw [h.item_otherRecord hid] at hrecord
    refine hlayers (.abort hr hrid hrecord hpending) ?_
    rw [h.eq]
    exact Staged.overlay_put hrecordFree hrecordPlace _
  | @forget b r hr hrid hrecord hdecided hfree =>
    rw [h.item_otherRecord hid] at hrecord
    refine hlayers (.forget hr hrid hrecord hdecided ?_) ?_
    · intro b' k' item lock hitem hlock howner
      have hk := ((hc b' k' item hitem).of_lock hlock).1
      exact hfree b' k' item lock (h.item_lock hk hitem hlock) hlock howner
    · rw [h.eq]
      exact Staged.overlay_put hrecordFree hrecordPlace _

theorem tidied (h : Layers staged c state held x) (hc : c.Sound known)
    (hP : ∀ id, P id → id ≠ staged.record.id) (htidied : Tidied P x x') :
    ∃ c', Tidied P c c' ∧ Layers staged c' state held x' := by
  induction htidied with
  | refl => exact ⟨c, .refl, h⟩
  | tail _ hstep ih =>
    obtain ⟨c', htidied, hlayers⟩ := ih
    obtain ⟨id, hid, hstep⟩ := hstep
    obtain ⟨c'', htidy, hlayers'⟩ := hlayers.tidy (htidied.sound hc) (hP id hid) hstep
    exact ⟨c'', htidied.tail ⟨id, hid, htidy⟩, hlayers'⟩

end Layers

end BucketStore.Staging
