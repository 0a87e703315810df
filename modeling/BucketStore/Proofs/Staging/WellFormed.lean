/-
  BucketStore/Proofs/Staging/WellFormed.lean
  ==========================================
  **What may be stored under a key.**

  Under the key of a record stands the record of that transaction; under a user's
  key stands an item that has a value or a lock.  A store is `Sound` if everything
  in it is so, and names no transaction whose identifier was not drawn.
-/
import BucketStore.Proofs.Staging.Replies

namespace BucketStore.Staging

/-- The record of a transaction whose identifier is known, with keys that users may name. -/
structure Record.Usable (known : String → Prop) (r : Record) : Prop where
  addressable : r.Addressable
  known : known r.id
  places : ∀ place ∈ r.keys, isReservedKey place.2 = false

/-- Such a record in a state in which records are stored. -/
structure Record.Proper (known : String → Prop) (r : Record) : Prop extends r.Usable known where
  state : r.state ≠ .reclaimed

/-- What may be stored under a key. -/
inductive WellFormed (known : String → Prop) : Bytes → Item → Prop
  | record {r : Record} (h : r.Proper known) : WellFormed known (recordKey r.id) r.item
  | user {key : Bytes} {item : Item} (hkey : isReservedKey key = false)
      (hlock : ∀ lock, item.lock = some lock → known lock.owner)
      (hvalue : item.lock = none → item.value.isSome = true) : WellFormed known key item

/-- Everything stored is well-formed. -/
def Contents.Sound (known : String → Prop) (c : Contents) : Prop :=
  ∀ bucket key item, c bucket key = some item → WellFormed known key item

section

variable {known known' : String → Prop} {key : Bytes} {item : Item} {c : Contents}

theorem Record.Usable.withState {r : Record} (h : r.Usable known) (state : TxState) :
    ({ r with state } : Record).Usable known :=
  ⟨h.addressable.withState state, h.known, h.places⟩

theorem Record.Proper.withState {r : Record} (h : r.Proper known) (state : TxState)
    (hs : state ≠ .reclaimed) : ({ r with state } : Record).Proper known :=
  ⟨h.toUsable.withState state, hs⟩

theorem Record.Proper.mono (hk : ∀ id, known id → known' id) {r : Record} (h : r.Proper known) :
    r.Proper known' := ⟨⟨h.addressable, hk _ h.known, h.places⟩, h.state⟩

theorem WellFormed.mono (hk : ∀ id, known id → known' id) (h : WellFormed known key item) :
    WellFormed known' key item := by
  cases h with
  | record h => exact .record (h.mono hk)
  | user hkey hlock hvalue => exact .user hkey (fun lock hl => hk _ (hlock lock hl)) hvalue

/-- Under the key of a record stands the record of that transaction. -/
theorem WellFormed.record_of {id : String} (h : WellFormed known (recordKey id) item) :
    ∃ r : Record, r.Proper known ∧ r.id = id ∧ item = r.item := by
  generalize hkey : recordKey id = key at h
  cases h with
  | @record r hr => exact ⟨r, hr, (recordKey_injective hkey).symm, rfl⟩
  | user hreserved _ _ =>
    rw [← hkey, isReservedKey_recordKey] at hreserved
    exact absurd hreserved (by decide)

theorem WellFormed.record_of_reserved (h : WellFormed known key item)
    (hkey : isReservedKey key = true) :
    ∃ r : Record, r.Proper known ∧ key = recordKey r.id ∧ item = r.item := by
  cases h with
  | @record r hr => exact ⟨r, hr, rfl, rfl⟩
  | user hreserved _ _ =>
    rw [hkey] at hreserved
    exact absurd hreserved (by decide)

theorem WellFormed.of_lock (h : WellFormed known key item) {lock : Lock}
    (hlock : item.lock = some lock) : isReservedKey key = false ∧ known lock.owner := by
  cases h with
  | record hr => exact absurd hlock (by simp [Record.item, Item.plain])
  | user hkey howner hvalue => exact ⟨hkey, howner lock hlock⟩

theorem WellFormed.isSome_value (h : WellFormed known key item) (hlock : item.lock = none) :
    item.value.isSome = true := by
  cases h with
  | record hr => rfl
  | user hkey howner hvalue => exact hvalue hlock

theorem wellFormed_plain (hkey : isReservedKey key = false) (value : Option Bytes) :
    ∀ item, value.map Item.plain = some item → WellFormed known key item := by
  intro item hitem
  obtain ⟨v, _, rfl⟩ := Option.map_eq_some_iff.mp hitem
  exact .user hkey (by simp [Item.plain]) (by simp [Item.plain])

theorem wellFormed_locked (hkey : isReservedKey key = false) {value : Option Bytes} {lock : Lock}
    (howner : known lock.owner) : WellFormed known key ⟨value, some lock⟩ := by
  refine .user hkey ?_ ?_
  · intro lock' hlock
    exact Option.some.inj hlock ▸ howner
  · intro hnone
    cases hnone

theorem Contents.Sound.mono (hk : ∀ id, known id → known' id) (h : c.Sound known) :
    c.Sound known' := fun b k item hitem => (h b k item hitem).mono hk

theorem Contents.Sound.put (h : c.Sound known) {bucket : Bytes} {x : Option Item}
    (hx : ∀ item, x = some item → WellFormed known key item) :
    Contents.Sound known (c.put bucket key x) := by
  intro b k item hitem
  unfold Places.put at hitem
  split at hitem
  · next heq =>
    rw [heq.2]
    exact hx item hitem
  · exact h b k item hitem

theorem Contents.Sound.record (h : c.Sound known) {bucket : Bytes} {id : String}
    (hitem : c bucket (recordKey id) = some item) :
    ∃ r : Record, r.Proper known ∧ r.id = id ∧ item = r.item :=
  (h _ _ _ hitem).record_of

end

/-- The stored form of a record is the stored form of no other. -/
theorem eq_item_of_valueEquals {known : String → Prop} {stored : Option Item} {r : Record}
    (hr : r.Addressable)
    (hstored : ∀ item, stored = some item → WellFormed known (recordKey r.id) item)
    (hholds : (Precondition.valueEquals r.encode).holds stored = true) : stored = some r.item := by
  cases stored with
  | none => cases hholds
  | some item =>
    obtain ⟨r', hr', _, rfl⟩ := (hstored item rfl).record_of
    have hencode : r'.encode = r.encode := by
      simpa [Precondition.holds, Record.item, Item.plain] using hholds
    rw [Record.encode_injective hr'.addressable hr hencode]

/-! ### Stores in memory -/

/-- The identifiers drawn so far. -/
def Surroundings.drawn (around : Surroundings) (n : Nat) (id : String) : Prop :=
  ∃ i < n, around.ids i = id

/-- Every identifier fits into memory. -/
def Surroundings.Addressable (around : Surroundings) : Prop :=
  ∀ i, (Bytes.ofString (around.ids i)).Addressable

theorem Surroundings.drawn_succ (around : Surroundings) (n : Nat) :
    around.drawn (n + 1) = fun id => around.drawn n id ∨ id = around.ids n := by
  funext id
  apply propext
  constructor
  · rintro ⟨i, hi, rfl⟩
    rcases Nat.lt_succ_iff_lt_or_eq.mp hi with hlt | rfl
    · exact .inl ⟨i, hlt, rfl⟩
    · exact .inr rfl
  · rintro (⟨i, hi, rfl⟩ | rfl)
    · exact ⟨i, Nat.lt_succ_of_lt hi, rfl⟩
    · exact ⟨n, Nat.lt_succ_self n, rfl⟩

/-- Everything stored is well-formed, and every identifier in it was drawn. -/
def MemoryItems.Sound (around : Surroundings) (s : MemoryItems) : Prop :=
  Contents.Sound (around.drawn s.drawn) s.raw

section

variable {around : Surroundings} {t : Trouble} {bucket key : Bytes} {x : Option Item}
  {condition : Precondition} {s s' : MemoryItems} {r : Except Failure Bool}

theorem Written.drawn (h : Written t bucket key x condition s r s') : s'.drawn = s.drawn := by
  cases h <;> rfl

/-- A write takes effect where its condition holds, or not at all. -/
theorem Written.raw (h : Written t bucket key x condition s r s') :
    s'.raw = s.raw ∨ condition.holds (s.raw bucket key) = true ∧ s'.raw = Places.put s.raw bucket key x := by
  cases h with
  | unreachable _ => exact .inl rfl
  | refused _ _ _ _ => exact .inl rfl
  | declined _ _ _ => exact .inl rfl
  | applied hitems hcond fault =>
    rw [MemoryItems.get?_eq_raw hitems] at hcond
    exact .inr ⟨hcond, MemoryItems.raw_withItems hitems x⟩
  | lost hitems _ hcond _ fault =>
    rw [MemoryItems.get?_eq_raw hitems] at hcond
    exact .inr ⟨hcond, MemoryItems.raw_withItems hitems x⟩

end

end BucketStore.Staging
