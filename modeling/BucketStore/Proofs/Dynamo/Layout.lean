/-
  BucketStore/Proofs/Dynamo/Layout.lean
  =====================================
  **What is read from attributes stands there.**

  Attributes may come from anywhere: some may be missing, of another type, or left over
  from a lock that is gone.  They are read as an item exactly if each attribute that the
  item is written with is among them, and they have no value and no owner where the
  item has none (`decode_eq_ok`).  So nothing that is read was made up, and no value and
  no lock that is stored is passed over; and since an item is written unless its key is
  no text, writing and reading are a faithful code (`layout_faithful`).
-/
import BucketStore.Proofs.Dynamo.Attributes
import BucketStore.Proofs.Fallible

namespace BucketStore

/-- Every binding of the map is a binding of the other. -/
def KeyMap.Within {κ α : Type} [Ord κ] (m m' : KeyMap κ α) : Prop :=
  ∀ k v, m.get? k = some v → m'.get? k = some v

namespace Dynamo

variable {attributes : Attributes} {name : String}

/-! ### Single attributes -/

theorem text?_eq_ok {found : Option String} :
    text? attributes name = .ok found ↔ attributes.get? name = found.map .text := by
  unfold text?
  cases attributes.get? name with
  | none => cases found <;> simp
  | some a => cases a <;> cases found <;> simp

theorem blob?_eq_ok {found : Option Bytes} :
    blob? attributes name = .ok found ↔ attributes.get? name = found.map .blob := by
  unfold blob?
  cases attributes.get? name with
  | none => cases found <;> simp
  | some a => cases a <;> cases found <;> simp

theorem present_eq_ok {α : Type} {found : Option α} {a : α} :
    present name found = .ok a ↔ found = some a := by
  cases found <;> simp [present]

section

variable {β : Type} {b : β}

/-- Whatever goes on with an attribute that has to be a text goes on with the text that it is. -/
theorem required_text_eq_ok {next : String → Except ItemFault β} :
    (do next (← present name (← text? attributes name))) = .ok b ↔
      ∃ s, attributes.get? name = some (.text s) ∧ next s = .ok b := by
  simp only [bind_eq_ok, text?_eq_ok, present_eq_ok]
  constructor
  · rintro ⟨_, hget, s, rfl, hnext⟩
    exact ⟨s, hget, hnext⟩
  · rintro ⟨s, hget, hnext⟩
    exact ⟨some s, hget, s, rfl, hnext⟩

theorem required_blob_eq_ok {next : Bytes → Except ItemFault β} :
    (do next (← present name (← blob? attributes name))) = .ok b ↔
      ∃ bytes, attributes.get? name = some (.blob bytes) ∧ next bytes = .ok b := by
  simp only [bind_eq_ok, blob?_eq_ok, present_eq_ok]
  constructor
  · rintro ⟨_, hget, bytes, rfl, hnext⟩
    exact ⟨bytes, hget, hnext⟩
  · rintro ⟨bytes, hget, hnext⟩
    exact ⟨some bytes, hget, bytes, rfl, hnext⟩

end

/-! ### The attributes of an item among others -/

/-- All of the bindings stand among the attributes. -/
def Holds (attributes : Attributes) (bindings : List (String × Attribute)) : Prop :=
  ∀ e ∈ bindings, attributes.get? e.1 = some e.2

instance (attributes : Attributes) (bindings : List (String × Attribute)) :
    Decidable (Holds attributes bindings) :=
  inferInstanceAs (Decidable (∀ e ∈ bindings, _))

theorem within_itemAttributes {key : String} {item : Staging.Item} :
    (itemAttributes key item).Within attributes ↔ Holds attributes (itemBindings key item) := by
  constructor
  · rintro h ⟨name, a⟩ he
    apply h name a
    rw [get?_itemAttributes]
    exact Bindings.find?_eq_some_of_mem (nodup_itemBindings key item) he
  · intro h name a hget
    rw [get?_itemAttributes] at hget
    exact h _ (Bindings.mem_of_find?_eq_some hget)

theorem holds_itemBindings {key : String} {item : Staging.Item} :
    Holds attributes (itemBindings key item) ↔ attributes.get? keyName = some (.text key) ∧
      (∀ value, item.value = some value → attributes.get? valueName = some (.blob value)) ∧
      ∀ lock, item.lock = some lock → Holds attributes (lockAttributes lock) := by
  unfold Holds itemBindings
  simp only [List.forall_mem_append, List.forall_mem_singleton, List.forall_mem_map,
    List.mem_flatMap, Option.mem_toList, forall_exists_index, and_imp, and_assoc]
  refine and_congr_right fun _ => and_congr_right fun _ => ?_
  exact ⟨fun h lock hlock e he => h e lock hlock he, fun h e lock hlock he => h lock hlock e he⟩

/-- Of a lock that puts a value, the value has to be there as well. -/
theorem holds_lockAttributes {lock : Staging.Lock} :
    Holds attributes (lockAttributes lock) ↔ attributes.get? ownerName = some (.text lock.owner) ∧
      attributes.get? recordBucketName = some (.blob lock.recordBucket) ∧
      attributes.get? pendingName = some (.text lock.pending.name) ∧
      ∀ value, lock.pending = .put value → attributes.get? pendingValueName = some (.blob value) := by
  unfold Holds lockAttributes
  cases lock.pending <;> simp

/-! ### Reading -/

theorem decodePending_eq_ok {pending : Staging.Pending} : decodePending attributes = .ok pending ↔
    attributes.get? pendingName = some (.text pending.name) ∧
      ∀ value, pending = .put value → attributes.get? pendingValueName = some (.blob value) := by
  simp only [decodePending, required_text_eq_ok]
  constructor
  · rintro ⟨name, hname, hread⟩
    split at hread
    · next hput =>
      subst hput
      obtain ⟨value, hvalue, hpending⟩ := required_blob_eq_ok.mp hread
      cases hpending
      refine ⟨hname, ?_⟩
      rintro _ ⟨⟩
      exact hvalue
    · split at hread
      · next hdelete =>
        subst hdelete
        cases hread
        exact ⟨hname, nofun⟩
      · split at hread
        · next hkeep =>
          subst hkeep
          cases hread
          exact ⟨hname, nofun⟩
        · cases hread
  · rintro ⟨hname, hvalue⟩
    refine ⟨pending.name, hname, ?_⟩
    cases pending with
    | put value => exact required_blob_eq_ok.mpr ⟨value, hvalue value rfl, rfl⟩
    | delete => rfl
    | keep => rfl

/-- Without an owner no lock is read, whatever else is there of one. -/
theorem decodeLock_eq_none :
    decodeLock attributes = .ok none ↔ attributes.get? ownerName = none := by
  simp only [decodeLock, bind_eq_ok, text?_eq_ok]
  constructor
  · rintro ⟨owner, howner, hread⟩
    cases owner with
    | none => exact howner
    | some owner =>
      obtain ⟨_, _, hread⟩ := required_blob_eq_ok.mp hread
      obtain ⟨_, _, hlock⟩ := bind_eq_ok.mp hread
      cases hlock
  · intro hnone
    exact ⟨none, hnone, rfl⟩

theorem decodeLock_eq_some {lock : Staging.Lock} :
    decodeLock attributes = .ok (some lock) ↔ Holds attributes (lockAttributes lock) := by
  simp only [holds_lockAttributes, decodeLock, bind_eq_ok, text?_eq_ok]
  constructor
  · rintro ⟨owner, howner, hread⟩
    cases owner with
    | none => cases hread
    | some owner =>
      obtain ⟨recordBucket, hrecord, hread⟩ := required_blob_eq_ok.mp hread
      obtain ⟨pending, hpending, hlock⟩ := bind_eq_ok.mp hread
      cases hlock
      exact ⟨howner, hrecord, decodePending_eq_ok.mp hpending⟩
  · rintro ⟨howner, hrecord, hpending⟩
    refine ⟨some lock.owner, howner, ?_⟩
    refine required_blob_eq_ok.mpr ⟨lock.recordBucket, hrecord, ?_⟩
    exact bind_eq_ok.mpr ⟨lock.pending, decodePending_eq_ok.mpr hpending, rfl⟩

variable {bucket key : Bytes} {item : Staging.Item}

/-- **Attributes are read as an item exactly if the item's attributes are among them**, and they have
    no value and no owner where the item has no value and no lock. -/
theorem decode_eq_ok : decode attributes = .ok (key, item) ↔
    ∃ text, Bytes.ofString text = key ∧ (itemAttributes text item).Within attributes ∧
      (item.value = none → attributes.get? valueName = none) ∧
      (item.lock = none → attributes.get? ownerName = none) := by
  simp only [decode, required_text_eq_ok, within_itemAttributes, holds_itemBindings]
  constructor
  · rintro ⟨text, hkey, hread⟩
    obtain ⟨value, hvalue, hread⟩ := bind_eq_ok.mp hread
    obtain ⟨lock, hlock, hitem⟩ := bind_eq_ok.mp hread
    cases hitem
    have hvalue := blob?_eq_ok.mp hvalue
    refine ⟨text, rfl, ⟨hkey, ?_, ?_⟩, ?_, ?_⟩
    · rintro value rfl
      exact hvalue
    · rintro lock rfl
      exact decodeLock_eq_some.mp hlock
    · rintro rfl
      exact hvalue
    · rintro rfl
      exact decodeLock_eq_none.mp hlock
  · rintro ⟨text, rfl, ⟨hkey, hvalue, hlock⟩, hnovalue, hnolock⟩
    refine ⟨text, hkey, bind_eq_ok.mpr ⟨item.value, ?_, bind_eq_ok.mpr ⟨item.lock, ?_, rfl⟩⟩⟩
    · rw [blob?_eq_ok]
      cases h : item.value with
      | none => exact hnovalue h
      | some value => exact hvalue value h
    · cases h : item.lock with
      | none => exact decodeLock_eq_none.mpr (hnolock h)
      | some lock => exact decodeLock_eq_some.mpr (hlock lock h)

/-! ### Writing -/

theorem encode_eq_ok {written : Attributes} : encode bucket key item = .ok written ↔
    ∃ text, Bytes.ofString text = key ∧ itemAttributes text item = written := by
  unfold encode keyText
  cases htext : Bytes.text? key with
  | none =>
    rw [Bytes.text?_eq_none] at htext
    exact ⟨nofun, fun ⟨text, hkey, _⟩ => absurd hkey (htext text)⟩
  | some text =>
    rw [Bytes.text?_eq_some] at htext
    constructor
    · intro h
      cases h
      exact ⟨text, htext, rfl⟩
    · rintro ⟨text', hkey, rfl⟩
      rw [Bytes.ofString_injective (htext.trans hkey.symm)]
      rfl

/-- What is not written has a key that is no text, and fails for that key. -/
theorem encode_eq_error {f : Failure} : encode bucket key item = .error f ↔
    (∀ text, Bytes.ofString text ≠ key) ∧
      f = .stated .invalid s!"DynamoDB keys must be UTF-8: {Failure.place bucket key}" := by
  unfold encode keyText
  cases htext : Bytes.text? key with
  | none =>
    rw [Bytes.text?_eq_none] at htext
    constructor
    · intro h
      cases h
      exact ⟨htext, rfl⟩
    · rintro ⟨_, rfl⟩
      rfl
  | some text =>
    rw [Bytes.text?_eq_some] at htext
    exact ⟨nofun, fun ⟨hno, _⟩ => absurd htext (hno text)⟩

/-- **Attributes are a faithful code of items.** An item is refused, as invalid, exactly if its key is
    no text; any other is written, and what was written is read as the item with its key. Whatever
    attributes are read as an item, all that the item is written with is among them, and they hold
    no value and no owner of a lock besides; all such attributes are read as that item. -/
theorem layout_faithful (bucket key : Bytes) (item : Staging.Item) (attributes : Attributes) :
    ((∃ f, encode bucket key item = .error f ∧ f.kind = .invalid) ↔
      ∀ text, Bytes.ofString text ≠ key) ∧
    ((∀ text, Bytes.ofString text ≠ key) ∨ ∃ written, encode bucket key item = .ok written ∧
      decode written = .ok (key, item)) ∧
    (decode attributes = .ok (key, item) ↔ ∃ written, encode bucket key item = .ok written ∧
      written.Within attributes ∧ (item.value = none → attributes.get? valueName = none) ∧
        (item.lock = none → attributes.get? ownerName = none)) := by
  refine ⟨?_, ?_, ?_⟩
  · constructor
    · rintro ⟨f, hfailed, -⟩
      exact (encode_eq_error.mp hfailed).1
    · exact fun hno => ⟨_, encode_eq_error.mpr ⟨hno, rfl⟩, rfl⟩
  · cases hencode : encode bucket key item with
    | error f => exact .inl (encode_eq_error.mp hencode).1
    | ok written =>
      obtain ⟨text, rfl, rfl⟩ := encode_eq_ok.mp hencode
      exact .inr ⟨_, rfl, decode_itemAttributes text item⟩
  · rw [decode_eq_ok]
    constructor
    · rintro ⟨text, hkey, hrest⟩
      exact ⟨_, encode_eq_ok.mpr ⟨text, hkey, rfl⟩, hrest⟩
    · rintro ⟨written, hencode, hrest⟩
      obtain ⟨text, hkey, rfl⟩ := encode_eq_ok.mp hencode
      exact ⟨text, hkey, hrest⟩

/-- An item whose value a transaction is going to delete. -/
def lockedOut : Staging.Item := ⟨some [1], some ⟨"tx-1", Bytes.ofString "users", .delete⟩⟩

/-- The attributes of that item, a value to put that is left from an earlier lock, and a list that
    somebody else has added. -/
def leftOver : Attributes :=
  ((itemAttributes "bob" lockedOut).insert pendingValueName (.blob [2])).insert "tags"
    (.other "L" "[]")

theorem layout_faithful_leftOver :
    (∀ text, Bytes.ofString text ≠ [0xFF]) ∧
    (∃ f, encode [0x75] [0xFF] lockedOut = .error f ∧ f.kind = .invalid) ∧
    (itemAttributes "bob" lockedOut).Within leftOver ∧
    decode leftOver = .ok (Bytes.ofString "bob", lockedOut) := by
  have hno : ∀ text, Bytes.ofString text ≠ [0xFF] := Bytes.text?_eq_none.mp (by decide +kernel)
  have hwithin : (itemAttributes "bob" lockedOut).Within leftOver :=
    within_itemAttributes.mpr (by decide +kernel)
  have hencode : encode [0x75] (Bytes.ofString "bob") lockedOut = .ok (itemAttributes "bob" lockedOut) :=
    encode_eq_ok.mpr ⟨"bob", rfl, rfl⟩
  obtain ⟨hrefused, -⟩ := layout_faithful [0x75] [0xFF] lockedOut leftOver
  obtain ⟨-, -, hread⟩ := layout_faithful [0x75] (Bytes.ofString "bob") lockedOut leftOver
  exact ⟨hno, hrefused.mpr hno, hwithin, hread.mpr ⟨_, hencode, hwithin, nofun, nofun⟩⟩

end Dynamo

end BucketStore
