/-
  BucketStore/Proofs/Staging/Contents.lean
  ========================================
  **What is stored, and what readers see of it.**

  The contents of a store are a function from bucket and key to item; a write
  changes it at one place (`Places.put`).  What a reader sees under a key is
  the item's value, unless the item is locked by a committed transaction: then
  it is what that transaction was going to make of the value.

  Writes under user keys change what is seen at their own place only
  (`visible_put`); writes of records change it only under the keys that the
  transaction holds (`sameView_putRecord`).
-/
import BucketStore.Proofs.Places
import BucketStore.Proofs.Staging.RecordCodec
import BucketStore.Staging.MemoryItems

namespace BucketStore.Staging

/-- What is stored under the keys of the buckets. -/
abbrev Contents := Places Item

/-! ### Keys of records and keys of users -/

theorem isReservedKey_recordKey (id : String) : isReservedKey (recordKey id) = true := by
  unfold isReservedKey recordKey
  exact List.isPrefixOf_iff_prefix.mpr (List.prefix_append _ _)

theorem recordKey_injective {id id' : String} (h : recordKey id = recordKey id') : id = id' :=
  Bytes.ofString_injective (List.append_cancel_left h)

theorem ne_recordKey {key : Bytes} (h : isReservedKey key = false) (id : String) :
    key ≠ recordKey id := by
  rintro rfl
  rw [isReservedKey_recordKey] at h
  exact absurd h (by decide)

/-! ### What readers see -/

/-- The record that an item holds, if it can be read. -/
def Item.record? (item : Item) : Option Record :=
  item.value.bind fun bytes => (Record.decode bytes).toOption

namespace Contents

/-- The record of a transaction, if one that can be read is stored in the bucket. -/
def record? (c : Contents) (bucket : Bytes) (id : String) : Option Record :=
  ((c bucket (recordKey id)).bind Item.value).bind fun bytes => (Record.decode bytes).toOption

/-- Is the transaction that holds the lock committed? -/
def committed (c : Contents) (lock : Lock) : Bool :=
  (c.record? lock.recordBucket lock.owner).any fun r => r.state == .committed

end Contents

theorem Item.record?_eq_some {item : Item} {r : Record} :
    item.record? = some r ↔ ∃ bytes, item.value = some bytes ∧ Record.decode bytes = .ok r := by
  unfold Item.record?
  rw [Option.bind_eq_some_iff]
  refine exists_congr fun bytes => and_congr_right fun _ => ?_
  cases Record.decode bytes with
  | error f => exact ⟨fun h => (nomatch h), fun h => (nomatch h)⟩
  | ok r' => exact ⟨fun h => congrArg Except.ok (Option.some.inj h), fun h => congrArg some (Except.ok.inj h)⟩

theorem record?_item {r : Record} (hr : r.Addressable) : r.item.record? = some r :=
  Item.record?_eq_some.mpr ⟨_, rfl, Record.decode_encode hr⟩

/-- What readers see of an item, where `committed` tells of the lock whether its transaction is. -/
def Item.seen (item : Item) (committed : Lock → Bool) : Option Bytes :=
  match item.lock with
  | some lock => if committed lock then lock.pending.resolve item.value else item.value
  | none => item.value

/-- What readers see under a key. -/
def Contents.visible (c : Contents) (bucket key : Bytes) : Option Bytes :=
  (c bucket key).bind fun item => item.seen c.committed

/-- Readers see the same in both contents, under every key that users may name. -/
def Contents.SameView (c c' : Contents) : Prop :=
  ∀ bucket key, isReservedKey key = false → c'.visible bucket key = c.visible bucket key

namespace Contents

variable {c c' c'' : Contents} {bucket key : Bytes}

theorem SameView.refl (c : Contents) : SameView c c := fun _ _ _ => rfl

theorem SameView.trans (h : SameView c c') (h' : SameView c' c'') : SameView c c'' :=
  fun b k hk => (h' b k hk).trans (h b k hk)

theorem visible_of_item {item : Item} (h : c bucket key = some item) :
    c.visible bucket key = item.seen c.committed := by
  unfold visible
  rw [h]
  rfl

/-! ### Reading records -/

theorem record?_eq {id : String} : c.record? bucket id = (c bucket (recordKey id)).bind Item.record? := by
  unfold record?
  cases c bucket (recordKey id) <;> rfl

theorem record?_of_item {r : Record} (hr : r.Addressable)
    (h : c bucket (recordKey r.id) = some r.item) : c.record? bucket r.id = some r := by
  rw [record?_eq, h]
  exact record?_item hr

theorem committed_of_item {r : Record} (hr : r.Addressable) {lock : Lock}
    (howner : lock.owner = r.id) (h : c lock.recordBucket (recordKey r.id) = some r.item) :
    c.committed lock = (r.state == .committed) := by
  simp [committed, howner, record?_of_item hr h]

theorem committed_of_none {lock : Lock} (h : c lock.recordBucket (recordKey lock.owner) = none) :
    c.committed lock = false := by
  simp [committed, record?, h]

theorem committed_congr {lock : Lock}
    (h : c' lock.recordBucket (recordKey lock.owner) = c lock.recordBucket (recordKey lock.owner)) :
    c'.committed lock = c.committed lock := by
  unfold committed record?
  rw [h]

/-! ### The effect of one write -/

@[simp] theorem committed_put (hkey : isReservedKey key = false) (x : Option Item) :
    Contents.committed (c.put bucket key x) = c.committed := by
  funext lock
  exact committed_congr (Places.put_other_key (ne_recordKey hkey _).symm)

theorem visible_put (hkey : isReservedKey key = false) (x : Option Item) (b k : Bytes) :
    Contents.visible (c.put bucket key x) b k =
      if b = bucket ∧ k = key then x.bind (fun item => item.seen c.committed)
      else c.visible b k := by
  unfold visible
  rw [committed_put hkey]
  unfold Places.put
  split <;> rfl

/-- A write under a user's key is not seen if it keeps what is seen there. -/
theorem sameView_put (hkey : isReservedKey key = false) {x : Option Item}
    (h : x.bind (fun item => item.seen c.committed) = c.visible bucket key) :
    SameView c (c.put bucket key x) := by
  intro b k _
  rw [visible_put hkey]
  split
  · next heq => rw [h, heq.1, heq.2]
  · rfl

/-- A record's write is not seen if every item that the transaction holds shows the same. -/
theorem sameView_putRecord {id : String} {x : Option Item}
    (h : ∀ b k item lock, isReservedKey k = false → c b k = some item → item.lock = some lock →
      lock.owner = id → lock.recordBucket = bucket →
      item.seen (Contents.committed (c.put bucket (recordKey id) x)) = item.seen c.committed) :
    SameView c (c.put bucket (recordKey id) x) := by
  intro b k hk
  unfold visible
  rw [Places.put_other_key (ne_recordKey hk id)]
  cases hitem : c b k with
  | none => rfl
  | some item =>
    change item.seen _ = item.seen _
    cases hlock : item.lock with
    | none => simp only [Item.seen, hlock]
    | some lock =>
      by_cases hmine : lock.owner = id ∧ lock.recordBucket = bucket
      · exact h b k item lock hk hitem hlock hmine.1 hmine.2
      · have hsame : Contents.committed (c.put bucket (recordKey id) x) lock = c.committed lock := by
          refine committed_congr (Places.put_other fun heq => hmine ⟨?_, heq.1⟩)
          exact recordKey_injective heq.2
        simp only [Item.seen, hlock, hsame]

/-- A record's write is not seen if it leaves open whether the transaction is committed. -/
theorem sameView_putRecord_of_committed {id : String} {x : Option Item}
    (h : ∀ lock : Lock, lock.owner = id → lock.recordBucket = bucket →
      Contents.committed (c.put bucket (recordKey id) x) lock = c.committed lock) :
    SameView c (c.put bucket (recordKey id) x) := by
  refine sameView_putRecord ?_
  intro b k item lock _ _ hlock howner hbucket
  simp only [Item.seen, hlock, h lock howner hbucket]

end Contents

end BucketStore.Staging
