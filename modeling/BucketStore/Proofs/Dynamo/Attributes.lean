/-
  BucketStore/Proofs/Dynamo/Attributes.lean
  =========================================
  **An item is told by its attributes, and so is whether a precondition holds of it.**

  No attribute of an item is written twice, so each can be looked up (`get?_value`,
  `get?_owner`, …).  Reading the attributes back gives the key and the item
  (`decode_itemAttributes`), and the condition that stands for a precondition holds of
  them exactly if the precondition holds of the item (`verdict_conditionOf`), which may
  be absent, plain, or locked with or without a value.
-/
import BucketStore.Proofs.Dynamo.Expression

namespace BucketStore.Dynamo

variable (key : String) (item : Staging.Item)

/-! ### Single attributes -/

/-- The attributes of an item as they are written, each under its name. -/
def itemBindings : List (String × Attribute) :=
  [(keyName, .text key)] ++ (item.value.toList.map fun value => (valueName, Attribute.blob value)) ++
    item.lock.toList.flatMap lockAttributes

/-- No attribute is written twice, whether or not there are a value and a lock. -/
theorem nodup_itemBindings : ((itemBindings key item).map (·.1)).Nodup := by
  rcases item with ⟨_ | value, _ | ⟨owner, recordBucket, _ | _ | _⟩⟩ <;>
    simp [itemBindings, lockAttributes, keyName, valueName, ownerName, recordBucketName,
      pendingName, pendingValueName]

theorem get?_itemAttributes (name : String) :
    (itemAttributes key item).get? name = Bindings.find? name (itemBindings key item) :=
  KeyMap.get?_ofList (nodup_itemBindings key item) name

@[simp] theorem get?_key : (itemAttributes key item).get? keyName = some (.text key) :=
  get?_itemAttributes key item keyName

@[simp] theorem get?_value :
    (itemAttributes key item).get? valueName = item.value.map .blob := by
  rw [get?_itemAttributes]
  rcases item with ⟨_ | value, _ | ⟨owner, recordBucket, _ | _ | _⟩⟩ <;> rfl

@[simp] theorem get?_owner :
    (itemAttributes key item).get? ownerName = item.lock.map fun lock => .text lock.owner := by
  rw [get?_itemAttributes]
  rcases item with ⟨_ | value, _ | ⟨owner, recordBucket, _ | _ | _⟩⟩ <;> rfl

@[simp] theorem get?_recordBucket : (itemAttributes key item).get? recordBucketName =
    item.lock.map fun lock => .blob lock.recordBucket := by
  rw [get?_itemAttributes]
  rcases item with ⟨_ | value, _ | ⟨owner, recordBucket, _ | _ | _⟩⟩ <;> rfl

@[simp] theorem get?_pending : (itemAttributes key item).get? pendingName =
    item.lock.map fun lock => .text lock.pending.name := by
  rw [get?_itemAttributes]
  rcases item with ⟨_ | value, _ | ⟨owner, recordBucket, _ | _ | _⟩⟩ <;> rfl

/-- Of a pending write only the value that it puts is an attribute. -/
@[simp] theorem get?_pendingValue : (itemAttributes key item).get? pendingValueName =
    item.lock.bind fun lock => (lock.pending.resolve none).map .blob := by
  rw [get?_itemAttributes]
  rcases item with ⟨_ | value, _ | ⟨owner, recordBucket, _ | _ | _⟩⟩ <;> rfl

/-! ### Reading items back -/

theorem decodePending_itemAttributes {item : Staging.Item} {lock : Staging.Lock}
    (h : item.lock = some lock) :
    decodePending (itemAttributes key item) = .ok lock.pending := by
  have hname : text? (itemAttributes key item) pendingName = .ok (some lock.pending.name) := by
    simp only [text?, get?_pending, h, Option.map_some]
  have hvalue : blob? (itemAttributes key item) pendingValueName =
      .ok (lock.pending.resolve none) := by
    simp only [blob?, get?_pendingValue, h, Option.bind_some]
    cases lock.pending <;> rfl
  unfold decodePending
  rw [hname, hvalue]
  cases lock.pending <;> rfl

theorem decodeLock_itemAttributes :
    decodeLock (itemAttributes key item) = .ok item.lock := by
  unfold decodeLock
  cases hlock : item.lock with
  | none =>
    simp only [text?, get?_owner, hlock]
    rfl
  | some lock =>
    simp only [text?, blob?, get?_owner, get?_recordBucket, hlock,
      decodePending_itemAttributes key hlock]
    rfl

/-- An item with its key is read back from its attributes. -/
theorem decode_itemAttributes :
    decode (itemAttributes key item) = .ok (Bytes.ofString key, item) := by
  have hvalue : blob? (itemAttributes key item) valueName = .ok item.value := by
    simp only [blob?, get?_value]
    cases item.value <;> rfl
  unfold decode
  simp only [text?, get?_key, hvalue, decodeLock_itemAttributes]
  rfl

/-! ### Preconditions -/

theorem absent_owner : (Test.absent ownerName).holds (itemAttributes key item) = !item.isLocked := by
  simp [Test.holds, Staging.Item.isLocked]

theorem equals_owner (place id : String) :
    (Test.equals ownerName place (.text id)).holds (itemAttributes key item) =
      item.isLockedBy id := by
  rw [Bool.eq_iff_iff, Test.holds, get?_owner, Staging.Item.isLockedBy]
  cases item.lock <;> simp

theorem absent_value : (Test.absent valueName).holds (itemAttributes key item) =
    (item.value == none) := by
  simp only [Test.holds, get?_value]
  cases item.value <;> rfl

theorem equals_value (place : String) (value : Bytes) :
    (Test.equals valueName place (.blob value)).holds (itemAttributes key item) =
      (item.value == some value) := by
  rw [Bool.eq_iff_iff, Test.holds, get?_value]
  cases item.value <;> simp

/-- The condition that stands for a precondition holds of what is stored if the precondition does. -/
theorem holds_conditionOf (p : Staging.Precondition) (stored : Option Staging.Item) :
    (conditionOf p).holds (stored.map (itemAttributes key)) = p.holds stored := by
  cases stored with
  | none => rcases p with _ | _ | _ | (_ | value) | id | value <;> rfl
  | some item =>
    change (conditionOf p).all (Test.holds (itemAttributes key item)) = _
    cases p with
    | none => rfl
    | absent => simp [conditionOf, Test.holds, Staging.Precondition.holds]
    | unlocked => simp [conditionOf, absent_owner, Staging.Precondition.holds]
    | unlockedWith value =>
      cases value <;> simp [conditionOf, absent_owner, absent_value, equals_value,
        Staging.Precondition.holds]
    | lockedBy id => simp [conditionOf, equals_owner, Staging.Precondition.holds]
    | valueEquals value => simp [conditionOf, equals_value, Staging.Precondition.holds]

/-- The text that is sent for a precondition is judged as the precondition of the item that is
    stored, if any. -/
theorem verdict_conditionOf (p : Staging.Precondition) (stored : Option Staging.Item) :
    Expression.verdict? (conditionOf p).expression? (conditionOf p).values?
      (stored.map (itemAttributes key)) = some (p.holds stored) := by
  rw [Condition.verdict_eq (conditionOf_plain p), holds_conditionOf]

end BucketStore.Dynamo
