/-
  BucketStore/Proofs/Staging/Issued.lean
  ======================================
  **The writes that the engine issues.**

  `Issued` lists them: what is stored under users' keys may be anything with or
  without a lock, but the key of a record is written in three ways only.  A record
  is announced where nothing stands, under an identifier that was just drawn; it is
  decided, once, by a write that asks for the very bytes that were read as a
  pending record; and it is forgotten by a write that asks for the bytes of the
  decided one.

  The contract `issuing` lets a protocol make no other writes, and promises of the
  replies only that what stands under keys of records can be read.  So it holds
  whoever else writes to the store between any two calls.
-/
import BucketStore.Proofs.Staging.WellFormed

namespace BucketStore.Staging

/-! ### What may be relied on -/

/-- What stands under the key of a record is the usable record of that transaction. -/
def Readable (known : String → Prop) (key : Bytes) (item : Item) : Prop :=
  isReservedKey key = true → ∃ r : Record, item.record? = some r ∧ key = r.key ∧ r.Usable known

section

variable {known : String → Prop} {key : Bytes} {item : Item}

theorem Readable.record_of {id : String} (h : Readable known (recordKey id) item) :
    ∃ r : Record, item.record? = some r ∧ r.id = id ∧ r.Usable known := by
  obtain ⟨r, hrecord, hkey, husable⟩ := h (isReservedKey_recordKey id)
  exact ⟨r, hrecord, (recordKey_injective hkey).symm, husable⟩

theorem WellFormed.readable (h : WellFormed known key item) : Readable known key item := by
  intro hkey
  obtain ⟨r, hproper, rfl, rfl⟩ := h.record_of_reserved hkey
  exact ⟨r, record?_item hproper.addressable, rfl, hproper.toUsable⟩

end

/-! ### The writes -/

/-- The writes that are issued when `fresh` is the identifier just drawn. A record is put in the
    committed state only if `commits`. -/
inductive Issued (commits : Prop) (known : String → Prop) (fresh : Option String) :
    Bytes → Option Item → Precondition → Prop
  | plain {key : Bytes} (hkey : isReservedKey key = false) (value : Option Bytes)
      (condition : Precondition) : Issued commits known fresh key (value.map .plain) condition
  | locked {key : Bytes} (hkey : isReservedKey key = false) (value : Option Bytes) {lock : Lock}
      (howner : known lock.owner) (condition : Precondition) :
      Issued commits known fresh key (some ⟨value, some lock⟩) condition
  | announced {r : Record} (hr : r.Usable known) (hpending : r.state = .pending)
      (hfresh : fresh = some r.id) : Issued commits known fresh r.key (some r.item) .absent
  | decided {r : Record} {bytes : Bytes} {state : TxState} (hr : r.Usable known)
      (hread : Record.decode bytes = .ok r) (hpending : r.state = .pending)
      (hnext : TxState.pending.canBecome state = true) (hcommits : state = .committed → commits) :
      Issued commits known fresh r.key (some ({ r with state } : Record).item) (.valueEquals bytes)
  | forgotten {r : Record} (hr : r.Usable known) (hnext : r.state.canBecome .reclaimed = true) :
      Issued commits known fresh r.key none (.valueEquals r.encode)

section

variable {commits : Prop} {known : String → Prop} {fresh : Option String} {key : Bytes}
  {x : Option Item} {condition : Precondition}

/-- A pending record is committed or aborted. -/
theorem canBecome_pending {state : TxState} :
    TxState.pending.canBecome state = true ↔ state = .committed ∨ state = .aborted := by
  cases state <;> decide

/-- Only decided records are given up. -/
theorem canBecome_reclaimed {state : TxState} :
    state.canBecome .reclaimed = true ↔ state = .committed ∨ state = .aborted := by
  cases state <;> decide

/-- Anybody may abort a pending record that was read. -/
theorem issued_abort {r : Record} {bytes : Bytes} (hr : r.Usable known)
    (hread : Record.decode bytes = .ok r) (hpending : r.state = .pending) :
    Issued commits known fresh r.key (some ({ r with state := .aborted } : Record).item)
      (.valueEquals bytes) := .decided hr hread hpending rfl nofun

/-- What is issued is well-formed. -/
theorem Issued.wellFormed (h : Issued commits known fresh key x condition) :
    ∀ item, x = some item → WellFormed known key item := by
  intro item hitem
  cases h with
  | plain hkey value condition => exact wellFormed_plain hkey value item hitem
  | locked hkey value howner condition => exact Option.some.inj hitem ▸ wellFormed_locked hkey howner
  | @announced r hr hpending _ =>
    cases hitem
    exact .record ⟨hr, by rw [hpending]; decide⟩
  | @decided r bytes state hr _ _ hnext _ =>
    cases hitem
    refine .record (r := { r with state }) ⟨hr.withState state, ?_⟩
    rcases canBecome_pending.mp hnext with rfl | rfl <;> exact fun heq => nomatch heq
  | forgotten _ _ => cases hitem

end

/-! ### The contract -/

/-- The identifiers that are known, and the one that was drawn and not used since. -/
structure Names where
  known : String → Prop
  fresh : Option String := none

/-- Writes are of the kinds that are issued, and what is read under keys of records is readable. -/
def issuing (commits : Prop) : Contract Call Call.Reply Names where
  needs
    | .write _ key x condition, names => Issued commits names.known names.fresh key x condition
    | _, _ => True
  allows
    | .load _ key, names, r, names' =>
      (∀ item, r = .ok (some item) → Readable names.known key item) ∧ names' = names
    | .scan _ _ _, names, r, names' =>
      (∀ page, r = .ok page → ∀ e ∈ page.items, Readable names.known e.1 e.2) ∧ names' = names
    | .freshId, names, r, names' =>
      (Bytes.ofString r).Addressable ∧ names' = ⟨fun id => names.known id ∨ id = r, some r⟩
    | .write _ _ _ _, names, _, names' => names' = ⟨names.known, none⟩
    | .now, names, _, names' => names' = names

end BucketStore.Staging
