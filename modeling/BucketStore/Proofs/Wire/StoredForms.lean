/-
  BucketStore/Proofs/Wire/StoredForms.lean
  ========================================
  **What is stored is read back, to the last byte.**

  Records, entries, operations, answers and items each have a writer and a reader.
  Whatever stands behind the bytes of a value, the reader gives the value and
  leaves exactly that (`stored_forms_faithful`); so no two values share their
  bytes, and none has bytes that begin those of another (`Reads.unique`).

  A value is `Addressable` if every length in it is a 64-bit number, as every
  length in memory is.  Nothing else is asked of it: whole numbers change their
  form at 251, at 2 ^ 16 and at 2 ^ 32, and moments before the epoch are folded
  onto the whole numbers, all without a gap.

  A flip of a record's state is conditional on the record's bytes.  That condition
  holds of the very record and of no other (`Record.holds_valueEquals`).
-/
import BucketStore.Proofs.Staging.RecordCodec

namespace BucketStore

/-! ### What fits into memory -/

/-- An optional byte string that fits into memory. -/
def Bytes.AddressableIfAny (value : Option Bytes) : Prop := ∀ bytes ∈ value, bytes.Addressable

structure Entry.Addressable (e : Entry) : Prop where
  bucket : e.bucket.Addressable
  key : e.key.Addressable
  value : e.value.Addressable

/-- The values that an operation brings along fit into memory. -/
def Operation.BringsAddressable : Operation → Prop
  | .get _ _ | .delete _ _ => True
  | .set _ _ value => value.Addressable
  | .compareAndSwap _ _ old new => Bytes.AddressableIfAny old ∧ new.Addressable

structure Operation.Addressable (op : Operation) : Prop where
  bucket : op.bucket.Addressable
  key : op.key.Addressable
  values : op.BringsAddressable

def Swap.Addressable (s : Swap) : Prop := Bytes.AddressableIfAny s.current

def OpResult.Addressable : OpResult → Prop
  | .read value => value.Addressable
  | .written | .deleted => True
  | .swap s => s.Addressable

structure TxOutcome.Addressable (outcome : TxOutcome) : Prop where
  count : outcome.length < 2 ^ 64
  answers : ∀ answer ∈ outcome, OpResult.Addressable answer

namespace Staging

def Pending.Addressable : Pending → Prop
  | .put value => value.Addressable
  | .delete | .keep => True

structure Lock.Addressable (l : Lock) : Prop where
  owner : (Bytes.ofString l.owner).Addressable
  recordBucket : l.recordBucket.Addressable
  pending : l.pending.Addressable

structure Item.Addressable (item : Item) : Prop where
  value : Bytes.AddressableIfAny item.value
  lock : ∀ l ∈ item.lock, l.Addressable

end Staging

namespace Wire

variable {α : Type}

/-! ### Readers that take what was written -/

/-- What two values were read from tells them apart, whatever stands behind it. -/
theorem Reads.unique {take : Reader α} {bytes bytes' rest rest' : Bytes} {a a' : α}
    (h : Reads take bytes a) (h' : Reads take bytes' a') (heq : bytes ++ rest = bytes' ++ rest') :
    a = a' ∧ rest = rest' := by
  have hboth := h rest
  rw [heq, h' rest'] at hboth
  simpa [eq_comm] using hboth

/-- Every value that fits is read back from its bytes and whatever stands behind
them, with just that left over; and its bytes are those of no other value. -/
structure Faithful (fits : α → Prop) (put : α → Bytes) (take : Reader α) : Prop where
  reads : ∀ a, fits a → ∀ rest, take (put a ++ rest) = .ok (a, rest)
  apart : ∀ a a', fits a → fits a' → put a = put a' → a = a'

theorem Faithful.of_reads {fits : α → Prop} {put : α → Bytes} {take : Reader α}
    (h : ∀ a, fits a → Reads take (put a) a) : Faithful fits put take where
  reads := h
  apart a a' ha ha' heq := by
    have hsame : put a ++ [] = put a' ++ [] := congrArg (· ++ []) heq
    exact ((h a ha).unique (h a' ha') hsame).1

/-! ### Truth values and optional values -/

theorem putBool_reads (b : Bool) : Reads takeBool (putBool b) b := by
  cases b with
  | false => exact (takeByte_reads 0).last (Reads.pure false)
  | true => exact (takeByte_reads 1).last (Reads.pure true)

theorem putOption_reads {take : Reader α} {put : α → Bytes} (value : Option α)
    (h : ∀ a ∈ value, Reads take (put a) a) :
    Reads (takeOption take) (putOption put value) value := by
  cases value with
  | none => exact (takeByte_reads 0).last (Reads.pure none)
  | some a => exact (takeByte_reads 1).bind ((h a rfl).last (Reads.pure (some a)))

theorem putOption_bytes_reads {value : Option Bytes} (h : Bytes.AddressableIfAny value) :
    Reads (takeOption takeBytes) (putOption putBytes value) value :=
  putOption_reads value fun bytes hmem => putBytes_reads bytes (h bytes hmem)

/-! ### Entries and operations -/

theorem putEntry_reads {e : Entry} (h : e.Addressable) : Reads takeEntry (putEntry e) e := by
  unfold putEntry
  rw [List.append_assoc]
  refine (putBytes_reads e.bucket h.bucket).bind ((putBytes_reads e.key h.key).bind ?_)
  exact (putBytes_reads e.value h.value).last (Reads.pure e)

/-- The form, the bucket and the key come first in every operation. -/
theorem putOperation_reads {op : Operation} (h : op.Addressable) :
    Reads takeOperation (putOperation op) op := by
  obtain ⟨hbucket, hkey, hvalues⟩ := h
  cases op with
  | get bucket key =>
    simp only [putOperation, List.append_assoc]
    refine (takeVariant_reads (by decide) (by decide)).bind ((putBytes_reads _ hbucket).bind ?_)
    exact (putBytes_reads _ hkey).last (Reads.pure _)
  | set bucket key value =>
    simp only [putOperation, List.append_assoc]
    refine (takeVariant_reads (by decide) (by decide)).bind ((putBytes_reads _ hbucket).bind ?_)
    exact (putBytes_reads _ hkey).bind ((putBytes_reads value hvalues).last (Reads.pure _))
  | delete bucket key =>
    simp only [putOperation, List.append_assoc]
    refine (takeVariant_reads (by decide) (by decide)).bind ((putBytes_reads _ hbucket).bind ?_)
    exact (putBytes_reads _ hkey).last (Reads.pure _)
  | compareAndSwap bucket key old new =>
    simp only [putOperation, List.append_assoc]
    refine (takeVariant_reads (by decide) (by decide)).bind ((putBytes_reads _ hbucket).bind ?_)
    refine (putBytes_reads _ hkey).bind ((putOption_bytes_reads hvalues.1).bind ?_)
    exact (putBytes_reads new hvalues.2).last (Reads.pure _)

/-! ### Answers -/

theorem putSwap_reads {s : Swap} (h : s.Addressable) : Reads takeSwap (putSwap s) s :=
  (putOption_bytes_reads h).bind ((putBool_reads s.swapped).last (Reads.pure s))

theorem putOpResult_reads {answer : OpResult} (h : answer.Addressable) :
    Reads takeOpResult (putOpResult answer) answer := by
  have hform : ∀ n, n < 4 → Reads (takeVariant 4) (putNat n) n :=
    fun n hn => takeVariant_reads hn (by omega)
  cases answer with
  | read value => exact (hform 0 (by decide)).bind ((putBytes_reads value h).last (Reads.pure _))
  | written => exact (hform 1 (by decide)).last (Reads.pure _)
  | deleted => exact (hform 2 (by decide)).last (Reads.pure _)
  | swap s => exact (hform 3 (by decide)).bind ((putSwap_reads h).last (Reads.pure _))

theorem putOutcome_reads {outcome : TxOutcome} (h : outcome.Addressable) :
    Reads takeOutcome (putOutcome outcome) outcome :=
  putList_reads outcome h.count fun answer hmem => putOpResult_reads (h.answers answer hmem)

/-! ### Items -/

theorem putPending_reads {pending : Staging.Pending} (h : pending.Addressable) :
    Reads takePending (putPending pending) pending := by
  have hform : ∀ n, n < 3 → Reads (takeVariant 3) (putNat n) n :=
    fun n hn => takeVariant_reads hn (by omega)
  cases pending with
  | put value => exact (hform 0 (by decide)).bind ((putBytes_reads value h).last (Reads.pure _))
  | delete => exact (hform 1 (by decide)).last (Reads.pure _)
  | keep => exact (hform 2 (by decide)).last (Reads.pure _)

theorem putLock_reads {l : Staging.Lock} (h : l.Addressable) : Reads takeLock (putLock l) l := by
  unfold putLock
  rw [List.append_assoc]
  refine (putText_reads l.owner h.owner).bind ((putBytes_reads _ h.recordBucket).bind ?_)
  exact (putPending_reads h.pending).last (Reads.pure l)

theorem putItem_reads {stored : Bytes × Staging.Item} (hkey : stored.1.Addressable)
    (hitem : stored.2.Addressable) : Reads takeItem (putItem stored) stored := by
  unfold putItem
  rw [List.append_assoc]
  refine (putBytes_reads _ hkey).bind ((putOption_bytes_reads hitem.value).bind ?_)
  refine (putOption_reads stored.2.lock fun l hmem => putLock_reads (hitem.lock l hmem)).last ?_
  exact Reads.pure stored

end Wire

/-! ### Stored forms -/

open Wire Staging

/-- Bytes behind a record's stored form do not matter. -/
theorem Staging.Record.decode_append {r : Record} (h : r.Addressable) (rest : Bytes) :
    Record.decode (r.encode ++ rest) = .ok r := by
  unfold Record.decode
  rw [Record.encode_reads h rest]

/-- The condition of a flip holds of the record whose bytes it names, and of no other. -/
theorem Staging.Record.holds_valueEquals {r r' : Record} (h : r.Addressable)
    (h' : r'.Addressable) :
    (Precondition.valueEquals r.encode).holds (some r'.item) = true ↔ r' = r := by
  constructor
  · intro hholds
    refine Record.encode_injective h' h ?_
    simpa [Precondition.holds, Record.item, Item.plain] using hholds
  · rintro rfl
    simp [Precondition.holds, Record.item, Item.plain]

/-- Everything that is stored or sent is read back from its bytes and whatever
stands behind them, to the last byte, and nothing else has those bytes.  So the
condition of a flip tells a record from every other one. -/
theorem stored_forms_faithful :
    Faithful Record.Addressable Record.encode Record.take ∧
      Faithful Entry.Addressable putEntry takeEntry ∧
      Faithful Operation.Addressable putOperation takeOperation ∧
      Faithful OpResult.Addressable putOpResult takeOpResult ∧
      Faithful Swap.Addressable putSwap takeSwap ∧
      Faithful TxOutcome.Addressable putOutcome takeOutcome ∧
      Faithful (fun _ : TxState => True) putTxState takeTxState ∧
      Faithful Pending.Addressable putPending takePending ∧
      Faithful (fun stored : Bytes × Item => stored.1.Addressable ∧ stored.2.Addressable)
        putItem takeItem ∧
      (∀ r : Record, r.Addressable → ∀ rest, Record.decode (r.encode ++ rest) = .ok r) ∧
      ∀ r r' : Record, r.Addressable → r'.Addressable →
        ((Precondition.valueEquals r.encode).holds (some r'.item) = true ↔ r' = r) := by
  refine ⟨?record, ?entry, ?operation, ?answer, ?swap, ?outcome, ?state, ?pending, ?item,
    ?decode, ?flip⟩
  case record => exact Faithful.of_reads fun _ h => Record.encode_reads h
  case entry => exact Faithful.of_reads fun _ h => putEntry_reads h
  case operation => exact Faithful.of_reads fun _ h => putOperation_reads h
  case answer => exact Faithful.of_reads fun _ h => putOpResult_reads h
  case swap => exact Faithful.of_reads fun _ h => putSwap_reads h
  case outcome => exact Faithful.of_reads fun _ h => putOutcome_reads h
  case state => exact Faithful.of_reads fun state _ => putTxState_reads state
  case pending => exact Faithful.of_reads fun _ h => putPending_reads h
  case item => exact Faithful.of_reads fun _ h => putItem_reads h.1 h.2
  case decode => exact fun _ h rest => Record.decode_append h rest
  case flip => exact fun _ _ h h' => Record.holds_valueEquals h h'

/-- A record made at the first moment there is, whose key and whose place's key are
as long as a length with a mark in front, and the bytes of a lock behind it. -/
theorem stored_forms_faithful_extremes :
    let r : Record := ⟨"p", .pending, [([65], List.replicate 251 97)], Int64.minValue⟩
    let item : Item := ⟨none, some ⟨"p", [65], .put (List.replicate 256 98)⟩⟩
    let rest := putItem ([97], item)
    (r.Addressable ∧ item.Addressable) ∧ Record.take (r.encode ++ rest) = .ok (r, rest) ∧
      takeItem (rest ++ r.encode) = .ok (([97], item), r.encode) ∧
      ∀ state, ({ r with state } : Record).encode = r.encode → state = .pending := by
  intro r item rest
  have hlong : ∀ n < 2 ^ 64, ∀ b, Bytes.Addressable (List.replicate n b) :=
    fun n hn b => by rwa [Bytes.Addressable, List.length_replicate]
  have hr : r.Addressable := by
    refine ⟨by decide, by decide, ?_⟩
    intro place hplace
    rw [List.mem_singleton.mp hplace]
    exact ⟨by decide, hlong 251 (by decide) 97⟩
  have hitem : item.Addressable := by
    refine ⟨by simp [item, Bytes.AddressableIfAny], ?_⟩
    rintro l ⟨⟩
    exact ⟨by decide, by decide, hlong 256 (by decide) 98⟩
  obtain ⟨hrecord, -, -, -, -, -, -, -, hitems, -⟩ := stored_forms_faithful
  refine ⟨⟨hr, hitem⟩, hrecord.reads r hr rest, ?_, ?_⟩
  · exact hitems.reads ([97], item) ⟨by decide, hitem⟩ r.encode
  · intro state heq
    exact congrArg Record.state (hrecord.apart _ r (hr.withState state) hr heq)

end BucketStore
