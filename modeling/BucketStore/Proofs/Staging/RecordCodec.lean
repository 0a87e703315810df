/-
  BucketStore/Proofs/Staging/RecordCodec.lean
  ===========================================
  **The stored form of a transaction record tells everything about it.**

  A record is read back from its stored form (`Record.decode_encode`), so two
  records with one stored form are equal (`Record.encode_injective`): the
  condition of a flip, that the stored bytes are those of the pending record,
  can hold of that record alone.

  Both ask that the record is addressable, that is, that the lengths in it are
  64-bit numbers, as all lengths in memory are; a record that was read from bytes
  always is (`Record.addressable_of_decode`).
-/
import BucketStore.Proofs.Wire.RoundTrip
import BucketStore.Staging.Record

namespace BucketStore

namespace Staging.Record

/-- A record that fits into memory. -/
structure Addressable (r : Record) : Prop where
  id : (Bytes.ofString r.id).Addressable
  count : r.keys.length < 2 ^ 64
  places : ∀ place ∈ r.keys, Bytes.Addressable place.1 ∧ Bytes.Addressable place.2

theorem Addressable.withState {r : Record} (h : r.Addressable) (state : TxState) :
    ({ r with state } : Record).Addressable := ⟨h.id, h.count, h.places⟩

open Wire in
theorem encode_reads {r : Record} (h : r.Addressable) : Reads take r.encode r := by
  have hplace : ∀ place ∈ r.keys,
      Reads (do let bucket ← takeBytes; return (bucket, ← takeBytes))
        (putBytes place.1 ++ putBytes place.2) place := by
    intro place hmem
    obtain ⟨hbucket, hkey⟩ := h.places place hmem
    exact (putBytes_reads _ hbucket).bind ((putBytes_reads _ hkey).last (Reads.pure _))
  unfold encode
  rw [List.append_assoc, List.append_assoc]
  refine (putText_reads r.id h.id).bind ((putTxState_reads r.state).bind ?_)
  exact (putList_reads r.keys h.count hplace).bind ((putInt_reads r.createdAt).last (Reads.pure r))

/-- A record is read back from its stored form. -/
theorem decode_encode {r : Record} (h : r.Addressable) : decode r.encode = .ok r := by
  have hread := encode_reads h []
  rw [List.append_nil] at hread
  unfold decode
  rw [hread]

open Wire in
/-- Whatever is read as a record fits into memory. -/
theorem addressable_of_decode {bytes : Bytes} {r : Record} (h : decode bytes = .ok r) :
    r.Addressable := by
  have hplace : Yields (do let bucket ← takeBytes; return (bucket, ← takeBytes))
      fun place => Bytes.Addressable place.1 ∧ Bytes.Addressable place.2 :=
    takeBytes_yields.bind fun _ hbucket => takeBytes_yields.bind fun _ hkey =>
      Yields.pure ⟨hbucket, hkey⟩
  have htake : Yields take Addressable := by
    refine takeText_yields.bind fun id hid => (yields_true takeTxState).bind fun state _ => ?_
    refine (takeList_yields hplace).bind fun keys hkeys => ?_
    exact (yields_true takeInt).bind fun createdAt _ => Yields.pure ⟨hid, hkeys.1, hkeys.2⟩
  unfold decode at h
  cases hread : take bytes with
  | error fault =>
    rw [hread] at h
    cases h
  | ok r' =>
    rw [hread] at h
    cases h
    exact htake bytes r'.1 r'.2 hread

/-- Records with one stored form are equal. -/
theorem encode_injective {r r' : Record} (h : r.Addressable) (h' : r'.Addressable)
    (heq : r.encode = r'.encode) : r = r' := by
  have hdecode := decode_encode h
  rw [heq, decode_encode h'] at hdecode
  exact (Except.ok.inj hdecode).symm

end Staging.Record

end BucketStore
