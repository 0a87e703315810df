/-
  BucketStore/Proofs/Transaction/Touched.lean
  ===========================================
  **The places that a transaction touches.**

  Every place that an operation names is touched, once (`nodup_touched`,
  `mem_touched`), in the order of the operations that name them first
  (`firstTouches_touched`); the first of them lies in the first bucket
  (`touched_of_buckets`).
-/
import BucketStore.Proofs.Fallible
import BucketStore.Proofs.Wire.RoundTrip
import BucketStore.Transaction
import Mathlib.Data.List.Basic
import Mathlib.Data.List.Induction

namespace BucketStore

section

variable {α : Type} [BEq α] [LawfulBEq α]

theorem nodup_eraseDups (l : List α) : l.eraseDups.Nodup := by
  induction hn : l.length using Nat.strongRecOn generalizing l with
  | ind n ih =>
    cases l with
    | nil => exact List.nodup_nil
    | cons a l =>
      rw [List.eraseDups_cons, List.nodup_cons]
      have hlen := List.length_filter_le (fun b => !b == a) l
      refine ⟨fun hmem => ?_, ih _ (by rw [List.length_cons] at hn; omega) _ rfl⟩
      rw [List.mem_eraseDups, List.mem_filter] at hmem
      simp at hmem

omit [LawfulBEq α] in
theorem length_eraseDups_le (l : List α) : l.eraseDups.length ≤ l.length := by
  induction hn : l.length using Nat.strongRecOn generalizing l with
  | ind n ih =>
    cases l with
    | nil => simp
    | cons a l =>
      rw [List.length_cons] at hn
      rw [List.eraseDups_cons, List.length_cons]
      have hlen := List.length_filter_le (fun b => !b == a) l
      have hrest := ih (l.filter fun b => !b == a).length (by omega) _ rfl
      omega

/-- What is left of a list without its repetitions comes in the order of first appearance. -/
theorem pairwise_eraseDups (l : List α) : l.eraseDups.Pairwise fun a b => l.idxOf a < l.idxOf b := by
  induction l using List.reverseRecOn with
  | nil => exact List.Pairwise.nil
  | append_singleton l a ih =>
    have hkept : ∀ {x}, x ∈ l.eraseDups → (l ++ [a]).idxOf x = l.idxOf x ∧ l.idxOf x < l.length := by
      intro x hx
      rw [List.mem_eraseDups] at hx
      exact ⟨List.idxOf_append_of_mem hx, List.idxOf_lt_length_iff.mpr hx⟩
    have hearlier : l.eraseDups.Pairwise fun x y => (l ++ [a]).idxOf x < (l ++ [a]).idxOf y := by
      apply ih.imp_of_mem
      intro x y hx hy hlt
      rwa [(hkept hx).1, (hkept hy).1]
    rw [List.eraseDups_append]
    by_cases ha : a ∈ l
    · simpa [List.removeAll, ha] using hearlier
    · have hlast : ([a].removeAll l).eraseDups = [a] := by simp [List.removeAll, ha, List.eraseDups_cons]
      rw [hlast, List.pairwise_append]
      refine ⟨hearlier, List.pairwise_singleton _ a, ?_⟩
      intro x hx y hy
      rw [List.mem_singleton] at hy
      rw [hy, (hkept hx).1, List.idxOf_append_of_notMem ha]
      exact Nat.lt_add_right _ (hkept hx).2

end

namespace Transaction

/-- A transaction that fits into memory. -/
structure Addressable (tx : Transaction) : Prop where
  count : tx.length < 2 ^ 64
  names : ∀ op ∈ tx, op.bucket.Addressable ∧ op.key.Addressable

instance (tx : Transaction) : Decidable tx.Addressable :=
  decidable_of_iff (tx.length < 2 ^ 64 ∧ ∀ op ∈ tx, op.bucket.Addressable ∧ op.key.Addressable)
    ⟨fun h => ⟨h.1, h.2⟩, fun h => ⟨h.count, h.names⟩⟩

variable {tx : Transaction}

theorem nodup_touched (tx : Transaction) : tx.touched.Nodup := nodup_eraseDups _

theorem length_touched_le (tx : Transaction) : tx.touched.length ≤ tx.length := by
  have h := length_eraseDups_le (List.map (fun op : Operation => (op.bucket, op.key)) tx)
  rwa [List.length_map] at h

/-- The number of the first operation on a place. -/
def firstTouch (tx : Transaction) (place : Bytes × Bytes) : Nat :=
  List.findIdx (fun op : Operation => (op.bucket, op.key) == place) tx

theorem mem_touched {place : Bytes × Bytes} :
    place ∈ tx.touched ↔ ∃ op ∈ tx, (op.bucket, op.key) = place := by
  unfold touched
  rw [List.mem_eraseDups, List.mem_map]

/-- The places are those that the operations name, once each, in the order of the operations that
    name them first. -/
structure FirstTouches (tx : Transaction) (places : List (Bytes × Bytes)) : Prop where
  mem : ∀ place, place ∈ places ↔ ∃ op ∈ tx, (op.bucket, op.key) = place
  ordered : places.Pairwise fun a b => tx.firstTouch a < tx.firstTouch b

theorem firstTouches_touched (tx : Transaction) : tx.FirstTouches tx.touched where
  mem _ := mem_touched
  ordered := by
    have hidx : ∀ place, (List.map (fun op : Operation => (op.bucket, op.key)) tx).idxOf place =
        tx.firstTouch place := fun _ => List.findIdx_map _ _ _
    have hordered := pairwise_eraseDups (List.map (fun op : Operation => (op.bucket, op.key)) tx)
    simp only [hidx] at hordered
    exact hordered

/-- A transaction that passes the check consists of operations that do. -/
theorem check_of_mem (h : tx.check = .ok ()) {op : Operation} (hop : op ∈ tx) :
    checkKey op.bucket op.key = .ok () := by
  unfold check at h
  induction tx with
  | nil => cases hop
  | cons first rest ih =>
    obtain ⟨_, hfirst, hrest⟩ := bind_eq_ok.mp h
    rcases List.mem_cons.mp hop with rfl | hop
    · exact hfirst
    · exact ih hrest hop

theorem eq_nil_of_buckets (h : tx.buckets = []) : tx = [] := by
  cases tx with
  | nil => rfl
  | cons op rest =>
    unfold buckets at h
    rw [List.map_cons, List.eraseDups_cons] at h
    cases h

theorem touched_of_buckets {bucket : Bytes} {rest : List Bytes} (h : tx.buckets = bucket :: rest) :
    ∃ key places, tx.touched = (bucket, key) :: places := by
  unfold buckets at h
  cases tx with
  | nil => cases h
  | cons op ops =>
    rw [List.map_cons, List.eraseDups_cons, List.cons.injEq] at h
    unfold touched
    rw [List.map_cons, List.eraseDups_cons, h.1]
    exact ⟨_, _, rfl⟩

end Transaction

end BucketStore
