/-
  BucketStore/Proofs/Memory/Growth.lean
  =====================================
  **No bucket holds more keys than were written.**

  A call leaves a key with a value only if the key had one before or the call names it
  (`values_perform`).  So a bucket grows by no more than the keys that are named
  (`countIn_perform`), and along a history it never holds more than the history names.
-/
import BucketStore.Proofs.Memory
import Mathlib.Data.List.Perm.Subperm

namespace BucketStore

/-- The keys that a call names, an update as often as its operations do. -/
def Request.keys : Request → List Bytes
  | .get _ k | .set _ k _ | .delete _ k | .compareAndSwap _ k _ _ => [k]
  | .update tx => tx.map Operation.key
  | .create _ | .drop _ | .list _ | .close => []

/-- What a map may have come to bind counts. -/
theorem KeyMap.size_le_of_contains {κ α : Type} [Ord κ] [Std.TransOrd κ] [Std.LawfulEqOrd κ]
    [DecidableEq κ] {m m' : KeyMap κ α} {keys : List κ}
    (h : ∀ k, m'.contains k = true → m.contains k = true ∨ k ∈ keys) :
    m'.size ≤ m.size + keys.length := by
  have hsubset : m'.keys ⊆ m.keys ++ keys := by
    intro k hk
    rw [List.mem_append, mem_keys]
    exact h k ((mem_keys m').mp hk)
  have hlength := (List.subperm_of_subset (nodup_keys m') hsubset).length_le
  rw [List.length_append] at hlength
  rwa [KeyMap.keys, KeyMap.keys, List.length_map, List.length_map] at hlength

namespace Memory

variable {m m' : Store} {b k name key : Bytes} {tx : Transaction}

/-- How many keys a bucket has; a bucket that does not exist has none. -/
def Store.countIn (m : Store) (b : Bytes) : Nat := ((m.buckets.get? b).map KeyMap.size).getD 0

theorem contains_iff_values {found : Bucket} (h : m.buckets.get? b = some found) :
    found.contains k = true ↔ m.values b k ≠ none := by
  rw [Store.values_of_bucket h, KeyMap.contains, Option.isSome_iff_ne_none]

/-- Keys that have come to have a value count. -/
theorem countIn_le {keys : List Bytes}
    (h : ∀ k, m'.values b k ≠ none → m.values b k ≠ none ∨ k ∈ keys) :
    m'.countIn b ≤ m.countIn b + keys.length := by
  unfold Store.countIn
  cases hafter : m'.buckets.get? b with
  | none => exact Nat.zero_le _
  | some found' =>
    cases hbefore : m.buckets.get? b with
    | none =>
      apply KeyMap.size_le_of_contains (m := {})
      intro k hk
      refine .inr ((h k ((contains_iff_values hafter).mp hk)).resolve_left fun hvalue => hvalue ?_)
      unfold Store.values
      rw [hbefore, Option.bind_none]
    | some found =>
      apply KeyMap.size_le_of_contains
      intro k hk
      rw [contains_iff_values hbefore]
      exact h k ((contains_iff_values hafter).mp hk)

/-- What a call leaves with a value had one before, or the call names it. -/
def Store.GrowsTo (m m' : Store) (keys : List Bytes) : Prop :=
  ∀ b k, m'.values b k ≠ none → m.values b k ≠ none ∨ k ∈ keys

theorem growsTo_self (keys : List Bytes) : m.GrowsTo m keys := fun _ _ h => .inl h

theorem growsTo_put {found : Bucket} (h : m.buckets.get? name = some found) (value : Option Bytes) :
    m.GrowsTo (m.withBucket name (found.put key value)) [key] := by
  intro b k hk
  rw [Store.values_withBucket h] at hk
  by_cases hplace : b = name ∧ k = key
  · exact .inr (List.mem_singleton.mpr hplace.2)
  · rw [Places.put, if_neg hplace] at hk
    exact .inl hk

section

variable (hopen : m.closed = false)
include hopen

theorem growsTo_create : m.GrowsTo (create name m).state [] := by
  rw [create_run hopen]
  cases checkBucket name with
  | error f => exact growsTo_self []
  | ok _ =>
    dsimp only
    cases hcontains : m.buckets.contains name with
    | true => exact growsTo_self []
    | false =>
      intro b k hk
      have hvalues : (m.withBucket name {}).values = m.values := Store.values_withEmpty hcontains
      exact .inl (hvalues ▸ hk)

theorem growsTo_drop : m.GrowsTo (drop name m).state [] := by
  rw [drop_run hopen]
  cases checkBucket name with
  | error f => exact growsTo_self []
  | ok _ =>
    dsimp only
    split
    · intro b k hk
      change Store.values { m with buckets := m.buckets.erase name } b k ≠ none at hk
      rw [Store.values_erase] at hk
      split at hk
      · exact absurd rfl hk
      · exact .inl hk
    · exact growsTo_self []

/-- A call on a key of a bucket grows the store as what it does with the bucket does. -/
theorem growsTo_bucketOf {α : Type} {next : Bucket → Action Store α} {keys : List Bytes}
    (hnext : ∀ found, m.buckets.get? name = some found → m.GrowsTo (next found m).state keys) :
    m.GrowsTo ((bucketOf name key >>= next) m).state keys := by
  rw [bucketOf_bind_run hopen]
  cases checkKey name key with
  | error f => exact growsTo_self keys
  | ok _ =>
    dsimp only
    rw [Action.bind_run, bucket_run]
    cases hbucket : m.buckets.get? name with
    | none => exact growsTo_self keys
    | some found => exact hnext found hbucket

theorem growsTo_get : m.GrowsTo (get name key m).state [key] := by
  refine growsTo_bucketOf hopen fun found _ => ?_
  cases found.get? key <;> exact growsTo_self [key]

theorem growsTo_swap (old : Option Bytes) (new : Bytes) :
    m.GrowsTo (compareAndSwap name key old new m).state [key] := by
  refine growsTo_bucketOf hopen fun found hbucket => ?_
  rw [swap_run]
  dsimp only
  split
  · exact growsTo_put hbucket (some new)
  · exact growsTo_self [key]

theorem growsTo_list (config : Config) : m.GrowsTo (list config name m).state [] := by
  rw [list_run hopen]
  cases checkBucket name <;> exact growsTo_self []

theorem growsTo_update : m.GrowsTo (update tx m).state (tx.map Operation.key) := by
  cases hcheck : tx.check with
  | error f =>
    rw [update_refused hopen hcheck]
    exact growsTo_self _
  | ok _ =>
    refine update_cases (P := fun _ m' => m.GrowsTo m' (tx.map Operation.key)) hopen hcheck ?_ ?_ ?_
    · exact fun _ _ => growsTo_self _
    · exact fun _ _ _ => growsTo_self _
    · rintro outcome v m' _ hon hvalues _ _ b k hk
      by_cases hplace : ∃ op ∈ tx, b = op.bucket ∧ k = op.key
      · obtain ⟨op, hop, -, rfl⟩ := hplace
        exact .inr (List.mem_map_of_mem hop)
      · push Not at hplace
        have hother : v b k = m.values b k :=
          Transaction.on_other hon fun op hop hsame => hplace op hop hsame.1 hsame.2
        rw [hvalues, hother] at hk
        exact .inl hk

omit hopen in
theorem growsTo_named {α : Type} {act : Action Store α} {keys : List Bytes}
    (h : m.GrowsTo (act m).state keys) (reword : Failure → Failure) :
    m.GrowsTo (act.mapFailure reword m).state keys := by
  rwa [Action.state_mapFailure]

/-- A bucket grows by the keys that a call names. -/
theorem countIn_perform (config : Config) {r : Request} (hr : r ≠ .close) (b : Bytes) :
    ((driver config).perform r m).state.countIn b ≤ m.countIn b + r.keys.length := by
  have hgrows : m.GrowsTo ((driver config).perform r m).state r.keys := by
    rw [Driver.state_perform]
    cases r with
    | create name => exact growsTo_named (growsTo_create hopen) _
    | drop name => exact growsTo_named (growsTo_drop hopen) _
    | get name key => exact growsTo_named (growsTo_get hopen) _
    | set name key value =>
      have hput : m.GrowsTo (put name key (some value) m).state [key] :=
        growsTo_bucketOf hopen fun found hbucket => growsTo_put hbucket (some value)
      exact growsTo_named hput _
    | delete name key =>
      have hput : m.GrowsTo (put name key none m).state [key] :=
        growsTo_bucketOf hopen fun found hbucket => growsTo_put hbucket none
      exact growsTo_named hput _
    | list name => exact growsTo_named (growsTo_list hopen config) _
    | update tx => exact growsTo_update hopen
    | compareAndSwap name key old new => exact growsTo_named (growsTo_swap hopen old new) _
    | close => exact absurd rfl hr
  exact countIn_le fun k => hgrows b k

end

end Memory

end BucketStore
