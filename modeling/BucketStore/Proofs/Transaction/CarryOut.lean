/-
  BucketStore/Proofs/Transaction/CarryOut.lean
  ============================================
  **A transaction carried out on buckets, one operation after the other.**

  `Transaction.carryOut` needs no copies: each operation acts on the buckets that
  the ones before it have left.  As long as no bucket is missing it goes as
  `Transaction.on` says of the values (`carryOut_follows`); a missing bucket fails
  it (`carryOut_missing`).
-/
import BucketStore.Proofs.Memory

namespace BucketStore

open Memory (Store)

variable {m m' : Store} {op : Operation} {tx : Transaction}

/-! ### Operations on buckets -/

/-- Carries the operation out: what it answers, and the buckets afterwards. -/
def Operation.carryOut (m : Store) (op : Operation) : Except Failure (OpResult × Store) :=
  match m.buckets.get? op.bucket with
  | none => .error (.bucketNotFound op.bucket)
  | some found =>
    match op with
    | .get b k =>
      match found.get? k with
      | some value => .ok (.read value, m)
      | none => .error (.keyNotFound b k)
    | .set b k value => .ok (.written, m.withBucket b (found.insert k value))
    | .delete b k => .ok (.deleted, m.withBucket b (found.erase k))
    | .compareAndSwap b k old new =>
      if found.get? k = old then .ok (.swap (.took old), m.withBucket b (found.insert k new))
      else .ok (.swap (.mismatch (found.get? k)), m)

/-- Carries the operations out in order, up to the first that fails. -/
def Transaction.carryOut (m : Store) : Transaction → Except Failure (TxOutcome × Store)
  | [] => .ok ([], m)
  | op :: rest =>
    match op.carryOut m with
    | .error f => .error f
    | .ok (result, m') =>
      (Transaction.carryOut m' rest).map fun out => (result :: out.1, out.2)

/-! ### What carrying out comes to -/

/-- Work on buckets goes as work on their values: both fail for want of the same key, or both answer
    the same, and the values of the buckets afterwards are those afterwards. -/
inductive Memory.Store.Follows {α : Type} (m : Store) :
    Except Failure (α × Store) → Except Failure (α × Places Bytes) → Prop
  | fails (b k : Bytes) : m.Follows (.error (.keyNotFound b k)) (.error (.keyNotFound b k))
  | answers {a : α} {m' : Store} : m.SameNames m' → m.Follows (.ok (a, m')) (.ok (a, m'.values))

theorem Operation.carryOut_missing (h : m.buckets.contains op.bucket = false) :
    op.carryOut m = .error (.bucketNotFound op.bucket) := by
  simp only [carryOut, KeyMap.contains_eq_false.mp h]

theorem Operation.carryOut_follows (h : m.buckets.contains op.bucket = true) :
    m.Follows (op.carryOut m) (op.on m.values) := by
  obtain ⟨found, hfound⟩ := KeyMap.contains_eq_true.mp h
  have hread : m.values op.bucket op.key = found.get? op.key := Store.values_of_bucket hfound
  have hwrite : ∀ (result : OpResult) value,
      m.Follows (.ok (result, m.withBucket op.bucket (found.put op.key value)))
        (.ok (result, m.values.put op.bucket op.key value)) := by
    intro result value
    rw [← Store.values_withBucket hfound]
    exact .answers (Store.sameNames_withBucket h _)
  have hsame : m.SameNames m := ⟨fun _ => rfl, rfl⟩
  cases op with
  | get b k =>
    simp only [carryOut, on, hfound, show m.values b k = found.get? k from hread]
    cases found.get? k with
    | none => exact .fails b k
    | some value => exact .answers hsame
  | set b k value =>
    simp only [carryOut, on, hfound]
    exact hwrite .written (some value)
  | delete b k =>
    simp only [carryOut, on, hfound]
    exact hwrite .deleted none
  | compareAndSwap b k old new =>
    simp only [carryOut, on, hfound, show m.values b k = found.get? k from hread]
    by_cases hold : found.get? k = old
    · simp only [hold, if_true, beq_self_eq_true]
      exact hwrite (.swap (.took old)) (some new)
    · simp only [hold, if_false, beq_eq_false_iff_ne.mpr hold]
      exact .answers hsame

/-- Where no bucket is missing, a transaction on the buckets goes as on the values. -/
theorem Transaction.carryOut_follows (h : ∀ op ∈ tx, m.buckets.contains op.bucket = true) :
    m.Follows (Transaction.carryOut m tx) (Transaction.on m.values tx) := by
  induction tx generalizing m with
  | nil => exact .answers ⟨fun _ => rfl, rfl⟩
  | cons op rest ih =>
    obtain ⟨hop, hrest⟩ := List.forall_mem_cons.mp h
    have hfirst := Operation.carryOut_follows hop
    simp only [Transaction.carryOut, Transaction.on]
    generalize op.carryOut m = r, op.on m.values = r' at hfirst ⊢
    cases hfirst with
    | fails b k => exact .fails b k
    | @answers result m' hnames =>
      have hlater := ih (m := m') fun op' hop' => (hnames.contains _).trans (hrest op' hop')
      dsimp only
      generalize Transaction.carryOut m' rest = r, Transaction.on m'.values rest = r' at hlater ⊢
      cases hlater with
      | fails b k => exact .fails b k
      | answers hnames' =>
        exact .answers ⟨fun b => (hnames'.contains b).trans (hnames.contains b),
          hnames'.closed.trans hnames.closed⟩

/-- A transaction that touches a missing bucket fails, be it for that bucket or for an absent key
    before. -/
theorem Transaction.carryOut_missing (h : ∃ op ∈ tx, m.buckets.contains op.bucket = false) :
    ∃ f, Transaction.carryOut m tx = .error f ∧ f.kind = .notFound := by
  induction tx generalizing m with
  | nil =>
    obtain ⟨_, hop, _⟩ := h
    cases hop
  | cons op rest ih =>
    simp only [Transaction.carryOut]
    by_cases hbucket : m.buckets.contains op.bucket = true
    · have hfirst := Operation.carryOut_follows hbucket
      generalize op.carryOut m = r, op.on m.values = r' at hfirst
      cases hfirst with
      | fails b k => exact ⟨_, rfl, rfl⟩
      | @answers result m' hnames =>
        have hlater : ∃ op ∈ rest, m'.buckets.contains op.bucket = false := by
          obtain ⟨op', hop', hmissing⟩ := h
          rcases List.mem_cons.mp hop' with rfl | hop'
          · rw [hbucket] at hmissing
            cases hmissing
          · exact ⟨op', hop', (hnames.contains _).trans hmissing⟩
        obtain ⟨f, hf, hkind⟩ := ih hlater
        simp only [hf]
        exact ⟨f, rfl, hkind⟩
    · rw [Bool.not_eq_true] at hbucket
      rw [Operation.carryOut_missing hbucket]
      exact ⟨_, rfl, rfl⟩

end BucketStore
