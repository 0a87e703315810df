/-
  BucketStore/Proofs/Transaction/Evaluation.lean
  ==============================================
  **Evaluating a transaction on copies comes to carrying it out.**

  A transaction is evaluated on copies of what it touches, which a loader fetches.
  Whatever the loader does besides, as long as it finds what the buckets of a store
  hold, the evaluation fails where carrying the operations out on the buckets
  fails; else it answers the same, and publishing its changes leaves the same
  buckets (`evaluate_exact`).  Each place that is touched is loaded once and gives
  rise to one change at most, in the order in which the operations first name the
  places.
-/
import BucketStore.Proofs.Transaction.CarryOut

namespace BucketStore.WriteSet

open Memory (Store loadAll)

variable {σ : Type} {I : σ → Prop} {load : Bytes → Bytes → Action σ (Option Bytes)} {m : Store}
  {s : σ} {ws : WriteSet} {place : Bytes × Bytes} {places : List (Bytes × Bytes)} {tx : Transaction}

/-! ### Loaders -/

/-- On states of which `I` is true, the loader finds what the buckets of a store hold, and it keeps
    the states so. -/
structure Loads (I : σ → Prop) (load : Bytes → Bytes → Action σ (Option Bytes)) (m : Store) :
    Prop where
  found : ∀ s, I s → ∀ b k, m.buckets.contains b = true → (load b k s).reply = .ok (m.values b k)
  missing : ∀ s, I s → ∀ b k, m.buckets.contains b = false →
    ∃ f, (load b k s).reply = .error f ∧ f.kind = .notFound
  kept : ∀ s, I s → ∀ b k, I (load b k s).state

/-- The loader of the driver in memory is one. -/
theorem loads_memory (m : Store) :
    Loads (· = m) (fun b k => do return (← Memory.bucket b).get? k) m where
  found := by
    rintro s rfl b k hbucket
    obtain ⟨found, hfound⟩ := KeyMap.contains_eq_true.mp hbucket
    rw [Action.reply_map, Memory.bucket_run, hfound, Store.values_of_bucket hfound]
    rfl
  missing := by
    rintro s rfl b k hbucket
    rw [Action.reply_map, Memory.bucket_run, KeyMap.contains_eq_false.mp hbucket]
    exact ⟨_, rfl, rfl⟩
  kept := by
    rintro s rfl b k
    rw [Action.state_map, Memory.bucket_run]

/-- The loader, with the places in the state that it has been called for. -/
def noting (load : Bytes → Bytes → Action σ (Option Bytes)) :
    Bytes → Bytes → Action (σ × List (Bytes × Bytes)) (Option Bytes) := fun b k s =>
  ⟨(load b k s.1).reply, ((load b k s.1).state, s.2 ++ [(b, k)]), (load b k s.1).log⟩

/-- The places up to the first whose bucket is missing. -/
def reached (m : Store) : List (Bytes × Bytes) → List (Bytes × Bytes)
  | [] => []
  | place :: rest => place :: if m.buckets.contains place.1 then reached m rest else []

theorem reached_eq (h : ∀ place ∈ places, m.buckets.contains place.1 = true) :
    reached m places = places := by
  induction places with
  | nil => rfl
  | cons place rest ih =>
    obtain ⟨hplace, hrest⟩ := List.forall_mem_cons.mp h
    rw [reached, if_pos hplace, ih hrest]

/-! ### Loading -/

theorem loading_ok {value : Option Bytes} (h : (load place.1 place.2 s).reply = .ok value) :
    (loading load (place :: places) ws s).reply =
        (loading load places (ws.load place.1 place.2 value) (load place.1 place.2 s).state).reply ∧
      (loading load (place :: places) ws s).state =
        (loading load places (ws.load place.1 place.2 value) (load place.1 place.2 s).state).state := by
  unfold loading
  rw [List.foldlM_cons, Action.bind_run, Action.bind_run]
  rcases hload : load place.1 place.2 s with ⟨r, s', log⟩
  rw [hload] at h
  cases h
  exact ⟨rfl, rfl⟩

theorem loading_error {f : Failure} (h : (load place.1 place.2 s).reply = .error f) :
    (loading load (place :: places) ws s).reply = .error f ∧
      (loading load (place :: places) ws s).state = (load place.1 place.2 s).state := by
  unfold loading
  rw [List.foldlM_cons, Action.bind_run, Action.bind_run]
  rcases hload : load place.1 place.2 s with ⟨r, s', log⟩
  rw [hload] at h
  cases h
  exact ⟨rfl, rfl⟩

/-- A loader that is watched answers as one that is not. -/
theorem loading_noting (load : Bytes → Bytes → Action σ (Option Bytes)) (s : σ) (ws : WriteSet)
    (places calls : List (Bytes × Bytes)) :
    (loading (noting load) places ws (s, calls)).reply = (loading load places ws s).reply := by
  induction places generalizing s ws calls with
  | nil => rfl
  | cons place rest ih =>
    cases hreply : (load place.1 place.2 s).reply with
    | ok value =>
      have hnoting : (noting load place.1 place.2 (s, calls)).reply = .ok value := hreply
      rw [(loading_ok hnoting).1, (loading_ok hreply).1]
      exact ih _ _ _
    | error f =>
      have hnoting : (noting load place.1 place.2 (s, calls)).reply = .error f := hreply
      rw [(loading_error hnoting).1, (loading_error hreply).1]

section

variable (h : Loads I load m) (hs : I s)
include h hs

theorem loading_found (hexists : ∀ place ∈ places, m.buckets.contains place.1 = true) :
    (loading load places ws s).reply = .ok (loadAll m.values places ws) := by
  induction places generalizing s ws with
  | nil => rfl
  | cons place rest ih =>
    obtain ⟨hplace, hrest⟩ := List.forall_mem_cons.mp hexists
    rw [(loading_ok (h.found s hs place.1 place.2 hplace)).1]
    exact ih (h.kept s hs _ _) hrest

theorem loading_missing (hmissing : ∃ place ∈ places, m.buckets.contains place.1 = false) :
    ∃ f, (loading load places ws s).reply = .error f ∧ f.kind = .notFound := by
  induction places generalizing s ws with
  | nil =>
    obtain ⟨_, hplace, _⟩ := hmissing
    cases hplace
  | cons place rest ih =>
    cases hfirst : m.buckets.contains place.1 with
    | false =>
      obtain ⟨f, hreply, hkind⟩ := h.missing s hs place.1 place.2 hfirst
      exact ⟨f, (loading_error hreply).1, hkind⟩
    | true =>
      rw [(loading_ok (h.found s hs place.1 place.2 hfirst)).1]
      apply ih (h.kept s hs _ _)
      obtain ⟨place', hplace', hnone⟩ := hmissing
      rcases List.mem_cons.mp hplace' with rfl | hplace'
      · rw [hfirst] at hnone
        cases hnone
      · exact ⟨place', hplace', hnone⟩

/-- The loader is called for one place after the other, up to the first whose bucket is missing. -/
theorem loading_noted (calls : List (Bytes × Bytes)) :
    (loading (noting load) places ws (s, calls)).state.2 = calls ++ reached m places := by
  induction places generalizing s ws calls with
  | nil => exact (List.append_nil calls).symm
  | cons place rest ih =>
    cases hfirst : m.buckets.contains place.1 with
    | false =>
      obtain ⟨f, hreply, _⟩ := h.missing s hs place.1 place.2 hfirst
      have hnoting : (noting load place.1 place.2 (s, calls)).reply = .error f := hreply
      rw [(loading_error hnoting).2, reached, hfirst]
      rfl
    | true =>
      have hnoting : (noting load place.1 place.2 (s, calls)).reply = .ok (m.values place.1 place.2) :=
        h.found s hs place.1 place.2 hfirst
      rw [(loading_ok hnoting).2, reached, if_pos hfirst]
      change (loading (noting load) rest _ ((load place.1 place.2 s).state,
        calls ++ [(place.1, place.2)])).state.2 = _
      rw [ih (h.kept s hs _ _), List.append_assoc, List.singleton_append]

/-! ### Evaluation -/

theorem evaluate_missing (hmissing : ∃ op ∈ tx, m.buckets.contains op.bucket = false) :
    ∃ f, (evaluate load tx s).reply = .error f ∧ f.kind = .notFound := by
  have hplace : ∃ place ∈ tx.touched, m.buckets.contains place.1 = false := by
    obtain ⟨op, hop, hbucket⟩ := hmissing
    exact ⟨_, Transaction.mem_touched.mpr ⟨op, hop, rfl⟩, hbucket⟩
  obtain ⟨f, hreply, hkind⟩ := loading_missing h hs hplace
  rw [(evaluate_run load tx s).2, hreply]
  exact ⟨f, rfl, hkind⟩

theorem evaluate_found (hexists : ∀ place ∈ tx.touched, m.buckets.contains place.1 = true) :
    (evaluate load tx s).reply =
      ((loadAll m.values tx.touched {}).execute tx).1.map fun outcome =>
        (((loadAll m.values tx.touched {}).execute tx).2, outcome) := by
  rw [(evaluate_run load tx s).2, loading_found h hs hexists]
  rfl

end

/-- **A transaction is evaluated as it is carried out.**  With a loader that finds what the buckets
    hold, the evaluation fails if and only if carrying the operations out one by one fails, in either
    case because something is not found.  Else it has the same answers, one for each operation; its
    changes are the places whose value is another one afterwards, in the order in which they are
    touched, and publishing them leaves the buckets as the operations leave them.  The loader is
    called once for each place, in that order; a missing bucket ends the calls. -/
theorem evaluate_exact (h : Loads I load m) (hs : I s) (tx : Transaction) :
    tx.FirstTouches tx.touched ∧
      (evaluate (noting load) tx (s, [])).reply = (evaluate load tx s).reply ∧
      (evaluate (noting load) tx (s, [])).state.2 = reached m tx.touched ∧
      match Transaction.carryOut m tx with
      | .error f => f.kind = .notFound ∧
          ∃ f', (evaluate load tx s).reply = .error f' ∧ f'.kind = .notFound
      | .ok (outcome, m') =>
          outcome.length = tx.length ∧ reached m tx.touched = tx.touched ∧
          ∃ ws, (evaluate load tx s).reply = .ok (ws, outcome) ∧
            ws.changes = (tx.touched.filter fun p => m.values p.1 p.2 ≠ m'.values p.1 p.2).map
              (fun p => ⟨p.1, p.2, m'.values p.1 p.2⟩) ∧
            m.publish ws.changes = m' := by
  have hnoting : (evaluate (noting load) tx (s, [])).reply = (evaluate load tx s).reply := by
    rw [(evaluate_run _ tx _).2, (evaluate_run load tx s).2, loading_noting]
  have hcalls : (evaluate (noting load) tx (s, [])).state.2 = reached m tx.touched := by
    rw [(evaluate_run _ tx _).1, loading_noted h hs, List.nil_append]
  refine ⟨Transaction.firstTouches_touched tx, hnoting, hcalls, ?_⟩
  -- A missing bucket is met while the places are loaded, before any operation runs.
  by_cases hexists : ∀ op ∈ tx, m.buckets.contains op.bucket = true
  · have htouched : ∀ place ∈ tx.touched, m.buckets.contains place.1 = true := by
      intro place hplace
      obtain ⟨op, hop, rfl⟩ := Transaction.mem_touched.mp hplace
      exact hexists op hop
    have hplaces := places_execute (loadAll m.values tx.touched {}) tx
    rw [Memory.places_loadAll m.values (Transaction.nodup_touched tx) fun _ _ => rfl] at hplaces
    obtain ⟨hreply, htracks, hdistinct, hloaded⟩ :=
      Memory.execute_loadAll m.values tx fun _ hplace => hplace
    have hfollows := Transaction.carryOut_follows hexists
    rw [evaluate_found h hs htouched, hreply]
    generalize Transaction.carryOut m tx = r, hon : Transaction.on m.values tx = r' at hfollows ⊢
    cases hfollows with
    | fails b k => exact ⟨rfl, _, rfl, rfl⟩
    | @answers outcome m' hnames =>
      have htracked := htracks _ hon
      refine ⟨Transaction.length_on hon, reached_eq htouched, _, rfl, ?_, ?_⟩
      · rw [changes_eq htracked hdistinct, hplaces]
        rfl
      · exact Memory.publish_eq htracked hdistinct (fun b k hbk => htouched _ (hloaded b k hbk)) hnames
  · have hmissing : ∃ op ∈ tx, m.buckets.contains op.bucket = false := by
      simpa using hexists
    obtain ⟨f, hcarried, hkind⟩ := Transaction.carryOut_missing hmissing
    rw [hcarried]
    exact ⟨hkind, evaluate_missing h hs hmissing⟩

/-- One bucket with two keys. -/
def pantry : Store := { buckets := .ofList [([80], .ofList [([97], [1]), ([98], [2])])] }

/-- The first key is written, swapped and read back, the second comes back after it was deleted, and
    a third is gone again. -/
def errands : Transaction :=
  [.set [80] [97] [5], .compareAndSwap [80] [97] (some [5]) [6], .delete [80] [98], .get [80] [97],
    .compareAndSwap [80] [98] (some [2]) [9], .set [80] [98] [2], .set [80] [99] [3],
    .delete [80] [99]]

theorem evaluate_exact_errands :
    (Loads (· = pantry) (fun b k => do return (← Memory.bucket b).get? k) pantry ∧ pantry = pantry) ∧
      ∃ ws, (evaluate (m := Action Store) (fun b k => do return (← Memory.bucket b).get? k) errands
          pantry).reply = .ok (ws, [.written, .swap ⟨some [5], true⟩, .deleted, .read [6],
            .swap ⟨none, false⟩, .written, .written, .deleted]) ∧
        ws.changes = [⟨[80], [97], some [6]⟩] := by
  refine ⟨⟨loads_memory pantry, rfl⟩, ?_⟩
  obtain ⟨_, _, _, hran⟩ := evaluate_exact (loads_memory pantry) rfl errands
  have hcarried : Transaction.carryOut pantry errands = .ok ([.written, .swap ⟨some [5], true⟩,
      .deleted, .read [6], .swap ⟨none, false⟩, .written, .written, .deleted],
      { buckets := .ofList [([80], .ofList [([97], [6]), ([98], [2])])] }) := by decide
  rw [hcarried] at hran
  obtain ⟨_, _, ws, hreply, hchanges, _⟩ := hran
  exact ⟨ws, hreply, hchanges.trans (by decide)⟩

end BucketStore.WriteSet
