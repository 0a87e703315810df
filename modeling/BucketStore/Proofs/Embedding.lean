/-
  BucketStore/Proofs/Embedding.lean
  =================================
  **Drivers that keep the values of each bucket in a map of their engine.**

  Such a driver finds the map of a bucket, reads it, or writes another map in its
  place.  If finding and writing match what the driver in memory does with the
  bucket (`Embeds`), so do reading, writing and swapping a key, evaluating a
  transaction and publishing its changes.
-/
import BucketStore.Proofs.Alike
import BucketStore.Proofs.Memory
import BucketStore.Proofs.Naming

namespace BucketStore

open Memory (Store Bucket)
open Step (Matches)

variable {σ : Type}

theorem checkBucket_of_checkKey {bucket key : Bytes} (h : checkKey bucket key = .ok ()) :
    checkBucket bucket = .ok () := by
  unfold checkKey at h
  cases hcheck : checkBucket bucket with
  | ok _ => rfl
  | error f =>
    rw [hcheck] at h
    cases h

/-- Finding the map of a bucket, under the name of the bucket, and writing another map under it keep
    the relation `H` to a store in memory. Buckets of which `P` is not true need not be found alike,
    but none of them exists. -/
structure Embeds (E : Failure → Failure → Prop) (P : Bytes → Prop) (n : Naming) (H : σ → Store → Prop)
    (find : Bytes → Action σ (String × Bucket)) (write : String → Bucket → σ → σ) : Prop where
  refl : ∀ f, E f f
  coded : ∀ {s m b}, H s m → m.buckets.contains b = true → P b
  found : ∀ {s m b}, H s m → P b →
    Matches E (fun p values => n.code b = some p.1 ∧ p.2 = values) H (find b s) (Memory.bucket b m)
  written : ∀ {s m b name} (values : Bucket), H s m → n.code b = some name →
    H (write name values s) (m.withBucket b values)

namespace Embeds

variable {E : Failure → Failure → Prop} {P : Bytes → Prop} {n : Naming} {H : σ → Store → Prop}
  {find : Bytes → Action σ (String × Bucket)} {write : String → Bucket → σ → σ} {s : σ} {m : Store}
  {b k : Bytes} {tx : Transaction}

section

variable (he : Embeds E P n H find write) (h : H s m) (hb : P b)
include he h hb

theorem get : Matches E Eq H
    ((do
      match (← find b).2.get? k with
      | some value => return value
      | none => .fail (.keyNotFound b k) : Action σ Bytes) s)
    ((do
      match (← Memory.bucket b).get? k with
      | some value => return value
      | none => .fail (.keyNotFound b k) : Action Store Bytes) m) := by
  have hfound := he.found h hb
  apply hfound.bind
  rintro ⟨name, values⟩ _ ⟨_, rfl⟩ _ _
  dsimp only
  cases values.get? k with
  | none => exact Matches.failure (he.refl _) hfound.state
  | some value => exact Matches.answer rfl hfound.state

theorem put (value : Option Bytes) : Matches E Eq H
    ((do
      let (name, values) ← find b
      .change (write name (values.put k value)) : Action σ Unit) s)
    ((do
      let values ← Memory.bucket b
      .change fun m => m.withBucket b (values.put k value) : Action Store Unit) m) := by
  have hfound := he.found h hb
  apply hfound.bind
  rintro ⟨name, values⟩ _ ⟨hname, rfl⟩ _ _
  exact Matches.change (he.written _ hfound.state hname)

theorem swap (old : Option Bytes) (new : Bytes) : Matches E Eq H
    ((do
      let (name, values) ← find b
      let result := Swap.evaluate (values.get? k) old
      if result.swapped then .change (write name (values.insert k new))
      return result : Action σ Swap) s)
    ((do
      let values ← Memory.bucket b
      let result := Swap.evaluate (values.get? k) old
      if result.swapped then .change fun m => m.withBucket b (values.insert k new)
      return result : Action Store Swap) m) := by
  have hfound := he.found h hb
  apply hfound.bind
  rintro ⟨name, values⟩ _ ⟨hname, rfl⟩ _ _
  dsimp only
  cases (Swap.evaluate (values.get? k) old).swapped with
  | false => exact Matches.answer rfl hfound.state
  | true =>
    apply Matches.bind (R := Eq)
    · exact Matches.change (he.written (values.put k (some new)) hfound.state hname)
    · rintro _ _ _ _ _
      exact Matches.answer rfl (he.written (values.put k (some new)) hfound.state hname)

end

/-! ### Transactions -/

section

variable (he : Embeds E P n H find write) (h : H s m)
include he h

theorem evaluate (hP : ∀ op ∈ tx, P op.bucket) :
    Matches E Eq H
      ((WriteSet.evaluate (fun b k => do return (← find b).2.get? k) tx :
        Action σ (WriteSet × TxOutcome)) s)
      ((WriteSet.evaluate (fun b k => do return (← Memory.bucket b).get? k) tx :
        Action Store (WriteSet × TxOutcome)) m) := by
  apply Matches.evaluate he.refl _ h
  intro s m h place hplace
  obtain ⟨op, hop, rfl⟩ := Transaction.mem_touched.mp hplace
  apply (he.found h (hP op hop)).map
  rintro p _ ⟨_, rfl⟩
  rfl

/-- Changes are written one after the other as they are published in memory, up to the first whose
    bucket is missing. -/
theorem publish {changes : List Change} (hP : ∀ c ∈ changes, P c.bucket) :
    Matches E Eq H
      ((changes.forM fun c => do
        let (name, values) ← find c.bucket
        .change (write name (values.put c.key c.value)) : Action σ Unit) s)
      (Memory.publish changes m) := by
  induction changes generalizing s m with
  | nil => exact Matches.answer rfl h
  | cons c rest ih =>
    obtain ⟨hfirst, hrest⟩ := List.forall_mem_cons.mp hP
    have hput := he.put h hfirst (k := c.key) c.value
    change Matches E Eq H _ ((_ >>= fun _ => Memory.publish rest) m)
    apply hput.bind
    rintro _ _ _ _ _
    exact ih hput.state hrest

/-- The changes of an evaluation that answers in memory are published there, and so on both sides. -/
theorem publish_evaluated {ws : WriteSet} {outcome : TxOutcome}
    (hreply : (WriteSet.evaluate (m := Action Store)
      (fun b k => do return (← Memory.bucket b).get? k) tx m).reply = .ok (ws, outcome)) :
    Matches E Eq H
      ((ws.changes.forM fun c => do
        let (name, values) ← find c.bucket
        .change (write name (values.put c.key c.value)) : Action σ Unit) s)
      (Memory.publish ws.changes m) ∧
    Memory.publish ws.changes m = ⟨.ok (), m.publish ws.changes, []⟩ := by
  have hexists : ∀ c ∈ ws.changes, m.buckets.contains c.bucket = true := fun c hc =>
    Memory.contains_of_evaluate hreply hc
  exact ⟨he.publish h fun c hc => he.coded h (hexists c hc), Memory.publish_run hexists⟩

end

end Embeds

/-! ### The driver in memory without the names of calls -/

namespace Memory

/-- The calls of the driver in memory, as they fail before a failure is named after its call. -/
def unnamed (config : Config) : Driver Store :=
  { driver config with
    create := create
    drop := drop
    get := get
    set := fun name key value => put name key (some value)
    delete := fun name key => put name key none
    list := list config
    update := update
    compareAndSwap := compareAndSwap }

/-- Naming the failures of calls keeps their kinds. -/
theorem perform_unnamed (config : Config) (r : Request) (m : Store) :
    Matches SameKind Eq Eq ((unnamed config).perform r m) ((driver config).perform r m) := by
  have hrefl : ∀ {α : Type} (act : Action Store α), Matches SameKind Eq Eq (act m) (act m) :=
    fun act => Matches.sameKind ⟨Alike.refl _, rfl⟩
  have hkey : ∀ {α : Type} (action : String) (b k : Bytes) (act : Action Store α),
      Matches SameKind Eq Eq (act m) (act.named action b k m) := fun action b k act =>
    (hrefl act).mapFailure_right fun _ _ h => h
  have hbucket : ∀ {α : Type} (action : String) (b : Bytes) (act : Action Store α),
      Matches SameKind Eq Eq (act m) (act.namedBucket action b m) := fun action b act =>
    (hrefl act).mapFailure_right fun _ _ h => h
  apply Driver.perform_matches
  cases r with
  | create b => exact hbucket _ b _
  | drop b => exact hbucket _ b _
  | get b k => exact hkey _ b k _
  | set b k value => exact hkey _ b k _
  | delete b k => exact hkey _ b k _
  | list b => exact hbucket _ b _
  | update tx => exact hrefl _
  | compareAndSwap b k old new => exact hkey _ b k _
  | close => exact hrefl _

theorem bucketNames_run {m : Store} (hopen : m.closed = false) :
    bucketNames m = ⟨.ok m.buckets.keys, m, []⟩ := by
  unfold bucketNames
  rw [opened_bind hopen]
  rfl

end Memory

end BucketStore
