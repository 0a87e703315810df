/-
  BucketStore/Proofs/Keyspace/Handles.lean
  ========================================
  **Every handle that a driver has noted is that of its bucket, and of use.**

  A keyspace may hold anything when a driver opens it, and no handle is noted then.
  A handle is noted under a bucket only by the name of that bucket's partition, and
  when the partition is there; it is forgotten when the partition goes.  So no state
  that a driver can be in has a bucket's handle on another bucket's partition
  (`noted_of_reached`), or on one that is gone (`usable_of_reached`).

  What the steps of calls keep is kept by every call (`Lasting`, `keeps_perform`).
-/
import BucketStore.Proofs.Keyspace.Calls

namespace BucketStore.Keyspace

open BucketStore.Action

variable {s : Store} {bucket : Bytes}

/-- A state of a driver: it has opened a keyspace with whatever is in it, and then it was called any
    number of times. -/
inductive Reached : Store → Prop
  | opened {config : Config} {s : Store} :
    (openKeyspace config s).reply = .ok () → Reached (openKeyspace config s).state
  | called (config : Config) (r : Request) {s : Store} :
    Reached s → Reached ((driver config).perform r s).state

/-- Every handle is the name of its bucket's partition. -/
def Store.Noted (s : Store) : Prop :=
  ∀ b name, s.handles.get? b = some name → naming.code b = some name

/-- The steps that calls are made of keep it. -/
structure Lasting (I : Store → Prop) : Prop where
  handle : ∀ {s bucket name}, I s → naming.code bucket = some name →
    s.partitions.contains name = true → I (s.withHandle bucket name)
  partition : ∀ {s} name values, I s → I (s.withPartition name values)
  drop : ∀ {s bucket name}, I s → s.handles.get? bucket = some name →
    I { s with handles := s.handles.erase bucket, partitions := s.partitions.erase name }
  close : ∀ {s}, I s → I { s with handles := {}, closed := true }

/-! ### Handles stay right -/

theorem noted_withHandle {name : String} (h : s.Noted) (hcode : naming.code bucket = some name) :
    (s.withHandle bucket name).Noted := by
  intro b name' hnoted
  simp only [Store.withHandle, KeyMap.get?_insert] at hnoted
  by_cases hb : b = bucket
  · rw [if_pos hb, Option.some_inj] at hnoted
    rw [hb, ← hnoted]
    exact hcode
  · rw [if_neg hb] at hnoted
    exact h b name' hnoted

theorem lasting_noted : Lasting Store.Noted where
  handle h hcode _ := noted_withHandle h hcode
  partition _ _ h := h
  drop h _ b name' hnoted := by
    simp only [KeyMap.get?_erase] at hnoted
    split at hnoted
    · cases hnoted
    · exact h b name' hnoted
  close _ _ _ hnoted := nomatch hnoted

theorem lasting_usable : Lasting Store.Usable where
  handle h hcode hthere := h.withHandle hcode hthere
  partition name values h := h.withPartition name values
  drop h hnoted := h.erase (h _ _ hnoted).1
  close _ _ _ hnoted := nomatch hnoted

/-! ### Looking handles up -/

theorem partitionName_failed (hcode : naming.code bucket = none) :
    ∃ fault : NameFault, partitionName bucket s = ⟨.error fault.failure, s, []⟩ := by
  obtain ⟨fault, hname⟩ := toOption_eq_none.mp hcode
  refine ⟨fault, ?_⟩
  unfold partitionName
  rw [hname]
  rfl

theorem handle_unnamed (hnew : s.handles.get? bucket = none) (hcode : naming.code bucket = none) :
    ∃ f, handle bucket s = ⟨.error f, s, []⟩ := by
  obtain ⟨fault, hfailed⟩ := partitionName_failed (s := s) hcode
  refine ⟨fault.failure, ?_⟩
  unfold handle
  simp [Action.bind_run, Action.state, hnew, hfailed]

/-- A handle is found noted, or it is noted now; else nothing changes. -/
theorem handle_cases (bucket : Bytes) (s : Store) :
    (∃ f, handle bucket s = ⟨.error f, s, []⟩) ∨
    ∃ name, (s.handles.get? bucket = some name ∧ handle bucket s = ⟨.ok name, s, []⟩) ∨
      (naming.code bucket = some name ∧ s.partitions.contains name = true ∧
        handle bucket s = ⟨.ok name, s.withHandle bucket name, []⟩) := by
  cases hnoted : s.handles.get? bucket with
  | some name => exact .inr ⟨name, .inl ⟨rfl, handle_noted hnoted⟩⟩
  | none =>
    cases hcode : naming.code bucket with
    | none => exact .inl (handle_unnamed hnoted hcode)
    | some name =>
      have hrun := handle_new hnoted hcode
      cases hthere : s.partitions.contains name with
      | false => exact .inl ⟨_, by rw [hrun, if_neg (by simp [hthere])]⟩
      | true => exact .inr ⟨name, .inr ⟨rfl, hthere, by rw [hrun, if_pos hthere]⟩⟩

/-! ### What every call keeps -/

section

variable {I : Store → Prop} (hI : Lasting I)
include hI

theorem keeps_handle : Keeps I (handle bucket) := by
  intro s hs
  rcases handle_cases bucket s with ⟨f, hrun⟩ | ⟨name, ⟨_, hrun⟩ | ⟨hcode, hthere, hrun⟩⟩
  · rwa [hrun]
  · rwa [hrun]
  · rw [hrun]
    exact hI.handle hs hcode hthere

theorem keeps_partition : Keeps I (partition bucket) := by
  refine (keeps_handle hI).bind fun name => ?_
  intro s hs
  rw [Action.state_bind]
  cases s.partitions.get? name <;> exact hs

omit hI in
theorem keeps_opened : Keeps I opened := by
  intro s hs
  unfold opened
  rw [Action.state_bind]
  split <;> exact hs

theorem keeps_partitionOf (key : Bytes) : Keeps I (partitionOf bucket key) :=
  keeps_opened.bind fun _ => (keeps_check _).bind fun _ => keeps_partition hI

theorem keeps_withPartition (name : String) (values : Partition) :
    Keeps I (Action.change fun s => s.withPartition name values) :=
  keeps_change fun _ h => hI.partition name values h

theorem keeps_create : Keeps I (create bucket) := by
  refine keeps_opened.bind fun _ => (keeps_check _).bind fun _ => ?_
  intro s hs
  cases hcode : naming.code bucket with
  | none =>
    obtain ⟨f, hfailed⟩ := partitionName_failed (s := s) hcode
    rwa [Action.bind_of_error hfailed]
  | some name =>
    rw [Action.bind_of_ok (partitionName_run hcode), Action.state_bind]
    split
    · exact hs
    · refine hI.handle (hI.partition name {} hs) hcode ?_
      simp [KeyMap.contains, Store.withPartition]

theorem keeps_drop : Keeps I (drop bucket) := by
  refine keeps_opened.bind fun _ => (keeps_check _).bind fun _ => ?_
  intro s hs
  rcases handle_cases bucket s with ⟨f, hrun⟩ | ⟨name, ⟨hnoted, hrun⟩ | ⟨hcode, hthere, hrun⟩⟩
  · rwa [Action.bind_of_error hrun]
  · rw [Action.bind_of_ok hrun]
    exact hI.drop hs hnoted
  · rw [Action.bind_of_ok hrun]
    exact hI.drop (hI.handle hs hcode hthere) (by simp [Store.withHandle])

theorem keeps_put (key : Bytes) (value : Option Bytes) : Keeps I (put bucket key value) :=
  (keeps_partitionOf hI key).bind fun p => keeps_withPartition hI p.1 _

theorem keeps_get (key : Bytes) : Keeps I (get bucket key) := by
  refine (keeps_partitionOf hI key).bind fun p => ?_
  split
  · exact keeps_pure _
  · exact keeps_fail _

theorem keeps_list (config : Config) : Keeps I (list config bucket) :=
  keeps_opened.bind fun _ => (keeps_check _).bind fun _ =>
    (keeps_partition hI).bind fun _ => (keeps_check _).mapFailure _

theorem keeps_compareAndSwap (key : Bytes) (old : Option Bytes) (new : Bytes) :
    Keeps I (compareAndSwap bucket key old new) := by
  refine (keeps_partitionOf hI key).bind fun p => ?_
  dsimp only
  split
  · exact (keeps_withPartition hI p.1 _).map _
  · exact keeps_pure _

theorem keeps_publish (changes : List Change) : Keeps I (publish changes) :=
  (keeps_forM fun _ => (keeps_partition hI).bind fun p => keeps_withPartition hI p.1 _).atomically

theorem keeps_update (tx : Transaction) : Keeps I (update tx) := by
  refine keeps_opened.bind fun _ => (keeps_check _).bind fun _ => ?_
  split
  · exact keeps_pure _
  · refine Keeps.bind ?_ fun evaluated => (keeps_publish hI _).map _
    intro s hs
    rw [(WriteSet.evaluate_run _ tx s).1]
    have hload : ∀ (ws : WriteSet) (place : Bytes × Bytes), Keeps I (do
        let value ← (do return (← partition place.1).2.get? place.2 : Action Store (Option Bytes))
        return ws.load place.1 place.2 value) := fun _ _ => ((keeps_partition hI).map _).map _
    exact keeps_foldlM hload {} s hs

theorem keeps_close (config : Config) : Keeps I (close config) := by
  intro s hs
  unfold close
  rw [Action.state_bind]
  split
  · exact hs
  · exact hI.close hs

theorem keeps_perform (config : Config) (r : Request) (hs : I s) :
    I ((driver config).perform r s).state := by
  rw [Driver.state_perform]
  cases r with
  | create b => exact keeps_create hI _ hs
  | drop b => exact keeps_drop hI _ hs
  | get b k => exact keeps_get hI k _ hs
  | set b k value => exact keeps_put hI k _ _ hs
  | delete b k => exact keeps_put hI k _ _ hs
  | list b => exact keeps_list hI config _ hs
  | update tx => exact keeps_update hI tx _ hs
  | compareAndSwap b k old new => exact keeps_compareAndSwap hI k old new _ hs
  | close => exact keeps_close hI config _ hs

/-- What lasts, and is true of a keyspace without handles, is true of every state of a driver. -/
theorem holds_of_reached (hnew : ∀ s : Store, I { s with handles := {}, closed := false })
    (h : Reached s) : I s := by
  induction h with
  | @opened config s hreply =>
    unfold openKeyspace at hreply ⊢
    cases hpath : config.path.isEmpty with
    | true =>
      rw [hpath] at hreply
      cases hreply
    | false => exact hnew s
  | called config r _ ih => exact keeps_perform hI config r ih

end

/-- However a driver was called since it was opened, its handles are right. -/
theorem noted_of_reached (h : Reached s) : s.Noted :=
  holds_of_reached lasting_noted (fun _ _ _ hnoted => nomatch hnoted) h

/-- However a driver was called since it was opened, its handles are of use. -/
theorem usable_of_reached (h : Reached s) : s.Usable :=
  holds_of_reached lasting_usable (fun _ _ _ hnoted => nomatch hnoted) h

end BucketStore.Keyspace
