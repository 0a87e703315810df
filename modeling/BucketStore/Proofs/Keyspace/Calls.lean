/-
  BucketStore/Proofs/Keyspace/Calls.lean
  ======================================
  **On a keyspace, calls are answered as in memory.**

  A keyspace holds a store in memory (`Holds`) if its partitions keep the buckets
  and every handle that is noted is of use: it is the name of its bucket's
  partition, and the partition is there.  Each call keeps this up, and its reply
  follows from the one in memory; so it does not matter which handles are noted.
-/
import BucketStore.Keyspace.Driver
import BucketStore.Proofs.Embedding
import BucketStore.Proofs.Keyspace.Name

namespace BucketStore.Keyspace

open Step (Matches)

/-- Buckets under the names of their partitions. -/
def naming : Naming where
  code bucket := (encodeName bucket).toOption
  decode name := (decodeName name).toOption
  decode_code _ _ h :=
    toOption_eq_some.mpr (decodeName_of_encodeName (toOption_eq_some.mp h))

variable {s s' : Store} {m : Memory.Store} {bucket key : Bytes} {name : String}

/-- The keyspace holds what the store in memory holds. -/
structure Holds (s : Store) (m : Memory.Store) : Prop where
  opened : s.closed = false
  memoryOpened : m.closed = false
  keeps : naming.Keeps id s.partitions m.buckets
  handles : ∀ b name, s.handles.get? b = some name →
    naming.code b = some name ∧ s.partitions.contains name = true

/-! ### Handles that are of use -/

/-- Every handle is of use: it is the name of its bucket's partition, and the partition is there. -/
def Store.Usable (s : Store) : Prop :=
  ∀ b name, s.handles.get? b = some name →
    naming.code b = some name ∧ s.partitions.contains name = true

theorem Store.Usable.withHandle (h : s.Usable) (hcode : naming.code bucket = some name)
    (hthere : s.partitions.contains name = true) : (s.withHandle bucket name).Usable := by
  intro b name' hnoted
  simp only [Store.withHandle, KeyMap.get?_insert] at hnoted
  by_cases hb : b = bucket
  · rw [if_pos hb, Option.some_inj] at hnoted
    rw [hb, ← hnoted]
    exact ⟨hcode, hthere⟩
  · rw [if_neg hb] at hnoted
    exact h b name' hnoted

theorem Store.Usable.withPartition (h : s.Usable) (name : String) (values : Partition) :
    (s.withPartition name values).Usable := by
  intro b name' hnoted
  obtain ⟨hcode, hthere⟩ := h b name' hnoted
  refine ⟨hcode, ?_⟩
  simp only [KeyMap.contains, Store.withPartition, KeyMap.get?_insert]
  split
  · rfl
  · exact hthere

theorem Store.Usable.erase (h : s.Usable) (hcode : naming.code bucket = some name) :
    ({ s with handles := s.handles.erase bucket, partitions := s.partitions.erase name } :
      Store).Usable := by
  intro b name' hnoted
  simp only [KeyMap.get?_erase] at hnoted
  by_cases hb : b = bucket
  · rw [if_pos hb] at hnoted
    cases hnoted
  · rw [if_neg hb] at hnoted
    obtain ⟨hcode', hthere⟩ := h b name' hnoted
    -- A handle that is left names another partition than the one that goes.
    have hname : name' ≠ name := by
      rintro rfl
      exact hb (Naming.code_injective hcode' hcode)
    simp only [KeyMap.contains, KeyMap.get?_erase, if_neg hname]
    exact ⟨hcode', hthere⟩

/-! ### Finding partitions -/

/-- A bucket that may be named, by a name that is not too long, has a partition. -/
theorem code_of_check (hcheck : checkBucket bucket = .ok ()) (hfits : Fits bucket) :
    ∃ name, naming.code bucket = some name := by
  have hname : bucket ≠ [] := by
    rintro rfl
    cases hcheck
  exact ⟨_, toOption_eq_some.mpr (encodeName_eq hname hfits)⟩

theorem opened_run (hopen : s.closed = false) : opened s = ⟨.ok (), s, []⟩ := by
  change (if s.closed = true then (Action.complain _ _ : Action Store Unit) else pure ()) s = _
  rw [hopen]
  rfl

theorem partitionName_run (hcode : naming.code bucket = some name) :
    partitionName bucket s = ⟨.ok name, s, []⟩ := by
  have hname : encodeName bucket = .ok name := toOption_eq_some.mp hcode
  unfold partitionName
  rw [hname]
  rfl

theorem handle_noted (hnoted : s.handles.get? bucket = some name) :
    handle bucket s = ⟨.ok name, s, []⟩ := by
  unfold handle
  simp [Action.bind_run, Action.state, hnoted]

theorem handle_new (hnew : s.handles.get? bucket = none) (hcode : naming.code bucket = some name) :
    handle bucket s = if s.partitions.contains name then ⟨.ok name, s.withHandle bucket name, []⟩
      else ⟨.error (.bucketNotFound bucket), s, []⟩ := by
  unfold handle
  simp only [Action.bind_run, Action.state, hnew, partitionName_run hcode]
  change (if (!s.partitions.contains name) = true then Action.fail (.bucketNotFound bucket) else do
    Action.change fun s => s.withHandle bucket name
    return name : Action Store String) s = _
  cases s.partitions.contains name <;> rfl

theorem Holds.withHandle (h : Holds s m) (hcode : naming.code bucket = some name)
    (hthere : s.partitions.contains name = true) : Holds (s.withHandle bucket name) m where
  opened := h.opened
  memoryOpened := h.memoryOpened
  keeps := h.keeps
  handles := Store.Usable.withHandle h.handles hcode hthere

theorem Holds.withPartition (h : Holds s m) (hcode : naming.code bucket = some name)
    (values : Partition) : Holds (s.withPartition name values) (m.withBucket bucket values) where
  opened := h.opened
  memoryOpened := h.memoryOpened
  keeps := h.keeps.insert hcode values
  handles := Store.Usable.withPartition h.handles name values

/-- A bucket's handle is found if the bucket exists in memory. -/
theorem handle_matches (h : Holds s m) (hcode : naming.code bucket = some name) :
    Matches Eq (fun found _ => found = name) Holds (handle bucket s) (Memory.bucket bucket m) := by
  have hcontains := h.keeps.contains hcode
  rw [Memory.bucket_run]
  cases hnoted : s.handles.get? bucket with
  | some name' =>
    obtain ⟨hcode', hthere⟩ := h.handles bucket name' hnoted
    rw [hcode, Option.some_inj] at hcode'
    subst hcode'
    rw [hcontains] at hthere
    obtain ⟨found, hfound⟩ := KeyMap.contains_eq_true.mp hthere
    rw [handle_noted hnoted, hfound]
    exact ⟨.answers rfl, h⟩
  | none =>
    rw [handle_new hnoted hcode, hcontains]
    cases hbucket : m.buckets.contains bucket with
    | false =>
      rw [KeyMap.contains_eq_false.mp hbucket]
      exact ⟨.fails rfl, h⟩
    | true =>
      obtain ⟨found, hfound⟩ := KeyMap.contains_eq_true.mp hbucket
      rw [hfound]
      exact ⟨.answers rfl, h.withHandle hcode (hcontains.trans hbucket)⟩

/-- A bucket's partition is found if the bucket exists in memory, with the same values. -/
theorem partition_matches (h : Holds s m) (hcode : ∃ name, naming.code bucket = some name) :
    Matches Eq (fun p values => naming.code bucket = some p.1 ∧ p.2 = values) Holds
      (partition bucket s) (Memory.bucket bucket m) := by
  obtain ⟨_, hcode⟩ := hcode
  have hhandle := handle_matches h hcode
  have hbucket : Memory.bucket bucket m = (Memory.bucket bucket >>= pure) m := by
    rw [Action.bind_run, Memory.bucket_run]
    cases m.buckets.get? bucket <;> rfl
  rw [hbucket]
  apply hhandle.bind
  rintro name found rfl _ hreply
  -- The handle, cached or not, names a partition, which is still to be looked for.
  have hheld := hhandle.state
  generalize (handle bucket s).state = s' at hheld ⊢
  rw [Memory.bucket_run] at hreply hheld ⊢
  have hfound : m.buckets.get? bucket = some found := by
    cases hget : m.buckets.get? bucket with
    | none =>
      rw [hget] at hreply
      cases hreply
    | some found' =>
      rw [hget] at hreply
      cases hreply
      rfl
  have hvalues : s'.partitions.get? name = some found := by
    rw [hheld.keeps.stored bucket name hcode, hfound]
    rfl
  simp only [Action.bind_run, Action.state, hvalues]
  exact Matches.answer ⟨hcode, rfl⟩ hheld

theorem embeds : Embeds Eq (fun b => ∃ name, naming.code b = some name) naming Holds partition
    fun name values s => s.withPartition name values where
  refl _ := rfl
  coded h hb := h.keeps.coded _ hb
  found h hcode := partition_matches h hcode
  written values h hcode := h.withPartition hcode values

/-! ### Calls on a key -/

section

variable (h : Holds s m)
include h

theorem opened_bind {α : Type} (next : Unit → Action Store α) : (opened >>= next) s = next () s := by
  rw [Action.bind_run, opened_run h.opened]
  rfl

/-- A call on a key is refused for its name on both sides, or matches if what it does with the
    partition does. -/
theorem keyed_matches {α : Type} {next : String × Partition → Action Store α}
    {next' : Memory.Bucket → Action Memory.Store α}
    (hnext : checkKey bucket key = .ok () → Matches Eq Eq Holds ((partition bucket >>= next) s)
      ((Memory.bucket bucket >>= next') m)) :
    Matches Eq Eq Holds ((partitionOf bucket key >>= next) s)
      ((Memory.bucketOf bucket key >>= next') m) := by
  rw [Memory.bucketOf_bind_run h.memoryOpened]
  cases hcheck : checkKey bucket key with
  | error f =>
    have hrun : (partitionOf bucket key >>= next) s = ⟨.error f, s, f.notice⟩ := by
      unfold partitionOf
      rw [Action.bind_run, opened_bind h, hcheck]
      rfl
    rw [hrun]
    exact ⟨.fails rfl, h⟩
  | ok _ =>
    have hrun : (partitionOf bucket key >>= next) s = (partition bucket >>= next) s := by
      unfold partitionOf
      rw [Action.bind_run, opened_bind h, hcheck]
      rfl
    rw [hrun]
    exact hnext hcheck

theorem get_matches (hfits : Fits bucket) :
    Matches Eq Eq Holds (get bucket key s) (Memory.get bucket key m) := by
  apply keyed_matches h
  intro hcheck
  exact embeds.get h (code_of_check (checkBucket_of_checkKey hcheck) hfits)

theorem put_matches (hfits : Fits bucket) (value : Option Bytes) :
    Matches Eq Eq Holds (put bucket key value s) (Memory.put bucket key value m) := by
  apply keyed_matches h
  intro hcheck
  exact embeds.put h (code_of_check (checkBucket_of_checkKey hcheck) hfits) value

theorem compareAndSwap_matches (hfits : Fits bucket) (old : Option Bytes) (new : Bytes) :
    Matches Eq Eq Holds (compareAndSwap bucket key old new s)
      (Memory.compareAndSwap bucket key old new m) := by
  apply keyed_matches h
  intro hcheck
  exact embeds.swap h (code_of_check (checkBucket_of_checkKey hcheck) hfits) old new

/-! ### Calls on a bucket -/

theorem create_matches (hfits : Fits bucket) :
    Matches Eq Eq Holds (create bucket s) (Memory.create bucket m) := by
  unfold create Memory.create
  rw [opened_bind h, Memory.opened_bind h.memoryOpened]
  apply Matches.check (fun _ => rfl) h
  intro _ hcheck
  obtain ⟨name, hcode⟩ := code_of_check hcheck hfits
  rw [Action.bind_run, partitionName_run hcode]
  change Matches Eq Eq Holds
    ((if s.partitions.contains name = true then Action.fail (.bucketExists bucket) else do
      Action.change fun s => (s.withPartition name {}).withHandle bucket name
      Action.note _ : Action Store Unit) s)
    ((if m.buckets.contains bucket = true then Action.fail (.bucketExists bucket) else do
      Action.change fun m => m.withBucket bucket {}
      Action.note _ : Action Memory.Store Unit) m)
  rw [h.keeps.contains hcode]
  cases m.buckets.contains bucket with
  | true => exact Matches.failure rfl h
  | false =>
    apply Matches.note
    apply Matches.change
    apply (h.withPartition hcode {}).withHandle hcode
    simp [KeyMap.contains, Store.withPartition]

theorem Holds.erase (hcode : naming.code bucket = some name) :
    Holds { s with handles := s.handles.erase bucket, partitions := s.partitions.erase name }
      { m with buckets := m.buckets.erase bucket } where
  opened := h.opened
  memoryOpened := h.memoryOpened
  keeps := h.keeps.erase hcode
  handles := Store.Usable.erase h.handles hcode

theorem drop_matches (hfits : Fits bucket) :
    Matches Eq Eq Holds (drop bucket s) (Memory.drop bucket m) := by
  unfold drop Memory.drop
  rw [opened_bind h, Memory.opened_bind h.memoryOpened]
  apply Matches.check (fun _ => rfl) h
  intro _ hcheck
  obtain ⟨_, hcode⟩ := code_of_check hcheck hfits
  have hhandle := handle_matches h hcode
  apply hhandle.bind
  rintro name _ rfl _ _
  apply Matches.note
  exact Matches.change (hhandle.state.erase hcode)

theorem list_matches (config : Config) (config' : Memory.Config) (hfits : Fits bucket) :
    Matches Eq Eq Holds (list config bucket s) (Memory.list config' bucket m) := by
  unfold list Memory.list
  rw [opened_bind h, Memory.opened_bind h.memoryOpened]
  apply Matches.check (fun _ => rfl) h
  intro _ hcheck
  have hpartition := partition_matches h (code_of_check hcheck hfits)
  apply hpartition.bind
  rintro ⟨name, values⟩ _ ⟨_, rfl⟩ _ _
  simp only [keyset_list]
  exact Matches.answer rfl hpartition.state

/-! ### Updates -/

omit h in
/-- Where partitions are found as buckets in memory, an update goes as in memory. -/
theorem update_matches_of {E : Failure → Failure → Prop} {P : Bytes → Prop}
    {H : Store → Memory.Store → Prop}
    (he : Embeds E P naming H partition fun name values s => s.withPartition name values)
    (h : H s m) (hopen : s.closed = false) (hopen' : m.closed = false) {tx : Transaction}
    (hP : tx.check = .ok () → ∀ op ∈ tx, P op.bucket) :
    Matches E Eq H (update tx s) (Memory.update tx m) := by
  unfold update Memory.update
  rw [Action.bind_of_ok (opened_run hopen), Memory.opened_bind hopen']
  apply Matches.check he.refl h
  intro _ hcheck
  cases tx.isEmpty with
  | true => exact Matches.answer rfl h
  | false =>
    have hevaluated := he.evaluate h (hP hcheck)
    apply hevaluated.bind
    rintro ⟨ws, outcome⟩ _ rfl _ hreply
    have hstate := hevaluated.state
    rw [(Memory.evaluate_run tx).1] at hstate ⊢
    obtain ⟨hwritten, hpublished⟩ := he.publish_evaluated hstate hreply
    apply (hwritten.atomically _).map fun _ _ _ => rfl
    intro f hfails
    rw [hpublished] at hfails
    cases hfails

theorem update_matches {tx : Transaction} (hfits : ∀ op ∈ tx, Fits op.bucket) :
    Matches Eq Eq Holds (update tx s) (Memory.update tx m) :=
  update_matches_of embeds h h.opened h.memoryOpened fun hcheck op hop =>
    code_of_check (checkBucket_of_checkKey (Transaction.check_of_mem hcheck hop)) (hfits op hop)

/-! ### Names -/

omit h in
theorem bucketNames_run (hopen : s.closed = false) : (bucketNames s).reply =
      .ok (s.partitions.keys.reverse.filterMap naming.decode) ∧ (bucketNames s).state = s := by
  unfold bucketNames
  rw [Action.bind_of_ok (opened_run hopen)]
  apply Action.filterMapM_run
  intro name
  change _ = Except.ok (decodeName name).toOption ∧ _
  cases decodeName name <;> exact ⟨rfl, rfl⟩

/-! ### Any call, and reopening -/

/-- Each call is answered as in memory, and leaves a keyspace that holds what is left there. -/
theorem perform_matches (config : Config) (config' : Memory.Config) {r : Request}
    (hfits : r.Within Fits) :
    Matches Eq Eq Holds ((driver config).perform r s) ((Memory.unnamed config').perform r m) := by
  apply Driver.perform_matches
  cases r with
  | create b => exact create_matches h hfits
  | drop b => exact drop_matches h hfits
  | get b k => exact get_matches h hfits
  | set b k value => exact put_matches h hfits (some value)
  | delete b k => exact put_matches h hfits none
  | list b => exact list_matches h config config' hfits
  | update tx => exact update_matches h hfits
  | compareAndSwap b k old new => exact compareAndSwap_matches h hfits old new
  | close => exact hfits.elim

/-- Closing and opening again forgets the handles, and nothing else. -/
theorem reopen_run {config : Config} (hpath : config.path.isEmpty = false) :
    ((do close config; openKeyspace config : Action Store Unit) s).reply = .ok () ∧
      ((do close config; openKeyspace config : Action Store Unit) s).state = { s with handles := {} } := by
  have hclose : close config s = ⟨.ok (), { s with handles := {}, closed := true },
      [Log.debug s!"Closed fjall keyspace at {config.path}"]⟩ := by
    change (if s.closed = true then pure () else do
      Action.change fun s => { s with handles := {}, closed := true }
      Action.note _ : Action Store Unit) s = _
    rw [h.opened]
    rfl
  rw [Action.bind_run, hclose]
  unfold openKeyspace
  rw [hpath]
  have hopened := h.opened
  obtain ⟨partitions, handles, closed⟩ := s
  cases hopened
  exact ⟨rfl, rfl⟩

theorem Holds.forget : Holds { s with handles := {} } m where
  opened := h.opened
  memoryOpened := h.memoryOpened
  keeps := h.keeps
  handles _ _ hnoted := nomatch hnoted

end

end BucketStore.Keyspace
