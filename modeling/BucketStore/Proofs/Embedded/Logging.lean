/-
  BucketStore/Proofs/Embedded/Logging.lean
  ========================================
  **In memory, on a keyspace and on a table file, what is expected is no error.**

  Each call is discreet part by part.  In memory and on a table file that is so from
  every state.  On a keyspace a handle whose partition is gone would be complained
  about, and the engine's word for it is that something is missing; so there it takes
  that the handles are of use, which they are in every state that a driver can be in.
-/
import BucketStore.Proofs.Closing
import BucketStore.Proofs.Keyspace.Handles
import BucketStore.Proofs.Logging

namespace BucketStore

open BucketStore.Action

/-- From states of `I` every call is discreet, and leads to states of `I`. -/
structure Driver.Discreet {σ : Type} (d : Driver σ) (I : σ → Prop) : Prop where
  close : d.close.Discreet I
  create : ∀ b, (d.create b).Discreet I
  drop : ∀ b, (d.drop b).Discreet I
  get : ∀ b k, (d.get b k).Discreet I
  set : ∀ b k value, (d.set b k value).Discreet I
  delete : ∀ b k, (d.delete b k).Discreet I
  list : ∀ b, (d.list b).Discreet I
  update : ∀ tx, (d.update tx).Discreet I
  compareAndSwap : ∀ b k old new, (d.compareAndSwap b k old new).Discreet I

theorem Driver.Discreet.ask {σ ε β : Type} {d : Driver σ} {I : σ → Prop} (h : d.Discreet I)
    {other : ε → Action σ β} (hother : ∀ e, (other e).Discreet I) (c : Request ⊕ ε) :
    (d.ask other c).Discreet I := by
  rcases c with r | e
  · refine Action.Discreet.bind ?_ fun _ => discreet_pure _
    cases r with
    | create b => exact (h.create b).bind fun _ => discreet_pure _
    | drop b => exact (h.drop b).bind fun _ => discreet_pure _
    | get b k => exact (h.get b k).bind fun _ => discreet_pure _
    | set b k value => exact (h.set b k value).bind fun _ => discreet_pure _
    | delete b k => exact (h.delete b k).bind fun _ => discreet_pure _
    | list b => exact (h.list b).bind fun _ => discreet_pure _
    | update tx => exact (h.update tx).bind fun _ => discreet_pure _
    | compareAndSwap b k old new => exact (h.compareAndSwap b k old new).bind fun _ => discreet_pure _
    | close => exact h.close.bind fun _ => discreet_pure _
  · exact (hother e).bind fun _ => discreet_pure _

/-- Of every state. -/
abbrev Always {σ : Type} : σ → Prop := fun _ => True

theorem Action.discreet_change_always {σ : Type} (f : σ → σ) : (change f).Discreet Always :=
  discreet_change fun _ _ => trivial

/-- What is discreet from every state is so from those of `I`; that it leads to such is another
    matter. -/
theorem Action.discreet_of_keeps {σ α : Type} {I : σ → Prop} {act : Action σ α} (hkeeps : Keeps I act)
    (h : act.Discreet Always) : act.Discreet I :=
  fun s hs => ⟨(h s trivial).1, hkeeps s hs⟩

/-! ### In memory -/

namespace Memory

theorem discreet_opened : opened.Discreet Always := by
  refine discreet_state.bind fun s => ?_
  split
  · exact discreet_complain _ rfl
  · exact discreet_pure _

theorem discreet_bucket (name : Bytes) : (bucket name).Discreet Always := by
  refine discreet_state.bind fun s => ?_
  split
  · exact discreet_pure _
  · exact discreet_fail _

theorem discreet_bucketOf (name key : Bytes) : (bucketOf name key).Discreet Always :=
  discreet_opened.bind fun _ => (discreet_check _).bind fun _ => discreet_bucket name

theorem discreet_create (name : Bytes) : (create name).Discreet Always := by
  refine discreet_opened.bind fun _ => (discreet_check _).bind fun _ => discreet_state.bind fun s => ?_
  split
  · exact discreet_fail _
  · exact (discreet_change_always _).bind fun _ => discreet_note rfl

theorem discreet_drop (name : Bytes) : (drop name).Discreet Always :=
  discreet_opened.bind fun _ => (discreet_check _).bind fun _ => (discreet_bucket name).bind fun _ =>
    (discreet_change_always _).bind fun _ => discreet_note rfl

theorem discreet_get (name key : Bytes) : (get name key).Discreet Always := by
  refine (discreet_bucketOf name key).bind fun values => ?_
  split
  · exact discreet_pure _
  · exact discreet_fail _

theorem discreet_put (name key : Bytes) (value : Option Bytes) :
    (put name key value).Discreet Always :=
  (discreet_bucketOf name key).bind fun _ => discreet_change_always _

theorem discreet_list (config : Config) (name : Bytes) : (list config name).Discreet Always :=
  discreet_opened.bind fun _ => (discreet_check _).bind fun _ => (discreet_bucket name).bind fun _ =>
    discreet_check _

theorem discreet_compareAndSwap (name key : Bytes) (old : Option Bytes) (new : Bytes) :
    (compareAndSwap name key old new).Discreet Always := by
  refine (discreet_bucketOf name key).bind fun values => ?_
  dsimp only
  split
  · exact (discreet_change_always _).bind fun _ => discreet_pure _
  · exact discreet_pure _

theorem discreet_publish (changes : List Change) : (publish changes).Discreet Always :=
  discreet_forM fun c => (discreet_bucket c.bucket).bind fun _ => discreet_change_always _

theorem discreet_update (tx : Transaction) : (update tx).Discreet Always := by
  refine discreet_opened.bind fun _ => (discreet_check _).bind fun _ => ?_
  split
  · exact discreet_pure _
  · refine discreet_published (fun b _ => ?_) discreet_publish tx
    exact (discreet_bucket b).bind fun _ => discreet_pure _

theorem discreet_close : close.Discreet Always := by
  refine discreet_state.bind fun s => ?_
  split
  · exact discreet_pure _
  · exact (discreet_change_always _).bind fun _ => discreet_note rfl

theorem discreet_bucketNames : bucketNames.Discreet Always :=
  discreet_opened.bind fun _ => discreet_state.bind fun _ => discreet_pure _

theorem discreet (config : Config) : (driver config).Discreet Always where
  close := discreet_close
  create b := (discreet_create b).namedBucket "create" b
  drop b := (discreet_drop b).namedBucket "delete" b
  get b k := (discreet_get b k).named "get" b k
  set b k value := (discreet_put b k (some value)).named "set" b k
  delete b k := (discreet_put b k none).named "del" b k
  list b := (discreet_list config b).namedBucket "list" b
  update := discreet_update
  compareAndSwap b k old new := (discreet_compareAndSwap b k old new).named "compare_and_swap" b k

end Memory

/-! ### On a keyspace -/

namespace Keyspace

variable {I : Store → Prop}

theorem discreet_opened : opened.Discreet I := by
  refine discreet_state.bind fun s => ?_
  split
  · exact discreet_complain _ rfl
  · exact discreet_pure _

theorem loud_handle (bucket : Bytes) (s : Store) : Log.loud (handle bucket s).log = false := by
  rcases handle_cases bucket s with ⟨f, hrun⟩ | ⟨name, ⟨_, hrun⟩ | ⟨_, _, hrun⟩⟩ <;> rw [hrun] <;> rfl

/-- A handle of use leads to a partition, so nothing is complained about. -/
theorem loud_partition {s : Store} (hs : s.Usable) (bucket : Bytes) :
    Log.loud (partition bucket s).log = false := by
  have hfound : ∀ {s' : Store} {name : String}, handle bucket s = ⟨.ok name, s', []⟩ →
      s'.partitions.contains name = true → Log.loud (partition bucket s).log = false := by
    intro s' name hrun hthere
    obtain ⟨values, hvalues⟩ := Option.isSome_iff_exists.mp hthere
    unfold partition
    rw [Action.bind_of_ok hrun, Action.state_bind, hvalues]
    rfl
  rcases handle_cases bucket s with ⟨f, hrun⟩ | ⟨name, ⟨hnoted, hrun⟩ | ⟨_, hthere, hrun⟩⟩
  · unfold partition
    rw [Action.bind_of_error hrun]
    rfl
  · exact hfound hrun (hs _ _ hnoted).2
  · exact hfound hrun hthere

theorem discreet_partition (bucket : Bytes) : (partition bucket).Discreet Store.Usable :=
  discreet_of_silent fun s hs => ⟨loud_partition hs bucket, keeps_partition lasting_usable s hs⟩

theorem discreet_partitionOf (bucket key : Bytes) : (partitionOf bucket key).Discreet Store.Usable :=
  discreet_opened.bind fun _ => (discreet_check _).bind fun _ => discreet_partition bucket

theorem discreet_withPartition (name : String) (values : Partition) :
    (Action.change fun s : Store => s.withPartition name values).Discreet Store.Usable :=
  discreet_change fun _ hs => hs.withPartition name values

/-- It does not matter which handles are of use where no partition is looked into. -/
theorem discreet_create (bucket : Bytes) : (create bucket).Discreet Store.Usable := by
  refine discreet_of_keeps (keeps_create lasting_usable) ?_
  refine discreet_opened.bind fun _ => (discreet_check _).bind fun _ =>
    (discreet_ofExcept _).bind fun name => discreet_state.bind fun s => ?_
  split
  · exact discreet_fail _
  · exact (discreet_change_always _).bind fun _ => discreet_note rfl

theorem discreet_drop (bucket : Bytes) : (drop bucket).Discreet Store.Usable :=
  discreet_of_keeps (keeps_drop lasting_usable) <|
    discreet_opened.bind fun _ => (discreet_check _).bind fun _ =>
    (discreet_of_silent fun s _ => ⟨loud_handle bucket s, trivial⟩).bind fun _ =>
    (discreet_change_always _).bind fun _ => discreet_note rfl

theorem discreet_get (bucket key : Bytes) : (get bucket key).Discreet Store.Usable := by
  refine (discreet_partitionOf bucket key).bind fun p => ?_
  split
  · exact discreet_pure _
  · exact discreet_fail _

theorem discreet_put (bucket key : Bytes) (value : Option Bytes) :
    (put bucket key value).Discreet Store.Usable :=
  (discreet_partitionOf bucket key).bind fun p => discreet_withPartition p.1 _

theorem discreet_list (config : Config) (bucket : Bytes) :
    (list config bucket).Discreet Store.Usable :=
  discreet_opened.bind fun _ => (discreet_check _).bind fun _ => (discreet_partition bucket).bind
    fun _ => (discreet_check _).namedBucket "list" bucket

theorem discreet_compareAndSwap (bucket key : Bytes) (old : Option Bytes) (new : Bytes) :
    (compareAndSwap bucket key old new).Discreet Store.Usable := by
  refine (discreet_partitionOf bucket key).bind fun p => ?_
  dsimp only
  split
  · exact (discreet_withPartition p.1 _).bind fun _ => discreet_pure _
  · exact discreet_pure _

theorem discreet_publish (changes : List Change) : (publish changes).Discreet Store.Usable := by
  refine (discreet_forM fun (c : Change) => ?_).atomically
  exact (discreet_partition c.bucket).bind fun p => discreet_withPartition p.1 _

theorem discreet_update (tx : Transaction) : (update tx).Discreet Store.Usable := by
  refine discreet_opened.bind fun _ => (discreet_check _).bind fun _ => ?_
  split
  · exact discreet_pure _
  · refine discreet_published (fun b _ => ?_) discreet_publish tx
    exact (discreet_partition b).bind fun _ => discreet_pure _

theorem discreet_close (config : Config) : (close config).Discreet Store.Usable := by
  refine discreet_state.bind fun s => ?_
  split
  · exact discreet_pure _
  · exact (discreet_change fun _ hs => lasting_usable.close hs).bind fun _ => discreet_note rfl

theorem discreet_bucketNames : bucketNames.Discreet I := by
  refine discreet_opened.bind fun _ => discreet_state.bind fun s =>
    (discreet_mapM fun partition => ?_).bind fun _ => discreet_pure _
  split
  · exact discreet_pure _
  · exact (discreet_note rfl).bind fun _ => discreet_pure _

theorem discreet (config : Config) : (driver config).Discreet Store.Usable where
  close := discreet_close config
  create := discreet_create
  drop := discreet_drop
  get := discreet_get
  set b k value := discreet_put b k (some value)
  delete b k := discreet_put b k none
  list := discreet_list config
  update := discreet_update
  compareAndSwap := discreet_compareAndSwap

end Keyspace

/-! ### On a table file -/

namespace TableFile

theorem discreet_opened : opened.Discreet Always := by
  refine discreet_state.bind fun file => ?_
  split
  · exact discreet_complain _ rfl
  · exact discreet_pure _

theorem discreet_tableName (bucket : Bytes) : (tableName bucket).Discreet Always :=
  discreet_ofExcept _

theorem discreet_openExisting (bucket : Bytes) : (openExisting bucket).Discreet Always := by
  refine (discreet_tableName bucket).bind fun name => discreet_state.bind fun file => ?_
  split
  · exact discreet_fail _
  · exact discreet_fail _
  · exact discreet_pure _

/-- A table of another type is complained about; it is there, and it is no bucket. -/
theorem discreet_openRead (bucket : Bytes) : (openRead bucket).Discreet Always := by
  refine (discreet_tableName bucket).bind fun name => discreet_state.bind fun file => ?_
  split
  · exact discreet_fail _
  · exact discreet_complain _ rfl
  · exact discreet_pure _

theorem discreet_create (bucket : Bytes) : (create bucket).Discreet Always := by
  refine (discreet_check _).bind fun _ => (discreet_tableName bucket).bind fun name =>
    discreet_opened.bind fun _ => discreet_state.bind fun file => ?_
  split
  · exact discreet_fail _
  · exact (discreet_change_always _).bind fun _ => discreet_note rfl

theorem discreet_drop (bucket : Bytes) : (drop bucket).Discreet Always := by
  refine (discreet_check _).bind fun _ => (discreet_tableName bucket).bind fun name =>
    discreet_opened.bind fun _ => discreet_state.bind fun file => ?_
  split
  · exact discreet_fail _
  · exact (discreet_change_always _).bind fun _ => discreet_note rfl

theorem discreet_get (bucket key : Bytes) : (get bucket key).Discreet Always := by
  refine (discreet_check _).bind fun _ => discreet_opened.bind fun _ =>
    (discreet_openRead bucket).bind fun values => ?_
  split
  · exact discreet_pure _
  · exact discreet_fail _

theorem discreet_put (bucket key : Bytes) (value : Option Bytes) :
    (put bucket key value).Discreet Always :=
  (discreet_check _).bind fun _ => discreet_opened.bind fun _ =>
    (discreet_openExisting bucket).bind fun _ => discreet_change_always _

theorem discreet_list (config : Config) (bucket : Bytes) : (list config bucket).Discreet Always :=
  (discreet_check _).bind fun _ =>
    (discreet_opened.bind fun _ => (discreet_openRead bucket).bind fun _ =>
      discreet_check _).namedBucket "list" bucket

theorem discreet_compareAndSwap (bucket key : Bytes) (old : Option Bytes) (new : Bytes) :
    (compareAndSwap bucket key old new).Discreet Always := by
  refine (discreet_check _).bind fun _ => discreet_opened.bind fun _ =>
    (discreet_openExisting bucket).bind fun p => ?_
  dsimp only
  split
  · exact (discreet_change_always _).bind fun _ => discreet_pure _
  · exact discreet_pure _

theorem discreet_publish (changes : List Change) : (publish changes).Discreet Always :=
  discreet_forM fun c => (discreet_openExisting c.bucket).bind fun _ => discreet_change_always _

theorem discreet_update (tx : Transaction) : (update tx).Discreet Always := by
  refine (discreet_check _).bind fun _ => discreet_opened.bind fun _ => ?_
  split
  · exact discreet_pure _
  · refine (discreet_published (fun b _ => ?_) discreet_publish tx).atomically
    exact (discreet_openExisting b).bind fun _ => discreet_pure _

theorem discreet_close (config : Config) : (close config).Discreet Always := by
  refine discreet_state.bind fun file => ?_
  split
  · exact (discreet_change_always _).bind fun _ => discreet_note rfl
  · exact discreet_pure _

theorem discreet_bucketNames : bucketNames.Discreet Always := by
  refine discreet_opened.bind fun _ => discreet_state.bind fun file =>
    (discreet_mapM fun table => ?_).bind fun _ => discreet_pure _
  split
  · exact discreet_pure _
  · exact (discreet_note rfl).bind fun _ => discreet_pure _

theorem discreet (config : Config) : (driver config).Discreet Always where
  close := discreet_close config
  create := discreet_create
  drop := discreet_drop
  get := discreet_get
  set b k value := discreet_put b k (some value)
  delete b k := discreet_put b k none
  list := discreet_list config
  update := discreet_update
  compareAndSwap := discreet_compareAndSwap

end TableFile

end BucketStore
