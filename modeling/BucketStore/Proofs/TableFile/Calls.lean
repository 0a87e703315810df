/-
  BucketStore/Proofs/TableFile/Calls.lean
  =======================================
  **On a table file, calls are answered as in memory.**

  A file holds a store in memory (`Holds`) if it is open and its tables keep the
  buckets, all of them tables of values.  Each call keeps this up, and its reply is
  like the one in memory.  A file that is closed and opened again is the same file.
-/
import BucketStore.Proofs.Embedding
import BucketStore.Proofs.TableFile.Name
import BucketStore.TableFile.Driver

namespace BucketStore.TableFile

open Step (Matches)

/-- Buckets under the names of their tables. -/
def naming : Naming where
  code bucket := (encodeName bucket).toOption
  decode name := (decodeName name).toOption
  decode_code _ _ h :=
    toOption_eq_some.mpr (decodeName_of_encodeName (toOption_eq_some.mp h))

variable {file : File} {m : Memory.Store} {bucket key : Bytes} {name : String}

/-- The file holds what the store in memory holds. -/
structure Holds (file : File) (m : Memory.Store) : Prop where
  opened : file.opened = true
  memoryOpened : m.closed = false
  keeps : naming.Keeps Table.values file.tables m.buckets

theorem code_of_check (hcheck : checkBucket bucket = .ok ()) :
    ∃ name, naming.code bucket = some name := by
  have hname : bucket ≠ [] := by
    rintro rfl
    cases hcheck
  obtain ⟨name, hencode⟩ := exists_encodeName hname
  exact ⟨name, toOption_eq_some.mpr hencode⟩

theorem Holds.withValues (h : Holds file m) (hcode : naming.code bucket = some name)
    (values : KeyMap Bytes Bytes) :
    Holds (file.withValues name values) (m.withBucket bucket values) where
  opened := h.opened
  memoryOpened := h.memoryOpened
  keeps := h.keeps.insert hcode values

/-! ### Finding tables -/

theorem tableName_run (hcode : naming.code bucket = some name) :
    tableName bucket file = ⟨.ok name, file, []⟩ := by
  have hname : encodeName bucket = .ok name := toOption_eq_some.mp hcode
  unfold tableName
  rw [hname]
  rfl

theorem tableName_failed (file : File) (hcode : naming.code bucket = none) :
    ∃ f, tableName bucket file = ⟨.error f, file, []⟩ := by
  obtain ⟨fault, hname⟩ := toOption_eq_none.mp hcode
  refine ⟨fault.failure, ?_⟩
  unfold tableName
  rw [hname]
  rfl

theorem tableName_bind {α : Type} (hcode : naming.code bucket = some name)
    (next : String → Action File α) : (tableName bucket >>= next) file = next name file := by
  rw [Action.bind_run, tableName_run hcode]
  rfl

section

variable (h : Holds file m)
include h

/-- A bucket's table is found if the bucket exists in memory, with the same values. -/
theorem openExisting_matches (hcode : ∃ name, naming.code bucket = some name) :
    Matches Eq (fun p values => naming.code bucket = some p.1 ∧ p.2 = values) Holds
      (openExisting bucket file) (Memory.bucket bucket m) := by
  obtain ⟨name, hcode⟩ := hcode
  unfold openExisting
  rw [tableName_bind hcode, Action.state_bind, h.keeps.stored bucket name hcode, Memory.bucket_run]
  cases m.buckets.get? bucket with
  | none => exact ⟨.fails rfl, h⟩
  | some found => exact ⟨.answers ⟨hcode, rfl⟩, h⟩

theorem openRead_matches (hcode : ∃ name, naming.code bucket = some name) :
    Matches Eq Eq Holds (openRead bucket file) (Memory.bucket bucket m) := by
  obtain ⟨name, hcode⟩ := hcode
  unfold openRead
  rw [tableName_bind hcode, Action.state_bind, h.keeps.stored bucket name hcode, Memory.bucket_run]
  cases m.buckets.get? bucket with
  | none => exact ⟨.fails rfl, h⟩
  | some found => exact ⟨.answers rfl, h⟩

omit h in
theorem embeds : Embeds Eq (fun b => ∃ name, naming.code b = some name) naming Holds openExisting
    fun name values file => file.withValues name values where
  refl _ := rfl
  coded h hb := h.keeps.coded _ hb
  found h hcode := openExisting_matches h hcode
  written values h hcode := h.withValues hcode values

omit h in
theorem opened_run (hopen : file.opened = true) : opened file = ⟨.ok (), file, []⟩ := by
  change (if (!file.opened) = true then (Action.complain _ _ : Action File Unit) else pure ()) file = _
  rw [hopen]
  rfl

theorem opened_bind {α : Type} (next : Unit → Action File α) :
    (opened >>= next) file = next () file := Action.bind_of_ok (opened_run h.opened)

/-! ### Calls on a key -/

/-- A call on a key is refused for its name on both sides, or matches if what it does with the table
    does. -/
theorem keyed_matches {α : Type} {next : Action File α}
    {next' : Memory.Bucket → Action Memory.Store α}
    (hnext : checkKey bucket key = .ok () →
      Matches Eq Eq Holds (next file) ((Memory.bucket bucket >>= next') m)) :
    Matches Eq Eq Holds ((Action.check (checkKey bucket key) >>= fun _ => opened >>= fun _ => next) file)
      ((Memory.bucketOf bucket key >>= next') m) := by
  rw [Memory.bucketOf_bind_run h.memoryOpened]
  cases hcheck : checkKey bucket key with
  | error f => exact ⟨.fails rfl, h⟩
  | ok _ =>
    change Matches Eq Eq Holds ((opened >>= fun _ => next) file) _
    rw [opened_bind h]
    exact hnext hcheck

theorem get_matches : Matches Eq Eq Holds (get bucket key file) (Memory.get bucket key m) := by
  apply keyed_matches h
  intro hcheck
  have hread := openRead_matches h (code_of_check (checkBucket_of_checkKey hcheck))
  apply hread.bind
  rintro values _ rfl _ _
  cases values.get? key with
  | none => exact Matches.failure rfl hread.state
  | some value => exact Matches.answer rfl hread.state

theorem put_matches (value : Option Bytes) :
    Matches Eq Eq Holds (put bucket key value file) (Memory.put bucket key value m) := by
  apply keyed_matches h
  intro hcheck
  exact embeds.put h (code_of_check (checkBucket_of_checkKey hcheck)) value

theorem compareAndSwap_matches (old : Option Bytes) (new : Bytes) :
    Matches Eq Eq Holds (compareAndSwap bucket key old new file)
      (Memory.compareAndSwap bucket key old new m) := by
  apply keyed_matches h
  intro hcheck
  exact embeds.swap h (code_of_check (checkBucket_of_checkKey hcheck)) old new

/-! ### Calls on a bucket -/

theorem create_matches : Matches Eq Eq Holds (create bucket file) (Memory.create bucket m) := by
  unfold create Memory.create
  rw [Memory.opened_bind h.memoryOpened]
  apply Matches.check (fun _ => rfl) h
  intro _ hcheck
  obtain ⟨name, hcode⟩ := code_of_check hcheck
  rw [tableName_bind hcode, opened_bind h]
  change Matches Eq Eq Holds
    ((if file.tables.contains name = true then Action.fail (.bucketExists bucket) else do
      Action.change fun file => file.withValues name {}
      Action.note _ : Action File Unit) file)
    ((if m.buckets.contains bucket = true then Action.fail (.bucketExists bucket) else do
      Action.change fun m => m.withBucket bucket {}
      Action.note _ : Action Memory.Store Unit) m)
  rw [h.keeps.contains hcode]
  cases m.buckets.contains bucket with
  | true => exact Matches.failure rfl h
  | false =>
    apply Matches.note
    exact Matches.change (h.withValues hcode {})

theorem drop_matches : Matches Eq Eq Holds (drop bucket file) (Memory.drop bucket m) := by
  unfold drop
  rw [Memory.drop_run h.memoryOpened]
  cases hcheck : checkBucket bucket with
  | error f => exact ⟨.fails rfl, h⟩
  | ok _ =>
    obtain ⟨name, hcode⟩ := code_of_check hcheck
    change Matches Eq Eq Holds ((tableName bucket >>= fun name => opened >>= fun _ => _) file) _
    rw [tableName_bind hcode, opened_bind h]
    change Matches Eq Eq Holds
      ((if (!file.tables.contains name) = true then Action.fail (.bucketNotFound bucket) else do
        Action.change fun file => { file with tables := file.tables.erase name }
        Action.note _ : Action File Unit) file) _
    rw [h.keeps.contains hcode]
    cases m.buckets.contains bucket with
    | false => exact ⟨.fails rfl, h⟩
    | true => exact ⟨.answers rfl, h.opened, h.memoryOpened, h.keeps.erase hcode⟩

theorem list_matches (config : Config) (config' : Memory.Config) :
    Matches SameKind Eq Holds (list config bucket file) (Memory.list config' bucket m) := by
  unfold list Memory.list
  rw [Memory.opened_bind h.memoryOpened]
  apply Matches.check (E := SameKind) (fun _ => rfl) h
  intro _ hcheck
  have hread := openRead_matches h (code_of_check hcheck)
  apply Matches.mapFailure_left (E := Eq) _ fun _ _ heq => congrArg Failure.kind heq
  rw [opened_bind h]
  apply hread.bind
  rintro values _ rfl _ _
  simp only [keyset_list]
  exact Matches.answer rfl hread.state

/-! ### Updates -/

omit h in
/-- Where tables are found as buckets in memory, an update goes as in memory. -/
theorem update_matches_of {E : Failure → Failure → Prop} {P : Bytes → Prop}
    {H : File → Memory.Store → Prop}
    (he : Embeds E P naming H openExisting fun name values file => file.withValues name values)
    (h : H file m) (hopen : file.opened = true) (hopen' : m.closed = false) {tx : Transaction}
    (hP : tx.check = .ok () → ∀ op ∈ tx, P op.bucket) :
    Matches E Eq H (update tx file) (Memory.update tx m) := by
  unfold update Memory.update
  rw [Memory.opened_bind hopen']
  apply Matches.check he.refl h
  intro _ hcheck
  rw [Action.bind_of_ok (opened_run hopen)]
  cases tx.isEmpty with
  | true => exact Matches.answer rfl h
  | false =>
    have hevaluated := he.evaluate h (hP hcheck)
    apply Matches.atomically
    · apply hevaluated.bind
      rintro ⟨ws, outcome⟩ _ rfl _ hreply
      have hstate := hevaluated.state
      rw [(Memory.evaluate_run tx).1] at hstate ⊢
      exact (he.publish_evaluated hstate hreply).1.map fun _ _ _ => rfl
    · intro g hfails
      have hkept := Memory.state_of_evaluate_error rfl hfails
      exact (congrArg (H file) hkept).mpr h

theorem update_matches {tx : Transaction} :
    Matches Eq Eq Holds (update tx file) (Memory.update tx m) :=
  update_matches_of embeds h h.opened h.memoryOpened fun hcheck _ hop =>
    code_of_check (checkBucket_of_checkKey (Transaction.check_of_mem hcheck hop))

/-! ### Names -/

omit h in
theorem bucketNames_run (hopen : file.opened = true) : (bucketNames file).reply =
      .ok (file.tables.keys.filterMap naming.decode) ∧ (bucketNames file).state = file := by
  unfold bucketNames
  rw [Action.bind_of_ok (opened_run hopen)]
  apply Action.filterMapM_run
  intro name
  change _ = Except.ok (decodeName name).toOption ∧ _
  cases decodeName name <;> exact ⟨rfl, rfl⟩

/-! ### Any call, and reopening -/

/-- Each call is answered as in memory, and leaves a file that holds what is left there. -/
theorem perform_matches (config : Config) (config' : Memory.Config) {r : Request}
    (hopen : r ≠ .close) :
    Matches SameKind Eq Holds ((driver config).perform r file)
      ((Memory.unnamed config').perform r m) := by
  apply Driver.perform_matches
  cases r with
  | create b => exact (create_matches h).sameKind
  | drop b => exact (drop_matches h).sameKind
  | get b k => exact (get_matches h).sameKind
  | set b k value => exact (put_matches h (some value)).sameKind
  | delete b k => exact (put_matches h none).sameKind
  | list b => exact list_matches h config config'
  | update tx => exact (update_matches h).sameKind
  | compareAndSwap b k old new => exact (compareAndSwap_matches h old new).sameKind
  | close => exact absurd rfl hopen

/-- Closing and opening again leaves the file as it is. -/
theorem reopen_run {config : Config} (hpath : config.path.isEmpty = false) :
    ((do close config; openFile config : Action File Unit) file).reply = .ok () ∧
      ((do close config; openFile config : Action File Unit) file).state = file := by
  have hclose : close config file = ⟨.ok (), { file with opened := false },
      [Log.debug s!"Closed redb database at {config.path}"]⟩ := by
    change (if file.opened = true then do
      Action.change fun file => { file with opened := false }
      Action.note _
      else pure () : Action File Unit) file = _
    rw [h.opened]
    rfl
  rw [Action.bind_run, hclose]
  unfold openFile
  rw [hpath]
  have hopened := h.opened
  obtain ⟨tables, opened⟩ := file
  cases hopened
  exact ⟨rfl, rfl⟩

end

end BucketStore.TableFile
