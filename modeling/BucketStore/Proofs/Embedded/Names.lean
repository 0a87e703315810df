/-
  BucketStore/Proofs/Embedded/Names.lean
  ======================================
  **Bucket names are listed exactly unless there are stray names.**

  On a keyspace and in a table file, buckets are kept under native names, and others
  may have made partitions and tables under names of their own.  Creating and
  dropping buckets touches names of buckets only (`KeepsByName.foreign_after`).

  A native name may be read as a bucket without being the name that this bucket is
  kept under (`Naming.Stray`).  Where there is no such name, the listed buckets are
  those that cannot be created because they exist, each listed once; a stray name
  makes the list wrong for good (`bucketNames_exact_iff`).
-/
import BucketStore.Proofs.Embedded
import BucketStore.Proofs.Keyspace.Handles

namespace BucketStore

/-! ### Stray names -/

namespace Keyspace

variable {name : String} {bucket : Bytes}

theorem decode_eq_some : naming.decode name = some bucket ↔ decodeName name = .ok bucket :=
  toOption_eq_some

theorem code_eq_some (hname : bucket ≠ []) : naming.code bucket = some name ↔
    Fits bucket ∧ name = String.ofList (nameChars bucket) :=
  toOption_eq_some.trans (encodeName_eq_ok hname)

/-- **Stray names of partitions** are the digits of plain buckets, and names that are too long. -/
theorem stray_iff : naming.Stray name ↔ ∃ bucket, bucket ≠ [] ∧
    (bucket.all isPlain = true ∧ name = String.ofList ('#' :: Text.Hex.digits bucket) ∨
      ¬Fits bucket ∧ name = String.ofList (nameChars bucket)) := by
  constructor
  · rintro ⟨bucket, hdecode, hcode⟩
    obtain ⟨hname, hforms⟩ := decodeName_eq_ok.mp (decode_eq_some.mp hdecode)
    rw [Ne, code_eq_some hname] at hcode
    refine ⟨bucket, hname, ?_⟩
    by_cases hown : name = String.ofList (nameChars bucket)
    · -- The bucket would be kept under this name if it were not too long.
      exact .inr ⟨fun hfits => hcode ⟨hfits, hown⟩, hown⟩
    · have hdigits := hforms.resolve_left hown
      refine .inl ⟨?_, hdigits⟩
      by_contra hplain
      rw [nameChars, if_neg hplain] at hown
      exact hown hdigits
  · rintro ⟨bucket, hname, hform⟩
    refine ⟨bucket, ?_, ?_⟩
    · rw [decode_eq_some, decodeName_eq_ok]
      exact ⟨hname, hform.symm.imp And.right And.right⟩
    · rw [Ne, code_eq_some hname]
      rintro ⟨hfits, rfl⟩
      rcases hform with ⟨hplain, hsame⟩ | ⟨hlong, -⟩
      · rw [String.ofList_inj, nameChars, if_pos hplain] at hsame
        exact plain_ne_marked hname hplain _ hsame
      · exact hlong hfits

/-- What is neither stray nor the name of a bucket is reported. -/
theorem unreadable_of_not_stray (hstray : ¬naming.Stray name)
    (hnone : ∀ b, encodeName b ≠ .ok name) : decodeName name = .error (.unreadable name) := by
  have hunread := Naming.decode_of_not_stray hstray fun b hcode => hnone b (toOption_eq_some.mp hcode)
  obtain ⟨fault, hread⟩ := toOption_eq_none.mp hunread
  rw [hread, fault_of_decodeName hread]

end Keyspace

namespace TableFile

variable {name : String} {bucket : Bytes}

theorem decode_eq_some : naming.decode name = some bucket ↔ decodeName name = .ok bucket :=
  toOption_eq_some

theorem code_eq_some (hname : bucket ≠ []) : naming.code bucket = some name ↔
    (name.toList.head? ≠ some '#' ∧ Bytes.ofString name = bucket) ∨
      ¬Unmarked bucket ∧ name = encodeName.marked bucket :=
  toOption_eq_some.trans (encodeName_eq_ok hname)

/-- **Stray names of tables** are digits of text, and digits in another form than they are written. -/
theorem stray_iff : naming.Stray name ↔ ∃ bucket digits, bucket ≠ [] ∧ name.toList = '#' :: digits ∧
    lowerDigits digits = Text.Hex.digits bucket ∧
      (Unmarked bucket ∨ digits ≠ Text.Hex.digits bucket) := by
  constructor
  · rintro ⟨bucket, hdecode, hcode⟩
    obtain ⟨hname, hforms⟩ := decodeName_eq_ok.mp (decode_eq_some.mp hdecode)
    rw [Ne, code_eq_some hname, not_or] at hcode
    obtain ⟨digits, hdigits, hlower⟩ := hforms.resolve_left hcode.1
    refine ⟨bucket, digits, hname, hdigits, hlower, ?_⟩
    by_contra hneither
    obtain ⟨hmarked, hsame⟩ := not_or.mp hneither
    refine hcode.2 ⟨hmarked, ?_⟩
    rw [← String.ofList_toList (s := name), hdigits, not_not.mp hsame]
    rfl
  · rintro ⟨bucket, digits, hname, hdigits, hlower, hstray⟩
    refine ⟨bucket, ?_, ?_⟩
    · rw [decode_eq_some, decodeName_eq_ok]
      exact ⟨hname, .inr ⟨digits, hdigits, hlower⟩⟩
    · rw [Ne, code_eq_some hname]
      rintro (⟨hmark, -⟩ | ⟨hmarked, rfl⟩)
      · rw [hdigits] at hmark
        exact hmark rfl
      · rw [encodeName.marked, String.toList_ofList, List.cons.injEq] at hdigits
        exact (hstray.resolve_left hmarked) hdigits.2.symm

/-- What is neither stray nor the name of a bucket is reported. -/
theorem unreadable_of_not_stray (hstray : ¬naming.Stray name)
    (hnone : ∀ b, encodeName b ≠ .ok name) : decodeName name = .error (.unreadable name) := by
  have hunread := Naming.decode_of_not_stray hstray fun b hcode => hnone b (toOption_eq_some.mp hcode)
  obtain ⟨fault, hread⟩ := toOption_eq_none.mp hunread
  rw [hread, fault_of_decodeName hread]

end TableFile

/-! ### Creating and dropping -/

/-- A map by names was changed under the name of a bucket, or not at all. -/
inductive Naming.Touches {β : Type} (n : Naming) (native : KeyMap String β) : KeyMap String β → Prop
  | nothing : n.Touches native native
  | insert {b : Bytes} {name : String} (v : β) :
    n.code b = some name → n.Touches native (native.insert name v)
  | erase {b : Bytes} {name : String} :
    n.code b = some name → n.Touches native (native.erase name)

theorem Naming.Touches.foreign {β : Type} {n : Naming} {native native' : KeyMap String β}
    (h : n.Touches native native') {name : String} (hforeign : ∀ b, n.code b ≠ some name) :
    native'.contains name = native.contains name := by
  cases h with
  | nothing => rfl
  | @insert b name' v hcode =>
    have hname : name ≠ name' := fun hsame => hforeign b (hsame ▸ hcode)
    simp only [KeyMap.contains, KeyMap.get?_insert, if_neg hname]
  | @erase b name' hcode =>
    have hname : name ≠ name' := fun hsame => hforeign b (hsame ▸ hcode)
    simp only [KeyMap.contains, KeyMap.get?_erase, if_neg hname]

namespace Embedded

inductive BucketCall where
  | create (bucket : Bytes)
  | drop (bucket : Bytes)
deriving DecidableEq, Repr

namespace Engine

variable {σ : Type} (e : Engine σ)

/-- The store after the call, whatever it replied. -/
def afterCall (s : σ) : BucketCall → σ
  | .create b => (e.driver.create b s).state
  | .drop b => (e.driver.drop b s).state

def after (s : σ) (calls : List BucketCall) : σ := calls.foldl e.afterCall s

/-- Creating the bucket is refused because it exists. -/
def Refuses (s : σ) (b : Bytes) : Prop :=
  ∃ f, (e.driver.create b s).reply = .error f ∧ f.kind = .alreadyExists

/-- The names of buckets that are listed are those of the buckets that exist, each once. -/
def ListsExactly (s : σ) : Prop :=
  ∃ names, (e.bucketNames s).reply = .ok names ∧ names.Nodup ∧ ∀ b, b ∈ names ↔ e.Refuses s b

end Engine

/-- On stores with `I`, the engine keeps buckets under names, in a map that may have other names as
    well, and creating and dropping buckets leaves alone what is kept under those. -/
structure KeepsByName {σ β : Type} (e : Engine σ) (n : Naming) (native : σ → KeyMap String β)
    (I : σ → Prop) : Prop where
  listed : ∀ {s}, I s → ∃ names, (e.bucketNames s).reply = .ok names ∧
    names.Perm ((native s).keys.filterMap n.decode)
  refuses : ∀ {s b}, I s →
    (e.Refuses s b ↔ ∃ name, n.code b = some name ∧ (native s).contains name = true)
  call : ∀ {s} c, I s → I (e.afterCall s c) ∧ n.Touches (native s) (native (e.afterCall s c))

namespace KeepsByName

variable {σ β : Type} {e : Engine σ} {n : Naming} {native : σ → KeyMap String β} {I : σ → Prop} {s : σ}

/-- However many buckets are created and dropped, the other names stay. -/
theorem foreign_after (h : KeepsByName e n native I) (hs : I s) (calls : List BucketCall) :
    I (e.after s calls) ∧ ∀ name, (∀ b, n.code b ≠ some name) →
      (native (e.after s calls)).contains name = (native s).contains name := by
  induction calls generalizing s with
  | nil => exact ⟨hs, fun _ _ => rfl⟩
  | cons c rest ih =>
    obtain ⟨hs', htouches⟩ := h.call c hs
    obtain ⟨hrest, hforeign⟩ := ih hs'
    exact ⟨hrest, fun name hname => (hforeign name hname).trans (htouches.foreign hname)⟩

theorem listsExactly_iff (h : KeepsByName e n native I) (hs : I s) :
    e.ListsExactly s ↔ ∀ name ∈ (native s).keys, ¬n.Stray name := by
  obtain ⟨names, hreply, hperm⟩ := h.listed hs
  rw [← Naming.names_exact_iff, ← hperm.nodup_iff]
  simp only [← hperm.mem_iff, ← h.refuses hs]
  constructor
  · rintro ⟨names', hreply', hexact⟩
    rw [hreply, Except.ok.injEq] at hreply'
    exact hreply' ▸ hexact
  · exact fun hexact => ⟨names, hreply, hexact⟩

/-- Whether the list is exact is settled by the stray names that were there at first. -/
theorem listsExactly_after_iff (h : KeepsByName e n native I) (hs : I s) (calls : List BucketCall) :
    e.ListsExactly (e.after s calls) ↔ ∀ name ∈ (native s).keys, ¬n.Stray name := by
  obtain ⟨hs', hforeign⟩ := h.foreign_after hs calls
  rw [h.listsExactly_iff hs']
  -- No bucket is kept under a stray name, so none comes or goes.
  have hthere : ∀ name, n.Stray name →
      (name ∈ (native (e.after s calls)).keys ↔ name ∈ (native s).keys) := by
    intro name hstray
    rw [KeyMap.mem_keys, KeyMap.mem_keys, hforeign name hstray.code_ne]
  constructor
  · exact fun hnone name hname hstray => hnone name ((hthere name hstray).mpr hname) hstray
  · exact fun hnone name hname hstray => hnone name ((hthere name hstray).mp hname) hstray

end KeepsByName

end Embedded

namespace Keyspace

variable {s : Store} {bucket : Bytes} {name : String}

/-- A bucket that has no partition's name is refused for its own. -/
theorem create_unnamed (hopen : s.closed = false) (hcode : naming.code bucket = none) :
    ∃ f, (create bucket s).reply = .error f ∧ f.kind = .invalid ∧ (create bucket s).state = s := by
  unfold create
  rw [Action.bind_of_ok (opened_run hopen)]
  cases bucket with
  | nil => exact ⟨_, rfl, rfl, rfl⟩
  | cons b rest =>
    change ∃ f, ((partitionName (b :: rest) >>= _ : Action Store Unit) s).reply = _ ∧ _ ∧
      ((partitionName (b :: rest) >>= _ : Action Store Unit) s).state = s
    obtain ⟨fault, hfailed⟩ := partitionName_failed (s := s) hcode
    rw [Action.bind_of_error hfailed]
    exact ⟨_, rfl, rfl, rfl⟩

theorem create_named (hopen : s.closed = false) (hcode : naming.code bucket = some name) :
    ((create bucket s).reply = if s.partitions.contains name = true then
        .error (.bucketExists bucket) else .ok ()) ∧
      (create bucket s).state = if s.partitions.contains name = true then s
        else (s.withPartition name {}).withHandle bucket name := by
  unfold create
  rw [Action.bind_of_ok (opened_run hopen)]
  cases bucket with
  | nil => cases hcode
  | cons b rest =>
    change ((partitionName (b :: rest) >>= _ : Action Store Unit) s).reply = _ ∧
      ((partitionName (b :: rest) >>= _ : Action Store Unit) s).state = _
    rw [Action.bind_of_ok (partitionName_run hcode), Action.state_bind]
    cases s.partitions.contains name with
    | true => exact ⟨rfl, rfl⟩
    | false => exact ⟨rfl, rfl⟩

/-- A handle that is found is the name of the bucket's partition. -/
theorem handle_found (bucket : Bytes) (hnoted : s.Noted) : (∃ f, handle bucket s = ⟨.error f, s, []⟩) ∨
    ∃ name s', handle bucket s = ⟨.ok name, s', []⟩ ∧ naming.code bucket = some name ∧
      s'.partitions = s.partitions ∧ s'.closed = s.closed := by
  cases hget : s.handles.get? bucket with
  | some name => exact .inr ⟨name, s, handle_noted hget, hnoted bucket name hget, rfl, rfl⟩
  | none =>
    cases hcode : naming.code bucket with
    | none => exact .inl (handle_unnamed hget hcode)
    | some name =>
      rw [handle_new hget hcode]
      split
      · exact .inr ⟨name, _, rfl, rfl, rfl, rfl⟩
      · exact .inl ⟨_, rfl⟩

theorem create_touches (bucket : Bytes) (hopen : s.closed = false) : (create bucket s).state.closed = false ∧
    naming.Touches s.partitions (create bucket s).state.partitions := by
  cases hcode : naming.code bucket with
  | none =>
    obtain ⟨-, -, -, hstate⟩ := create_unnamed hopen hcode
    rw [hstate]
    exact ⟨hopen, .nothing⟩
  | some name =>
    rw [(create_named hopen hcode).2]
    split
    · exact ⟨hopen, .nothing⟩
    · exact ⟨hopen, .insert {} hcode⟩

theorem drop_touches (bucket : Bytes) (hopen : s.closed = false) (hnoted : s.Noted) :
    (drop bucket s).state.closed = false ∧
      naming.Touches s.partitions (drop bucket s).state.partitions := by
  unfold drop
  rw [Action.bind_of_ok (opened_run hopen)]
  cases checkBucket bucket with
  | error f => exact ⟨hopen, .nothing⟩
  | ok _ =>
    change ((handle bucket >>= _ : Action Store Unit) s).state.closed = false ∧
      naming.Touches _ ((handle bucket >>= _ : Action Store Unit) s).state.partitions
    rcases handle_found bucket hnoted with
      ⟨f, hfailed⟩ | ⟨name, s', hfound, hcode, hpartitions, hclosed⟩
    · rw [Action.bind_of_error hfailed]
      exact ⟨hopen, .nothing⟩
    · rw [Action.bind_of_ok hfound, ← hpartitions]
      exact ⟨hclosed.trans hopen, .erase hcode⟩

/-- Partitions are kept by name. -/
theorem keepsByName (config : Config) :
    Embedded.KeepsByName (Embedded.keyspaceEngine config) naming Store.partitions
      fun s => s.Noted ∧ s.closed = false where
  listed := by
    rintro s ⟨-, hopen⟩
    refine ⟨_, (bucketNames_run hopen).1, ?_⟩
    rw [List.filterMap_reverse]
    exact List.reverse_perm _
  refuses := by
    rintro s b ⟨-, hopen⟩
    change (∃ f, (create b s).reply = .error f ∧ f.kind = .alreadyExists) ↔ _
    cases hcode : naming.code b with
    | none =>
      obtain ⟨f, hreply, hkind, -⟩ := create_unnamed hopen hcode
      simp [hreply, hkind]
    | some name =>
      rw [(create_named hopen hcode).1]
      cases hthere : s.partitions.contains name <;> simp [hthere, Failure.kind]
  call := by
    rintro s (b | b) ⟨hnoted, hopen⟩
    · obtain ⟨hopen', htouches⟩ := create_touches b hopen
      exact ⟨⟨keeps_create lasting_noted s hnoted, hopen'⟩, htouches⟩
    · obtain ⟨hopen', htouches⟩ := drop_touches b hopen hnoted
      exact ⟨⟨keeps_drop lasting_noted s hnoted, hopen'⟩, htouches⟩

end Keyspace

namespace TableFile

variable {file : File} {bucket : Bytes} {name : String}

theorem create_unnamed (file : File) (hcode : naming.code bucket = none) :
    ∃ f, (create bucket file).reply = .error f ∧ f.kind = .invalid ∧
      (create bucket file).state = file := by
  unfold create
  cases hcheck : checkBucket bucket with
  | error f =>
    refine ⟨f, rfl, ?_, rfl⟩
    cases bucket with
    | nil =>
      cases hcheck
      rfl
    | cons b rest => cases hcheck
  | ok _ =>
    obtain ⟨name, hname⟩ := code_of_check hcheck
    rw [hcode] at hname
    cases hname

theorem create_named (hopen : file.opened = true) (hcode : naming.code bucket = some name) :
    ((create bucket file).reply = if file.tables.contains name = true then
        .error (.bucketExists bucket) else .ok ()) ∧
      (create bucket file).state = if file.tables.contains name = true then file
        else file.withValues name {} := by
  unfold create
  cases bucket with
  | nil => cases hcode
  | cons b rest =>
    change ((tableName (b :: rest) >>= _ : Action File Unit) file).reply = _ ∧
      ((tableName (b :: rest) >>= _ : Action File Unit) file).state = _
    rw [tableName_bind hcode, Action.bind_of_ok (opened_run hopen), Action.state_bind]
    cases file.tables.contains name with
    | true => exact ⟨rfl, rfl⟩
    | false => exact ⟨rfl, rfl⟩

theorem create_touches (hopen : file.opened = true) : (create bucket file).state.opened = true ∧
    naming.Touches file.tables (create bucket file).state.tables := by
  cases hcode : naming.code bucket with
  | none =>
    obtain ⟨-, -, -, hstate⟩ := create_unnamed file hcode
    rw [hstate]
    exact ⟨hopen, .nothing⟩
  | some name =>
    rw [(create_named hopen hcode).2]
    split
    · exact ⟨hopen, .nothing⟩
    · exact ⟨hopen, .insert _ hcode⟩

theorem drop_touches (hopen : file.opened = true) : (drop bucket file).state.opened = true ∧
    naming.Touches file.tables (drop bucket file).state.tables := by
  unfold drop
  cases hcheck : checkBucket bucket with
  | error f => exact ⟨hopen, .nothing⟩
  | ok _ =>
    obtain ⟨name, hcode⟩ := code_of_check hcheck
    change ((tableName bucket >>= _ : Action File Unit) file).state.opened = true ∧
      naming.Touches _ ((tableName bucket >>= _ : Action File Unit) file).state.tables
    rw [tableName_bind hcode, Action.bind_of_ok (opened_run hopen), Action.state_bind]
    cases file.tables.contains name with
    | true => exact ⟨hopen, .erase hcode⟩
    | false => exact ⟨hopen, .nothing⟩

/-- Tables are kept by name, those of another type as well. -/
theorem keepsByName (config : Config) :
    Embedded.KeepsByName (Embedded.fileEngine config) naming File.tables
      fun file => file.opened = true where
  listed hopen := ⟨_, (bucketNames_run hopen).1, .rfl⟩
  refuses := by
    intro file b hopen
    change (∃ f, (create b file).reply = .error f ∧ f.kind = .alreadyExists) ↔ _
    cases hcode : naming.code b with
    | none =>
      obtain ⟨f, hreply, hkind, -⟩ := create_unnamed file hcode
      simp [hreply, hkind]
    | some name =>
      rw [(create_named hopen hcode).1]
      cases hthere : file.tables.contains name <;> simp [hthere, Failure.kind]
  call := by
    rintro file (b | b) hopen
    · exact create_touches hopen
    · exact drop_touches hopen

end TableFile

/-! ### Exact lists -/

open Embedded in
/-- **Bucket names are listed exactly unless there are stray names.** Whatever partitions or tables a
    store has when the driver uses it, after any buckets have been created and dropped the names that
    are listed are those of the buckets that exist, each once, if and only if none of the native names
    at first was stray. Stray are the digits of buckets that have their own text for a name, digits in
    another form than they are written, and names of partitions that are too long. What is neither
    stray nor the name of a bucket is reported. -/
theorem bucketNames_exact_iff (config : Keyspace.Config) {s : Keyspace.Store}
    (hreached : Keyspace.Reached s) (hopen : s.closed = false) (fileConfig : TableFile.Config)
    {file : TableFile.File} (hfile : file.opened = true) (calls : List BucketCall) (name : String) :
    ((keyspaceEngine config).ListsExactly ((keyspaceEngine config).after s calls) ↔
      ∀ native ∈ s.partitions.keys, ¬Keyspace.naming.Stray native) ∧
    ((fileEngine fileConfig).ListsExactly ((fileEngine fileConfig).after file calls) ↔
      ∀ native ∈ file.tables.keys, ¬TableFile.naming.Stray native) ∧
    (Keyspace.naming.Stray name ↔ ∃ bucket, bucket ≠ [] ∧
      (bucket.all Keyspace.isPlain = true ∧ name = String.ofList ('#' :: Text.Hex.digits bucket) ∨
        ¬Keyspace.Fits bucket ∧ name = String.ofList (Keyspace.nameChars bucket))) ∧
    (TableFile.naming.Stray name ↔ ∃ bucket digits, bucket ≠ [] ∧
      name.toList = '#' :: digits ∧ TableFile.lowerDigits digits = Text.Hex.digits bucket ∧
        (TableFile.Unmarked bucket ∨ digits ≠ Text.Hex.digits bucket)) ∧
    (¬Keyspace.naming.Stray name → (∀ b, Keyspace.encodeName b ≠ .ok name) →
      Keyspace.decodeName name = .error (.unreadable name)) ∧
    (¬TableFile.naming.Stray name → (∀ b, TableFile.encodeName b ≠ .ok name) →
      TableFile.decodeName name = .error (.unreadable name)) := by
  refine ⟨?_, ?_, Keyspace.stray_iff, TableFile.stray_iff, Keyspace.unreadable_of_not_stray,
    TableFile.unreadable_of_not_stray⟩
  · exact (Keyspace.keepsByName config).listsExactly_after_iff
      ⟨Keyspace.noted_of_reached hreached, hopen⟩ calls
  · exact (TableFile.keepsByName fileConfig).listsExactly_after_iff hfile calls

namespace Embedded

/-- A keyspace just opened, with partitions of such names. -/
def keyspaceOf (names : List String) : Keyspace.Store :=
  { partitions := names.foldl (fun m name => m.insert name {}) {} }

/-- An open file with a table of values under each name. -/
def fileOf (names : List String) : TableFile.File :=
  { tables := names.foldl (fun m name => m.insert name (.values {})) {}, opened := true }

theorem reached_keyspaceOf (names : List String) : Keyspace.Reached (keyspaceOf names) :=
  @Keyspace.Reached.opened { path? := some "kv" } (keyspaceOf names) rfl

end Embedded

open Embedded in
theorem bucketNames_exact_iff_shared :
    (keyspaceEngine {}).ListsExactly
      ((keyspaceEngine {}).after (keyspaceOf ["$x", "ok"]) [.create [0x2E], .drop [0x6F, 0x6B]]) ∧
    (fileEngine { path := "kv" }).ListsExactly
      ((fileEngine { path := "kv" }).after (fileOf ["#zz", "ok"]) [.create [0x2E], .drop [0x6F, 0x6B]]) ∧
    Keyspace.decodeName "$x" = .error (.unreadable "$x") ∧
    ¬(keyspaceEngine {}).ListsExactly ((keyspaceEngine {}).after (keyspaceOf ["#61"]) [.create [0x61]]) ∧
    ¬(fileEngine { path := "kv" }).ListsExactly
      ((fileEngine { path := "kv" }).after (fileOf ["#+1"]) [.create [0x61]]) ∧
    TableFile.decodeName "#zz" = .error (.unreadable "#zz") := by
  obtain ⟨hkeyspace, hfile, -, -, hpartition, -⟩ := bucketNames_exact_iff {}
    (reached_keyspaceOf ["$x", "ok"]) rfl { path := "kv" }
    (rfl : (fileOf ["#zz", "ok"]).opened = true) [.create [0x2E], .drop [0x6F, 0x6B]] "$x"
  obtain ⟨hkeyspace', hfile', -, -, -, htable⟩ := bucketNames_exact_iff {}
    (reached_keyspaceOf ["#61"]) rfl { path := "kv" }
    (rfl : (fileOf ["#+1"]).opened = true) [.create [0x61]] "#zz"
  refine ⟨hkeyspace.mpr (by decide), hfile.mpr (by decide), hpartition (by decide) ?_, ?_, ?_,
    htable (by decide) ?_⟩
  · exact fun b hb => nomatch Keyspace.decodeName_of_encodeName hb
  · rw [hkeyspace']
    decide
  · rw [hfile']
    decide
  · exact fun b hb => nomatch TableFile.decodeName_of_encodeName hb

open Embedded in
/-- A partition or table called by the digits of `a` is listed as a bucket that does not exist, and
    the bucket is listed twice once it exists. -/
theorem bucketNames_lists_digits :
    Keyspace.Reached (keyspaceOf ["#61"]) ∧
    ¬(keyspaceEngine {}).ListsExactly (keyspaceOf ["#61"]) ∧
    (Keyspace.bucketNames (keyspaceOf ["#61"])).reply = .ok [[0x61]] ∧
    (Keyspace.create [0x61] (keyspaceOf ["#61"])).reply = .ok () ∧
    (Keyspace.bucketNames (Keyspace.create [0x61] (keyspaceOf ["#61"])).state).reply =
      .ok [[0x61], [0x61]] ∧
    ¬(fileEngine { path := "kv" }).ListsExactly (fileOf ["#61"]) ∧
    (TableFile.bucketNames (fileOf ["#61"])).reply = .ok [[0x61]] ∧
    (TableFile.create [0x61] (fileOf ["#61"])).reply = .ok () ∧
    (TableFile.bucketNames (TableFile.create [0x61] (fileOf ["#61"])).state).reply =
      .ok [[0x61], [0x61]] := by
  refine ⟨reached_keyspaceOf _, ?_, rfl, rfl, rfl, ?_, rfl, rfl, rfl⟩
  · rintro ⟨names, hreply, -, hexact⟩
    cases hreply
    obtain ⟨f, hrefused, -⟩ := (hexact [0x61]).mp (List.mem_singleton.mpr rfl)
    cases hrefused
  · rintro ⟨names, hreply, -, hexact⟩
    cases hreply
    obtain ⟨f, hrefused, -⟩ := (hexact [0x61]).mp (List.mem_singleton.mpr rfl)
    cases hrefused

end BucketStore
