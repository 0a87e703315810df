/-
  BucketStore/Proofs/Sql/Calls.lean
  =================================
  **On a documented SQL server, calls are answered as in memory.**

  A client mirrors a store in memory (`Mirrors`) if it rests and if the tables of its
  server keep the buckets, and nothing else.  Each call is followed through its
  statements and ends with what the call in memory answers, up to the words of
  failures, and with a client that mirrors what is left there.
-/
import BucketStore.Proofs.Embedding
import BucketStore.Proofs.Sql.Conversation

namespace BucketStore.Sql

open Program Protocol
open Step (Matches)

variable {d : Dialect} {c : Client Server} {m : Memory.Store} {version : String} {table : Table}
  {tables saved : Tables} {bucket key b k : Bytes} {α : Type}

/-! ### Names of tables -/

/-- The bucket's name is an identifier that is not too long. -/
def Dialect.Admits (d : Dialect) (bucket : Bytes) : Prop :=
  isIdentifier bucket = true ∧ bucket.length ≤ d.maxIdentifier

instance (d : Dialect) : DecidablePred d.Admits := fun _ => inferInstanceAs (Decidable (_ ∧ _))

theorem checkBucket_of_admits (h : d.Admits bucket) : checkBucket bucket = .ok () := by
  cases bucket with
  | nil => cases h.1
  | cons _ _ => rfl

theorem table_of_admits (h : d.Admits bucket) : ∃ table, d.table bucket = .ok table := by
  have hname : bucket.isEmpty = false := by
    cases bucket with
    | nil => cases h.1
    | cons _ _ => rfl
  refine ⟨⟨bucket, h.1⟩, ?_⟩
  unfold Dialect.table
  rw [hname, if_neg (by decide), if_neg (Nat.not_lt.mpr h.2), dif_pos h.1]

/-- A table is of the bucket that it is asked for. -/
theorem bytes_of_table (h : d.table bucket = .ok table) : table.bytes = bucket := by
  unfold Dialect.table at h
  split at h
  · cases h
  split at h
  · cases h
  split at h
  · cases h
    rfl
  · cases h

/-- Buckets under the names of their tables. -/
def tableNaming (d : Dialect) : Naming where
  code bucket := (d.table bucket).toOption.map Table.name
  decode name := some (Bytes.ofString name)
  decode_code bucket name h := by
    obtain ⟨table, htable, rfl⟩ := Option.map_eq_some_iff.mp h
    rw [table.ofString_name, bytes_of_table (toOption_eq_some.mp htable)]

theorem code_of_table (h : d.table bucket = .ok table) :
    (tableNaming d).code bucket = some table.name := by
  change (d.table bucket).toOption.map Table.name = _
  rw [h]
  rfl

/-- A bucket that is kept has a table. -/
theorem table_of_code {name : String} (h : (tableNaming d).code bucket = some name) :
    ∃ table, d.table bucket = .ok table ∧ table.name = name := by
  obtain ⟨table, htable, hname⟩ := Option.map_eq_some_iff.mp h
  exact ⟨table, toOption_eq_some.mp htable, hname⟩

theorem tableOf_eq (h : d.table bucket = .ok table) : tableOf d bucket = .done table := by
  unfold tableOf
  rw [h]
  rfl

/-- A bucket that may be named is looked for in its table. -/
theorem named_bind (hadmits : d.Admits bucket) (htable : d.table bucket = .ok table)
    (next : Table → Protocol α) :
    (Program.check (checkBucket bucket) >>= fun _ => tableOf d bucket >>= next) = next table := by
  rw [checkBucket_of_admits hadmits, tableOf_eq htable]
  rfl

/-! ### Mirrored stores -/

/-- The client rests, and the tables of its server hold what the store in memory holds. -/
structure Mirrors (d : Dialect) (c : Client Server) (m : Memory.Store) : Prop where
  memoryOpened : m.closed = false
  rests : ∃ version, c = resting version c.server.tables
  keeps : (tableNaming d).Keeps id c.server.tables m.buckets

theorem mirrors_resting (version : String) (hopen : m.closed = false)
    (hkeeps : (tableNaming d).Keeps id tables m.buckets) : Mirrors d (resting version tables) m :=
  ⟨hopen, ⟨version, rfl⟩, hkeeps⟩

/-- The outcome is that of a step in memory. -/
def Agrees (d : Dialect) (y : Step Memory.Store (Except Failure α)) (r : Except Failure α)
    (c : Client Server) : Prop := Matches SameKind Eq (Mirrors d) ⟨r, c, []⟩ y

/-- Failures may be reworded within their kind. -/
theorem Agrees.reworded {y : Step Memory.Store (Except Failure α)} {r : Except Failure α}
    {reword : Failure → Failure} (h : Agrees d y r c) (hreword : ∀ f, (reword f).kind = f.kind) :
    Agrees d y (r.mapError reword) c :=
  ⟨h.reply.mapError_left fun f _ hkind => (hreword f).trans hkind, h.state⟩

section

variable (hkeeps : (tableNaming d).Keeps id tables m.buckets) (htable : d.table bucket = .ok table)
include hkeeps htable

theorem table_found : tables.get? table.name = m.buckets.get? bucket := by
  rw [hkeeps.stored bucket table.name (code_of_table htable), Option.map_id_fun, id]

theorem mirrors_withTable (version : String) (hopen : m.closed = false) (values : Memory.Bucket) :
    Mirrors d (resting version (tables.insert table.name values)) (m.withBucket bucket values) :=
  mirrors_resting version hopen (hkeeps.insert (code_of_table htable) values)

end

/-! ### Calls on a bucket -/

section

variable (hopen : m.closed = false) (hkeeps : (tableNaming d).Keeps id tables m.buckets)
  (hadmits : d.Admits bucket)
include hopen hkeeps hadmits

theorem create_agrees : (create d bucket).Ensures (talking d) (resting version tables)
    (Agrees d (Memory.create bucket m)) := by
  obtain ⟨table, htable⟩ := table_of_admits hadmits
  have hfound := table_found hkeeps htable
  have hfits : TableStatement.create.Fits d := trivial
  rw [Memory.create_run hopen, checkBucket_of_admits hadmits]
  unfold create
  rw [named_bind hadmits htable]
  cases hbucket : m.buckets.get? bucket with
  | none =>
    rw [hbucket] at hfound
    rw [KeyMap.contains_eq_false.mpr hbucket]
    have hmeaning : TableStatement.create.meaning (tables.get? table.name) = .ok ([], some {}) := by
      rw [hfound]
      rfl
    apply (resting_tryExecute hfits hmeaning).then
    rintro _ rfl
    exact ⟨.answers rfl, mirrors_withTable hkeeps htable version hopen {}⟩
  | some found =>
    rw [hbucket] at hfound
    rw [KeyMap.contains_eq_true.mpr ⟨found, hbucket⟩]
    have hmeaning : TableStatement.create.meaning
        ((resting version tables).server.tables.get? table.name) = .error .tableExists := by
      change TableStatement.create.meaning (tables.get? table.name) = _
      rw [hfound]
      rfl
    refine ensures_bind.mpr (ensures_refused rfl (ready_resting hfits) hmeaning nofun ?_)
    intro fault hclass
    apply ensures_done.mpr
    dsimp only
    rw [hclass]
    exact ⟨.fails rfl, mirrors_resting version hopen hkeeps⟩

theorem drop_agrees : (drop d bucket).Ensures (talking d) (resting version tables)
    (Agrees d (Memory.drop bucket m)) := by
  obtain ⟨table, htable⟩ := table_of_admits hadmits
  have hfound := table_found hkeeps htable
  have hfits : TableStatement.drop.Fits d := trivial
  rw [Memory.drop_run hopen, checkBucket_of_admits hadmits]
  unfold drop
  rw [named_bind hadmits htable]
  cases hbucket : m.buckets.get? bucket with
  | none =>
    rw [hbucket] at hfound
    rw [KeyMap.contains_eq_false.mpr hbucket, ensures_bind, ensures_noteFailure]
    apply ensures_perform_missing (c := resting version tables) rfl (ready_resting hfits) nofun hfound
    exact ⟨.fails rfl, mirrors_resting version hopen hkeeps⟩
  | some found =>
    rw [hbucket] at hfound
    rw [KeyMap.contains_eq_true.mpr ⟨found, hbucket⟩]
    have hmeaning : TableStatement.drop.meaning (tables.get? table.name) = .ok ([], none) := by
      rw [hfound]
      rfl
    apply ((resting_perform hfits hmeaning).noteFailure _).then
    rintro _ rfl
    exact ⟨.answers rfl, mirrors_resting version hopen (hkeeps.erase (code_of_table htable))⟩

end

/-! ### Calls on a key -/

section

variable (hopen : m.closed = false) (hkeeps : (tableNaming d).Keeps id tables m.buckets)
  (hadmits : d.Admits bucket)
include hopen hkeeps hadmits

/-- One statement about a key is refused for its name, or for its bucket, as in memory, or it is
    answered from the bucket's table. -/
theorem onKey_agrees {action : String} {t : TableStatement} {next : List Row → Protocol α}
    {next' : Memory.Bucket → Action Memory.Store α} (hfits : t.Fits d) (ht : t ≠ .create)
    (hfound : ∀ table found, d.table bucket = .ok table → m.buckets.get? bucket = some found →
      ∃ rows after, t.meaning (some found) = .ok (rows, after) ∧
        (next rows).Ensures (talking d) (resting version (tables.put table.name after))
          (Agrees d (next' found m))) :
    (onKey d action bucket key t >>= next).Ensures (talking d) (resting version tables)
      (Agrees d ((Memory.bucketOf bucket key >>= next') m)) := by
  obtain ⟨table, htable⟩ := table_of_admits hadmits
  have hsame := table_found hkeeps htable
  have hmirrors := mirrors_resting version hopen hkeeps
  rw [Memory.bucketOf_bind_run hopen]
  unfold onKey
  rw [ensures_bind, ensures_bind, ensures_check]
  cases hcheck : checkKey bucket key with
  | error f => exact ⟨.fails rfl, hmirrors⟩
  | ok _ =>
    dsimp only
    rw [tableOf_eq htable, Action.bind_run, Memory.bucket_run]
    change (naming action bucket key (execute (·.bucketFailure d bucket) (.on table t))).Ensures _ _ _
    cases hbucket : m.buckets.get? bucket with
    | none =>
      rw [hbucket] at hsame
      unfold naming
      rw [ensures_mapFailure, ensures_noteFailure]
      apply ensures_execute_missing (c := resting version tables) rfl (ready_resting hfits) ht hsame
      exact ⟨.fails rfl, hmirrors⟩
    | some found =>
      rw [hbucket] at hsame
      obtain ⟨rows, after, hmeaning, hnext⟩ := hfound table found htable hbucket
      rw [← hsame] at hmeaning
      have hanswered : (naming action bucket key (execute (·.bucketFailure d bucket)
          (.on table t))).Yields (talking d) (resting version tables) rows
            (· = resting version (tables.put table.name after)) :=
        ((resting_execute hfits hmeaning).noteFailure _).mapFailure _
      apply Ensures.mono hanswered
      rintro _ _ ⟨rfl, rfl⟩
      exact hnext

theorem get_agrees : (get d bucket key).Ensures (talking d) (resting version tables)
    (Agrees d (Memory.get bucket key m)) := by
  refine onKey_agrees hopen hkeeps hadmits trivial nofun ?_
  intro table found htable hbucket
  refine ⟨_, _, rfl, ?_⟩
  have hfound := (table_found hkeeps htable).trans hbucket
  rw [← hfound, KeyMap.put_get?, readValue_rows]
  cases found.get? key with
  | none => exact ⟨.fails rfl, mirrors_resting version hopen hkeeps⟩
  | some value => exact ⟨.answers rfl, mirrors_resting version hopen hkeeps⟩

theorem set_agrees (hkey : d.AdmitsKey key) (value : Bytes) :
    (set d bucket key value).Ensures (talking d) (resting version tables)
      (Agrees d (Memory.put bucket key (some value) m)) := by
  refine onKey_agrees hopen hkeeps hadmits (t := .upsert key value) hkey nofun ?_
  intro table found htable _
  refine ⟨_, _, rfl, ?_⟩
  exact ⟨.answers rfl, mirrors_withTable hkeeps htable version hopen (found.insert key value)⟩

theorem delete_agrees : (delete d bucket key).Ensures (talking d) (resting version tables)
    (Agrees d (Memory.put bucket key none m)) := by
  refine onKey_agrees hopen hkeeps hadmits (t := .delete key) trivial nofun ?_
  intro table found htable _
  refine ⟨_, _, rfl, ?_⟩
  exact ⟨.answers rfl, mirrors_withTable hkeeps htable version hopen (found.erase key)⟩

end

/-! ### Compare-and-swap -/

section

variable (hopen : m.closed = false) (hkeeps : (tableNaming d).Keeps id tables m.buckets)
include hopen hkeeps

/-- A transaction that fails is rolled back. -/
theorem transaction_fails {p : Protocol α} {f g : Failure} (hkind : SameKind f g)
    (hp : p.Ensures (talking d) (resting version tables) fun r c =>
      r = .error f ∧ Begun version tables c) :
    (transaction p).Ensures (talking d) (resting version tables) (Agrees d ⟨.error g, m, []⟩) := by
  refine ensures_transaction (hp.mono ?_)
  rintro _ c ⟨rfl, hbegun⟩
  exact ⟨hbegun, .fails hkind, mirrors_resting version hopen hkeeps⟩

omit hopen hkeeps in
/-- A transaction that answers agrees. -/
theorem transaction_answers {p : Protocol α} {a : α} {m' : Memory.Store}
    (hp : p.Yields (talking d) (resting version tables) a fun c => Mirrors d c m') :
    (transaction p).Ensures (talking d) (resting version tables) (Agrees d ⟨.ok a, m', []⟩) := by
  refine Ensures.mono (yields_transaction hp) ?_
  rintro _ c ⟨rfl, hmirrors⟩
  exact ⟨.answers rfl, hmirrors⟩

variable (htable : d.table bucket = .ok table) (new : Bytes)
include htable

/-- A key that is expected to be absent is claimed, or is found to have a value, as in memory. -/
theorem claimKey_agrees (hkey : d.AdmitsKey key) :
    (transaction (claimKey d bucket table key new)).Ensures (talking d)
      (resting version tables) (Agrees d ((do
        let values ← Memory.bucket bucket
        let result := Swap.evaluate (values.get? key) none
        if result.swapped then .change fun m => m.withBucket bucket (values.insert key new)
        return result : Action Memory.Store Swap) m)) := by
  have hmirrors := mirrors_resting version hopen hkeeps
  have hsame := table_found hkeeps htable
  have hfits : (TableStatement.insert key new).Fits d := hkey
  rw [Action.bind_run, Memory.bucket_run]
  cases hbucket : m.buckets.get? bucket with
  | none =>
    rw [hbucket] at hsame
    apply transaction_fails hopen hkeeps rfl
    unfold claimKey
    refine yields_begin.then fun c hbegun => ensures_bind.mpr ?_
    have hmeaning : (TableStatement.insert key new).meaning (c.server.tables.get? table.name) =
        .error .missingTable := by
      rw [hbegun.tables, hsame]
      rfl
    refine ensures_refused hbegun.opened (hbegun.ready hfits id) hmeaning (by decide) ?_
    intro fault hclass
    change (if fault.codeClass d = .duplicateKey then _ else
      Program.fail (fault.bucketFailure d bucket) : Protocol Swap).Ensures _ _ _
    rw [if_neg (by rw [hclass]; decide)]
    dsimp only [Fault.bucketFailure]
    rw [hclass]
    exact ⟨rfl, hbegun.refused⟩
  | some found =>
    rw [hbucket] at hsame
    dsimp only
    rw [Memory.swap_run]
    apply transaction_answers
    unfold claimKey
    refine yields_begin.then fun c hbegun => ?_
    cases hfound : found.get? key with
    | none =>
      have hmeaning : (TableStatement.insert key new).meaning (tables.get? table.name) =
          .ok ([], some (found.insert key new)) := by
        rw [hsame]
        simp only [TableStatement.meaning, KeyMap.contains, hfound, Option.isSome_none,
          Bool.false_eq_true, if_false]
      refine (hbegun.tryExecute hmeaning hfits id).then fun c' hinserted => ?_
      refine hinserted.commit.then ?_
      rintro _ rfl
      exact ⟨rfl, mirrors_withTable hkeeps htable version hopen (found.insert key new)⟩
    | some value =>
      -- The refused insert is rolled back, and the value is read outside of the transaction.
      have hmeaning : (TableStatement.insert key new).meaning (c.server.tables.get? table.name) =
          .error .duplicateKey := by
        rw [hbegun.tables, hsame]
        simp only [TableStatement.meaning, KeyMap.contains, hfound, Option.isSome_some, if_true]
      have hread : (TableStatement.select false key).meaning (tables.get? table.name) =
          .ok ((found.get? key).toList.map fun value => [some value], some found) := by
        rw [hsame]
        rfl
      refine ensures_bind.mpr
        (ensures_refused hbegun.opened (hbegun.ready hfits id) hmeaning (by decide) ?_)
      intro fault hclass
      change (if fault.codeClass d = .duplicateKey then _ else _ : Protocol Swap).Ensures _ _ _
      rw [if_pos hclass]
      refine hbegun.refused.rollback.then ?_
      rintro _ rfl
      have hselect : (TableStatement.select false key).Fits d := trivial
      refine (resting_execute hselect hread).then ?_
      rintro _ rfl
      rw [readValue_rows, ← hsame, KeyMap.put_get?, hfound]
      exact ⟨rfl, hmirrors⟩

theorem replaceValue_agrees (old : Bytes) :
    (transaction (replaceValue d bucket table key old new)).Ensures (talking d)
      (resting version tables) (Agrees d ((do
        let values ← Memory.bucket bucket
        let result := Swap.evaluate (values.get? key) (some old)
        if result.swapped then .change fun m => m.withBucket bucket (values.insert key new)
        return result : Action Memory.Store Swap) m)) := by
  have hmirrors := mirrors_resting version hopen hkeeps
  have hsame := table_found hkeeps htable
  rw [Action.bind_run, Memory.bucket_run]
  cases hbucket : m.buckets.get? bucket with
  | none =>
    rw [hbucket] at hsame
    apply transaction_fails hopen hkeeps rfl
    unfold replaceValue
    refine yields_begin.then fun c hbegun => ensures_bind.mpr ?_
    exact hbegun.missing (t := .select true key) trivial id hsame fun c' hc' => ⟨rfl, hc'⟩
  | some found =>
    rw [hbucket] at hsame
    have hread : (TableStatement.select true key).meaning (tables.get? table.name) =
        .ok ((found.get? key).toList.map fun value => [some value], tables.get? table.name) := by
      rw [hsame]
      rfl
    dsimp only
    rw [Memory.swap_run]
    apply transaction_answers
    unfold replaceValue
    refine yields_begin.then fun c hbegun => ?_
    refine (hbegun.execute hread trivial id).then fun c' hlocked => ?_
    rw [KeyMap.put_get?] at hlocked
    rw [readValue_rows]
    change (if (found.get? key == some old) = true then
        Protocol.perform _ (.on table (.updateValue key new)) >>= fun _ => commit d >>= fun _ => pure _
      else commit d >>= fun _ => pure _ : Protocol Swap).Ensures _ _ _
    cases hswap : found.get? key == some old with
    | false =>
      refine hlocked.commit.then ?_
      rintro _ rfl
      exact ⟨congrArg (fun swapped => Except.ok (Swap.mk _ swapped)) hswap, hmirrors⟩
    | true =>
      have hvalue := beq_iff_eq.mp hswap
      have hmeaning : (TableStatement.updateValue key new).meaning (tables.get? table.name) =
          .ok ([], some (found.insert key new)) := by
        rw [hsame]
        simp only [TableStatement.meaning, KeyMap.contains, hvalue, Option.isSome_some, if_true]
      rw [if_pos rfl]
      refine (hlocked.perform hmeaning trivial id).then fun c'' hwritten => ?_
      refine hwritten.commit.then ?_
      rintro _ rfl
      exact ⟨congrArg (fun swapped => Except.ok (Swap.mk _ swapped)) hswap,
        mirrors_withTable hkeeps htable version hopen (found.insert key new)⟩

end

theorem compareAndSwap_agrees (hopen : m.closed = false)
    (hkeeps : (tableNaming d).Keeps id tables m.buckets) (hadmits : d.Admits bucket)
    (hkey : d.AdmitsKey key) (old : Option Bytes) (new : Bytes) :
    (compareAndSwap d bucket key old new).Ensures (talking d) (resting version tables)
      (Agrees d (Memory.compareAndSwap bucket key old new m)) := by
  obtain ⟨table, htable⟩ := table_of_admits hadmits
  unfold Memory.compareAndSwap compareAndSwap
  rw [Memory.bucketOf_bind_run hopen, ensures_bind, ensures_check, tableOf_eq htable]
  cases hcheck : checkKey bucket key with
  | error f => exact ⟨.fails rfl, mirrors_resting version hopen hkeeps⟩
  | ok _ =>
    change (naming _ bucket key _).Ensures (talking d) _ _
    unfold naming
    rw [ensures_mapFailure, ensures_noteFailure]
    cases old with
    | none =>
      apply (claimKey_agrees hopen hkeeps htable new hkey).mono
      exact fun _ _ hagrees => hagrees.reworded fun _ => rfl
    | some old =>
      apply (replaceValue_agrees hopen hkeeps htable new old).mono
      exact fun _ _ hagrees => hagrees.reworded fun _ => rfl

end BucketStore.Sql
