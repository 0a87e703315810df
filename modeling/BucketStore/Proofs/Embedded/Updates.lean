/-
  BucketStore/Proofs/Embedded/Updates.lean
  ========================================
  **An update is done as a whole, or it fails and nothing is done.**

  In memory, on a keyspace and on a table file alike, an update that answers leaves
  the buckets as its operations leave them one after the other; an update that fails
  leaves the buckets, and everything else that the engine keeps, as they were
  (`updates_whole`).  The engine may hold anything: partitions and tables under names
  of no bucket, and tables of another type under names of buckets.

  An update is evaluated first and published then, and publishing looks every bucket
  up once more.  It finds them all: what evaluation has loaded is still there
  (`Publishes`).

  Every keyspace and every file shows a store in memory (`Naming.Shows`), on which the
  update goes alike; so the whole comes down to the update in memory.
-/
import BucketStore.Proofs.Keyspace.Handles
import BucketStore.Proofs.TableFile.Calls

namespace BucketStore

open Step (Matches)

/-! ### Buckets -/

/-- The buckets that there are, each with what is in it. -/
abbrev Buckets := Bytes → Option (KeyMap Bytes Bytes)

def Buckets.values (B : Buckets) : Places Bytes := fun b k => (B b).bind (·.get? k)

def Memory.Store.shown (m : Memory.Store) : Buckets := fun b => m.buckets.get? b

def Keyspace.Store.shown (s : Keyspace.Store) : Buckets := Keyspace.naming.seen some s.partitions

/-- The values of a table of values. -/
def TableFile.Table.values? : TableFile.Table → Option (KeyMap Bytes Bytes)
  | .values found => some found
  | .other _ => none

def TableFile.File.shown (file : TableFile.File) : Buckets :=
  TableFile.naming.seen TableFile.Table.values? file.tables

namespace Embedded

variable {tx : Transaction} {m : Memory.Store} {before after : Buckets}
  {reply : Except Failure TxOutcome} {isOpen : Prop}

/-! ### All or nothing -/

/-- An update that finds the buckets `before` and leaves the buckets `after` replies so, that all or
    nothing is done; and it answers if the driver is open and nothing stands against it. -/
structure Wholly (tx : Transaction) (isOpen : Prop) (before after : Buckets)
    (reply : Except Failure TxOutcome) : Prop where
  done : ∀ outcome, reply = .ok outcome →
    (∀ op ∈ tx, (before op.bucket).isSome = true) ∧
    Transaction.on before.values tx = .ok (outcome, after.values) ∧
    ∀ b, (after b).isSome = (before b).isSome
  undone : ∀ f, reply = .error f → after = before
  accepted : isOpen → tx.check = .ok () → (∀ op ∈ tx, (before op.bucket).isSome = true) →
    ∀ outcome v, Transaction.on before.values tx = .ok (outcome, v) → reply = .ok outcome

/-- Nothing is kept otherwise than before but buckets, and after a failure not even those. -/
structure Spares {α β : Type} (n : Naming) (read : β → Option (KeyMap Bytes Bytes))
    (native native' : KeyMap String β) (reply : Except Failure α) : Prop where
  foreign : ∀ name, (∀ b, n.code b = some name → n.seen read native b = none) →
    native'.get? name = native.get? name
  failed : ∀ f, reply = .error f → native' = native

/-- Once the evaluation has answered, its changes are published without a failure. -/
def Publishes {σ : Type} (evaluate : Action σ (WriteSet × TxOutcome))
    (publish : List Change → Action σ Unit) (s : σ) : Prop :=
  ∀ ws outcome, (evaluate s).reply = .ok (ws, outcome) →
    (publish ws.changes (evaluate s).state).reply = .ok ()

theorem Wholly.isSome (h : Wholly tx isOpen before after reply) (b : Bytes) :
    (after b).isSome = (before b).isSome := by
  cases reply with
  | ok outcome => exact (h.done outcome rfl).2.2 b
  | error f => rw [h.undone f rfl]

/-- A call that is refused does nothing. -/
theorem Wholly.refused {f : Failure} (B : Buckets) (h : ¬(isOpen ∧ tx.check = .ok ())) :
    Wholly tx isOpen B B (.error f) where
  done _ hreply := by cases hreply
  undone _ _ := rfl
  accepted hopen hcheck := absurd ⟨hopen, hcheck⟩ h

/-! ### In memory -/

theorem update_closed (tx : Transaction) (hclosed : m.closed = true) :
    ∃ f log, Memory.update tx m = ⟨.error f, m, log⟩ := by
  refine ⟨.closed, [Log.error "In-memory driver is closed"], ?_⟩
  change (((if m.closed = true then (Action.complain _ _ : Action Memory.Store Unit) else pure ()) >>=
    fun _ => _ : Action Memory.Store TxOutcome)) m = _
  rw [hclosed]
  rfl

theorem memory_whole (m : Memory.Store) (tx : Transaction) :
    Wholly tx (m.closed = false) m.shown (Memory.update tx m).state.shown (Memory.update tx m).reply := by
  cases hopen : m.closed with
  | true =>
    obtain ⟨f, log, hrun⟩ := update_closed tx hopen
    rw [hrun]
    exact Wholly.refused _ (by simp)
  | false =>
    cases hcheck : tx.check with
    | error f =>
      rw [Memory.update_refused hopen hcheck]
      exact Wholly.refused _ (by simp [hcheck])
    | ok _ =>
      apply Memory.update_cases (P := fun r m' => Wholly tx (false = false) m.shown m'.shown r)
        hopen hcheck
      · -- A bucket is missing, so the operations cannot be expected to go through.
        intro place hfind
        have hmissing := List.find?_some hfind
        obtain ⟨op, hop, rfl⟩ := Transaction.mem_touched.mp (List.mem_of_find?_eq_some hfind)
        refine ⟨by simp, fun _ _ => rfl, ?_⟩
        intro _ _ hexists
        have hthere := hexists op hop
        simp [Memory.Store.shown, KeyMap.contains] at hthere hmissing
        rw [hmissing] at hthere
        cases hthere
      · intro f _ hon
        refine ⟨by simp, fun _ _ => rfl, ?_⟩
        intro _ _ _ outcome v hon'
        have hboth := hon.symm.trans hon'
        cases hboth
      · intro outcome v m' hexists hon hvalues _ hcontains
        refine ⟨?_, by simp, ?_⟩
        · rintro _ ⟨⟩
          refine ⟨fun op hop => hexists _ (Transaction.mem_touched.mpr ⟨op, hop, rfl⟩), ?_, hcontains⟩
          rw [← hvalues] at hon
          exact hon
        · intro _ _ _ outcome' v' hon'
          have hboth := hon.symm.trans hon'
          cases hboth
          rfl

theorem memory_publishes (m : Memory.Store) (tx : Transaction) :
    Publishes (WriteSet.evaluate (fun b k => do return (← Memory.bucket b).get? k) tx) Memory.publish m := by
  intro ws outcome hreply
  rw [(Memory.evaluate_run tx).1]
  have hpublished : Memory.publish ws.changes m = ⟨.ok (), m.publish ws.changes, []⟩ :=
    Memory.publish_run fun c hc => Memory.contains_of_evaluate hreply hc
  rw [hpublished]

/-! ### Engines that keep other things besides -/

section

variable {σ β : Type} {n : Naming} {read : β → Option (KeyMap Bytes Bytes)} {s : σ}
  {step : Step σ (Except Failure TxOutcome)}

/-- What goes as the update of the store in memory that the engine shows is as whole as that. -/
theorem whole_of_matches (native : σ → KeyMap String β) (wrap : KeyMap Bytes Bytes → β)
    (hshows : n.Shows read (native s) (native s) m.buckets) (hopen : m.closed = false)
    (hwrap : ∀ x a, read x = some a → x = wrap a)
    (h : Matches (fun _ _ => True) Eq
      (fun s' m' => n.Shows read (native s) (native s') m'.buckets) step (Memory.update tx m)) :
    Wholly tx isOpen (n.seen read (native s)) (n.seen read (native step.state)) step.reply ∧
      Spares n read (native s) (native step.state) step.reply := by
  obtain ⟨hreply, hstate⟩ := h
  have hbefore : m.shown = n.seen read (native s) := funext hshows.seen
  have hafter : (Memory.update tx m).state.shown = n.seen read (native step.state) :=
    funext hstate.seen
  have hmemory := memory_whole m tx
  rw [hbefore, hafter] at hmemory
  have hundone : ∀ f, step.reply = .error f →
      n.seen read (native step.state) = n.seen read (native s) := by
    intro f hfailed
    rw [hfailed] at hreply
    obtain ⟨g, hg, _⟩ := hreply.failed_right
    exact hmemory.undone g hg
  refine ⟨⟨?_, hundone, ?_⟩, ⟨?_, ?_⟩⟩
  · intro outcome hanswered
    rw [hanswered] at hreply
    obtain ⟨_, hsame, rfl⟩ := hreply.answered_right
    exact hmemory.done outcome hsame
  · intro _ hcheck hexists outcome v hon
    rw [hmemory.accepted hopen hcheck hexists outcome v hon] at hreply
    obtain ⟨_, hsame, rfl⟩ := hreply.answered_left
    exact hsame
  · intro name hforeign
    apply hstate.foreign name
    intro b hcode
    have hnone := hmemory.isSome b
    rw [hforeign b hcode, ← hafter] at hnone
    exact hnone
  · intro f hfailed
    have hsame : (Memory.update tx m).state.buckets = m.buckets := by
      apply KeyMap.ext_get?
      intro b
      rw [hstate.seen b, hundone f hfailed, hshows.seen b]
    rw [hsame] at hstate
    exact hstate.unique hshows wrap hwrap

/-- What embeds the store in memory that it shows publishes what it has evaluated. -/
theorem publishes_of_embeds {H : σ → Memory.Store → Prop}
    {find : Bytes → Action σ (String × Memory.Bucket)} {write : String → Memory.Bucket → σ → σ}
    (he : Embeds (fun _ _ => True) (fun _ => True) n H find write) (h : H s m) :
    Publishes (WriteSet.evaluate (fun b k => do return (← find b).2.get? k) tx)
      (fun changes => changes.forM fun c => do
        let (name, values) ← find c.bucket
        .change (write name (values.put c.key c.value))) s := by
  intro ws outcome hreply
  have hevaluated := he.evaluate h fun (op : Operation) (_ : op ∈ tx) => trivial
  have halike := hevaluated.reply
  have hstate := hevaluated.state
  rw [hreply] at halike
  rw [(Memory.evaluate_run tx).1] at hstate
  obtain ⟨_, hreply', rfl⟩ := halike.answered_right
  obtain ⟨hwritten, hpublished⟩ := he.publish_evaluated hstate hreply'
  have hboth := hwritten.reply
  rw [hpublished] at hboth
  obtain ⟨_, hdone, _⟩ := hboth.answered_left
  exact hdone

end

/-! ### On a keyspace -/

section

open Keyspace

/-- The handles of the keyspace are right, and it shows the store in memory. -/
structure ShowsKeyspace (s₀ s : Keyspace.Store) (m : Memory.Store) : Prop where
  noted : s.Noted
  shows : naming.Shows some s₀.partitions s.partitions m.buckets

theorem ShowsKeyspace.withHandle {s₀ s : Keyspace.Store} {b : Bytes} {name : String}
    (h : ShowsKeyspace s₀ s m) (hcode : naming.code b = some name) :
    ShowsKeyspace s₀ (s.withHandle b name) m := ⟨noted_withHandle h.noted hcode, h.shows⟩

/-- A partition is found if it is a bucket of the store in memory; else the call fails, be it for want
    of a name, of the partition, or of the partition that a handle names. -/
theorem partition_shows {s₀ s : Keyspace.Store} {b : Bytes} (h : ShowsKeyspace s₀ s m) :
    Matches (fun _ _ => True) (fun p values => naming.code b = some p.1 ∧ p.2 = values)
      (ShowsKeyspace s₀) (partition b s) (Memory.bucket b m) := by
  rw [Memory.bucket_run, h.shows.seen b]
  unfold partition
  cases hcode : naming.code b with
  | none =>
    have hnew : s.handles.get? b = none := by
      rw [Option.eq_none_iff_forall_ne_some]
      intro name hnoted
      rw [h.noted b name hnoted] at hcode
      cases hcode
    obtain ⟨f, hfailed⟩ := handle_unnamed hnew hcode
    rw [Action.bind_of_error hfailed, Naming.seen, hcode]
    exact ⟨.fails trivial, h⟩
  | some name =>
    rw [Naming.seen_of_code hcode]
    cases hnoted : s.handles.get? b with
    | some name' =>
      have hname := h.noted b name' hnoted
      rw [hcode, Option.some_inj] at hname
      subst hname
      rw [Action.bind_of_ok (handle_noted hnoted), Action.state_bind]
      cases s.partitions.get? name with
      | none => exact ⟨.fails trivial, h⟩
      | some values => exact ⟨.answers ⟨rfl, rfl⟩, h⟩
    | none =>
      have hnew := handle_new hnoted hcode
      cases hget : s.partitions.get? name with
      | none =>
        rw [if_neg (by simp [KeyMap.contains_eq_false.mpr hget])] at hnew
        rw [Action.bind_of_error hnew]
        exact ⟨.fails trivial, h⟩
      | some values =>
        rw [if_pos (KeyMap.contains_eq_true.mpr ⟨values, hget⟩)] at hnew
        have hvalues : (s.withHandle b name).partitions.get? name = some values := hget
        rw [Action.bind_of_ok hnew, Action.state_bind, hvalues]
        exact ⟨.answers ⟨rfl, rfl⟩, h.withHandle hcode⟩

theorem embeds_keyspace (s₀ : Keyspace.Store) :
    Embeds (fun _ _ => True) (fun _ => True) naming (ShowsKeyspace s₀) partition
      fun name values s => s.withPartition name values where
  refl _ := trivial
  coded _ _ := trivial
  found h _ := partition_shows h
  written values h hcode := ⟨h.noted, h.shows.insert id (fun _ => rfl) hcode values⟩

/-- A keyspace whose handles are right shows a store in memory. -/
theorem exists_showsKeyspace {s : Keyspace.Store} (h : s.Noted) :
    ∃ m : Memory.Store, m.closed = false ∧ ShowsKeyspace s s m := by
  obtain ⟨buckets, hshows⟩ := naming.exists_shows some s.partitions
  exact ⟨{ buckets }, rfl, h, hshows⟩

theorem update_closed_keyspace {s : Keyspace.Store} (tx : Transaction) (hclosed : s.closed = true) :
    ∃ f log, update tx s = ⟨.error f, s, log⟩ := by
  refine ⟨.closed, [Log.error "Fjall driver is closed"], ?_⟩
  change (((if s.closed = true then (Action.complain _ _ : Action Keyspace.Store Unit) else pure ()) >>=
    fun _ => _ : Action Keyspace.Store TxOutcome)) s = _
  rw [hclosed]
  rfl

theorem keyspace_whole {s : Keyspace.Store} (h : s.Noted) (tx : Transaction) :
    Wholly tx (s.closed = false) s.shown (update tx s).state.shown (update tx s).reply ∧
      Spares naming some s.partitions (update tx s).state.partitions (update tx s).reply := by
  cases hopen : s.closed with
  | true =>
    obtain ⟨f, log, hrun⟩ := update_closed_keyspace tx hopen
    rw [hrun]
    exact ⟨Wholly.refused _ (by simp), fun _ _ => rfl, fun _ _ => rfl⟩
  | false =>
    obtain ⟨m, hopen', hshows⟩ := exists_showsKeyspace h
    have hmatches := update_matches_of (embeds_keyspace s) hshows hopen hopen'
      fun (_ : tx.check = .ok ()) _ _ => trivial
    exact whole_of_matches Keyspace.Store.partitions id hshows.shows hopen'
      (fun x a hx => Option.some.inj hx) ⟨hmatches.reply, hmatches.state.shows⟩

theorem keyspace_publishes {s : Keyspace.Store} (h : s.Noted) (tx : Transaction) :
    Publishes (WriteSet.evaluate (fun b k => do return (← partition b).2.get? k) tx) publish s := by
  obtain ⟨m, _, hshows⟩ := exists_showsKeyspace h
  intro ws outcome hreply
  have hwritten := publishes_of_embeds (embeds_keyspace s) hshows ws outcome hreply
  exact Action.reply_atomically.trans hwritten

end

/-! ### On a table file -/

section

open TableFile

/-- The file shows the store in memory. -/
def ShowsFile (file₀ file : File) (m : Memory.Store) : Prop :=
  naming.Shows Table.values? file₀.tables file.tables m.buckets

/-- A table is opened if it is a bucket of the store in memory; else the call fails, be it for want of
    a name or of the table, or because the table is of another type. -/
theorem openExisting_shows {file₀ file : File} {b : Bytes} (h : ShowsFile file₀ file m) :
    Matches (fun _ _ => True) (fun p values => naming.code b = some p.1 ∧ p.2 = values)
      (ShowsFile file₀) (openExisting b file) (Memory.bucket b m) := by
  rw [Memory.bucket_run, h.seen b]
  unfold openExisting
  cases hcode : naming.code b with
  | none =>
    obtain ⟨f, hfailed⟩ := tableName_failed file hcode
    rw [Action.bind_of_error hfailed, Naming.seen, hcode]
    exact ⟨.fails trivial, h⟩
  | some name =>
    rw [Naming.seen_of_code hcode, tableName_bind hcode, Action.state_bind]
    rcases file.tables.get? name with _ | _ | _
    · exact ⟨.fails trivial, h⟩
    · exact ⟨.answers ⟨rfl, rfl⟩, h⟩
    · exact ⟨.fails trivial, h⟩

theorem embeds_file (file₀ : File) :
    Embeds (fun _ _ => True) (fun _ => True) naming (ShowsFile file₀) openExisting
      fun name values file => file.withValues name values where
  refl _ := trivial
  coded _ _ := trivial
  found h _ := openExisting_shows h
  written values h hcode := h.insert .values (fun _ => rfl) hcode values

theorem values_of_values? (table : Table) (found : KeyMap Bytes Bytes)
    (h : table.values? = some found) : table = .values found := by
  cases table with
  | values found' => exact congrArg Table.values (Option.some.inj h)
  | other type => cases h

theorem update_closed_file {file : File} (tx : Transaction) (hclosed : file.opened = false) :
    ∃ f log, update tx file = ⟨.error f, file, log⟩ := by
  have hopened : opened file = ⟨.error .closed, file, [Log.error "Redb driver is closed"]⟩ := by
    change (if (!file.opened) = true then (Action.complain _ _ : Action File Unit) else pure ()) file = _
    rw [hclosed]
    rfl
  unfold update
  cases tx.check with
  | error f => exact ⟨f, _, rfl⟩
  | ok _ =>
    change ∃ f log, (opened >>= fun _ => _) file = _
    rw [Action.bind_run, hopened]
    exact ⟨_, _, rfl⟩

theorem file_whole (file : File) (tx : Transaction) :
    Wholly tx (file.opened = true) file.shown (update tx file).state.shown (update tx file).reply ∧
      Spares naming Table.values? file.tables (update tx file).state.tables (update tx file).reply := by
  cases hopen : file.opened with
  | false =>
    obtain ⟨f, log, hrun⟩ := update_closed_file tx hopen
    rw [hrun]
    exact ⟨Wholly.refused _ (by simp), fun _ _ => rfl, fun _ _ => rfl⟩
  | true =>
    obtain ⟨buckets, hshows⟩ := naming.exists_shows Table.values? file.tables
    have hmatches := update_matches_of (m := { buckets }) (embeds_file file) hshows hopen rfl
      fun (_ : tx.check = .ok ()) _ _ => trivial
    exact whole_of_matches File.tables .values hshows rfl values_of_values? hmatches

theorem file_publishes (file : File) (tx : Transaction) :
    Publishes (WriteSet.evaluate (fun b k => do return (← openExisting b).2.get? k) tx) publish file := by
  obtain ⟨buckets, hshows⟩ := naming.exists_shows Table.values? file.tables
  exact publishes_of_embeds (embeds_file file) (m := { buckets }) hshows

end

/-! ### All three -/

/-- An update of a driver that needs no server is done as a whole or not at all, whatever the
    transaction is, whatever the driver went through and whatever else is in the keyspace or the file:
    if it answers, the buckets are those that its operations leave one after the other; if it fails,
    they are as before. What is no bucket stays in either case. And once a transaction is evaluated,
    its changes are published. -/
theorem updates_whole (tx : Transaction) :
    (∀ m : Memory.Store,
      Wholly tx (m.closed = false) m.shown (Memory.update tx m).state.shown (Memory.update tx m).reply ∧
      Publishes (WriteSet.evaluate (fun b k => do return (← Memory.bucket b).get? k) tx)
        Memory.publish m) ∧
    (∀ s : Keyspace.Store, Keyspace.Reached s →
      Wholly tx (s.closed = false) s.shown (Keyspace.update tx s).state.shown
        (Keyspace.update tx s).reply ∧
      Spares Keyspace.naming some s.partitions (Keyspace.update tx s).state.partitions
        (Keyspace.update tx s).reply ∧
      Publishes (WriteSet.evaluate (fun b k => do return (← Keyspace.partition b).2.get? k) tx)
        Keyspace.publish s) ∧
    ∀ file : TableFile.File,
      Wholly tx (file.opened = true) file.shown (TableFile.update tx file).state.shown
        (TableFile.update tx file).reply ∧
      Spares TableFile.naming TableFile.Table.values? file.tables
        (TableFile.update tx file).state.tables (TableFile.update tx file).reply ∧
      Publishes (WriteSet.evaluate (fun b k => do return (← TableFile.openExisting b).2.get? k) tx)
        TableFile.publish file := by
  refine ⟨fun m => ⟨memory_whole m tx, memory_publishes m tx⟩, fun s hs => ?_, fun file => ?_⟩
  · have hnoted := Keyspace.noted_of_reached hs
    obtain ⟨hwhole, hspares⟩ := keyspace_whole hnoted tx
    exact ⟨hwhole, hspares, keyspace_publishes hnoted tx⟩
  · obtain ⟨hwhole, hspares⟩ := file_whole file tx
    exact ⟨hwhole, hspares, file_publishes file tx⟩

/-- Two keys are written in two buckets. In the keyspace, which has a partition under a name of no
    bucket besides, both are written; in the file a table of another type stands under the name of the
    second bucket, and the first is not written either. -/
theorem updates_whole_beside_strangers :
    let tx : Transaction := [.set [65] [97] [1], .set [66] [98] [2]]
    let s := (Keyspace.openKeyspace { path? := some "data" }
      { partitions := .ofList [("A", {}), ("B", {}), ("#", .ofList [([0], [0])])] }).state
    let file : TableFile.File :=
      { tables := .ofList [("A", .values {}), ("B", .other "Table<u64, u64>")], opened := true }
    Keyspace.Reached s ∧ (Keyspace.update tx s).reply = .ok [.written, .written] ∧
      Wholly tx (s.closed = false) s.shown (Keyspace.update tx s).state.shown
        (Keyspace.update tx s).reply ∧
      (Keyspace.update tx s).state.shown [66] = some (.ofList [([98], [2])]) ∧
      (Keyspace.update tx s).state.partitions.get? "#" = some (.ofList [([0], [0])]) ∧
      (TableFile.update tx file).reply.toOption = none ∧
      (TableFile.update tx file).state.tables = file.tables := by
  intro tx s file
  have hreached : Keyspace.Reached s := .opened rfl
  obtain ⟨_, hkeyspace, hfile⟩ := updates_whole tx
  obtain ⟨hwhole, hspares, _⟩ := hkeyspace s hreached
  obtain ⟨_, hspares', _⟩ := hfile file
  have hfails : (TableFile.update tx file).reply.toOption = none := by decide +kernel
  refine ⟨hreached, by decide +kernel, hwhole, by decide +kernel, ?_, hfails, ?_⟩
  · refine (hspares.foreign "#" ?_).trans (by decide +kernel)
    intro b hcode
    have hdecode := Keyspace.naming.decode_code b "#" hcode
    cases hdecode
  · cases hreply : (TableFile.update tx file).reply with
    | error f => exact hspares'.failed f hreply
    | ok outcome =>
      rw [hreply] at hfails
      cases hfails

end Embedded

end BucketStore
