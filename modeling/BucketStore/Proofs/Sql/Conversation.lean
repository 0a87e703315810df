/-
  BucketStore/Proofs/Sql/Conversation.lean
  ========================================
  **What a client says to a server that does what is documented.**

  The client of any documented server, seen through the server's view, keeps to one
  contract (`talking`), so whatever is ensured of a program under this contract is true
  of its runs against the server (`Documented.run`).  Between the calls of a driver the
  client is `resting`; in the middle of a transaction it is `Working`, and the server
  keeps the tables as they were before.  A program is followed statement by statement:
  each has one answer, and a transaction that fails brings the tables back
  (`ensures_transaction`).
-/
import BucketStore.Proofs.ProgramLogic
import BucketStore.Proofs.Sql.Documented
import BucketStore.Sql.Driver

namespace BucketStore.Sql

open Program Protocol

variable {σ : Type} {service : Service σ} {view : σ → Server} {d : Dialect} {α : Type}
  {c : Client Server} {version : String} {table : Table} {t : TableStatement}
  {tables saved : Tables} {rows : List Row} {after : Option Rows}

/-! ### The client's contract -/

/-- The client of the server that is seen. -/
def Client.through (view : σ → Server) (c : Client σ) : Client Server :=
  { c with server := view c.server }

/-- The client's server has become another one with a statement that was answered like this. -/
def Client.told (c : Client Server) (s : Statement) (reply : Except Fault (List Row))
    (server : Server) : Client Server :=
  { c with server, inTransaction := opensAfter c.inTransaction s reply }

/-- Statements are made where they are ready to be, and answered as by the server in memory: with the
    same rows, or with a fault of the same class. -/
def talking (d : Dialect) : Contract Call Call.Reply (Client Server) where
  needs
    | .connect, _ => False
    | .execute s, c => c.closed = false ∧ s.Ready d c.server
    | .abandon, c => c.inTransaction = true → c.closed = false ∧ Statement.rollback.Ready d c.server
  allows
    | .connect, _, _, _ => True
    | .execute s, c, reply, c' =>
      reply.mapError (·.codeClass d) = (Server.execute d s c.server).1.mapError (·.codeClass d) ∧
        c' = c.told s reply (Server.execute d s c.server).2
    | .abandon, c, _, c' =>
      c' = if c.inTransaction then { c with server := c.server.rolledBack, inTransaction := false }
        else c

namespace Documented

variable (h : Documented service d view)
include h

/-- What the server in memory does with a statement, a documented one does. -/
theorem executes {text : String} {parameters : List Parameter} {statement : Statement} {s : σ}
    (hread : Statement.read? d text parameters = some statement) (hready : statement.Ready d (view s)) :
    (service.execute text parameters s).reply.mapError (·.codeClass d) =
        (Server.execute d statement (view s)).1.mapError (·.codeClass d) ∧
      view (service.execute text parameters s).state = (Server.execute d statement (view s)).2 := by
  have hanswers : ∀ {rows after}, service.Answers view text parameters s rows after →
      Server.execute d statement (view s) = (.ok rows, after) →
      (service.execute text parameters s).reply.mapError (·.codeClass d) =
          (Server.execute d statement (view s)).1.mapError (·.codeClass d) ∧
        view (service.execute text parameters s).state =
          (Server.execute d statement (view s)).2 := by
    rintro rows after ⟨hreply, hstate⟩ hexecute
    rw [hexecute, hreply]
    exact ⟨rfl, hstate⟩
  cases statement with
  | on table t =>
    cases hmeaning : t.meaning ((view s).tables.get? table.name) with
    | ok meant =>
      exact hanswers (h.answers hread hready hmeaning) (Server.execute_answered hready.1 hmeaning)
    | error refusal =>
      obtain ⟨⟨fault, hreply, hclass⟩, hstate⟩ := h.refuses hread hready hmeaning
      rw [Server.execute_refused hready.1 hmeaning, hreply]
      refine ⟨?_, hstate⟩
      change (Except.error (fault.codeClass d) : Except CodeClass (List Row)) =
        .error ((Server.faultOf d (t == .drop) refusal).codeClass d)
      rw [hclass, Server.codeClass_faultOf]
  | beginTransaction =>
    exact hanswers (h.begins hread hready) (Server.execute_begin hready.1 hready.2)
  | commit => exact hanswers (h.commits hread hready) (Server.execute_commit hready.1)
  | rollback => exact hanswers (h.rollsBack hread hready) rfl
  | isolate level =>
    exact hanswers (h.isolates hread hready) (Server.execute_isolate hready.1 hready.2)
  | ping => exact hready.elim
  | version => exact hready.elim

/-- The client of a documented server keeps to the contract. -/
theorem respond (call : Call) (c : Client σ) (hneeds : (talking d).needs call (c.through view)) :
    (talking d).allows call (c.through view) (Client.respond service d call c).reply
      ((Client.respond service d call c).state.through view) := by
  obtain ⟨server, version, inTransaction, closed⟩ := c
  cases call with
  | connect => trivial
  | execute s =>
    obtain ⟨hopen, hready⟩ := hneeds
    cases hopen
    obtain ⟨hreply, hstate⟩ := h.executes (read?_text d s) hready
    exact ⟨hreply, congrArg (fun server' => Client.told ⟨view server, version, inTransaction, false⟩ s
      (service.execute (s.text d) s.parameters server).reply server') hstate⟩
  | abandon =>
    cases inTransaction with
    | false => rfl
    | true =>
      obtain ⟨hopen, hready⟩ := hneeds rfl
      cases hopen
      exact congrArg (fun server' => Client.mk server' version false false)
        (h.executes (read?_text d .rollback) hready).2

/-- What is ensured of a program is true of its run. -/
theorem run {p : Protocol α} {c : Client σ} {Q : Except Failure α → Client Server → Prop}
    (hp : p.Ensures (talking d) (c.through view) Q) :
    Q (p.run (Client.respond service d) c).reply
      ((p.run (Client.respond service d) c).state.through view) := by
  obtain ⟨_, hQ, rfl⟩ := hp.run (Client.respond service d) (fun c s => c.through view = s)
    (by
      rintro call c _ rfl hneeds
      exact ⟨_, h.respond call c hneeds, rfl⟩) rfl
  exact hQ

end Documented

/-! ### Single statements -/

section

variable {s : Statement} {failure : Fault → Failure} (hopen : c.closed = false)
  (hready : s.Ready d c.server)
include hopen hready

theorem ensures_sent {next : Except Fault (List Row) → Protocol α}
    {Q : Except Failure α → Client Server → Prop}
    (hnext : ∀ reply, reply.mapError (·.codeClass d) =
        (Server.execute d s c.server).1.mapError (·.codeClass d) →
      (next reply).Ensures (talking d) (c.told s reply (Server.execute d s c.server).2) Q) :
    (Program.call (.execute s) next).Ensures (talking d) c Q := by
  refine ⟨⟨hopen, hready⟩, ?_⟩
  rintro reply _ ⟨hreply, rfl⟩
  exact hnext reply hreply

section

variable {server : Server} {R : Client Server → Prop}
  (hexecute : Server.execute d s c.server = (.ok rows, server)) (hR : R (c.told s (.ok rows) server))
include hexecute hR

theorem yields_tryExecute : (tryExecute s).Yields (talking d) c (.ok rows) R := by
  apply ensures_sent hopen hready
  rw [hexecute]
  rintro (fault | rows') hreply
  · cases hreply
  · cases hreply
    exact ⟨rfl, hR⟩

theorem yields_execute : (execute failure s).Yields (talking d) c rows R := by
  apply ensures_sent hopen hready
  rw [hexecute]
  rintro (fault | rows') hreply
  · cases hreply
  · cases hreply
    exact ⟨rfl, hR⟩

theorem yields_perform : (perform failure s).Yields (talking d) c () R :=
  (yields_execute hopen hready hexecute hR).then fun _ hR' => yields_done hR'

end

end

theorem isLoss_of_codeClass {fault : Fault} (h : fault.codeClass d ≠ .other) :
    fault.isLoss = false := by
  cases fault with
  | io text => exact absurd rfl h
  | _ => rfl

section

variable {refusal : CodeClass} (hopen : c.closed = false)
  (hready : (Statement.on table t).Ready d c.server)
  (hmeaning : t.meaning (c.server.tables.get? table.name) = .error refusal)
  (hrefusal : refusal ≠ .other)
include hopen hready hmeaning hrefusal

/-- A statement that is refused is answered with a fault, and no transaction begins or ends. -/
theorem ensures_refused {next : Except Fault (List Row) → Protocol α}
    {Q : Except Failure α → Client Server → Prop}
    (hnext : ∀ fault, fault.codeClass d = refusal →
      (next (.error fault)).Ensures (talking d) { c with server := c.server.refused d } Q) :
    (Program.call (.execute (.on table t)) next).Ensures (talking d) c Q := by
  apply ensures_sent hopen hready
  rw [Server.execute_refused hready.1 hmeaning]
  rintro (fault | rows) hreply
  · have hclass : fault.codeClass d = refusal := by
      rw [← Server.codeClass_faultOf d (t == .drop) refusal]
      exact Except.error.inj hreply
    have hloss : fault.isLoss = false := isLoss_of_codeClass (hclass ▸ hrefusal)
    have htold : c.told (.on table t) (.error fault) (c.server.refused d) =
        { c with server := c.server.refused d } := by
      simp [Client.told, Client.opensAfter, hloss]
    rw [htold]
    exact hnext fault hclass
  · cases hreply

end

section

variable {bucket : Bytes} (hopen : c.closed = false)
  (hready : (Statement.on table t).Ready d c.server) (ht : t ≠ .create)
  (hmissing : c.server.tables.get? table.name = none)
include hopen hready ht hmissing

/-- What is said about a table that is not there finds its bucket missing. -/
theorem ensures_execute_missing {Q : Except Failure (List Row) → Client Server → Prop}
    (hQ : Q (.error (.bucketNotFound bucket)) { c with server := c.server.refused d }) :
    (execute (·.bucketFailure d bucket) (.on table t)).Ensures (talking d) c Q := by
  have hmeaning : t.meaning (c.server.tables.get? table.name) = .error .missingTable := by
    rw [hmissing]
    cases t with
    | create => exact absurd rfl ht
    | _ => rfl
  refine ensures_refused hopen hready hmeaning nofun fun fault hclass => ?_
  dsimp only [Fault.bucketFailure]
  rw [hclass]
  exact hQ

theorem ensures_perform_missing {Q : Except Failure Unit → Client Server → Prop}
    (hQ : Q (.error (.bucketNotFound bucket)) { c with server := c.server.refused d }) :
    (perform (·.bucketFailure d bucket) (.on table t)).Ensures (talking d) c Q :=
  ensures_bind.mpr (ensures_execute_missing hopen hready ht hmissing hQ)

end

/-! ### Clients at rest -/

/-- A client between two calls. -/
def resting (version : String) (tables : Tables) : Client Server := { server := { tables }, version }

theorem ready_resting (hfits : t.Fits d) :
    (Statement.on table t).Ready d (resting version tables).server := ⟨rfl, hfits, fun _ => rfl⟩

section

variable {failure : Fault → Failure} (hfits : t.Fits d)
  (hmeaning : t.meaning (tables.get? table.name) = .ok (rows, after))
include hfits hmeaning

theorem resting_tryExecute : (tryExecute (.on table t)).Yields (talking d) (resting version tables)
    (.ok rows) (· = resting version (tables.put table.name after)) :=
  yields_tryExecute rfl (ready_resting hfits)
    (Server.execute_answered (s := (resting version tables).server) rfl hmeaning) rfl

theorem resting_execute : (execute failure (.on table t)).Yields (talking d) (resting version tables)
    rows (· = resting version (tables.put table.name after)) :=
  yields_execute rfl (ready_resting hfits)
    (Server.execute_answered (s := (resting version tables).server) rfl hmeaning) rfl

theorem resting_perform : (perform failure (.on table t)).Yields (talking d) (resting version tables)
    () (· = resting version (tables.put table.name after)) :=
  yields_perform rfl (ready_resting hfits)
    (Server.execute_answered (s := (resting version tables).server) rfl hmeaning) rfl

end

/-! ### Transactions -/

/-- The client is in a transaction that began with the tables `saved`. -/
structure Begun (version : String) (saved : Tables) (c : Client Server) : Prop where
  version : c.version = version
  opened : c.closed = false
  busy : c.inTransaction = true
  saved : c.server.saved = some saved

/-- The transaction has made these tables so far, and nothing was refused. -/
structure Working (version : String) (saved tables : Tables) (c : Client Server) : Prop
    extends Begun version saved c where
  tables : c.server.tables = tables
  unfailed : c.server.failed = false

theorem yields_begin {failure : Fault → Failure} :
    (perform failure .beginTransaction).Yields (talking d) (resting version tables) ()
      (Working version tables tables) := by
  have hready : Statement.beginTransaction.Ready d (resting version tables).server := ⟨rfl, rfl⟩
  apply yields_perform rfl hready (Server.execute_begin rfl rfl)
  exact ⟨⟨rfl, rfl, rfl, rfl⟩, rfl, rfl⟩

theorem Begun.rollback {failure : Fault → Failure} (h : Begun version saved c) :
    (perform failure .rollback).Yields (talking d) c () (· = resting version saved) := by
  have hready : Statement.rollback.Ready d c.server := by
    change c.server.saved.isSome = true
    rw [h.saved]
    rfl
  apply yields_perform h.opened hready rfl
  obtain ⟨server, version, inTransaction, closed⟩ := c
  obtain ⟨rfl, rfl, rfl, hsaved⟩ := h
  change Client.mk (Server.mk (server.saved.getD server.tables) none none false false) version false
    false = _
  rw [hsaved]
  rfl

/-- A transaction is begun with the level that it is to be isolated at, in the order that the dialect
    asks for. -/
theorem yields_beginIsolated (level : Isolation) :
    (beginIsolated d level).Yields (talking d) (resting version tables) ()
      (Working version tables tables) := by
  unfold beginIsolated
  cases d with
  | postgres =>
    let begun : Server := { tables, saved := some tables }
    have hbegin : Statement.beginTransaction.Ready .postgres (resting version tables).server :=
      ⟨rfl, rfl⟩
    have hisolate : (Statement.isolate level).Ready .postgres begun := ⟨rfl, rfl⟩
    refine Yields.then (yields_perform (R := (· = ⟨begun, version, true, false⟩)) rfl hbegin
      (Server.execute_begin rfl rfl) rfl) ?_
    rintro _ rfl
    apply yields_perform rfl hisolate (Server.execute_isolate rfl rfl)
    exact ⟨⟨rfl, rfl, rfl, rfl⟩, rfl, rfl⟩
  | mysql =>
    let prepared : Server := { tables, isolation := some level }
    have hisolate : (Statement.isolate level).Ready .mysql (resting version tables).server :=
      ⟨rfl, rfl⟩
    have hbegin : Statement.beginTransaction.Ready .mysql prepared := ⟨rfl, rfl⟩
    refine Yields.then (yields_perform (R := (· = ⟨prepared, version, false, false⟩)) rfl hisolate
      (Server.execute_isolate rfl rfl) rfl) ?_
    rintro _ rfl
    apply yields_perform rfl hbegin (Server.execute_begin rfl rfl)
    exact ⟨⟨rfl, rfl, rfl, rfl⟩, rfl, rfl⟩

namespace Working

variable (h : Working version saved tables c)
include h

theorem ready (hfits : t.Fits d) (ht : ¬t.Defines) : (Statement.on table t).Ready d c.server :=
  ⟨h.unfailed, hfits, fun hdefines => absurd hdefines ht⟩

theorem commit : (Sql.commit d).Yields (talking d) c () (· = resting version tables) := by
  have hready : Statement.commit.Ready d c.server := by
    refine ⟨h.unfailed, ?_⟩
    rw [h.saved]
    rfl
  apply yields_perform h.opened hready (Server.execute_commit h.unfailed)
  obtain ⟨server, version, inTransaction, closed⟩ := c
  obtain ⟨⟨rfl, rfl, rfl, -⟩, rfl, -⟩ := h
  rfl

/-- After a refusal the transaction can be undone. -/
theorem refused : Begun version saved { c with server := c.server.refused d } := by
  refine ⟨h.version, h.opened, h.busy, ?_⟩
  change (c.server.refused d).saved = _
  rw [Server.refused_saved, h.saved]

theorem missing {bucket : Bytes} (hfits : t.Fits d) (ht : ¬t.Defines)
    (hmissing : tables.get? table.name = none) {Q : Except Failure (List Row) → Client Server → Prop}
    (hQ : ∀ c', Begun version saved c' → Q (.error (.bucketNotFound bucket)) c') :
    (Protocol.execute (·.bucketFailure d bucket) (.on table t)).Ensures (talking d) c Q := by
  refine ensures_execute_missing h.opened (h.ready hfits ht) ?_ (h.tables ▸ hmissing) (hQ _ h.refused)
  rintro rfl
  exact ht trivial

/-- The transaction goes on with what the statement leaves of the table. -/
theorem told : Working version saved (tables.put table.name after) (c.told (.on table t) (.ok rows)
    { c.server.asked with tables := tables.put table.name after }) := by
  refine ⟨⟨h.version, h.opened, h.busy, ?_⟩, rfl, ?_⟩
  · exact (Server.asked_saved _).trans h.saved
  · exact (Server.asked_failed _).trans h.unfailed

section

variable (hmeaning : t.meaning (tables.get? table.name) = .ok (rows, after))
include hmeaning

theorem executes : Server.execute d (.on table t) c.server =
    (.ok rows, { c.server.asked with tables := tables.put table.name after }) := by
  have hmeant : t.meaning (c.server.tables.get? table.name) = .ok (rows, after) := h.tables ▸ hmeaning
  rw [Server.execute_answered h.unfailed hmeant, h.tables]

variable (hfits : t.Fits d) (ht : ¬t.Defines)
include hfits ht

theorem tryExecute : (Protocol.tryExecute (.on table t)).Yields (talking d) c (.ok rows)
    (Working version saved (tables.put table.name after)) :=
  yields_tryExecute h.opened (h.ready hfits ht) (h.executes hmeaning) h.told

theorem execute {failure : Fault → Failure} :
    (Protocol.execute failure (.on table t)).Yields (talking d) c rows
      (Working version saved (tables.put table.name after)) :=
  yields_execute h.opened (h.ready hfits ht) (h.executes hmeaning) h.told

theorem perform {failure : Fault → Failure} :
    (Protocol.perform failure (.on table t)).Yields (talking d) c ()
      (Working version saved (tables.put table.name after)) :=
  yields_perform h.opened (h.ready hfits ht) (h.executes hmeaning) h.told

end

end Working

/-- A transaction that fails before its end is rolled back. -/
theorem ensures_transaction {p : Protocol α} {Q : Except Failure α → Client Server → Prop}
    (hp : p.Ensures (talking d) (resting version tables) fun
      | .ok a, c' => Q (.ok a) c'
      | .error f, c' => Begun version tables c' ∧ Q (.error f) (resting version tables)) :
    (transaction p).Ensures (talking d) (resting version tables) Q := by
  unfold transaction
  rw [ensures_bind, ensures_attempt]
  apply hp.mono
  rintro (f | a) c' hend
  · obtain ⟨hbegun, hQ⟩ := hend
    refine ⟨fun _ => ⟨hbegun.opened, ?_⟩, ?_⟩
    · change c'.server.saved.isSome = true
      rw [hbegun.saved]
      rfl
    · rintro _ _ rfl
      obtain ⟨server, version, inTransaction, closed⟩ := c'
      obtain ⟨rfl, rfl, rfl, hsaved⟩ := hbegun
      change Q (.error f) (Client.mk (Server.mk (server.saved.getD server.tables) none none false false)
        version false false)
      rw [hsaved]
      exact hQ
  · exact hend

/-- A transaction that answers has ended before. -/
theorem yields_transaction {p : Protocol α} {a : α} {R : Client Server → Prop}
    (hp : p.Yields (talking d) (resting version tables) a R) :
    (transaction p).Yields (talking d) (resting version tables) a R := by
  refine ensures_transaction (Ensures.mono hp ?_)
  rintro _ c ⟨rfl, hR⟩
  exact ⟨rfl, hR⟩

/-! ### What answers are read as -/

theorem readValue_rows (value : Option Bytes) :
    readValue d (value.toList.map fun v => [some v]) = .ok value := by
  cases value <;> rfl

end BucketStore.Sql
