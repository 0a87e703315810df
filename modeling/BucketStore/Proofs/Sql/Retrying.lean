/-
  BucketStore/Proofs/Sql/Retrying.lean
  ====================================
  **Updates are retried after conflicts only, and are made once or not at all.**

  An update is a row of attempts.  Each starts on the client that the attempt before
  has left, and follows only if that one failed for a conflict; the last one is what
  the update comes to (`Retried`).  Since a failed attempt leaves the tables as they
  were, what the last one has done is all that was done (`update_retried_whole`),
  whatever the server fails on the way.
-/
import BucketStore.Proofs.Sql.Failing

namespace BucketStore.Sql

open Program hiding bind

variable {σ : Type} (service : Service σ) (d : Dialect) (tx : Transaction)

/-! ### Attempts -/

/-- One attempt at the update. -/
def attemptOn (c : Client σ) : Step (Client σ) (Except Failure TxOutcome) :=
  (tryUpdate d tx).run (Client.respond service d) c

/-- The attempt with that number, counted from zero, each on the client that the one before has left. -/
def nthAttempt : Nat → Client σ → Step (Client σ) (Except Failure TxOutcome)
  | 0, c => attemptOn service d tx c
  | n + 1, c => nthAttempt n (attemptOn service d tx c).state

/-- The update has made the attempts up to the last one and no more than the limit: the ones before
    it failed for a conflict, and it did not, or no attempt was left; the update has come to what the
    last attempt came to. -/
structure Retried (c : Client σ) (limit last : Nat)
    (run : Step (Client σ) (Except Failure TxOutcome)) : Prop where
  limited : last < limit
  again : ∀ n < last, ∃ f, (nthAttempt service d tx n c).reply = .error f ∧ f.kind = .conflict
  enough : last + 1 < limit →
    ∀ f, (nthAttempt service d tx last c).reply = .error f → f.kind ≠ .conflict
  reply : run.reply = (nthAttempt service d tx last c).reply
  state : run.state = (nthAttempt service d tx last c).state

variable {service d tx}

/-- Unless it failed for a conflict, the first attempt is what is come to. -/
theorem run_tryRepeatedly_settled {c : Client σ} (attempt remaining : Nat)
    (h : ∀ f, (attemptOn service d tx c).reply = .error f → f.kind ≠ .conflict) :
    ((tryRepeatedly d tx attempt remaining).run (Client.respond service d) c).reply =
        (attemptOn service d tx c).reply ∧
      ((tryRepeatedly d tx attempt remaining).run (Client.respond service d) c).state =
        (attemptOn service d tx c).state := by
  cases remaining with
  | zero => exact ⟨rfl, rfl⟩
  | succ remaining =>
    unfold attemptOn at h ⊢
    unfold tryRepeatedly
    rw [(run_attempt_bind ..).1, (run_attempt_bind ..).2]
    cases hfirst : ((tryUpdate d tx).run (Client.respond service d) c).reply with
    | ok outcome => exact ⟨rfl, rfl⟩
    | error f =>
      dsimp only
      rw [if_neg (h f hfirst)]
      exact ⟨rfl, rfl⟩

/-- After a conflict, what is come to is what the attempts come to that are left. -/
theorem run_tryRepeatedly_conflict {c : Client σ} (attempt remaining : Nat) {f : Failure}
    (hfirst : (attemptOn service d tx c).reply = .error f) (hkind : f.kind = .conflict) :
    ((tryRepeatedly d tx attempt (remaining + 1)).run (Client.respond service d) c).reply =
        ((tryRepeatedly d tx (attempt + 1) remaining).run (Client.respond service d)
          (attemptOn service d tx c).state).reply ∧
      ((tryRepeatedly d tx attempt (remaining + 1)).run (Client.respond service d) c).state =
        ((tryRepeatedly d tx (attempt + 1) remaining).run (Client.respond service d)
          (attemptOn service d tx c).state).state := by
  unfold attemptOn at hfirst ⊢
  rw [tryRepeatedly, (run_attempt_bind ..).1, (run_attempt_bind ..).2, hfirst]
  dsimp only
  rw [if_pos hkind]
  exact ⟨rfl, rfl⟩

theorem retried_tryRepeatedly (attempt remaining : Nat) (c : Client σ) : ∃ last,
    Retried service d tx c (remaining + 1) last
      ((tryRepeatedly d tx attempt remaining).run (Client.respond service d) c) := by
  induction remaining generalizing attempt c with
  | zero => exact ⟨0, by decide, nofun, by omega, rfl, rfl⟩
  | succ remaining ih =>
    by_cases hconflict : ∃ f, (attemptOn service d tx c).reply = .error f ∧ f.kind = .conflict
    · obtain ⟨f, hfirst, hkind⟩ := hconflict
      obtain ⟨hreply, hstate⟩ := run_tryRepeatedly_conflict attempt remaining hfirst hkind
      obtain ⟨last, h⟩ := ih (attempt + 1) (attemptOn service d tx c).state
      refine ⟨last + 1, ?_, ?_, ?_, hreply.trans h.reply, hstate.trans h.state⟩
      · exact Nat.succ_lt_succ h.limited
      · intro n hn
        cases n with
        | zero => exact ⟨f, hfirst, hkind⟩
        | succ n => exact h.again n (Nat.lt_of_succ_lt_succ hn)
      · exact fun hless => h.enough (Nat.lt_of_succ_lt_succ hless)
    · have hsettled : ∀ f, (attemptOn service d tx c).reply = .error f → f.kind ≠ .conflict :=
        fun f hf hkind => hconflict ⟨f, hf, hkind⟩
      obtain ⟨hreply, hstate⟩ := run_tryRepeatedly_settled attempt (remaining + 1) hsettled
      exact ⟨0, by omega, nofun, fun _ => hsettled, hreply, hstate⟩

theorem update_checked (hcheck : tx.check = .ok ()) (hops : tx ≠ []) (d : Dialect) :
    update d tx = (tryRepeatedly d tx 1 (maxAttempts - 1)).noteFailure
      (unlessMissing fun f => s!"Update of {tx.length} operation(s) failed: {f.message}") := by
  unfold update
  rw [hcheck]
  change (if tx.isEmpty = true then _ else _) = _
  rw [if_neg (by simpa using hops)]

/-- An update that can be made is made in attempts. -/
theorem retried_update (hcheck : tx.check = .ok ()) (hops : tx ≠ []) (c : Client σ) :
    ∃ last, Retried service d tx c maxAttempts last
      ((update d tx).run (Client.respond service d) c) := by
  obtain ⟨last, h⟩ := @retried_tryRepeatedly σ service d tx 1 (maxAttempts - 1) c
  rw [update_checked hcheck hops]
  obtain ⟨hreply, hstate⟩ := run_noteFailure (Client.respond service d) c
    (unlessMissing fun f => s!"Update of {tx.length} operation(s) failed: {f.message}")
    (tryRepeatedly d tx 1 (maxAttempts - 1))
  exact ⟨last, h.limited, h.again, h.enough, hreply.trans h.reply, hstate.trans h.state⟩

/-- An update of nothing, or one that is refused for its names, says nothing to the server. -/
theorem calls_update_refused (hrefused : ¬(tx.check = .ok () ∧ tx ≠ [])) (c : Client σ) :
    (update d tx).calls (Client.respond service d) c = [] := by
  unfold update
  cases hcheck : tx.check with
  | error f => exact calls_refused (Client.respond service d) c f _
  | ok _ =>
    have hempty : tx = [] := by
      by_contra hops
      exact hrefused ⟨hcheck, hops⟩
    subst hempty
    rfl

/-! ### What the attempts leave -/

theorem ensures_update_whole {T : Tables} {c : Client Server} (h : AtRest T c) (tx : Transaction) :
    (update d tx).Ensures (failing d) c (Whole d tx T) := by
  unfold update
  rw [ensures_bind, ensures_check]
  cases hcheck : tx.check with
  | error f => exact h
  | ok _ =>
    dsimp only
    split
    · next hempty =>
      rw [List.isEmpty_iff] at hempty
      subst hempty
      exact ⟨T, h, rfl, by simp, fun _ => rfl, fun _ _ => rfl⟩
    · -- What has failed has left the tables as they were, so the next attempt starts on the same.
      refine ensures_noteFailure.mpr (ensures_tryRepeatedly (I := AtRest T) ?_ 1 _ h)
      intro c' hrest
      refine (ensures_tryUpdate hrest tx).mono ?_
      rintro (f | outcome) c'' hwhole
      · exact ⟨hwhole, fun _ _ _ => hwhole⟩
      · exact ⟨hwhole, nofun⟩

/-! ### Servers with more to them -/

/-- What the call sends to the server, if anything: a text and the values for its places. -/
def Client.sends (d : Dialect) (c : Client σ) : Call → Option (String × List Parameter)
  | .connect => none
  | .execute statement => if c.closed then none else some (statement.text d, statement.parameters)
  | .abandon =>
    if c.inTransaction && !c.closed then
      some (Statement.rollback.text d, Statement.rollback.parameters)
    else none

/-- What the call sends is answered as by a server that may fail every statement. -/
def FailsSafely (service : Service σ) (view : σ → Server) (d : Dialect) (call : Call)
    (c : Client σ) : Prop :=
  ∀ text parameters statement, c.sends d call = some (text, parameters) →
    Statement.read? d text parameters = some statement →
    Answered d statement (view c.server) (service.execute text parameters c.server).reply
      (view (service.execute text parameters c.server).state)

theorem allowed_of_failsSafely {view : σ → Server} {call : Call} {c : Client σ}
    (h : FailsSafely service view d call c) :
    (failing d).allows call (c.through view) (Client.respond service d call c).reply
      ((Client.respond service d call c).state.through view) := by
  obtain ⟨server, version, inTransaction, closed⟩ := c
  cases call with
  | connect => rfl
  | execute statement =>
    cases closed with
    | true => exact ⟨rfl, rfl⟩
    | false => exact ⟨h _ _ statement rfl (read?_text d statement), rfl⟩
  | abandon =>
    cases inTransaction with
    | false => rfl
    | true =>
      cases closed with
      | true => rfl
      | false => exact ⟨⟨_, h _ _ .rollback rfl (read?_text d .rollback)⟩, rfl⟩

/-- **An update is retried after conflicts only, five attempts at most, and it is made once or not at
    all.** The server may fail any statements of any attempts, with whatever faults, if commits that
    fail are not carried out and rollbacks are. The update comes to what its last attempt comes to. If
    it fails, the tables are as before; if it answers, they are what its operations make of the tables
    before. -/
theorem update_retried_whole (service : Service σ) (view : σ → Server) (d : Dialect) (config : Config)
    (tx : Transaction) (c : Client σ) (hrest : AtRest (view c.server).tables (c.through view))
    (hserver : ∀ e ∈ (update d tx).calls (Client.respond service d) c,
      FailsSafely service view d e.1 e.2) :
    (tx.check = .ok () ∧ tx ≠ [] →
      ∃ last, Retried service d tx c 5 last ((driver service d config).update tx c)) ∧
    (¬(tx.check = .ok () ∧ tx ≠ []) → (update d tx).calls (Client.respond service d) c = []) ∧
    Whole d tx (view c.server).tables ((driver service d config).update tx c).reply
      (((driver service d config).update tx c).state.through view) := by
  refine ⟨fun h => retried_update h.1 h.2 c, fun h => calls_update_refused h c, ?_⟩
  obtain ⟨_, hwhole, rfl⟩ := (ensures_update_whole hrest tx).run_along (Client.respond service d)
    (fun t s => t.through view = s) (FailsSafely service view d)
    (by
      rintro call t _ hgood rfl -
      exact ⟨_, allowed_of_failsSafely hgood, rfl⟩) hserver rfl
  exact hwhole

/-! ### Servers that follow a script -/

namespace ScriptedServer

/-- Executes a statement as the script says, without reading its text. -/
def unread (d : Dialect) (statement : Statement) (s : ScriptedServer) :
    Step ScriptedServer (Except Fault (List Row)) :=
  let (reply, s) := follow d (statement.text d) (Server.execute d statement) s
  ⟨reply, s, []⟩

theorem execute_text (statement : Statement) :
    (ScriptedServer.service d).execute (statement.text d) statement.parameters =
      unread d statement := by
  funext s
  have hanswer : Server.answer d (statement.text d) statement.parameters =
      Server.execute d statement := funext (Server.answer_text d statement)
  unfold unread
  rw [← hanswer]
  rfl

/-- What is done with a statement is known without its text. -/
theorem respond_eq (d : Dialect) :
    Client.respond (ScriptedServer.service d) d =
      Client.respondBy (ScriptedServer.service d).login (unread d) :=
  congrArg (Client.respondBy (ScriptedServer.service d).login) (funext execute_text)

/-- A scripted server may fail every statement, but only a rule that strikes behind a commit fails one
    that was carried out. -/
theorem answered (statement : Statement) (s : ScriptedServer)
    (hcommit : statement = .commit → ∀ rule ∈ s.rules, rule.after = false) :
    Answered d statement s.server (follow d (statement.text d) (Server.execute d statement) s).1
      (follow d (statement.text d) (Server.execute d statement) s).2.server := by
  unfold follow
  cases hfind : s.rules.find? fun rule => rule.matches s.count with
  | none => exact .served
  | some rule =>
    have hafter : statement = .commit → rule.after = false := fun h =>
      hcommit h rule (List.mem_of_find?_eq_some hfind)
    obtain ⟨first, times, after, empties, loses, error⟩ := rule
    dsimp only at hafter ⊢
    -- A statement that the rule fails is carried out before, or it is not.
    have hnot : (after || statement.text d == Statement.rollback.text d) = true →
        statement ≠ .commit := by
      rintro hdone rfl
      rw [hafter rfl] at hdone
      exact absurd hdone (by cases d <;> decide)
    have hrefused : (after || statement.text d == Statement.rollback.text d) = false →
        statement ≠ .rollback := by
      rintro hdone rfl
      simp at hdone
    cases loses with
    | true =>
      cases hdone : after || statement.text d == Statement.rollback.text d with
      | true => exact .lostAfter rfl (hnot hdone)
      | false => exact .lost rfl
    | false =>
      cases error with
      | some e =>
        have hloss : (Server.fault d e.2.2 e.1 e.2.1).isLoss = false := by
          cases d <;> rfl
        cases hdone : after || statement.text d == Statement.rollback.text d with
        | true =>
          exact .denied hloss (hnot hdone) ⟨Server.refused_tables .., Server.refused_saved ..⟩
        | false =>
          exact .refused hloss (hrefused hdone) ⟨Server.refused_tables .., Server.refused_saved ..⟩
      | none =>
        simp only [Bool.false_or, Option.isSome_none, Bool.not_false, Bool.or_true, if_true]
        cases empties with
        | true => exact .emptied
        | false =>
          have hrows : ((Server.execute d statement s.server).1.map fun rows => rows) =
              (Server.execute d statement s.server).1 := by
            cases (Server.execute d statement s.server).1 <;> rfl
          simp only [Bool.false_eq_true, if_false, hrows]
          exact .served

theorem rules_follow (text : String) (execute : Server → Except Fault (List Row) × Server)
    (s : ScriptedServer) : (follow d text execute s).2.rules = s.rules := by
  unfold follow
  dsimp only
  split
  · rfl
  · split
    · rfl
    · split <;> rfl

theorem rules_send (statement : Statement) (c : Client ScriptedServer) :
    (c.send (unread d) statement).state.server.rules = c.server.rules := by
  unfold Client.send
  split
  · rfl
  · exact rules_follow _ _ c.server

theorem rules_respond (call : Call) (c : Client ScriptedServer) :
    (Client.respond (ScriptedServer.service d) d call c).state.server.rules = c.server.rules := by
  rw [respond_eq]
  cases call with
  | connect => rfl
  | execute statement => exact rules_send statement c
  | abandon =>
    unfold Client.respondBy
    dsimp only
    split
    · exact rules_send .rollback c
    · rfl

/-- The script stays as it is while a program runs. -/
theorem rules_calls {α : Type} (p : Protocol α) (c : Client ScriptedServer) :
    ∀ e ∈ p.calls (Client.respond (ScriptedServer.service d) d) c,
      e.2.server.rules = c.server.rules := by
  intro e he
  obtain ⟨⟨⟩, hsame⟩ := (Ensures.free p).calls_along (Client.respond (ScriptedServer.service d) d)
    (fun t _ => t.server.rules = c.server.rules)
    (fun call t s h _ => ⟨s, trivial, (rules_respond call t).trans h⟩) rfl e he
  exact hsame

theorem safely {call : Call} {c : Client ScriptedServer}
    (hrules : ∀ rule ∈ c.server.rules, rule.after = false) :
    FailsSafely (ScriptedServer.service d) ScriptedServer.server d call c := by
  have hsent : ∀ statement sent : Statement,
      Statement.read? d (sent.text d) sent.parameters = some statement →
      Answered d statement c.server.server
        ((ScriptedServer.service d).execute (sent.text d) sent.parameters c.server).reply
        ((ScriptedServer.service d).execute (sent.text d) sent.parameters c.server).state.server := by
    intro statement sent hread
    rw [read?_text, Option.some_inj] at hread
    subst hread
    rw [execute_text]
    exact answered sent c.server fun _ => hrules
  rintro text parameters statement hsends hread
  cases call with
  | connect => cases hsends
  | execute sent =>
    unfold Client.sends at hsends
    dsimp only at hsends
    split at hsends
    · cases hsends
    · cases hsends
      exact hsent statement sent hread
  | abandon =>
    unfold Client.sends at hsends
    dsimp only at hsends
    split at hsends
    · cases hsends
      exact hsent statement .rollback hread
    · cases hsends

/-- What a script makes of any program is within what is expected of a server, if its rules strike
    before the statements are carried out. -/
theorem failsSafely {α : Type} (p : Protocol α) (c : Client ScriptedServer)
    (hrules : ∀ rule ∈ c.server.rules, rule.after = false) :
    ∀ e ∈ p.calls (Client.respond (ScriptedServer.service d) d) c,
      FailsSafely (ScriptedServer.service d) ScriptedServer.server d e.1 e.2 :=
  fun e he => safely fun rule hrule => hrules rule (rules_calls p c e he ▸ hrule)

end ScriptedServer

/-- A client of a server with one empty bucket `b`, which fails the fifth statement, a commit, for a
    conflict. -/
def conflictingClient : Client ScriptedServer where
  server :=
    { server := { tables := KeyMap.insert {} "b" {} }
      rules := [{ first := 4, error := some ("40001", 0, "could not serialize access") }] }

def conflictingUpdate : Transaction := [.set [0x62] [1] [7]]

theorem update_retried_whole_conflict :
    AtRest conflictingClient.server.server.tables (conflictingClient.through ScriptedServer.server) ∧
    (∀ e ∈ (update .postgres conflictingUpdate).calls
        (Client.respond (ScriptedServer.service .postgres) .postgres) conflictingClient,
      FailsSafely (ScriptedServer.service .postgres) ScriptedServer.server .postgres e.1 e.2) ∧
    ((driver (ScriptedServer.service .postgres) .postgres ⟨"", none, 1, 1⟩).update conflictingUpdate
      conflictingClient).reply = .ok [.written] ∧
    (∃ last, Retried (ScriptedServer.service .postgres) .postgres conflictingUpdate conflictingClient 5
      last ((driver (ScriptedServer.service .postgres) .postgres ⟨"", none, 1, 1⟩).update
        conflictingUpdate conflictingClient)) ∧
    ∃ T', Applied .postgres conflictingUpdate conflictingClient.server.server.tables T' [.written] := by
  have hrest : AtRest conflictingClient.server.server.tables
      (conflictingClient.through ScriptedServer.server) :=
    ⟨rfl, rfl, by simp [conflictingClient, Client.through]⟩
  have hserver := @ScriptedServer.failsSafely .postgres _ (update .postgres conflictingUpdate)
    conflictingClient (by decide)
  have hreply : ((driver (ScriptedServer.service .postgres) .postgres ⟨"", none, 1, 1⟩).update
      conflictingUpdate conflictingClient).reply = .ok [.written] := by
    change ((update .postgres conflictingUpdate).run (Client.respond (ScriptedServer.service .postgres)
      .postgres) conflictingClient).reply = _
    rw [ScriptedServer.respond_eq]
    decide +kernel
  have hupdate := update_retried_whole (ScriptedServer.service .postgres) ScriptedServer.server
    .postgres ⟨"", none, 1, 1⟩ conflictingUpdate conflictingClient hrest hserver
  -- What has been run is not to be run again.
  generalize (driver (ScriptedServer.service .postgres) .postgres ⟨"", none, 1, 1⟩).update
    conflictingUpdate conflictingClient = run at hreply hupdate ⊢
  obtain ⟨hretried, -, hwhole⟩ := hupdate
  rw [hreply] at hwhole
  obtain ⟨T', -, happlied⟩ := hwhole
  exact ⟨hrest, hserver, hreply, hretried ⟨rfl, by decide⟩, T', happlied⟩

end BucketStore.Sql
