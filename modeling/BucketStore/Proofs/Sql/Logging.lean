/-
  BucketStore/Proofs/Sql/Logging.lean
  ===================================
  **On a SQL server, what is expected is no error.**

  A driver goes by the faults of the server, so all depends on what they tell.  A fault
  fits a statement unless it tells of something that the statement cannot come upon: a
  table that is created is not missing, and nothing else finds that something is there
  already, but the insertion of a row that a compare-and-swap takes for new.  A server
  that works answers with faults that fit (`fits_execute`); a lost connection, a conflict
  or a full disk fits any statement.

  Attempts are silent whatever they come to.  What is logged of a failure is logged where
  a call gives up, and for a missing bucket or key it is nothing.
-/
import BucketStore.Proofs.Logging
import BucketStore.Proofs.Sql.Retrying

namespace BucketStore.Sql

open Program hiding bind
open Protocol

variable {σ α : Type} {d : Dialect} {bucket key : Bytes}

/-! ### Faults that fit -/

/-- The fault tells of nothing that the statement cannot come upon. -/
def Fault.Fits (d : Dialect) (fault : Fault) : Statement → Prop
  | .on _ .create => fault.kind d ≠ .notFound
  | .on _ (.insert _ _) => fault.codeClass d ≠ .tableExists
  | _ => fault.kind d ≠ .alreadyExists

theorem kindOfState_ne (state : String) : kindOfState state ≠ .alreadyExists := by
  unfold kindOfState
  dsimp only
  repeat' split
  all_goals exact nofun

/-- That something is there already is told by two codes. -/
theorem codeClass_of_kind {fault : Fault} (h : fault.kind d = .alreadyExists) :
    fault.codeClass d = .duplicateKey ∨ fault.codeClass d = .tableExists := by
  unfold Fault.kind at h
  split at h
  all_goals try cases h
  next text state number =>
    split at h
    · next hclass => exact .inl hclass
    · next hclass => exact .inr hclass
    · cases h
    · cases state with
      | none => cases h
      | some state => exact absurd h (kindOfState_ne state)

theorem kind_bucketFailure {fault : Fault} (h : fault.kind d ≠ .alreadyExists) (bucket : Bytes) :
    (fault.bucketFailure d bucket).kind ≠ .alreadyExists := by
  unfold Fault.bucketFailure
  split
  · exact nofun
  · exact h

/-! ### Rows that cannot be read -/

theorem kind_column {index : Nat} {row : Row} {f : Failure} (h : column d index row = .error f) :
    f.kind ≠ .alreadyExists := by
  unfold column at h
  split at h <;> cases h <;> exact nofun

theorem kind_readValue {rows : List Row} {f : Failure} (h : readValue d rows = .error f) :
    f.kind ≠ .alreadyExists := by
  cases rows with
  | nil => cases h
  | cons row rest =>
    rcases bind_eq_error.mp h with hcolumn | ⟨_, -, h⟩
    · exact kind_column hcolumn
    · cases h

theorem kind_readPair {row : Row} {f : Failure} (h : readPair d row = .error f) :
    f.kind ≠ .alreadyExists := by
  rcases bind_eq_error.mp h with hcolumn | ⟨_, -, h⟩
  · exact kind_column hcolumn
  · rcases bind_eq_error.mp h with hcolumn | ⟨_, -, h⟩
    · exact kind_column hcolumn
    · cases h

theorem kind_pageLimit {size : UInt64} {f : Failure} (h : pageLimit size = .error f) :
    f.kind ≠ .alreadyExists := by
  rcases bind_eq_error.mp h with hmost | ⟨_, -, h⟩
  · rw [lookAhead_eq_error hmost]
    exact nofun
  · cases h

theorem kind_page {size : UInt64} {rows : List Row} {f : Failure}
    (h : Keyset.page size (rows.map (readPair d)) = .error f) : f.kind ≠ .alreadyExists := by
  rcases bind_eq_error.mp h with hfill | ⟨_, -, h⟩
  · obtain ⟨row, -, hrow⟩ := List.mem_map.mp (fill_eq_error hfill)
    exact kind_readPair hrow
  · cases h

/-! ### Silent programs -/

/-- Statements are answered with rows, or with faults that fit. -/
def fitting (d : Dialect) : (call : Call) → call.Reply → Prop
  | .connect, _ => True
  | .execute statement, reply => ∀ fault, reply = .error fault → fault.Fits d statement
  | .abandon, _ => True

theorem reports_tryExecute {statement : Statement} {E : Failure → Bool → Prop} :
    (tryExecute statement).Reports (fitting d)
      (fun r => ∀ fault, r = .error fault → fault.Fits d statement) E false :=
  reports_call fun _ hr => reports_done hr

theorem silent_execute {failure : Fault → Failure} {statement : Statement}
    (h : ∀ fault : Fault, fault.Fits d statement → (failure fault).kind ≠ .alreadyExists) :
    (execute failure statement).Silent (fitting d) := by
  refine reports_call fun r hr => ?_
  cases r with
  | ok rows => exact reports_done trivial
  | error fault => exact reports_fail ⟨rfl, h fault (hr fault rfl)⟩

theorem silent_perform {failure : Fault → Failure} {statement : Statement}
    (h : ∀ fault : Fault, fault.Fits d statement → (failure fault).kind ≠ .alreadyExists) :
    (perform failure statement).Silent (fitting d) := (silent_execute h).seq fun _ => silent_pure ()

/-- A transaction that is abandoned fails as the program in it has failed. -/
theorem reports_transaction {p : Protocol α} {P : α → Prop} {E : Failure → Bool → Prop} {loud : Bool}
    (h : p.Reports (fitting d) P E loud) : (transaction p).Reports (fitting d) P E loud := by
  unfold transaction
  change (p.attempt.bind _).Reports (fitting d) P E loud
  induction p generalizing loud with
  | done a => exact h
  | fail f => exact fun _ _ => h
  | note line p ih => exact ih h
  | call c k ih => exact fun r hr => ih r (h r hr)

theorem silent_tableOf (bucket : Bytes) : (tableOf d bucket).Silent (fitting d) := by
  refine silent_ofExcept fun f hf => ?_
  cases htable : d.table bucket with
  | ok table =>
    rw [htable] at hf
    cases hf
  | error fault =>
    rw [htable] at hf
    cases hf
    exact nofun

theorem silent_beginIsolated (level : Isolation) : (beginIsolated d level).Silent (fitting d) := by
  have hlevel : (perform (·.failure d) (.isolate level)).Silent (fitting d) :=
    silent_perform fun _ h => h
  have hbegin : (perform (·.failure d) .beginTransaction).Silent (fitting d) :=
    silent_perform fun _ h => h
  unfold beginIsolated
  dsimp only
  split
  · exact hlevel.seq fun _ => hbegin
  · exact hbegin.seq fun _ => hlevel

theorem silent_commit : (commit d).Silent (fitting d) := silent_perform fun _ h => h

theorem silent_fetchPage (table : Table) (size : UInt64) (token : Option Token) :
    (fetchPage d bucket table size token).Silent (fitting d) := by
  refine (silent_ofExcept fun f => kind_pageLimit).seq fun limit => ?_
  refine Reports.seq ?_ fun rows => silent_ofExcept fun f => kind_page
  cases token <;> exact silent_execute fun _ h => kind_bucketFailure h bucket

theorem silent_claimKey (table : Table) (key new : Bytes) :
    (claimKey d bucket table key new).Silent (fitting d) := by
  refine Reports.seq (silent_perform fun _ h => h) fun _ => reports_tryExecute.bind fun r hr => ?_
  cases r with
  | ok rows => exact silent_commit.seq fun _ => silent_pure _
  | error fault =>
    dsimp only
    split
    · refine Reports.seq (silent_perform fun _ h => h) fun _ => ?_
      refine Reports.seq (silent_execute fun _ h => kind_bucketFailure h bucket) fun rows => ?_
      exact (silent_ofExcept fun f => kind_readValue).seq fun _ => silent_pure _
    · next hclass =>
      apply silent_fail
      apply kind_bucketFailure
      exact fun hkind => (codeClass_of_kind hkind).elim hclass (hr fault rfl)

theorem silent_replaceValue (table : Table) (key old new : Bytes) :
    (replaceValue d bucket table key old new).Silent (fitting d) := by
  refine Reports.seq (silent_perform fun _ h => h) fun _ => ?_
  refine Reports.seq (silent_execute fun _ h => kind_bucketFailure h bucket) fun rows => ?_
  refine Reports.seq (silent_ofExcept fun f => kind_readValue) fun value => ?_
  dsimp only
  split
  · refine Reports.seq (silent_perform fun _ h => h) fun _ => ?_
    exact silent_commit.seq fun _ => silent_pure _
  · exact silent_commit.seq fun _ => silent_pure _

/-! ### Silent attempts -/

theorem silent_lockKey (ws : WriteSet) (place : Bytes × Bytes) :
    (lockKey d ws place).Silent (fitting d) := by
  refine (silent_tableOf place.1).seq fun table => Reports.seq ?_ fun rows => ?_
  · apply Reports.mapFailure
    exact silent_execute fun _ h => kind_bucketFailure h place.1
  · exact (silent_ofExcept fun f => kind_readValue).seq fun _ => silent_pure _

theorem silent_writeChange (c : Change) : (writeChange d c).Silent (fitting d) := by
  refine (silent_tableOf c.bucket).seq fun table => Reports.mapFailure ?_
  cases c.value <;> exact silent_perform fun _ h => kind_bucketFailure h c.bucket

theorem silent_tryUpdate (tx : Transaction) : (tryUpdate d tx).Silent (fitting d) := by
  refine reports_transaction ((silent_beginIsolated _).seq fun _ => Reports.seq ?_ fun ws => ?_)
  · exact reports_foldlM silent_lockKey {}
  · split
    · next f _ hexecute =>
      obtain ⟨b, k, rfl | rfl⟩ := WriteSet.execute_eq_error (congrArg Prod.fst hexecute)
      · exact silent_fail nofun
      · exact silent_fail nofun
    · refine Reports.seq (reports_forM silent_writeChange) fun _ => ?_
      exact silent_commit.seq fun _ => silent_pure _

/-- Attempts after conflicts are no more told of than the conflicts are. -/
theorem silent_tryRepeatedly (tx : Transaction) (attempt remaining : Nat) :
    (tryRepeatedly d tx attempt remaining).Silent (fitting d) := by
  induction remaining generalizing attempt with
  | zero => exact silent_tryUpdate tx
  | succ remaining ih =>
    refine Reports.bind (silent_tryUpdate tx).attempt fun r hr => ?_
    cases r with
    | ok outcome => exact silent_pure outcome
    | error f =>
      dsimp only
      split
      · exact (reports_log rfl).bind fun _ _ => ih (attempt + 1)
      · exact silent_fail (hr.2 f rfl)

/-! ### The calls -/

/-- What logs of a failure that something is wrong, but not that something is missing, is discreet. -/
theorem discreet_naming {action : String} {p : Protocol α} (h : p.Guarded (fitting d)) :
    (naming action bucket key p).Discreet (fitting d) :=
  (h.noted _).reworded fun _ => rfl

/-- A call is as discreet as what it does with the table, once the names are checked. -/
theorem discreet_onTable {checked : Except Failure Unit} {p : Table → Protocol α}
    (h : ∀ table, (p table).Discreet (fitting d)) :
    (do
      .check checked
      p (← tableOf d bucket) : Protocol α).Discreet (fitting d) :=
  discreet_check.seq fun _ => (Silent.discreet (silent_tableOf bucket)).seq h

theorem discreet_create (bucket : Bytes) : (create d bucket).Discreet (fitting d) := by
  refine discreet_onTable fun table => ?_
  refine reports_tryExecute.bind fun r hr => ?_
  cases r with
  | ok rows => exact reports_log rfl
  | error fault =>
    have hfits : fault.kind d ≠ .notFound := hr fault rfl
    dsimp only
    split
    · exact reports_fail (Failure.discreet_silent _)
    · exact reports_fail (Failure.discreet_silent _)
    · next hclass hclass' =>
      -- The fault is complained about: the table is not there already, and it is not missing.
      intro _
      have hexists : fault.kind d ≠ .alreadyExists := fun hkind =>
        (codeClass_of_kind hkind).elim hclass' hclass
      simp [Failure.isExpected, Failure.kind, Fault.failure, hfits, hexists]

theorem discreet_drop (bucket : Bytes) : (drop d bucket).Discreet (fitting d) := by
  refine discreet_onTable fun table => ?_
  refine Reports.seq ?_ fun _ => reports_log rfl
  refine Reports.noted (Reports.guarded ?_) _
  exact silent_perform fun _ h => kind_bucketFailure h bucket

theorem discreet_onKey {action : String} {t : TableStatement}
    (h : ∀ table, ∀ fault : Fault, fault.Fits d (.on table t) → fault.kind d ≠ .alreadyExists) :
    (onKey d action bucket key t).Discreet (fitting d) := by
  refine discreet_onTable fun table => ?_
  refine discreet_naming (Reports.guarded ?_)
  exact silent_execute fun fault hfault => kind_bucketFailure (h table fault hfault) bucket

theorem discreet_get (bucket key : Bytes) : (get d bucket key).Discreet (fitting d) := by
  refine Reports.seq (discreet_onKey fun _ _ h => h) fun rows => Silent.discreet ?_
  refine Reports.seq (silent_ofExcept fun f => kind_readValue) fun value => ?_
  cases value with
  | some value => exact silent_pure value
  | none => exact silent_fail nofun

theorem discreet_set (bucket key value : Bytes) : (set d bucket key value).Discreet (fitting d) :=
  Reports.seq (discreet_onKey fun _ _ h => h) fun _ => reports_pure trivial

theorem discreet_delete (bucket key : Bytes) : (delete d bucket key).Discreet (fitting d) :=
  Reports.seq (discreet_onKey fun _ _ h => h) fun _ => reports_pure trivial

theorem discreet_list (size : UInt64) (limit : String → Nat) (bucket : Bytes) :
    (list d size limit bucket).Discreet (fitting d) := by
  refine discreet_onTable fun table => ?_
  refine Reports.reworded (Reports.noted (reports_transaction ?_) _) fun _ => rfl
  refine (silent_beginIsolated _).guarded.seq fun _ => Reports.seq ?_ fun entries => ?_
  · refine guarded_listAll (fun _ token => ?_) nofun _ ()
    exact (silent_fetchPage table size token).guarded.seq fun _ => reports_pure trivial
  · exact silent_commit.guarded.seq fun _ => reports_pure trivial

theorem discreet_compareAndSwap (bucket key : Bytes) (old : Option Bytes) (new : Bytes) :
    (compareAndSwap d bucket key old new).Discreet (fitting d) := by
  refine discreet_onTable fun table => ?_
  refine discreet_naming (reports_transaction (Reports.guarded ?_))
  cases old with
  | none => exact silent_claimKey table key new
  | some old => exact silent_replaceValue table key old new

theorem discreet_update (tx : Transaction) : (update d tx).Discreet (fitting d) := by
  refine discreet_check.seq fun _ => ?_
  split
  · exact reports_pure trivial
  · exact (silent_tryRepeatedly tx 1 _).guarded.noted _

/-! ### Requests -/

/-- The calls on the client that a request makes, each with the client on which it is made. -/
def conversation (service : Service σ) (d : Dialect) (config : Config) (c : Client σ) :
    Request → List (Call × Client σ)
  | .create b => (create d b).calls (Client.respond service d) c
  | .drop b => (drop d b).calls (Client.respond service d) c
  | .get b k => (get d b k).calls (Client.respond service d) c
  | .set b k value => (set d b k value).calls (Client.respond service d) c
  | .delete b k => (delete d b k).calls (Client.respond service d) c
  | .list b =>
    (list d config.pageSize (service.pageBound c.server) b).calls (Client.respond service d) c
  | .update tx => (update d tx).calls (Client.respond service d) c
  | .compareAndSwap b k old new =>
    (compareAndSwap d b k old new).calls (Client.respond service d) c
  | .close => []

/-- What the call sends is answered with nothing that the statement cannot come upon that it makes, and
    without an error in the log. -/
def AnswersFitting (service : Service σ) (d : Dialect) (call : Call) (c : Client σ) : Prop :=
  ∀ text parameters statement, c.sends d call = some (text, parameters) →
    Statement.read? d text parameters = some statement →
    (∀ fault, (service.execute text parameters c.server).reply = .error fault →
      fault.Fits d statement) ∧
    ∀ line ∈ (service.execute text parameters c.server).log, line.level ≠ .error

theorem fits_poolClosed (statement : Statement) : Fault.poolClosed.Fits d statement := by
  unfold Fault.Fits
  split <;> exact nofun

/-- A client passes on what fits; of its own it adds that the pool is closed. -/
theorem fitting_respond {service : Service σ} {call : Call} {c : Client σ}
    (h : AnswersFitting service d call c) :
    fitting d call (Client.respond service d call c).reply ∧
      Log.loud (Client.respond service d call c).log = false := by
  obtain ⟨server, version, inTransaction, closed⟩ := c
  cases call with
  | connect => exact ⟨trivial, rfl⟩
  | execute statement =>
    cases closed with
    | true =>
      refine ⟨?_, rfl⟩
      rintro _ ⟨⟩
      exact fits_poolClosed statement
    | false =>
      obtain ⟨hfits, hquiet⟩ := h _ _ statement rfl (read?_text d statement)
      exact ⟨hfits, Log.loud_eq_false.mpr hquiet⟩
  | abandon =>
    refine ⟨trivial, ?_⟩
    cases inTransaction with
    | false => rfl
    | true =>
      cases closed with
      | true => rfl
      | false => exact Log.loud_eq_false.mpr (h _ _ .rollback rfl (read?_text d .rollback)).2

/-- **Every request is discreet**, whatever the client's state and whatever the server, if it answers
    statements fittingly. -/
theorem discreet_perform {service : Service σ} {config : Config} {c : Client σ} (r : Request)
    (h : ∀ e ∈ conversation service d config c r, AnswersFitting service d e.1 e.2) :
    ((driver service d config).perform r c).Discreet := by
  have hrun : ∀ {β : Type} {p : Protocol β}, p.Discreet (fitting d) →
      (∀ e ∈ p.calls (Client.respond service d) c, AnswersFitting service d e.1 e.2) →
      (p.run (Client.respond service d) c).Discreet := fun hp hcalls =>
    Discreet.run hp (Client.respond service d) fun e he => fitting_respond (hcalls e he)
  cases r with
  | create b => exact (hrun (discreet_create b) h).map _
  | drop b => exact (hrun (discreet_drop b) h).map _
  | get b k => exact (hrun (discreet_get b k) h).map _
  | set b k value => exact (hrun (discreet_set b k value) h).map _
  | delete b k => exact (hrun (discreet_delete b k) h).map _
  | list b =>
    have hlist : ((driver service d config).list b c).Discreet :=
      hrun (discreet_list config.pageSize _ b) h
    exact hlist.map _
  | update tx => exact (hrun (discreet_update tx) h).map _
  | compareAndSwap b k old new => exact (hrun (discreet_compareAndSwap b k old new) h).map _
  | close =>
    refine Step.Discreet.map ?_ _
    obtain ⟨server, version, inTransaction, closed⟩ := c
    cases closed with
    | true => exact fun _ => nofun
    | false => exact Step.discreet_iff.mpr rfl

/-! ### A server that works -/

/-- A fault that tells why a statement means nothing fits it. -/
theorem fits_faultOf {t : TableStatement} {found : Option Rows} {refusal : CodeClass}
    (h : t.meaning found = .error refusal) (dropping : Bool) (table : Table) :
    (Server.faultOf d dropping refusal).Fits d (.on table t) := by
  have hmissing : (Server.faultOf d dropping .missingTable).kind d ≠ .alreadyExists := by
    cases d <;> cases dropping <;> decide
  cases t with
  | create =>
    cases found with
    | none => cases h
    | some rows =>
      cases h
      have hexists : (Server.faultOf d dropping .tableExists).kind d ≠ .notFound := by
        cases d <;> cases dropping <;> decide
      exact hexists
  | insert key value =>
    have hrefusal : refusal ≠ .tableExists := by
      rintro rfl
      cases found with
      | none => cases h
      | some rows =>
        unfold TableStatement.meaning at h
        dsimp only at h
        split at h <;> cases h
    exact fun heq => hrefusal ((Server.codeClass_faultOf d dropping refusal).symm.trans heq)
  | _ =>
    cases found with
    | none =>
      cases h
      exact hmissing
    | some rows => cases h

/-- The fault fits whatever statement. -/
def Fault.FitsAll (d : Dialect) (fault : Fault) : Prop := ∀ statement, fault.Fits d statement

theorem fitsAll_of_kind {fault : Fault} (hmissing : fault.kind d ≠ .notFound)
    (hexists : fault.kind d ≠ .alreadyExists) (hclass : fault.codeClass d ≠ .tableExists) :
    fault.FitsAll d := by
  intro statement
  unfold Fault.Fits
  split
  · exact hmissing
  · exact hclass
  · exact hexists

theorem fitsAll_lost : (ScriptedServer.lost d).FitsAll d := by
  apply fitsAll_of_kind <;> cases d <;> exact nofun

theorem fitsAll_transactionFailed : Server.transactionFailed.FitsAll d := by
  apply fitsAll_of_kind <;> cases d <;> decide

theorem fitsAll_isolationRefused : (Server.isolationRefused d).FitsAll d := by
  apply fitsAll_of_kind <;> cases d <;> decide

theorem fits_execute (statement : Statement) (s : Server) :
    ∀ fault, (Server.execute d statement s).1 = .error fault → fault.Fits d statement := by
  have hproceed : ∀ fault, (Server.proceed d statement s).1 = .error fault →
      fault.Fits d statement := by
    intro fault h
    unfold Server.proceed at h
    split at h
    · next table t =>
      split at h
      · cases h
      · next hmeaning =>
        cases h
        exact fits_faultOf hmeaning (t == .drop) table
    · cases h
    · split at h
      · cases h
      · split at h
        · cases h
          exact fitsAll_isolationRefused _
        · cases h
    · cases h
    · cases h
  intro fault h
  unfold Server.execute at h
  split at h
  · cases h
  · cases h
  · split at h
    · cases h
      exact fitsAll_transactionFailed _
    · exact hproceed fault h

/-- A server that answers every statement as it should answers fittingly. -/
theorem answersFitting_served {call : Call} {c : Client Server} :
    AnswersFitting (Server.service d) d call c := by
  intro text parameters statement _ hread
  refine ⟨fun fault hfault => fits_execute statement c.server fault ?_, nofun⟩
  rw [← Server.answer_of_read hread]
  exact hfault

/-- The faults of a server that follows a script are its own, or those of the script. -/
theorem scripted_eq_error {text : String} {execute : Server → Except Fault (List Row) × Server}
    {s : ScriptedServer} {fault : Fault}
    (h : (ScriptedServer.follow d text execute s).1 = .error fault) :
    (execute s.server).1 = .error fault ∨ fault = ScriptedServer.lost d ∨
      ∃ rule ∈ s.rules, ∃ state number words, rule.error = some (state, number, words) ∧
        fault = Server.fault d words state number := by
  unfold ScriptedServer.follow at h
  dsimp only at h
  split at h
  · exact .inl h
  · next rule hfind =>
    have hrule := List.mem_of_find?_eq_some hfind
    split at h
    · exact .inr (.inl (Except.error.inj h).symm)
    · split at h
      · next state number words herror =>
        exact .inr (.inr ⟨rule, hrule, state, number, words, herror, (Except.error.inj h).symm⟩)
      · refine .inl ?_
        cases hexecute : (execute s.server).1 with
        | ok rows =>
          rw [hexecute] at h
          cases h
        | error fault' =>
          rw [hexecute] at h
          exact h

/-- A server that follows a script answers fittingly if the faults of the script fit. -/
theorem answersFitting_scripted {call : Call} {c : Client ScriptedServer}
    (h : ∀ rule ∈ c.server.rules, ∀ state number text, rule.error = some (state, number, text) →
      (Server.fault d text state number).FitsAll d) :
    AnswersFitting (ScriptedServer.service d) d call c := by
  intro text parameters statement _ hread
  refine ⟨fun fault hfault => ?_, nofun⟩
  rcases scripted_eq_error hfault with hserved | rfl | ⟨rule, hrule, state, number, words, herror, rfl⟩
  · apply fits_execute statement c.server.server
    rw [← Server.answer_of_read hread]
    exact hserved
  · exact fitsAll_lost statement
  · exact h rule hrule state number words herror statement

end BucketStore.Sql
