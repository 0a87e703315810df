/-
  BucketStore/Proofs/ExpectedOutcomes.lean
  ========================================
  **What callers expect is never logged as an error.**

  That a bucket or a key is missing, that a bucket exists already, and that a
  compare-and-swap found another value are answers rather than faults.  Whatever the
  state of a driver, a call that comes to one of them logs no error, and neither does a
  call that succeeds (`expected_outcomes_log_no_error`).

  The engines in memory and in files cannot fail here.  A SQL server need not answer every
  statement as it should: it may answer with faults, conflicts and losses among them, if
  they fit the statements.  In the item store of a staging engine no write may be refused
  on purpose.
-/
import BucketStore.Proofs.Embedded.Logging
import BucketStore.Proofs.Sql.Logging
import BucketStore.Proofs.Staging.Logging
import BucketStore.Proofs.Staging.Reachable

namespace BucketStore

open Staging (MemoryItems Surroundings)
open Staging.Engine (recoverOn recoveryCalls)

/-- **Expected outcomes are never logged as failures.** Every call on every driver is discreet: if it
    answers, be it that a compare-and-swap found another value, or fails because something is missing
    or is there already, no line of its log is an error. In memory, on a table file and on a SQL server
    that answers as it should, that is so from every state; on a keyspace from every state that its
    driver can be in; and on a staging engine from every state from which no write that the call makes
    is refused on purpose. With a SQL server it remains so under faults, unless one tells of something
    that the statement cannot come upon. -/
theorem expected_outcomes_log_no_error :
    (∀ (config : Memory.Config) (s : Memory.Store) (c : Request ⊕ Unit),
      ((Memory.driver config).ask (fun _ => Memory.bucketNames) c s).Discreet) ∧
    (∀ (config : Keyspace.Config) (s : Keyspace.Store), Keyspace.Reached s →
      (∀ c : Request ⊕ Unit,
        ((Keyspace.driver config).ask (fun _ => Keyspace.bucketNames) c s).Discreet) ∧
      (Keyspace.persist s).Discreet) ∧
    (∀ (config : TableFile.Config) (file : TableFile.File) (c : Request ⊕ Unit),
      ((TableFile.driver config).ask (fun _ => TableFile.bucketNames) c file).Discreet) ∧
    (∀ (d : Sql.Dialect) (config : Sql.Config) (c : Sql.Client Sql.Server) (r : Request),
      ((Sql.driver (Sql.Server.service d) d config).perform r c).Discreet) ∧
    (∀ {σ : Type} (service : Sql.Service σ) (d : Sql.Dialect) (config : Sql.Config) (c : Sql.Client σ)
        (r : Request),
      (∀ e ∈ Sql.conversation service d config c r, Sql.AnswersFitting service d e.1 e.2) →
      ((Sql.driver service d config).perform r c).Discreet) ∧
    (∀ (around : Surroundings) (config : Staging.Config) (s : MemoryItems),
      (∀ r : Request,
        (∀ e ∈ Staging.Engine.conversation (MemoryItems.itemStore around) config s r,
          e.2.strikes e.1 = false) →
        ((Staging.Engine.driver (MemoryItems.itemStore around) config).perform r s).Discreet) ∧
      ∀ bucket : Bytes,
        (∀ e ∈ recoveryCalls (MemoryItems.itemStore around) config s bucket, e.2.strikes e.1 = false) →
        (recoverOn (MemoryItems.itemStore around) config bucket s).Discreet) := by
  refine ⟨fun config s c => ?_, fun config s hs => ⟨fun c => ?_, ?_⟩, fun config file c => ?_,
    fun d config c r => ?_, fun service d config c r hcalls => ?_, fun around config s => ?_⟩
  · exact ((Memory.discreet config).ask (fun _ => Memory.discreet_bucketNames) c s trivial).1
  · exact ((Keyspace.discreet config).ask (fun _ => Keyspace.discreet_bucketNames) c s
      (Keyspace.usable_of_reached hs)).1
  · exact (Keyspace.discreet_opened s (Keyspace.usable_of_reached hs)).1
  · exact ((TableFile.discreet config).ask (fun _ => TableFile.discreet_bucketNames) c file trivial).1
  · exact Sql.discreet_perform r fun _ _ => Sql.answersFitting_served
  · exact Sql.discreet_perform r hcalls
  · refine ⟨fun r hcalls => ?_, fun bucket hcalls => ?_⟩
    · refine Staging.Engine.discreet_perform r (fun e he => ?_)
        (fun b => MemoryItems.discreet_createBucket b s)
        (fun b => MemoryItems.discreet_deleteBucket b s) fun _ => nofun
      exact MemoryItems.answersFitting (hcalls e he)
    · exact Staging.Engine.discreet_recoverOn fun e he => MemoryItems.answersFitting (hcalls e he)

/-! ### Three calls in vain -/

/-- The step comes to the reply, and no line of its log is an error. -/
def Step.Quietly {σ α : Type} (step : Step σ (Except Failure α)) (reply : Except Failure α) : Prop :=
  step.reply = reply ∧ ∀ line ∈ step.log, line.level ≠ .error

theorem Step.Discreet.quietly {σ α : Type} {step : Step σ (Except Failure α)}
    {reply : Except Failure α} (h : step.Discreet) (hreply : step.reply = reply)
    (hexpected : ∀ f, reply = .error f → f.isExpected = true) : step.Quietly reply :=
  ⟨hreply, h fun f hf => hexpected f (hreply.symm.trans hf)⟩

/-- A keyspace that was opened, and in which a bucket was created. -/
def openedKeyspace : Keyspace.Store :=
  ((Keyspace.driver { path? := some "data" }).perform (.create [65])
    (Keyspace.openKeyspace { path? := some "data" } {}).state).state

/-- The bucket is created again. -/
def createdAgain : Step Keyspace.Store (Except Failure (Response ⊕ List Bytes)) :=
  (Keyspace.driver { path? := some "data" }).ask (fun _ => Keyspace.bucketNames)
    (.inl (.create [65]) : Request ⊕ Unit) openedKeyspace

/-- An update with a swap of a value that the key does not hold. -/
def vainSwap (bucket key : Bytes) : Request :=
  .update [.compareAndSwap bucket key (some [9]) [8], .set bucket key [7]]

/-- The server fails the commit for a conflict, and the update is made once more. -/
def swappedAfterConflict : Step (Sql.Client Sql.ScriptedServer) (Except Failure Response) :=
  (Sql.driver (Sql.ScriptedServer.service .postgres) .postgres ⟨"", none, 1, 1⟩).perform
    (vainSwap [0x62] [97]) Sql.conflictingClient

/-- What is done with the statements is known without their texts. -/
theorem swappedAfterConflict_eq : swappedAfterConflict =
    (do return .outcome (← (Sql.update .postgres
        [.compareAndSwap [0x62] [97] (some [9]) [8], .set [0x62] [97] [7]]).run
        (Sql.Client.respondBy (Sql.ScriptedServer.service .postgres).login
          (Sql.ScriptedServer.unread .postgres))) :
      Action (Sql.Client Sql.ScriptedServer) Response) Sql.conflictingClient := by
  rw [← Sql.ScriptedServer.respond_eq]
  rfl

/-- The key is locked by a client that crashed, and the lock is cleared. -/
def swappedAfterCrash : Step MemoryItems (Except Failure Response) :=
  (Staging.Engine.driver (MemoryItems.itemStore Staging.still) {}).perform (vainSwap [65] [97])
    Staging.crashed.heal

theorem expected_outcomes_log_no_error_in_vain :
    Keyspace.Reached openedKeyspace ∧ createdAgain.Quietly (.error (.bucketExists [65])) ∧
    (swappedAfterConflict.Quietly (.ok (.outcome [.swap ⟨none, false⟩, .written])) ∧
      swappedAfterConflict.log ≠ []) ∧
    (swappedAfterCrash.Quietly (.ok (.outcome [.swap ⟨some [49], false⟩, .written])) ∧
      swappedAfterCrash.log ≠ []) := by
  have hreached : Keyspace.Reached openedKeyspace := .called _ _ (.opened rfl)
  obtain ⟨-, hkeyspace, -, -, hsql, hstaging⟩ := expected_outcomes_log_no_error
  refine ⟨hreached, ?_, ⟨?_, ?_⟩, ⟨?_, by decide +kernel⟩⟩
  · apply Step.Discreet.quietly ((hkeyspace _ _ hreached).1 _)
    · decide +kernel
    · rintro _ ⟨⟩
      rfl
  · refine (hsql _ _ _ _ _ fun e he => Sql.answersFitting_scripted ?_).quietly ?_ nofun
    · rw [Sql.ScriptedServer.rules_calls _ _ e he]
      intro rule hrule state number text herror
      cases List.mem_singleton.mp hrule
      cases herror
      exact Sql.fitsAll_of_kind (by decide) (by decide) (by decide)
    · change swappedAfterConflict.reply = _
      rw [swappedAfterConflict_eq]
      decide +kernel
  · rw [swappedAfterConflict_eq]
    decide +kernel
  · refine ((hstaging _ _ _).1 _ ?_).quietly ?_ nofun
    · decide +kernel
    · decide +kernel

end BucketStore
