/-
  BucketStore/Proofs/Sql/Isolation.lean
  =====================================
  **Updates and listings speak of tables only in transactions that are isolated.**

  The server takes an isolation where its dialect lets it be set, and only there
  (`Server.takesIsolation`).  Whatever state a client is in, a transaction that has begun
  with an isolation has it (`leaves_beginIsolated`), and what is answered in it takes
  nothing of it (`Server.Isolated.on`).  So no statement of an update or a listing reaches
  a table outside of such a transaction, whatever fails and however often an update is
  tried (`calls_isolated`).
-/
import BucketStore.Proofs.Sql.Retrying

namespace BucketStore.Sql

open Program hiding bind
open Protocol

variable {σ : Type} {d : Dialect} {s s' : Server} {level : Isolation} {rows : List Row}
  {c c' : Client Server} {tx : Transaction}

/-! ### Servers in an isolated transaction -/

/-- A transaction is open, and it is isolated like this. -/
structure Server.Isolated (level : Isolation) (s : Server) : Prop where
  busy : s.saved.isSome = true
  isolation : s.isolation = some level

/-- A transaction that begins has the isolation that was set for it. -/
theorem Server.begins (h : execute d .beginTransaction s = (.ok rows, s')) :
    s'.saved.isSome = true ∧ s'.isolation = s.isolation := by
  change (if s.failed = true then (.error transactionFailed, s)
    else (.ok [], if s.saved.isSome && d == .postgres then s else s.begun) :
      Except Fault (List Row) × Server) = _ at h
  split at h
  · cases h
  · split at h
    · next hbusy =>
      cases h
      exact ⟨(Bool.and_eq_true _ _ ▸ hbusy).1, rfl⟩
    · cases h
      exact ⟨rfl, rfl⟩

/-- Where a dialect sets the isolation of a transaction, it is set or refused. -/
theorem Server.isolates (h : execute d (.isolate level) s = (.ok rows, s'))
    (hplace : s.saved.isSome = true ∨ d = .mysql) :
    s'.isolation = some level ∧ s'.saved = s.saved := by
  rw [(Statement.inner_isolate level).execute] at h
  unfold proceed at h
  split at h
  · cases h
  · dsimp only at h
    split at h
    · cases h
      exact ⟨rfl, rfl⟩
    · next htakes =>
      split at h
      · cases h
      · next hidle =>
        rcases hplace with hbusy | rfl
        · exact absurd hbusy hidle
        · refine absurd ?_ htakes
          simpa [takesIsolation] using hidle

/-- What is answered in a transaction leaves it isolated as it is. -/
theorem Server.Isolated.on (h : s.Isolated level) {table : Table} {t : TableStatement}
    (hexecute : execute d (.on table t) s = (.ok rows, s')) : s'.Isolated level := by
  obtain ⟨hfailed, -⟩ := (Statement.inner_on table t).unfailed hexecute
  have hasked : s.asked = { s with queried := true } := if_pos h.busy
  cases hmeaning : t.meaning (s.tables.get? table.name) with
  | ok meant =>
    rw [execute_answered hfailed hmeaning, hasked] at hexecute
    cases hexecute
    exact ⟨h.busy, h.isolation⟩
  | error refusal =>
    rw [execute_refused hfailed hmeaning] at hexecute
    cases hexecute

/-! ### Programs under a contract -/

section

variable {τ α : Type} {K : Contract Call Call.Reply τ} {t : τ} {statement : Statement}
  {failure : Fault → Failure}

theorem leaves_execute {R : List Row → τ → Prop} (hneeds : K.needs (.execute statement) t)
    (hR : ∀ rows t', K.allows (.execute statement) t (.ok rows) t' → R rows t') :
    (execute failure statement).Leaves K t R := by
  refine ⟨hneeds, ?_⟩
  rintro (fault | rows) t' hallows
  · exact leaves_fail
  · exact leaves_done (hR rows t' hallows)

theorem leaves_perform {I : τ → Prop} (hneeds : K.needs (.execute statement) t)
    (hI : ∀ rows t', K.allows (.execute statement) t (.ok rows) t' → I t') :
    (perform failure statement).Leaves K t fun _ => I :=
  (leaves_execute (R := fun _ => I) hneeds hI).bind fun _ _ h => leaves_done h

/-- A transaction that fails is abandoned, and nothing is left to be said of it. -/
theorem leaves_transaction {p : Protocol α} {R : α → τ → Prop} (habandon : ∀ t, K.needs .abandon t)
    (h : p.Leaves K t R) : (transaction p).Leaves K t R := by
  refine ensures_bind.mpr (ensures_attempt.mpr (Ensures.mono h ?_))
  rintro (f | a) t' hR
  · exact ⟨habandon t', fun _ _ _ => leaves_fail⟩
  · exact leaves_done (hR a rfl)

/-- If an attempt can be made from every state, so can an update. -/
theorem leaves_update (h : ∀ t, (tryUpdate d tx).Leaves K t fun _ _ => True) (t : τ) :
    (update d tx).Leaves K t fun _ _ => True := by
  refine (leaves_check (R := fun _ _ => True) fun _ _ => trivial).bind fun _ t₁ _ => ?_
  split
  · exact leaves_pure trivial
  · refine Leaves.noteFailure (ensures_tryRepeatedly (I := fun _ => True) ?_ 1 _ trivial)
    exact fun t₂ _ => Ensures.mono (h t₂) fun _ _ hR => ⟨hR, fun _ _ _ => trivial⟩

end

/-! ### The contract of isolated statements -/

/-- The client's server is in a transaction that is isolated like this. -/
def Client.Isolated (level : Isolation) (c : Client Server) : Prop := c.server.Isolated level

/-- Statements may fail, and those about tables are made in transactions that are isolated like this. -/
def isolating (d : Dialect) (level : Isolation) : Contract Call Call.Reply (Client Server) :=
  { failing d with
    needs
      | .execute (.on _ _), c => c.Isolated level
      | _, _ => True }

/-- What answers was executed. -/
theorem executed_of_allows {statement : Statement}
    (h : (isolating d level).allows (.execute statement) c (.ok rows) c') :
    ∃ found, Server.execute d statement c.server = (.ok found, c'.server) := by
  change if c.closed = true then _ else _ at h
  split at h
  · cases h.1
  · obtain ⟨found, hexecute, -⟩ := h.1.rows
    exact ⟨found, hexecute⟩

theorem leaves_execute_on {failure : Fault → Failure} (h : c.Isolated level) (table : Table)
    (t : TableStatement) : (execute failure (.on table t)).Leaves (isolating d level) c
      fun _ => Client.Isolated level := by
  refine leaves_execute h fun rows c' hallows => ?_
  obtain ⟨found, hexecute⟩ := executed_of_allows hallows
  exact h.on hexecute

/-- From whatever state, a transaction that has begun with an isolation has it. -/
theorem leaves_beginIsolated (c : Client Server) :
    (beginIsolated d level).Leaves (isolating d level) c fun _ => Client.Isolated level := by
  unfold beginIsolated
  cases d with
  | postgres =>
    refine (leaves_perform (I := fun c => c.server.saved.isSome = true) ?_ ?_).bind ?_
    · trivial
    · intro rows c₁ hallows
      obtain ⟨found, hexecute⟩ := executed_of_allows hallows
      exact (Server.begins hexecute).1
    · intro _ c₁ hbusy
      refine leaves_perform trivial fun rows c₂ hallows => ?_
      obtain ⟨found, hexecute⟩ := executed_of_allows hallows
      obtain ⟨hisolation, hsaved⟩ := Server.isolates hexecute (.inl hbusy)
      exact ⟨hsaved ▸ hbusy, hisolation⟩
  | mysql =>
    refine (leaves_perform (I := fun c => c.server.isolation = some level) ?_ ?_).bind ?_
    · trivial
    · intro rows c₁ hallows
      obtain ⟨found, hexecute⟩ := executed_of_allows hallows
      exact (Server.isolates hexecute (.inr rfl)).1
    · intro _ c₁ hisolation
      refine leaves_perform trivial fun rows c₂ hallows => ?_
      obtain ⟨found, hexecute⟩ := executed_of_allows hallows
      obtain ⟨hbusy, hkept⟩ := Server.begins hexecute
      exact ⟨hbusy, hkept.trans hisolation⟩

/-! ### Updates and listings -/

theorem leaves_tableOf {I : Client Server → Prop} (h : I c) (bucket : Bytes) :
    (tableOf d bucket).Leaves (isolating d level) c fun _ => I := leaves_ofExcept fun _ _ => h

theorem leaves_lockKey (h : c.Isolated level) (ws : WriteSet) (place : Bytes × Bytes) :
    (lockKey d ws place).Leaves (isolating d level) c fun _ => Client.Isolated level := by
  refine (leaves_tableOf h place.1).bind fun table c₁ h₁ => ?_
  refine (leaves_execute_on h₁ ..).mapFailure.bind fun rows c₂ h₂ => ?_
  refine (leaves_ofExcept (R := fun _ => Client.Isolated level) fun _ _ => h₂).bind ?_
  exact fun value c₃ h₃ => leaves_pure h₃

theorem leaves_writeChange (h : c.Isolated level) (change : Change) :
    (writeChange d change).Leaves (isolating d level) c fun _ => Client.Isolated level := by
  refine (leaves_tableOf h change.bucket).bind fun table c₁ h₁ => Leaves.mapFailure ?_
  exact (leaves_execute_on h₁ ..).bind fun _ _ h₂ => leaves_done h₂

theorem leaves_commit (c : Client Server) :
    (commit d).Leaves (isolating d level) c fun _ _ => True :=
  leaves_perform trivial fun _ _ _ => trivial

theorem leaves_tryUpdate (tx : Transaction) (c : Client Server) :
    (tryUpdate d tx).Leaves (isolating d d.updateIsolation) c fun _ _ => True := by
  refine leaves_transaction (fun _ => trivial) ((leaves_beginIsolated c).bind fun _ c₁ h₁ => ?_)
  refine Leaves.bind (leaves_foldlM _ (fun ws place _ _ h => leaves_lockKey h ws place) _ h₁) ?_
  intro ws c₂ h₂
  split
  · exact leaves_fail
  · refine (leaves_forM _ (fun change _ _ h => leaves_writeChange h change) h₂).bind fun _ c₃ _ => ?_
    exact (leaves_commit c₃).bind fun _ _ _ => leaves_pure trivial

theorem leaves_fetchPage (h : c.Isolated level) (bucket : Bytes) (table : Table) (size : UInt64)
    (token : Option Token) : (fetchPage d bucket table size token).Leaves (isolating d level) c
      fun _ => Client.Isolated level := by
  refine (leaves_ofExcept (R := fun _ => Client.Isolated level) fun _ _ => h).bind fun limit c₁ h₁ => ?_
  exact (leaves_execute_on h₁ ..).bind fun rows c₂ h₂ => leaves_ofExcept fun _ _ => h₂

theorem leaves_list (size : UInt64) (limit : String → Nat) (bucket : Bytes) (c : Client Server) :
    (list d size limit bucket).Leaves (isolating d .repeatableRead) c fun _ _ => True := by
  refine (leaves_check (R := fun _ _ => True) fun _ _ => trivial).bind fun _ c₁ _ => ?_
  refine (leaves_tableOf (I := fun _ => True) trivial bucket).bind fun table c₂ _ => ?_
  refine (leaves_transaction (fun _ => trivial) ?_).noteFailure.mapFailure
  refine (leaves_beginIsolated c₂).bind fun _ c₃ h₃ => ?_
  refine (leaves_listAll (fun _ token c h => ?_) _ h₃).bind fun entries c₄ _ => ?_
  · exact (leaves_fetchPage h ..).bind fun page c' h' => leaves_pure h'
  · exact (leaves_commit c₄).bind fun _ _ _ => leaves_pure trivial

/-! ### Runs -/

/-- Every statement about a table is made in a transaction that is isolated like this. -/
def CallsIsolated (view : σ → Server) (level : Isolation) (calls : List (Call × Client σ)) : Prop :=
  ∀ table t c, (Call.execute (.on table t), c) ∈ calls → (view c.server).Isolated level

theorem callsIsolated_of_leaves {α : Type} {service : Service σ} {view : σ → Server} {p : Protocol α}
    {c : Client σ} (h : p.Leaves (isolating d level) (c.through view) fun _ _ => True)
    (hserver : ∀ e ∈ p.calls (Client.respond service d) c, FailsSafely service view d e.1 e.2) :
    CallsIsolated view level (p.calls (Client.respond service d) c) := by
  intro table t c' hcall
  obtain ⟨_, rfl, hisolated⟩ := Ensures.needs_along (Client.respond service d)
    (fun t s => t.through view = s) (FailsSafely service view d)
    (by
      rintro call t _ hgood rfl -
      exact ⟨_, allowed_of_failsSafely hgood, rfl⟩) h hserver rfl _ hcall
  exact hisolated

/-- **Updates and listings speak of tables only in transactions that are isolated.** Whatever
    statements a server fails, an update on PostgreSQL finds and changes values in serializable
    transactions, and on MySQL, as every listing does, in transactions whose reads are
    repeatable. -/
theorem calls_isolated (service : Service σ) (view : σ → Server) (d : Dialect) (c : Client σ) :
    (∀ tx, (∀ e ∈ (update d tx).calls (Client.respond service d) c,
        FailsSafely service view d e.1 e.2) →
      CallsIsolated view (if d = .postgres then .serializable else .repeatableRead)
        ((update d tx).calls (Client.respond service d) c)) ∧
    (∀ size limit bucket, (∀ e ∈ (list d size limit bucket).calls (Client.respond service d) c,
        FailsSafely service view d e.1 e.2) →
      CallsIsolated view .repeatableRead
        ((list d size limit bucket).calls (Client.respond service d) c)) := by
  have hlevel : d.updateIsolation = if d = .postgres then .serializable else .repeatableRead := by
    cases d <;> rfl
  refine ⟨fun tx hserver => ?_, fun size limit bucket hserver => ?_⟩
  · rw [← hlevel]
    exact callsIsolated_of_leaves (leaves_update (leaves_tryUpdate tx) _) hserver
  · exact callsIsolated_of_leaves (leaves_list size limit bucket _) hserver

end BucketStore.Sql
