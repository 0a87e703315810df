/-
  BucketStore/Proofs/Staging/Closing.lean
  =======================================
  **A closed staging engine turns every call away, but for one.**

  A call is followed up to what it asks of the store first: a store that replies to
  nothing (`shut`) turns the whole call away (`TurnedAway`).  The exception is an
  update of no operations: it has nothing to ask, so it does not learn that the store
  is closed, and answers (`staged_update_of_nothing_answers`).  The other drivers have
  no such exception (`closed_drivers_refuse`).
-/
import BucketStore.Proofs.Closing
import BucketStore.Proofs.Listing
import BucketStore.Proofs.Staging.Reachable

namespace BucketStore

variable {α β ε : Type}

/-- What a closed engine replies: as `RepliesClosed` says, but that an update of no operations is
    answered. -/
def RepliesClosedUnlessIdle : Request ⊕ ε → Except Failure (Response ⊕ β) → Prop
  | .inl (.update []), reply => reply = .ok (.inl (.outcome []))
  | c, reply => RepliesClosed c reply

namespace Staging

open MemoryItems

/-- A store that is closed. It replies to nothing. -/
def shut : Contract Call Call.Reply Unit where
  needs _ _ := True
  allows
    | .load _ _, _, r, _ => r = .error .closed
    | .write _ _ _ _, _, r, _ => r = .error .closed
    | .scan _ _ _, _, r, _ => r = .error .closed
    | .now, _, _, _ => True
    | .freshId, _, _, _ => True

/-- On a closed store the protocol ends in saying so. -/
def TurnedAway (p : Protocol α) : Prop := p.Ensures shut () fun r _ => SaysClosed r

section

variable {p : Protocol α}

theorem turnedAway_load (bucket key : Bytes) : TurnedAway (Protocol.load bucket key) := by
  refine ⟨trivial, ?_⟩
  rintro _ _ rfl
  exact saysClosed_closed

theorem turnedAway_write (bucket key : Bytes) (x : Option Item) (condition : Precondition) :
    TurnedAway (Protocol.write bucket key x condition) := by
  refine ⟨trivial, ?_⟩
  rintro _ _ rfl
  exact saysClosed_closed

theorem turnedAway_scan (bucket : Bytes) (token : Option Token) (limit : UInt64) :
    TurnedAway (Protocol.scan bucket token limit) := by
  refine ⟨trivial, ?_⟩
  rintro _ _ rfl
  exact saysClosed_closed

theorem TurnedAway.bind (h : TurnedAway p) (next : α → Protocol β) : TurnedAway (p >>= next) := by
  apply Program.Ensures.bind h
  · rintro a _ ⟨f, hreply, _⟩
    cases hreply
  · rintro f _ ⟨_, hreply, hkind⟩
    cases hreply
    exact ⟨f, rfl, hkind⟩

theorem TurnedAway.checked {e : Except Failure Unit} (he : e = .ok ()) (h : TurnedAway p) :
    TurnedAway (Program.check e >>= fun _ => p) := by
  subst he
  exact h

theorem TurnedAway.noteFailure (h : TurnedAway p) (lines : Failure → List Log.Line) :
    TurnedAway (p.noteFailure lines) := Program.ensures_noteFailure.mpr h

theorem TurnedAway.mapFailure (h : TurnedAway p) {reword : Failure → Failure}
    (hreword : ∀ f, (reword f).kind = f.kind) : TurnedAway (p.mapFailure reword) :=
  Program.ensures_mapFailure.mpr (Program.Ensures.mono h fun _ _ hr => hr.mapError hreword)

/-- What is turned away is not tried again. -/
theorem TurnedAway.retry {body : Protocol (Option α)} (h : TurnedAway body) (exhausted : Failure) :
    TurnedAway (retry body exhausted maxAttempts) := by
  apply ensures_retry_first (by decide)
  refine Program.Ensures.mono h ?_
  rintro _ _ ⟨f, rfl, hkind⟩
  exact ⟨f, rfl, hkind⟩

/-- The stores hold the same, under the same fault plan, and both are closed or both open. -/
structure SameStored (s s' : MemoryItems) : Prop where
  buckets : s'.buckets = s.buckets
  fault : s'.fault = s.fault
  closed : s'.closed = s.closed

theorem TurnedAway.run (h : TurnedAway p) (around : Surroundings) {s : MemoryItems}
    (hclosed : s.closed = true) : SaysClosed (p.run (respond around) s).reply ∧
      SameStored s (p.run (respond around) s).state := by
  have hrespond : ∀ (c : Call) (t : MemoryItems) (u : Unit), SameStored s t → shut.needs c u →
      ∃ u', shut.allows c u (respond around c t).reply u' ∧
        SameStored s (respond around c t).state := by
    intro c t u ht _
    have hitems : ∀ bucket, t.items bucket = .error .closed := by
      intro bucket
      unfold MemoryItems.items
      rw [if_pos (ht.closed.trans hclosed)]
    refine ⟨(), ?_⟩
    cases c with
    | load bucket key =>
      refine ⟨?_, ht⟩
      change (do return (← t.items bucket).get? key) = _
      rw [hitems]
      rfl
    | write bucket key x condition =>
      change ((t.write bucket key x condition).reply = _) ∧ SameStored s (t.write ..).state
      unfold MemoryItems.write
      rw [hitems]
      exact ⟨rfl, ht⟩
    | scan bucket token limit =>
      refine ⟨?_, ht⟩
      change (do page limit ((← t.items bucket).after token)) = _
      rw [hitems]
      rfl
    | now => exact ⟨trivial, ht.buckets, ht.fault, ht.closed⟩
    | freshId => exact ⟨trivial, ht.buckets, ht.fault, ht.closed⟩
  obtain ⟨_, hreply, hsame⟩ := Program.Ensures.run (respond around) (fun t _ => SameStored s t)
    hrespond h ⟨rfl, rfl, rfl⟩
  exact ⟨hreply, hsame⟩

end

/-! ### The calls of the engine -/

section

variable (config : Config) {bucket key : Bytes}

theorem turnedAway_onKey {action : String} {p : Protocol α} (hname : checkKey bucket key = .ok ())
    (hkey : isReservedKey key = false) (h : TurnedAway p) :
    TurnedAway (Engine.onKey action bucket key p) := by
  apply ensures_onKey
  · intro f hf
    simp [hname] at hf
  · intro hreserved
    simp [hkey] at hreserved
  · exact fun _ _ => Program.Ensures.mono h fun _ _ hr => hr.mapError fun _ => rfl

theorem turnedAway_get (hname : checkKey bucket key = .ok ()) (hkey : isReservedKey key = false) :
    TurnedAway (Engine.get bucket key) :=
  turnedAway_onKey hname hkey ((turnedAway_load bucket key).bind _)

theorem turnedAway_put (action : String) (value : Option Bytes) (hname : checkKey bucket key = .ok ())
    (hkey : isReservedKey key = false) :
    TurnedAway (Engine.onKey action bucket key (writeKey config bucket key value)) :=
  turnedAway_onKey hname hkey (((turnedAway_write _ _ _ _).bind _).retry _)

theorem turnedAway_compareAndSwap (old : Option Bytes) (new : Bytes)
    (hname : checkKey bucket key = .ok ()) (hkey : isReservedKey key = false) :
    TurnedAway (Engine.compareAndSwap config bucket key old new) :=
  turnedAway_onKey hname hkey (((turnedAway_write _ _ _ _).bind _).retry _)

theorem turnedAway_list (limit : Nat) (hname : checkBucket bucket = .ok ()) :
    TurnedAway (Engine.list config (limit + 1) bucket) := by
  have hlist : TurnedAway (listBucket config (limit + 1) bucket) := by
    apply ensures_listAll_fails (Nat.succ_pos limit)
    refine Program.Ensures.mono ((turnedAway_scan bucket none config.pageSize).bind _) ?_
    rintro _ _ ⟨f, rfl, hkind⟩
    exact ⟨f, rfl, f, rfl, hkind⟩
  exact .checked hname ((hlist.noteFailure _).mapFailure fun _ => rfl)

theorem turnedAway_recover (limit : Nat) (hname : checkBucket bucket = .ok ()) :
    TurnedAway (Engine.recover config (limit + 1) bucket) := by
  have hfind : TurnedAway (findRecords config bucket (limit + 1) none) :=
    (turnedAway_scan bucket none config.pageSize).bind _
  exact .checked hname ((hfind.bind _).mapFailure fun _ => rfl)

/-- An update of at least one operation begins with its record. -/
theorem turnedAway_updateKeys {tx : Transaction} (htx : tx ≠ []) :
    TurnedAway (updateKeys config tx) := by
  unfold updateKeys
  split
  · next hnone => exact absurd (Transaction.eq_nil_of_buckets hnone) htx
  · refine ⟨trivial, fun id _ _ => ⟨trivial, fun createdAt _ _ => ?_⟩⟩
    exact (turnedAway_write _ _ _ _).bind _

theorem turnedAway_update (backend : Backend) {tx : Transaction}
    (hon : config.emulatedTransactions = true) (hcheck : tx.check = .ok ())
    (huser : ∀ op ∈ tx, isReservedKey op.key = false) (htx : tx ≠ []) :
    TurnedAway (Engine.update config backend tx) := by
  apply ensures_engineUpdate
  · intro hoff
    simp [hon] at hoff
  · intro f hf
    simp [hcheck] at hf
  · intro hreserved
    refine absurd (fun place hplace => ?_) hreserved
    obtain ⟨op, hop, rfl⟩ := Transaction.mem_touched.mp hplace
    exact huser op hop
  · exact fun _ _ => turnedAway_updateKeys config htx

/-- An update of no operations is answered by any store, and asks nothing of it. -/
theorem update_nothing (backend : Backend) (hon : config.emulatedTransactions = true) {τ : Type}
    (respond : Responder Call Call.Reply τ) (t : τ) :
    (Engine.update config backend []).run respond t = ⟨.ok [], t, []⟩ := by
  unfold Engine.update
  rw [if_pos hon]
  rfl

end

/-! ### The engine's driver -/

variable {around : Surroundings} {config : Config} {s : MemoryItems}

theorem TurnedAway.refuses {p : Protocol α} (h : TurnedAway p) (hclosed : s.closed = true) :
    (p.run (respond around)).Refuses SameStored s := h.run around hclosed

/-- A closed driver refuses every call but an update of no operations. -/
theorem perform_refuses (hon : config.emulatedTransactions = true) (hclosed : s.closed = true)
    {r : Request} (hnamed : r.Named) (huser : r.Unreserved) (hclose : r ≠ .close)
    (hidle : r ≠ .update []) :
    ((Engine.driver (itemStore around) config).perform r).Refuses SameStored s := by
  have hcreate : ∀ b, (createBucket b).Refuses SameStored s := by
    intro b
    have hrun : createBucket b s = ⟨.error .closed, s, []⟩ := by simp [createBucket, hclosed]
    exact Action.refuses_of_run hrun rfl ⟨rfl, rfl, rfl⟩
  have hdrop : ∀ b, (deleteBucket b).Refuses SameStored s := by
    intro b
    have hrun : deleteBucket b s = ⟨.error .closed, s, []⟩ := by simp [deleteBucket, hclosed]
    exact Action.refuses_of_run hrun rfl ⟨rfl, rfl, rfl⟩
  apply Driver.perform_refuses
  cases r with
  | create b => exact .checked hnamed ((hcreate b).bind _)
  | drop b => exact .checked hnamed ((hdrop b).bind _)
  | get b k => exact (turnedAway_get hnamed huser).refuses hclosed
  | set b k v => exact (turnedAway_put config "set" (some v) hnamed huser).refuses hclosed
  | delete b k => exact (turnedAway_put config "delete" none hnamed huser).refuses hclosed
  | list b => exact (turnedAway_list config _ hnamed).refuses hclosed
  | update tx =>
    exact (turnedAway_update config .memory hon hnamed huser (by simpa using hidle)).refuses hclosed
  | compareAndSwap b k old new =>
    exact (turnedAway_compareAndSwap config old new hnamed huser).refuses hclosed
  | close => exact hclose rfl

theorem recoverOn_refuses (hclosed : s.closed = true) {bucket : Bytes}
    (hname : checkBucket bucket = .ok ()) :
    (Engine.recoverOn (itemStore around) config bucket).Refuses SameStored s :=
  (turnedAway_recover config (s.rawItems bucket).length hname).run around hclosed

/-- The names in a call on the engine may be used: keys are not those of records. -/
def Usable : Request ⊕ Bytes → Prop
  | .inl r => r.Named ∧ r.Unreserved
  | .inr bucket => checkBucket bucket = .ok ()

instance : DecidablePred Usable
  | .inl r => inferInstanceAs (Decidable (r.Named ∧ r.Unreserved))
  | .inr bucket => inferInstanceAs (Decidable (checkBucket bucket = .ok ()))

/-- What a call gets from an engine on a closed store. -/
theorem ask_closed (hon : config.emulatedTransactions = true) (hclosed : s.closed = true)
    {c : Request ⊕ Bytes} (hc : Usable c) :
    let step := (Engine.driver (itemStore around) config).ask
      (Engine.recoverOn (itemStore around) config) c s
    RepliesClosedUnlessIdle c step.reply ∧ SameStored s step.state := by
  intro step
  have hother : c ≠ .inl (.update []) → RepliesClosed c step.reply ∧ SameStored s step.state := by
    intro hidle
    rcases c with r | bucket
    · by_cases hr : r = .close
      · subst hr
        obtain ⟨hreply, hstate⟩ := Driver.ask_close (d := Engine.driver (itemStore around) config)
          (s := s) (Engine.recoverOn (itemStore around) config) rfl
        refine ⟨hreply, ?_⟩
        change SameStored s (Driver.ask _ _ _ s).state
        rw [hstate]
        exact ⟨rfl, rfl, hclosed.symm⟩
      · apply Driver.ask_refused (by simpa using hr)
        exact (perform_refuses hon hclosed hc.1 hc.2 hr (by simpa using hidle)).bind _
    · apply Driver.ask_refused (by simp)
      exact (recoverOn_refuses hclosed hc).bind _
  by_cases hidle : c = .inl (.update [])
  · subst hidle
    obtain ⟨hreply, hstate⟩ := Driver.ask_idle (d := Engine.driver (itemStore around) config)
      (Engine.recoverOn (itemStore around) config)
      (update_nothing config .memory hon (respond around) s)
    refine ⟨hreply, ?_⟩
    change SameStored s (Driver.ask _ _ _ s).state
    rw [hstate]
    exact ⟨rfl, rfl, rfl⟩
  · refine ⟨?_, (hother hidle).2⟩
    unfold RepliesClosedUnlessIdle
    split
    · exact absurd rfl hidle
    · exact (hother hidle).1

end Staging

/-! ### All of them -/

section

variable (mc : Memory.Config) (kc : Keyspace.Config) (fc : TableFile.Config)
  (around : Staging.Surroundings) (config : Staging.Config)

/-- **A closed driver turns every call away**, whatever was done before it was closed: each later
    call of a run is replied to as closed and changes nothing, and closing again is fine. Only the
    staging engine answers an update of no operations. -/
theorem closed_drivers_refuse (hon : config.emulatedTransactions = true) (m : Memory.Store)
    (k : Keyspace.Store) (file : TableFile.File) (s : Staging.MemoryItems)
    {calls : List (Request ⊕ Unit)} (hcalls : ∀ r, .inl r ∈ calls → r.Named)
    {staged : List (Request ⊕ Bytes)} (hstaged : ∀ c ∈ staged, Staging.Usable c) :
    (Memory.driver mc).StaysClosed (fun _ => Memory.bucketNames) Eq RepliesClosed m calls ∧
    (Keyspace.driver kc).StaysClosed (fun _ => Keyspace.bucketNames) Eq RepliesClosed k calls ∧
    (TableFile.driver fc).StaysClosed (fun _ => TableFile.bucketNames) Eq RepliesClosed file calls ∧
    (Staging.Engine.driver (Staging.MemoryItems.itemStore around) config).StaysClosed
      (Staging.Engine.recoverOn (Staging.MemoryItems.itemStore around) config) Staging.SameStored
      RepliesClosedUnlessIdle s staged := by
  refine ⟨Memory.staysClosed mc hcalls, Keyspace.staysClosed kc hcalls,
    TableFile.staysClosed fc hcalls, ?_⟩
  refine Driver.staysClosed_of_ask (fun t => t.closed = true) (fun _ => ⟨rfl, rfl, rfl⟩) ?_
    (fun _ => ⟨rfl, rfl⟩) ?_ hstaged
  · intro t t' t'' h h'
    exact ⟨h'.buckets.trans h.buckets, h'.fault.trans h.fault, h'.closed.trans h.closed⟩
  · intro c t hc hclosed
    obtain ⟨hreply, hsame⟩ := Staging.ask_closed hon hclosed hc
    exact ⟨hreply, hsame, hsame.closed.trans hclosed⟩

end

/-- Calls of every kind, on a driver that may have been closed. -/
def lateCalls : List (Request ⊕ Unit) :=
  [.inl .close, .inr (), .inl (.create [65]), .inl (.get [65] [97]), .inl (.set [65] [97] [49]),
    .inl (.delete [65] [97]), .inl (.list [65]), .inl (.compareAndSwap [65] [97] none [49]),
    .inl (.update []), .inl (.update [.get [65] [97]]), .inl (.drop [65]), .inl .close]

/-- The same on an engine, with a recovery. -/
def lateStagedCalls : List (Request ⊕ Bytes) :=
  lateCalls.map fun
    | .inl r => .inl r
    | .inr () => .inr [65]

theorem closed_drivers_refuse_late_calls :
    (∀ r, .inl r ∈ lateCalls → r.Named) ∧ (∀ c ∈ lateStagedCalls, Staging.Usable c) ∧
    (Memory.driver {}).StaysClosed (fun _ => Memory.bucketNames) Eq RepliesClosed {} lateCalls ∧
    (Keyspace.driver { path? := some "data" }).StaysClosed (fun _ => Keyspace.bucketNames) Eq
      RepliesClosed {} lateCalls ∧
    (TableFile.driver { path := "data.redb" }).StaysClosed (fun _ => TableFile.bucketNames) Eq
      RepliesClosed { opened := true } lateCalls ∧
    (Staging.Engine.driver (Staging.MemoryItems.itemStore Staging.still) {}).StaysClosed
      (Staging.Engine.recoverOn (Staging.MemoryItems.itemStore Staging.still) {}) Staging.SameStored
      RepliesClosedUnlessIdle Staging.crashed lateStagedCalls := by
  have hnamed : ∀ r, .inl r ∈ lateCalls → r.Named := by
    simp only [lateCalls, List.mem_cons, Sum.inl.injEq, reduceCtorEq, List.not_mem_nil, or_false,
      false_or, forall_eq_or_imp, forall_eq, Request.Named]
    decide
  have husable : ∀ c ∈ lateStagedCalls, Staging.Usable c := by decide
  exact ⟨hnamed, husable, closed_drivers_refuse {} { path? := some "data" } { path := "data.redb" }
    Staging.still {} rfl {} {} { opened := true } Staging.crashed hnamed husable⟩

/-- The engine that was closed answers an update of no operations, whose names are in order. -/
theorem staged_update_of_nothing_answers :
    Staging.Usable (.inl (.update [])) ∧
    ¬(Staging.Engine.driver (Staging.MemoryItems.itemStore Staging.still) {}).StaysClosed
      (Staging.Engine.recoverOn (Staging.MemoryItems.itemStore Staging.still) {}) Staging.SameStored
      RepliesClosed {} [.inl (.update [])] := by
  refine ⟨⟨rfl, by simp [Request.Unreserved]⟩, ?_⟩
  rintro ⟨_, hrefuses⟩
  cases hrefuses with
  | cons hfirst _ =>
    obtain ⟨f, hreply, _⟩ := hfirst.1
    cases hreply

end BucketStore
