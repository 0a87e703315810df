/-
  BucketStore/Proofs/Staging/Clients.lean
  =======================================
  **Many clients on one store: a decided record stays as it is decided.**

  In a `Busy` store any number of clients are in the middle of their calls.  A
  `Move` lets one of them take one step: the next call of its protocol reaches the
  store, between whatever calls of the others; its write may be refused, and the
  reply to it may get lost.  A client may also stop half way for ever.

  Every move is a turn of the ledger of the store (`turn_of_move`), so every run is
  a run of turns, and what no turn changes is never changed (`record_lifecycle`).
  The runs of one engine that makes one call after another are among them
  (`moves_event`).
-/
import BucketStore.Proofs.Staging.Effects
import BucketStore.Proofs.Staging.Ledger
import BucketStore.Proofs.Staging.NoOrphans

namespace BucketStore.Staging

open MemoryItems

/-! ### Busy stores -/

/-- A store, and what the clients that work on it have still to do. -/
structure Busy where
  store : MemoryItems := {}
  clients : Nat → Protocol Unit := fun _ => .done ()

/-- What may happen next. -/
inductive Move (around : Surroundings) : Busy → Busy → Prop
  /-- A client makes a call; what it was at before is given up half way. -/
  | begins {b : Busy} (i : Nat) {call : EngineCall} (hsize : call.Addressable) :
      Move around b ⟨b.store, Function.update b.clients i call.program⟩
  | notes {b : Busy} {i : Nat} {line : Log.Line} {next : Protocol Unit}
      (h : b.clients i = .note line next) :
      Move around b ⟨b.store, Function.update b.clients i next⟩
  /-- What a client asks for next reaches the store. -/
  | asks {b : Busy} {i : Nat} {c : Call} {next : Call.Reply c → Protocol Unit} {r : Call.Reply c}
      {s : MemoryItems} (h : b.clients i = .call c next)
      (hr : (storing around .anything).allows c b.store r s) :
      Move around b ⟨s, Function.update b.clients i (next r)⟩
  | creates {b : Busy} (bucket : Bytes) :
      Move around b ⟨(createBucket bucket b.store).state, b.clients⟩
  | closes {b : Busy} : Move around b ⟨(close b.store).state, b.clients⟩
  | faults {b : Busy} (plan : Option FaultPlan) :
      Move around b ⟨{ b.store with fault := plan }, b.clients⟩

/-- Any number of moves. -/
def Moves (around : Surroundings) : Busy → Busy → Prop := Relation.ReflTransGen (Move around)

/-- The records that can be read under the keys of records. -/
def Contents.records (c : Contents) : Places Record := fun bucket key =>
  if isReservedKey key then (c bucket key).bind Item.record? else none

section

variable {c : Contents} {bucket key : Bytes} {y : Option Item}

theorem records_recordKey {id : String} : c.records bucket (recordKey id) = c.record? bucket id := by
  unfold Contents.records
  rw [if_pos (isReservedKey_recordKey id), Contents.record?_eq]

theorem records_put_user (hkey : isReservedKey key = false) :
    Contents.records (c.put bucket key y) = c.records := by
  funext b k
  unfold Contents.records
  split
  · next hreserved =>
    rw [Places.put_other_key]
    rintro rfl
    exact absurd (hkey.symm.trans hreserved) nofun
  · rfl

theorem records_put_reserved (hkey : isReservedKey key = true) :
    Contents.records (c.put bucket key y) = Places.put c.records bucket key (y.bind Item.record?) := by
  funext b k
  unfold Contents.records Places.put
  by_cases heq : b = bucket ∧ k = key
  · rw [if_pos heq, if_pos heq, heq.2, if_pos hkey]
  · rw [if_neg heq, if_neg heq]

end

namespace Busy

variable {around : Surroundings} {b b' : Busy} {fresh : Nat → Option String}

/-- The ledger of a busy store, with what the clients have drawn and not used. -/
def ledger (around : Surroundings) (b : Busy) (fresh : Nat → Option String) : Ledger :=
  ⟨Contents.records b.store.raw, around.drawn b.store.drawn, fresh⟩

/-- Every client moves records along their lives, and what is stored fits. -/
structure Orderly (b : Busy) (fresh : Nat → Option String) : Prop where
  clients : ∀ i, (b.clients i).Ensures living (fresh i) fun _ _ => True
  fits : ∀ bucket key item, b.store.raw bucket key = some item → RecordFits key item

theorem Orderly.update (h : b.Orderly fresh) (i : Nat) {p : Protocol Unit} {f : Option String}
    (hp : p.Ensures living f fun _ _ => True) (j : Nat) :
    (Function.update b.clients i p j).Ensures living (Function.update fresh i f j)
      fun _ _ => True := by
  by_cases heq : j = i
  · subst heq
    rw [Function.update_self, Function.update_self]
    exact hp
  · rw [Function.update_of_ne heq, Function.update_of_ne heq]
    exact h.clients j

/-- A write that lives turns the ledger, or leaves the store as it is. -/
theorem turn_of_written {i : Nat} {bucket key : Bytes} {x : Option Item} {condition : Precondition}
    {s : MemoryItems} {r : Except Failure Bool} (h : b.Orderly fresh)
    (hlives : Lives (fresh i) key x condition)
    (hwritten : Written .anything bucket key x condition b.store r s) (clients : Nat → Protocol Unit) :
    (∀ bucket key item, s.raw bucket key = some item → RecordFits key item) ∧
      Turn (b.ledger around fresh) (ledger around ⟨s, clients⟩ (Function.update fresh i none)) := by
  unfold ledger
  dsimp only
  rw [hwritten.drawn]
  rcases hwritten.raw with hraw | ⟨hholds, hraw⟩
  · rw [hraw]
    exact ⟨h.fits, .drops (update_none_or fresh i)⟩
  · obtain ⟨hfits, hlife⟩ := hlives _ (fun item hitem => h.fits bucket key item hitem) hholds
    rw [hraw]
    constructor
    · intro b' k' item hitem
      unfold Places.put at hitem
      split at hitem
      · next heq =>
        rw [heq.2]
        exact hfits item hitem
      · exact h.fits b' k' item hitem
    · cases hkey : isReservedKey key with
      | false =>
        rw [records_put_user hkey]
        exact .drops (update_none_or fresh i)
      | true =>
        rw [records_put_reserved hkey]
        have hbefore : Contents.records b.store.raw bucket key =
            (b.store.raw bucket key).bind Item.record? := if_pos hkey
        have hlife' := hlife hkey
        rw [← hbefore] at hlife'
        refine .writes hlife' ?_
        · intro r hr
          obtain ⟨item, hitem, hrecord⟩ := Option.bind_eq_some_iff.mp hr
          obtain ⟨r', hr', hkey', _⟩ := hfits item hitem hkey
          cases hrecord.symm.trans hr'
          exact hkey'

/-- A call that reaches the store keeps it orderly, and is a turn of its ledger. -/
theorem turn_of_asks (hids : around.Addressable) (h : b.Orderly fresh) {i : Nat} {c : Call}
    {next : Call.Reply c → Protocol Unit} (hclient : b.clients i = .call c next) {r : Call.Reply c}
    {s : MemoryItems} (hr : (storing around .anything).allows c b.store r s)
    (hdistinct : Distinct around s) :
    ∃ fresh', Orderly ⟨s, Function.update b.clients i (next r)⟩ fresh' ∧
      Turn (b.ledger around fresh)
        (ledger around ⟨s, Function.update b.clients i (next r)⟩ fresh') := by
  have hcall := h.clients i
  rw [hclient] at hcall
  obtain ⟨hneeds, hnext⟩ := hcall
  -- What only reads leaves the client with what it drew.
  have hread : s = b.store ∨ s = { b.store with readings := b.store.readings + 1 } →
      (next r).Ensures living (fresh i) (fun _ _ => True) →
      ∃ fresh', Orderly ⟨s, Function.update b.clients i (next r)⟩ fresh' ∧
        Turn (b.ledger around fresh)
          (ledger around ⟨s, Function.update b.clients i (next r)⟩ fresh') := by
    intro hs hrest
    have hclients := h.update i hrest
    rw [Function.update_eq_self] at hclients
    rcases hs with rfl | rfl
    · exact ⟨fresh, ⟨hclients, h.fits⟩, .drops fun _ => .inl rfl⟩
    · exact ⟨fresh, ⟨hclients, h.fits⟩, .drops fun _ => .inl rfl⟩
  cases c with
  | load bucket key =>
    obtain ⟨rfl, rfl⟩ := hr
    exact hread (.inl rfl)
      (hnext _ _ ⟨fun item hitem => h.fits bucket key item (raw_of_load hitem), rfl⟩)
  | scan bucket token limit =>
    obtain ⟨rfl, rfl⟩ := hr
    exact hread (.inl rfl)
      (hnext _ _ ⟨fun page hpage e he => h.fits bucket e.1 e.2 (raw_of_scan hpage e he), rfl⟩)
  | now =>
    obtain ⟨rfl, rfl⟩ := hr
    exact hread (.inr rfl) (hnext _ _ rfl)
  | freshId =>
    obtain ⟨rfl, rfl⟩ := hr
    have hnew : ¬around.drawn b.store.drawn (around.ids b.store.drawn) :=
      hdistinct.new (Nat.lt_succ_self b.store.drawn)
    refine ⟨_, ⟨h.update i (hnext _ _ ⟨hids b.store.drawn, rfl⟩), h.fits⟩, ?_⟩
    unfold ledger
    dsimp only
    rw [around.drawn_succ]
    exact .draws i hnew
  | write bucket key x condition =>
    obtain ⟨hfits, hturn⟩ := turn_of_written h hneeds hr (Function.update b.clients i (next r))
    exact ⟨_, ⟨h.update i (hnext r none rfl), hfits⟩, hturn⟩

/-- Every move keeps a busy store orderly, and is a turn of its ledger. -/
theorem turn_of_move (hids : around.Addressable) (h : b.Orderly fresh) (hmove : Move around b b')
    (hdistinct : Distinct around b'.store) : ∃ fresh', b'.Orderly fresh' ∧
      Turn (b.ledger around fresh) (b'.ledger around fresh') := by
  cases hmove with
  | @begins i call hsize =>
    exact ⟨_, ⟨h.update i (ensures_lives hsize), h.fits⟩, .drops (update_none_or fresh i)⟩
  | @notes i line next hclient =>
    have hnext := h.clients i
    rw [hclient] at hnext
    have hclients := h.update i (p := next) hnext
    rw [Function.update_eq_self] at hclients
    exact ⟨fresh, ⟨hclients, h.fits⟩, .drops fun _ => .inl rfl⟩
  | asks hclient hr => exact turn_of_asks hids h hclient hr hdistinct
  | creates bucket =>
    rcases createBucket_cases b.store bucket with ⟨_, _, hmissing, hstate⟩ | ⟨_, hstate⟩
    · rw [hstate]
      have hraw := raw_withEmpty hmissing
      refine ⟨fresh, ⟨h.clients, hraw ▸ h.fits⟩, ?_⟩
      unfold ledger
      dsimp only
      rw [hraw]
      exact .drops fun _ => .inl rfl
    · rw [hstate]
      exact ⟨fresh, h, .drops fun _ => .inl rfl⟩
  | closes => exact ⟨fresh, ⟨h.clients, h.fits⟩, .drops fun _ => .inl rfl⟩
  | faults plan => exact ⟨fresh, ⟨h.clients, h.fits⟩, .drops fun _ => .inl rfl⟩

theorem drawn_of_move (hmove : Move around b b') : b.store.drawn ≤ b'.store.drawn := by
  cases hmove with
  | asks _ hr => exact (later_of_allows hr).drawn
  | creates bucket =>
    rcases createBucket_cases b.store bucket with ⟨_, _, _, hstate⟩ | ⟨_, hstate⟩
    · exact Nat.le_of_eq (congrArg MemoryItems.drawn hstate).symm
    · exact Nat.le_of_eq (congrArg MemoryItems.drawn hstate).symm
  | begins _ _ => exact Nat.le_refl _
  | notes _ => exact Nat.le_refl _
  | closes => exact Nat.le_refl _
  | faults _ => exact Nat.le_refl _

/-- Every run is a run of turns of the ledger. -/
theorem turns_of_moves (hids : around.Addressable) (h : b.Orderly fresh) (hmoves : Moves around b b')
    (hdistinct : Distinct around b'.store) : ∃ fresh', b'.Orderly fresh' ∧
      Relation.ReflTransGen Turn (b.ledger around fresh) (b'.ledger around fresh') := by
  induction hmoves with
  | refl => exact ⟨fresh, h, .refl⟩
  | @tail m b' _ hmove ih =>
    obtain ⟨fresh', horderly, hturns⟩ := ih (hdistinct.before (drawn_of_move hmove))
    obtain ⟨fresh'', horderly', hturn⟩ := turn_of_move hids horderly hmove hdistinct
    exact ⟨fresh'', horderly', hturns.tail hturn⟩

theorem drawn_of_moves (hmoves : Moves around b b') : b.store.drawn ≤ b'.store.drawn := by
  induction hmoves with
  | refl => exact Nat.le_refl _
  | tail _ hmove ih => exact Nat.le_trans ih (drawn_of_move hmove)

theorem orderly_empty : Orderly {} fun _ => none := ⟨fun _ => trivial, fun _ _ _ hitem => nomatch hitem⟩

theorem good_empty : (ledger around {} fun _ => none).Good := by
  have hnone : ∀ b k r, (ledger around {} fun _ => none).records b k ≠ some r := by
    intro b k r hr
    change (if isReservedKey k then none else none) = some r at hr
    rw [ite_self] at hr
    cases hr
  exact ⟨fun b k r hr => absurd hr (hnone b k r), fun b k r hr => absurd hr (hnone b k r),
    fun _ _ hi => (nomatch hi), fun _ _ _ hi => (nomatch hi), fun _ _ _ _ _ hi => (nomatch hi),
    fun b k r _ _ _ hr => absurd hr (hnone b k r)⟩

/-- What is decided in a run stays as it is decided. -/
theorem decided_of_moves (hids : around.Addressable) (hbefore : Moves around {} b)
    (hmoves : Moves around b b') (hdistinct : Distinct around b'.store) {bucket bucket' : Bytes}
    {id : String} {r r' : Record} (hr : Contents.record? b.store.raw bucket id = some r)
    (hdecided : r.Decided) (hr' : Contents.record? b'.store.raw bucket' id = some r') :
    bucket' = bucket ∧ r' = r := by
  obtain ⟨fresh, horderly, hturns⟩ :=
    turns_of_moves hids orderly_empty hbefore (hdistinct.before (drawn_of_moves hmoves))
  obtain ⟨fresh', _, hturns'⟩ := turns_of_moves hids horderly hmoves hdistinct
  have hstored : (b.ledger around fresh).records bucket (recordKey id) = some r :=
    records_recordKey.trans hr
  have hstored' : (b'.ledger around fresh').records bucket' (recordKey id) = some r' :=
    records_recordKey.trans hr'
  exact eq_of_turns hturns' (good_of_turns hturns good_empty) hstored hdecided hstored'

/-! ### One engine alone -/

/-- A client that is left alone carries out its protocol. -/
theorem moves_run {i : Nat} (p : Protocol Unit) (s : MemoryItems) (clients : Nat → Protocol Unit) :
    ∃ clients', Moves around ⟨s, Function.update clients i p⟩ ⟨(p.run (respond around) s).state, clients'⟩ := by
  induction p generalizing s clients with
  | done a => exact ⟨_, .refl⟩
  | fail f => exact ⟨_, .refl⟩
  | note line p ih =>
    obtain ⟨clients', hmoves⟩ := ih s (Function.update clients i (.note line p))
    exact ⟨clients', .head (.notes (Function.update_self ..)) hmoves⟩
  | call c k ih =>
    have hreply : (storing around .anything).allows c s (respond around c s).reply
        (respond around c s).state := storing_of_respond c s (.inl trivial)
    obtain ⟨clients', hmoves⟩ := ih (respond around c s).reply (respond around c s).state
      (Function.update clients i (.call c k))
    exact ⟨clients', .head (.asks (Function.update_self ..) hreply) hmoves⟩

theorem moves_call {call : EngineCall} (hsize : call.Addressable) (b : Busy) :
    ∃ clients, Moves around b ⟨(call.program.run (respond around) b.store).state, clients⟩ := by
  obtain ⟨clients, hmoves⟩ := moves_run call.program b.store b.clients
  exact ⟨clients, .head (.begins 0 hsize) hmoves⟩

/-- Whatever one engine does alone, call after call, is a run. -/
theorem moves_event {e : Event} (hsize : e.Addressable) (hdrops : e.drops = false) (b : Busy) :
    ∃ clients, Moves around b ⟨e.step around b.store, clients⟩ := by
  have heffect := e.effect around b.store
  generalize e.step around b.store = s at heffect
  cases heffect with
  | runs call hcall _ => exact moves_call (hcall hsize) b
  | creates bucket _ => exact ⟨b.clients, .single (.creates bucket)⟩
  | deletes bucket hdrops' =>
    rw [hdrops] at hdrops'
    cases hdrops'
  | closes => exact ⟨b.clients, .single .closes⟩
  | faults plan => exact ⟨b.clients, .single (.faults plan)⟩
  | refused => exact ⟨b.clients, .refl⟩

theorem moves_events {events : List Event} (hsize : ∀ e ∈ events, e.Addressable)
    (hdrops : ∀ e ∈ events, e.drops = false) (b : Busy) :
    ∃ clients, Moves around b ⟨events.foldl (Event.step around) b.store, clients⟩ := by
  induction events generalizing b with
  | nil => exact ⟨b.clients, .refl⟩
  | cons e events ih =>
    rw [List.forall_mem_cons] at hsize hdrops
    obtain ⟨clients, hfirst⟩ : ∃ clients, Moves around b ⟨e.step around b.store, clients⟩ :=
      moves_event hsize.1 hdrops.1 b
    obtain ⟨clients', hrest⟩ := ih hsize.2 hdrops.2 ⟨_, clients⟩
    exact ⟨clients', hfirst.trans hrest⟩

end Busy

/-! ### The lifecycle of records -/

/-- **Records keep to their lifecycle in every run.** Whatever well-formed store a call is made on,
    and whoever else writes to it in between: each of its writes announces a pending record under a
    new identifier, decides a pending record, forgets a decided one, or leaves the keys of records
    alone. A call that names a reserved key fails before it asks anything of the store, and no
    listing gives one. So in any run of any number of clients, in which no identifier is drawn
    twice, a record that is committed or aborted is never anything else, wherever it is found. -/
theorem record_lifecycle {around : Surroundings} (hids : around.Addressable) :
    (∀ call : EngineCall, call.Addressable → call.program.Ensures living none fun _ _ => True) ∧
    (∀ call : EngineCall, (∃ place ∈ call.places, isReservedKey place.2 = true) →
      call.program.Ensures .silent () fun r _ => ∃ f, r = .error f) ∧
    (∀ config limit bucket, (Engine.list config limit bucket).Ensures .free () fun r _ =>
      ∀ entries, r = .ok entries → ∀ e ∈ entries, isReservedKey e.key = false) ∧
    ∀ b b' : Busy, Moves around {} b → Moves around b b' → Distinct around b'.store →
      ∀ bucket bucket' id r r', Contents.record? b.store.raw bucket id = some r → r.Decided →
        Contents.record? b'.store.raw bucket' id = some r' → bucket' = bucket ∧ r' = r := by
  refine ⟨fun _ => ensures_lives, fun _ => ensures_refused, ensures_list_user, ?_⟩
  intro b b' hbefore hmoves hdistinct bucket bucket' id r r' hr hdecided hr'
  exact Busy.decided_of_moves hids hbefore hmoves hdistinct hr hdecided hr'

/-- The record of a transaction that stopped when it had committed is still there, as it was, when
    another one has stopped half way. -/
theorem record_lifecycle_after_crashes :
    still.Addressable ∧
    (EngineCall.program (.update {} .memory [.set [65] [97] [49]])).Ensures living none
      (fun _ _ => True) ∧
    (EngineCall.program (.get [65] reservedBytes)).Ensures .silent () (fun r _ => ∃ f, r = .error f) ∧
    ∃ b b' : Busy, Moves still {} b ∧ Moves still b b' ∧ Distinct still b'.store ∧
      b'.store.drawn = 2 ∧ ∃ r r', Contents.record? b.store.raw [65] "p" = some r ∧
        r.state = .committed ∧ Contents.record? b'.store.raw [65] "p" = some r' ∧ r' = r := by
  obtain ⟨hlives, hrefused, _, hdecided⟩ := record_lifecycle addressable_still
  have hsize : Transaction.Addressable [.set [65] [97] [49]] := by decide
  have hreserved : isReservedKey reservedBytes = true := by decide
  have hcrash : (∀ e ∈ crash, e.Addressable) ∧ ∀ e ∈ crash, e.drops = false := by decide
  obtain ⟨clients, hbefore⟩ : ∃ clients, Moves still {} ⟨crashed, clients⟩ :=
    Busy.moves_events hcrash.1 hcrash.2 {}
  obtain ⟨clients', hmoves⟩ : ∃ clients', Moves still ⟨crashed, clients⟩
      ⟨crashedTwice.foldl (Event.step still) {}, clients'⟩ := by
    unfold crashedTwice
    rw [List.foldl_append]
    exact Busy.moves_events (by decide) (by decide) ⟨crashed, clients⟩
  have hdrawn : (crashedTwice.foldl (Event.step still) {}).drawn = 2 := by decide +kernel
  have hdistinct : Distinct still (crashedTwice.foldl (Event.step still) {}) :=
    distinct_still (Nat.le_of_eq hdrawn)
  obtain ⟨r, hr, hcommitted⟩ : ∃ r, Contents.record? crashed.raw [65] "p" = some r ∧
      r.state = .committed :=
    ⟨⟨"p", .committed, [([65], [97]), ([66], [98])], 0⟩, by decide +kernel, rfl⟩
  obtain ⟨r', hr'⟩ : ∃ r', Contents.record? (crashedTwice.foldl (Event.step still) {}).raw [65] "p" =
      some r' := Option.isSome_iff_exists.mp (by decide +kernel)
  have hsame := hdecided _ _ hbefore hmoves hdistinct [65] [65] "p" r r' hr (.inl hcommitted) hr'
  refine ⟨addressable_still, hlives _ hsize, hrefused _ ⟨_, List.mem_singleton_self _, hreserved⟩, ?_⟩
  exact ⟨_, _, hbefore, hmoves, hdistinct, hdrawn, r, r', hr, hcommitted, hr', hsame.2⟩

end BucketStore.Staging
