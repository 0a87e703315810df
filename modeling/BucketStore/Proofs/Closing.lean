/-
  BucketStore/Proofs/Closing.lean
  ===============================
  **A closed driver turns every call away.**

  `Driver.StaysClosed` says of a driver what it replies once it is closed, call after
  call, and that the calls change nothing; for that it is enough to look at a single
  call on a closed store (`Driver.staysClosed_of_ask`).  In memory, on a keyspace and on
  a table file every call is refused as closed, and closing again is fine
  (`Memory.staysClosed`, `Keyspace.staysClosed`, `TableFile.staysClosed`).
-/
import BucketStore.Proofs.ActionLogic
import BucketStore.Proofs.TableFile.Name
import BucketStore.Keyspace.Driver
import BucketStore.Memory
import BucketStore.TableFile.Driver
import Mathlib.Data.List.Forall2

namespace BucketStore

variable {σ α β ρ ε : Type}

/-! ### Calls one after another -/

/-- The steps that calls take which are made one after another. -/
def Action.steps (perform : ρ → Action σ α) : σ → List ρ → List (Step σ (Except Failure α))
  | _, [] => []
  | s, c :: rest => perform c s :: steps perform (perform c s).state rest

/-- What every single call keeps, and says of its step, holds of the steps of a run. -/
theorem Action.forall₂_steps {perform : ρ → Action σ α} {I : σ → Prop} {P : ρ → Prop}
    {R : ρ → Step σ (Except Failure α) → Prop}
    (hstep : ∀ c s, P c → I s → R c (perform c s) ∧ I (perform c s).state) {s : σ} (hs : I s)
    {calls : List ρ} (hcalls : ∀ c ∈ calls, P c) :
    List.Forall₂ R calls (Action.steps perform s calls) := by
  induction calls generalizing s with
  | nil => exact .nil
  | cons c rest ih =>
    rw [List.forall_mem_cons] at hcalls
    obtain ⟨hfirst, hafter⟩ := hstep c s hcalls.1 hs
    exact .cons hfirst (ih hafter hcalls.2)

/-- Makes a request to a driver, or calls something else that comes with it. -/
def Driver.ask (d : Driver σ) (other : ε → Action σ β) : Request ⊕ ε → Action σ (Response ⊕ β)
  | .inl r => do return .inl (← d.perform r)
  | .inr e => do return .inr (← other e)

/-! ### What calls name -/

/-- The buckets and the keys that the call names may be named. -/
def Request.Named : Request → Prop
  | .create b | .drop b | .list b => checkBucket b = .ok ()
  | .get b k | .set b k _ | .delete b k | .compareAndSwap b k _ _ => checkKey b k = .ok ()
  | .update tx => tx.check = .ok ()
  | .close => True

instance : DecidablePred Request.Named
  | .create b | .drop b | .list b => inferInstanceAs (Decidable (checkBucket b = .ok ()))
  | .get b k | .set b k _ | .delete b k | .compareAndSwap b k _ _ =>
    inferInstanceAs (Decidable (checkKey b k = .ok ()))
  | .update tx => inferInstanceAs (Decidable (tx.check = .ok ()))
  | .close => inferInstanceAs (Decidable True)

/-- The call names no key that is one of a record. -/
def Request.Unreserved : Request → Prop
  | .get _ k | .set _ k _ | .delete _ k | .compareAndSwap _ k _ _ => isReservedKey k = false
  | .update tx => ∀ op ∈ tx, isReservedKey op.key = false
  | .create _ | .drop _ | .list _ | .close => True

instance : DecidablePred Request.Unreserved
  | .get _ k | .set _ k _ | .delete _ k | .compareAndSwap _ k _ _ =>
    inferInstanceAs (Decidable (isReservedKey k = false))
  | .update tx => inferInstanceAs (Decidable (∀ op ∈ tx, isReservedKey op.key = false))
  | .create _ | .drop _ | .list _ | .close => inferInstanceAs (Decidable True)

/-! ### Being turned away -/

/-- The reply is that the driver is closed. -/
def SaysClosed (reply : Except Failure α) : Prop := ∃ f, reply = .error f ∧ f.kind = .closed

theorem saysClosed_closed : SaysClosed (.error .closed : Except Failure α) := ⟨_, rfl, rfl⟩

/-- Rewording a failure keeps what it says if it keeps the kind. -/
theorem SaysClosed.mapError {reply : Except Failure α} (h : SaysClosed reply)
    {reword : Failure → Failure} (hreword : ∀ f, (reword f).kind = f.kind) :
    SaysClosed (reply.mapError reword) := by
  obtain ⟨f, rfl, hkind⟩ := h
  exact ⟨reword f, rfl, (hreword f).trans hkind⟩

/-- What a closed driver replies: that it is closed, but to another close, which is fine. -/
def RepliesClosed : Request ⊕ ε → Except Failure (Response ⊕ β) → Prop
  | .inl .close, reply => reply = .ok (.inl .done)
  | _, reply => SaysClosed reply

/-- Once the driver is closed, whatever is asked of it leaves the store as the close did, and is
    replied to as `replies` says. -/
structure Driver.StaysClosed (d : Driver σ) (other : ε → Action σ β) (same : σ → σ → Prop)
    (replies : Request ⊕ ε → Except Failure (Response ⊕ β) → Prop) (s : σ)
    (calls : List (Request ⊕ ε)) : Prop where
  closes : (d.close s).reply = .ok ()
  refuses : List.Forall₂ (fun c step => replies c step.reply ∧ same (d.close s).state step.state) calls
    (Action.steps (d.ask other) (d.close s).state calls)

namespace Driver

variable (d : Driver σ) (other : ε → Action σ β) (s : σ)

theorem reply_ask (r : Request) : (d.ask other (.inl r) s).reply = (d.perform r s).reply.map .inl :=
  Action.reply_map _

theorem state_ask (r : Request) : (d.ask other (.inl r) s).state = (d.perform r s).state :=
  Action.state_map _

theorem reply_close : (d.perform .close s).reply = (d.close s).reply.map fun _ => .done :=
  Action.reply_map _

variable {d other s}

/-- A driver stays closed if on a closed store a single call is replied to as it should, and leaves
    it the same and closed. -/
theorem staysClosed_of_ask (closed : σ → Prop) {same : σ → σ → Prop} {P : Request ⊕ ε → Prop}
    {replies : Request ⊕ ε → Except Failure (Response ⊕ β) → Prop} (hrefl : ∀ s, same s s)
    (htrans : ∀ s s' s'', same s s' → same s' s'' → same s s'')
    (hclose : ∀ s, (d.close s).reply = .ok () ∧ closed (d.close s).state)
    (hask : ∀ c s, P c → closed s → replies c (d.ask other c s).reply ∧
      same s (d.ask other c s).state ∧ closed (d.ask other c s).state)
    {calls : List (Request ⊕ ε)} (hcalls : ∀ c ∈ calls, P c) :
    d.StaysClosed other same replies s calls := by
  refine ⟨(hclose s).1, ?_⟩
  refine Action.forall₂_steps (I := fun s' => same (d.close s).state s' ∧ closed s') ?_
    ⟨hrefl _, (hclose s).2⟩ hcalls
  intro c s' hc ⟨hsame, hclosed⟩
  obtain ⟨hreply, hsame', hclosed'⟩ := hask c s' hc hclosed
  have hkept := htrans _ _ _ hsame hsame'
  exact ⟨⟨hreply, hkept⟩, hkept, hclosed'⟩

end Driver

/-! ### The drivers without staging -/

/-- The action says that the driver is closed, and leaves the store the same. -/
def Action.Refuses (act : Action σ α) (same : σ → σ → Prop) (s : σ) : Prop :=
  SaysClosed (act s).reply ∧ same s (act s).state

section

variable {act : Action σ α} {same : σ → σ → Prop} {s : σ}

theorem Action.refuses_of_run {f : Failure} {log : List Log.Line} (h : act s = ⟨.error f, s, log⟩)
    (hkind : f.kind = .closed) (hsame : same s s) : act.Refuses same s := by
  unfold Action.Refuses
  rw [h]
  exact ⟨⟨f, rfl, hkind⟩, hsame⟩

theorem Action.Refuses.bind (h : act.Refuses same s) (next : α → Action σ β) :
    (act >>= next).Refuses same s := by
  obtain ⟨⟨f, hreply, hkind⟩, hstate⟩ := h
  unfold Action.Refuses
  rw [Action.bind_run]
  generalize act s = step at hreply hstate ⊢
  obtain ⟨reply, s', log⟩ := step
  dsimp only at hreply
  subst hreply
  exact ⟨⟨f, rfl, hkind⟩, hstate⟩

theorem Action.Refuses.checked {e : Except Failure Unit} (he : e = .ok ()) (h : act.Refuses same s) :
    (Action.check e >>= fun _ => act).Refuses same s := by
  subst he
  exact h

theorem Action.Refuses.mapFailure (h : act.Refuses same s) {reword : Failure → Failure}
    (hreword : ∀ f, (reword f).kind = f.kind) : (act.mapFailure reword).Refuses same s := by
  unfold Action.Refuses
  rw [Action.reply_mapFailure, Action.state_mapFailure]
  exact ⟨h.1.mapError hreword, h.2⟩

theorem Action.Refuses.named (h : act.Refuses same s) (action : String) (bucket key : Bytes) :
    (act.named action bucket key).Refuses same s := h.mapFailure fun _ => rfl

theorem Action.Refuses.namedBucket (h : act.Refuses same s) (action : String) (bucket : Bytes) :
    (act.namedBucket action bucket).Refuses same s := h.mapFailure fun _ => rfl

end

namespace Driver

variable {d : Driver σ} {other : ε → Action σ β} {same : σ → σ → Prop} {s : σ}

theorem perform_refuses {r : Request} (h : match r with
      | .create b => (d.create b).Refuses same s
      | .drop b => (d.drop b).Refuses same s
      | .get b k => (d.get b k).Refuses same s
      | .set b k v => (d.set b k v).Refuses same s
      | .delete b k => (d.delete b k).Refuses same s
      | .list b => (d.list b).Refuses same s
      | .update tx => (d.update tx).Refuses same s
      | .compareAndSwap b k old new => (d.compareAndSwap b k old new).Refuses same s
      | .close => False) : (d.perform r).Refuses same s := by
  cases r with
  | close => exact h.elim
  | _ => exact Action.Refuses.bind h _

/-- A call that is no close is replied to as closed drivers do if it is refused. -/
theorem ask_refused {c : Request ⊕ ε} (hc : c ≠ .inl .close) (h : (d.ask other c).Refuses same s) :
    RepliesClosed c (d.ask other c s).reply ∧ same s (d.ask other c s).state := by
  refine ⟨?_, h.2⟩
  unfold RepliesClosed
  split
  · exact absurd rfl hc
  · exact h.1

theorem ask_close (other : ε → Action σ β) (hreply : (d.close s).reply = .ok ()) :
    (d.ask other (.inl .close) s).reply = .ok (.inl .done) ∧
      (d.ask other (.inl .close) s).state = (d.close s).state := by
  rw [d.reply_ask, d.reply_close, hreply, d.state_ask, d.state_perform]
  exact ⟨rfl, rfl⟩

theorem ask_idle (other : ε → Action σ β) (h : d.update [] s = ⟨.ok [], s, []⟩) :
    (d.ask other (.inl (.update [])) s).reply = .ok (.inl (.outcome [])) ∧
      (d.ask other (.inl (.update [])) s).state = s := by
  have hperform : d.perform (.update []) s = ⟨.ok (.outcome []), s, []⟩ := by
    change (d.update [] >>= fun outcome => pure (Response.outcome outcome)) s = _
    rw [Action.bind_of_ok h]
    rfl
  rw [d.reply_ask, d.state_ask, hperform]
  exact ⟨rfl, rfl⟩

/-- A driver that refuses every request on a closed store, and whatever else may be asked, stays
    closed, if closing changes nothing once it is done. -/
theorem staysClosed_of_refuses (closed : σ → Prop)
    (hclose : ∀ s, (d.close s).reply = .ok () ∧ closed (d.close s).state)
    (hagain : ∀ s, closed s → (d.close s).state = s)
    (hrequest : ∀ s, closed s → ∀ r : Request, r.Named → r ≠ .close → (d.perform r).Refuses Eq s)
    (hother : ∀ s, closed s → ∀ e, (other e).Refuses Eq s) {calls : List (Request ⊕ ε)}
    (hcalls : ∀ r, .inl r ∈ calls → r.Named) : d.StaysClosed other Eq RepliesClosed s calls := by
  refine staysClosed_of_ask closed (P := fun c => ∀ r, c = .inl r → r.Named)
    (fun _ => rfl) (fun _ _ _ => Eq.trans) hclose ?_ fun c hc r hr => hcalls r (hr ▸ hc)
  intro c s hc hclosed
  have hreplies : RepliesClosed c (d.ask other c s).reply ∧ s = (d.ask other c s).state := by
    rcases c with r | e
    · by_cases hr : r = .close
      · subst hr
        obtain ⟨hreply, hstate⟩ := ask_close other (hclose s).1
        exact ⟨hreply, (hstate.trans (hagain s hclosed)).symm⟩
      · exact ask_refused (by simpa using hr) ((hrequest s hclosed r (hc r rfl) hr).bind _)
    · exact ask_refused (by simp) ((hother s hclosed e).bind _)
  exact ⟨hreplies.1, hreplies.2, hreplies.2 ▸ hclosed⟩

end Driver

/-! ### In memory -/

namespace Memory

variable {m : Store}

section

variable (hclosed : m.closed = true)
include hclosed

theorem opened_refuses : opened.Refuses Eq m := by
  have hrun : opened m = ⟨.error .closed, m, [Log.error "In-memory driver is closed"]⟩ := by
    change (if m.closed = true then (Action.complain _ _ : Action Store Unit) else pure ()) m = _
    rw [if_pos hclosed]
    rfl
  exact Action.refuses_of_run hrun rfl rfl

theorem bucketOf_refuses (b k : Bytes) : (bucketOf b k).Refuses Eq m := (opened_refuses hclosed).bind _

theorem perform_refuses (config : Config) {r : Request} (hr : r ≠ .close) :
    ((driver config).perform r).Refuses Eq m := by
  have hopened := opened_refuses hclosed
  have hkeyed := bucketOf_refuses hclosed
  apply Driver.perform_refuses
  cases r with
  | create b | drop b | list b => exact (hopened.bind _).namedBucket _ _
  | get b k | set b k v | delete b k | compareAndSwap b k old new =>
    exact ((hkeyed b k).bind _).named _ _ _
  | update tx => exact hopened.bind _
  | close => exact hr rfl

theorem close_again : close m = ⟨.ok (), m, []⟩ := by
  change (if m.closed = true then (pure () : Action Store Unit) else _) m = _
  rw [if_pos hclosed]
  rfl

end

theorem close_closes (m : Store) : (close m).reply = .ok () ∧ (close m).state.closed = true := by
  cases hclosed : m.closed with
  | true =>
    rw [close_again hclosed]
    exact ⟨rfl, hclosed⟩
  | false =>
    change (((if m.closed = true then _ else _) : Action Store Unit) m).reply = _ ∧
      (((if m.closed = true then _ else _) : Action Store Unit) m).state.closed = _
    rw [hclosed]
    exact ⟨rfl, rfl⟩

theorem staysClosed (config : Config) {calls : List (Request ⊕ ε)}
    (hcalls : ∀ r, .inl r ∈ calls → r.Named) :
    (driver config).StaysClosed (fun _ => bucketNames) Eq RepliesClosed m calls := by
  refine Driver.staysClosed_of_refuses (fun m => m.closed = true) close_closes ?_ ?_ ?_ hcalls
  · intro m hclosed
    change (close m).state = m
    rw [close_again hclosed]
  · exact fun m hclosed r _ hr => perform_refuses hclosed config hr
  · exact fun m hclosed _ => (opened_refuses hclosed).bind _

end Memory

/-! ### On a keyspace -/

namespace Keyspace

variable {s : Store}

section

variable (hclosed : s.closed = true)
include hclosed

theorem opened_refuses : opened.Refuses Eq s := by
  have hrun : opened s = ⟨.error .closed, s, [Log.error "Fjall driver is closed"]⟩ := by
    change (if s.closed = true then (Action.complain _ _ : Action Store Unit) else pure ()) s = _
    rw [if_pos hclosed]
    rfl
  exact Action.refuses_of_run hrun rfl rfl

theorem partitionOf_refuses (b k : Bytes) : (partitionOf b k).Refuses Eq s :=
  (opened_refuses hclosed).bind _

theorem perform_refuses (config : Config) {r : Request} (hr : r ≠ .close) :
    ((driver config).perform r).Refuses Eq s := by
  have hopened := opened_refuses hclosed
  have hkeyed := partitionOf_refuses hclosed
  apply Driver.perform_refuses
  cases r with
  | create b | drop b | list b | update tx => exact hopened.bind _
  | get b k | set b k v | delete b k | compareAndSwap b k old new => exact (hkeyed b k).bind _
  | close => exact hr rfl

theorem close_again (config : Config) : close config s = ⟨.ok (), s, []⟩ := by
  change (if s.closed = true then (pure () : Action Store Unit) else _) s = _
  rw [if_pos hclosed]
  rfl

end

theorem close_closes (config : Config) (s : Store) :
    (close config s).reply = .ok () ∧ (close config s).state.closed = true := by
  cases hclosed : s.closed with
  | true =>
    rw [close_again hclosed]
    exact ⟨rfl, hclosed⟩
  | false =>
    change (((if s.closed = true then _ else _) : Action Store Unit) s).reply = _ ∧
      (((if s.closed = true then _ else _) : Action Store Unit) s).state.closed = _
    rw [hclosed]
    exact ⟨rfl, rfl⟩

theorem staysClosed (config : Config) {calls : List (Request ⊕ ε)}
    (hcalls : ∀ r, .inl r ∈ calls → r.Named) :
    (driver config).StaysClosed (fun _ => bucketNames) Eq RepliesClosed s calls := by
  refine Driver.staysClosed_of_refuses (fun s => s.closed = true) (close_closes config) ?_ ?_ ?_
    hcalls
  · intro s hclosed
    change (close config s).state = s
    rw [close_again hclosed]
  · exact fun s hclosed r _ hr => perform_refuses hclosed config hr
  · exact fun s hclosed _ => (opened_refuses hclosed).bind _

end Keyspace

/-! ### On a table file -/

namespace TableFile

variable {file : File}

section

variable (hclosed : file.opened = false)
include hclosed

theorem opened_refuses : opened.Refuses Eq file := by
  have hrun : opened file = ⟨.error .closed, file, [Log.error "Redb driver is closed"]⟩ := by
    change (if (!file.opened) = true then (Action.complain _ _ : Action File Unit) else pure ()) file = _
    rw [hclosed]
    rfl
  exact Action.refuses_of_run hrun rfl rfl

/-- A bucket that may be named has a table's name, so that the file is what is asked next. -/
theorem tableName_refuses {b : Bytes} (hname : checkBucket b = .ok ())
    (next : String → Unit → Action File α) :
    (tableName b >>= fun name => opened >>= next name).Refuses Eq file := by
  have hne : b ≠ [] := by
    rintro rfl
    cases hname
  obtain ⟨name, hencode⟩ := exists_encodeName hne
  unfold tableName
  rw [hencode]
  exact (opened_refuses hclosed).bind (next name)

theorem perform_refuses (config : Config) {r : Request} (hnamed : r.Named) (hr : r ≠ .close) :
    ((driver config).perform r).Refuses Eq file := by
  have hopened := opened_refuses hclosed
  apply Driver.perform_refuses
  cases r with
  | create b | drop b => exact .checked hnamed (tableName_refuses hclosed hnamed _)
  | list b => exact .checked hnamed ((hopened.bind _).namedBucket _ _)
  | get b k | set b k v | delete b k | compareAndSwap b k old new =>
    exact .checked hnamed (hopened.bind _)
  | update tx => exact .checked hnamed (hopened.bind _)
  | close => exact hr rfl

theorem close_again (config : Config) : close config file = ⟨.ok (), file, []⟩ := by
  change (if file.opened = true then _ else (pure () : Action File Unit)) file = _
  rw [hclosed]
  rfl

end

theorem close_closes (config : Config) (file : File) :
    (close config file).reply = .ok () ∧ (close config file).state.opened = false := by
  cases hopened : file.opened with
  | false =>
    rw [close_again hopened]
    exact ⟨rfl, hopened⟩
  | true =>
    change (((if file.opened = true then _ else _) : Action File Unit) file).reply = _ ∧
      (((if file.opened = true then _ else _) : Action File Unit) file).state.opened = _
    rw [hopened]
    exact ⟨rfl, rfl⟩

theorem staysClosed (config : Config) {calls : List (Request ⊕ ε)}
    (hcalls : ∀ r, .inl r ∈ calls → r.Named) :
    (driver config).StaysClosed (fun _ => bucketNames) Eq RepliesClosed file calls := by
  refine Driver.staysClosed_of_refuses (fun file => file.opened = false) (close_closes config) ?_ ?_
    ?_ hcalls
  · intro file hclosed
    change (close config file).state = file
    rw [close_again hclosed]
  · exact fun file hclosed r hnamed hr => perform_refuses hclosed config hnamed hr
  · exact fun file hclosed _ => (opened_refuses hclosed).bind _

end TableFile

end BucketStore
