/-
  BucketStore/Proofs/Staging/Replies.lean
  =======================================
  **What a store in memory may reply, whatever goes wrong with its writes.**

  The contract `storing` describes a store in memory by what becomes of its
  contents.  A `Trouble` says what may go wrong: a write may be refused with a
  failure before it takes effect, or it may take effect and be reported as
  failed.  A fault plan refuses writes only (`storing_of_respond`), and without a
  plan nothing goes wrong.

  `ensures_load`, `ensures_tryWrite` and `ensures_loadRecord` are the rules by
  which protocols are followed through the contract.
-/
import BucketStore.Proofs.KeyMap
import BucketStore.Proofs.ProgramLogic
import BucketStore.Proofs.Staging.Contents
import BucketStore.Staging.Locking

namespace BucketStore.Staging

/-! ### The contents of a store in memory -/

namespace MemoryItems

variable {s s' : MemoryItems} {bucket key : Bytes}

/-- The bucket can be used: it exists, and the store is not closed. -/
def Offers (s : MemoryItems) (bucket : Bytes) : Prop :=
  s.closed = false ∧ s.buckets.contains bucket = true

theorem offers_of_items {items : KeyMap Bytes Item} (h : s.items bucket = .ok items) :
    s.Offers bucket := by
  unfold MemoryItems.items at h
  split at h
  · cases h
  · next hopen =>
    refine ⟨by simpa using hopen, ?_⟩
    split at h
    · next items hget => exact KeyMap.contains_eq_true.mpr ⟨items, hget⟩
    · cases h

theorem get?_of_items {items : KeyMap Bytes Item} (h : s.items bucket = .ok items) :
    s.buckets.get? bucket = some items := by
  unfold MemoryItems.items at h
  split at h
  · cases h
  · split at h
    · next hget => rw [hget, Except.ok.inj h]
    · cases h

theorem get?_eq_raw {items : KeyMap Bytes Item} (h : s.items bucket = .ok items) :
    items.get? key = s.raw bucket key := by
  simp [raw, get?_of_items h]

theorem offers_of_raw (hopen : s.closed = false) {item : Item} (h : s.raw bucket key = some item) :
    s.Offers bucket := by
  refine ⟨hopen, ?_⟩
  unfold raw at h
  cases hget : s.buckets.get? bucket with
  | none => simp [hget] at h
  | some items => exact KeyMap.contains_eq_true.mpr ⟨items, hget⟩

theorem Offers.items_ne_error (h : s.Offers bucket) (f : Failure) : s.items bucket ≠ .error f := by
  obtain ⟨hopen, hbucket⟩ := h
  obtain ⟨items, hget⟩ := KeyMap.contains_eq_true.mp hbucket
  simp [MemoryItems.items, hopen, hget]

theorem items_error (hopen : s.closed = false) {f : Failure} (h : s.items bucket = .error f) :
    f = .bucketNotFound bucket ∧ s.buckets.contains bucket = false := by
  unfold MemoryItems.items at h
  rw [hopen] at h
  split at h
  · contradiction
  · split at h
    · cases h
    · next hget => exact ⟨(Except.error.inj h).symm, KeyMap.contains_eq_false.mpr hget⟩

/-- Binding items under a key of an existing bucket changes the contents at that place. -/
theorem raw_withItems {items : KeyMap Bytes Item} (h : s.items bucket = .ok items)
    (x : Option Item) :
    (s.withItems bucket (items.put key x)).raw = Places.put s.raw bucket key x := by
  funext b k
  have hget := get?_of_items h
  by_cases hb : b = bucket
  · subst hb
    simp [raw, withItems, Places.put, hget]
  · simp [raw, withItems, Places.put, hb]

/-- The same buckets exist, and the store is open or closed as before. -/
structure SameBuckets (s s' : MemoryItems) : Prop where
  closed : s'.closed = s.closed
  contains : ∀ bucket, s'.buckets.contains bucket = s.buckets.contains bucket

theorem SameBuckets.refl (s : MemoryItems) : SameBuckets s s := ⟨rfl, fun _ => rfl⟩

theorem SameBuckets.trans {s'' : MemoryItems} (h : SameBuckets s s') (h' : SameBuckets s' s'') :
    SameBuckets s s'' :=
  ⟨h'.closed.trans h.closed, fun b => (h'.contains b).trans (h.contains b)⟩

theorem sameBuckets_withItems {items : KeyMap Bytes Item} (h : s.items bucket = .ok items)
    (items' : KeyMap Bytes Item) : SameBuckets s (s.withItems bucket items') := by
  refine ⟨rfl, fun b => ?_⟩
  have hget := get?_of_items h
  by_cases hb : b = bucket
  · subst hb
    simp [withItems, KeyMap.contains, hget]
  · simp [withItems, KeyMap.contains, hb]

end MemoryItems

/-! ### The contract -/

/-- What may go wrong with writes. -/
structure Trouble where
  /-- A write may fail before it takes effect. -/
  refusals : Prop
  /-- A write may take effect and yet be reported as failed. -/
  lostReplies : Prop

namespace Trouble

/-- Nothing goes wrong. -/
def nothing : Trouble := ⟨False, False⟩

/-- Writes may be refused, as fault plans do. -/
def faults : Trouble := ⟨True, False⟩

/-- Writes may be refused, and replies to writes may get lost. -/
def anything : Trouble := ⟨True, True⟩

/-- May a write fail that could have been carried out? -/
def Possible (t : Trouble) : Prop := t.refusals ∨ t.lostReplies

theorem not_possible_nothing : ¬nothing.Possible := by simp [nothing, Possible]

end Trouble

/-- How a write may end, as a reply and the state that it leaves. The fault plan may change on the
    way. -/
inductive Written (t : Trouble) (bucket key : Bytes) (x : Option Item) (condition : Precondition)
    (s : MemoryItems) : Except Failure Bool → MemoryItems → Prop
  | unreachable {f : Failure} (h : s.items bucket = .error f) :
      Written t bucket key x condition s (.error f) s
  | refused {items : KeyMap Bytes Item} (h : s.items bucket = .ok items) (ht : t.refusals)
      (f : Failure) (fault : Option FaultPlan) :
      Written t bucket key x condition s (.error f) { s with fault }
  | applied {items : KeyMap Bytes Item} (h : s.items bucket = .ok items)
      (hcond : condition.holds (items.get? key) = true) (fault : Option FaultPlan) :
      Written t bucket key x condition s (.ok true)
        (MemoryItems.withItems { s with fault } bucket (items.put key x))
  | declined {items : KeyMap Bytes Item} (h : s.items bucket = .ok items)
      (hcond : condition.holds (items.get? key) = false) (fault : Option FaultPlan) :
      Written t bucket key x condition s (.ok false) { s with fault }
  | lost {items : KeyMap Bytes Item} (h : s.items bucket = .ok items) (ht : t.lostReplies)
      (hcond : condition.holds (items.get? key) = true) (f : Failure) (fault : Option FaultPlan) :
      Written t bucket key x condition s (.error f)
        (MemoryItems.withItems { s with fault } bucket (items.put key x))

theorem Written.mono {t t' : Trouble} {bucket key : Bytes} {x : Option Item}
    {condition : Precondition} {s s' : MemoryItems} {r : Except Failure Bool}
    (hrefusals : t.refusals → t'.refusals) (hlost : t.lostReplies → t'.lostReplies)
    (h : Written t bucket key x condition s r s') : Written t' bucket key x condition s r s' := by
  cases h with
  | unreachable h => exact .unreachable h
  | refused h ht f fault => exact .refused h (hrefusals ht) f fault
  | applied h hcond fault => exact .applied h hcond fault
  | declined h hcond fault => exact .declined h hcond fault
  | lost h ht hcond f fault => exact .lost h (hlost ht) hcond f fault

/-- If anything may go wrong, a write that was decided may be reported as failed. -/
theorem Written.unreported {t : Trouble} {bucket key : Bytes} {x : Option Item}
    {condition : Precondition} {s s' : MemoryItems} {decided : Bool} (hrefusals : t.refusals)
    (hlost : t.lostReplies) (f : Failure) (h : Written t bucket key x condition s (.ok decided) s') :
    Written t bucket key x condition s (.error f) s' := by
  cases h with
  | applied hitems hcond fault => exact .lost hitems hlost hcond f fault
  | declined hitems _ fault => exact .refused hitems hrefusals f fault

/-- A store in memory, with what may go wrong. -/
def storing (around : Surroundings) (t : Trouble) : Contract Call Call.Reply MemoryItems where
  needs _ _ := True
  allows
    | .load bucket key, s, r, s' => r = s.load bucket key ∧ s' = s
    | .write bucket key x condition, s, r, s' => Written t bucket key x condition s r s'
    | .scan bucket token limit, s, r, s' => r = s.scan bucket token limit ∧ s' = s
    | .now, s, r, s' => r = around.clock s.readings ∧ s' = { s with readings := s.readings + 1 }
    | .freshId, s, r, s' => r = around.ids s.drawn ∧ s' = { s with drawn := s.drawn + 1 }

variable {around : Surroundings} {t : Trouble}

/-- What is replied where less goes wrong may be replied where more does. -/
theorem storing_mono {t' : Trouble} {c : Call} {s s' : MemoryItems} {r : c.Reply}
    (hrefusals : t.refusals → t'.refusals) (hlost : t.lostReplies → t'.lostReplies)
    (h : (storing around t).allows c s r s') : (storing around t').allows c s r s' := by
  cases c with
  | write bucket key x condition => exact Written.mono hrefusals hlost h
  | load | scan | now | freshId => exact h

/-- Does a fault strike the call? -/
def MemoryItems.strikes (s : MemoryItems) : Call → Bool
  | .write bucket _ _ _ => (s.items bucket).isOk && (FaultPlan.strike s.fault).1
  | _ => false

theorem MemoryItems.strikes_of_none {s : MemoryItems} (h : s.fault = none) (c : Call) :
    s.strikes c = false := by
  cases c with
  | write bucket key x condition => simp [strikes, h, FaultPlan.strike]
  | load | scan | now | freshId => rfl

theorem storing_of_respond (c : Call) (s : MemoryItems) (ht : t.refusals ∨ s.strikes c = false) :
    (storing around t).allows c s (MemoryItems.respond around c s).reply
      (MemoryItems.respond around c s).state := by
  cases c with
  | load bucket key => exact ⟨rfl, rfl⟩
  | scan bucket token limit => exact ⟨rfl, rfl⟩
  | now => exact ⟨rfl, rfl⟩
  | freshId => exact ⟨rfl, rfl⟩
  | write bucket key x condition =>
    change Written t bucket key x condition s (s.write bucket key x condition).reply
      (s.write bucket key x condition).state
    unfold MemoryItems.write
    cases hitems : s.items bucket with
    | error f => exact .unreachable hitems
    | ok items =>
      cases hstrike : FaultPlan.strike s.fault with
      | mk struck fault =>
        cases struck with
        | true =>
          have hrefusals : t.refusals := by
            refine ht.resolve_right fun hsafe => ?_
            simp [MemoryItems.strikes, hitems, hstrike, Except.isOk, Except.toBool] at hsafe
          exact .refused hitems hrefusals _ fault
        | false =>
          by_cases hcond : condition.holds (items.get? key) = true
          · simp only [hcond, Bool.false_eq_true, if_false, if_true]
            exact .applied hitems hcond fault
          · simp only [hcond, Bool.false_eq_true, if_false]
            exact .declined hitems (by simpa using hcond) fault

theorem fault_respond (c : Call) (s : MemoryItems) (h : s.fault = none) :
    (MemoryItems.respond around c s).state.fault = none := by
  cases c with
  | load bucket key => exact h
  | scan bucket token limit => exact h
  | now => exact h
  | freshId => exact h
  | write bucket key x condition =>
    change (s.write bucket key x condition).state.fault = none
    unfold MemoryItems.write
    cases s.items bucket with
    | error f => exact h
    | ok items =>
      simp only [h, FaultPlan.strike, Bool.false_eq_true, if_false]
      split <;> rfl

variable {α : Type} {p : Protocol α} {Q : Except Failure α → MemoryItems → Prop} {s : MemoryItems}

theorem run_of_faults (h : p.Ensures (storing around .faults) s Q) :
    Q (p.run (MemoryItems.respond around) s).reply (p.run (MemoryItems.respond around) s).state := by
  have hrun := h.run (MemoryItems.respond around) (fun t s => s = t) ?_ rfl
  · obtain ⟨_, hQ, rfl⟩ := hrun
    exact hQ
  · rintro c s _ rfl _
    exact ⟨_, storing_of_respond c _ (.inl trivial), rfl⟩

theorem run_of_nothing (h : p.Ensures (storing around .nothing) s Q) (hfault : s.fault = none) :
    Q (p.run (MemoryItems.respond around) s).reply (p.run (MemoryItems.respond around) s).state ∧
      (p.run (MemoryItems.respond around) s).state.fault = none := by
  have hrun := h.run (MemoryItems.respond around) (fun t s => s = t ∧ t.fault = none) ?_ ⟨rfl, hfault⟩
  · obtain ⟨_, hQ, rfl, hnone⟩ := hrun
    exact ⟨hQ, hnone⟩
  · rintro c s _ ⟨rfl, hnone⟩ _
    exact ⟨_, storing_of_respond c _ (.inr (MemoryItems.strikes_of_none hnone c)), rfl,
      fault_respond c _ hnone⟩

/-- No fault strikes while the protocol runs. -/
def Unstruck (around : Surroundings) (p : Protocol α) (s : MemoryItems) : Prop :=
  ∀ e ∈ p.calls (MemoryItems.respond around) s, e.2.strikes e.1 = false

instance : Decidable (Unstruck around p s) :=
  inferInstanceAs (Decidable (∀ e ∈ p.calls (MemoryItems.respond around) s, _))

theorem run_of_unstruck (h : p.Ensures (storing around .nothing) s Q) (hunstruck : Unstruck around p s) :
    Q (p.run (MemoryItems.respond around) s).reply (p.run (MemoryItems.respond around) s).state := by
  have hrun := h.run_along (MemoryItems.respond around) (fun t s => s = t)
    (fun c t => t.strikes c = false) ?_ hunstruck rfl
  · obtain ⟨_, hQ, rfl⟩ := hrun
    exact hQ
  · rintro c s _ hsafe rfl _
    exact ⟨_, storing_of_respond c _ (.inr hsafe), rfl⟩

/-- Whatever is replied, the same buckets exist afterwards. -/
theorem sameBuckets_of_allows {c : Call} {s' : MemoryItems} {r : Call.Reply c}
    (h : (storing around t).allows c s r s') : MemoryItems.SameBuckets s s' := by
  cases c with
  | load bucket key => exact h.2 ▸ .refl s
  | scan bucket token limit => exact h.2 ▸ .refl s
  | now => exact h.2 ▸ ⟨rfl, fun _ => rfl⟩
  | freshId => exact h.2 ▸ ⟨rfl, fun _ => rfl⟩
  | write bucket key x condition =>
    change Written t bucket key x condition s r s' at h
    cases h with
    | unreachable _ => exact .refl _
    | refused _ _ _ _ => exact ⟨rfl, fun _ => rfl⟩
    | declined _ _ _ => exact ⟨rfl, fun _ => rfl⟩
    | applied h _ _ => exact ⟨rfl, (MemoryItems.sameBuckets_withItems h _).contains⟩
    | lost h _ _ _ _ => exact ⟨rfl, (MemoryItems.sameBuckets_withItems h _).contains⟩

theorem ensures_true (p : Protocol α) :
    p.Ensures (storing around t) s fun _ _ => True := by
  induction p generalizing s with
  | done a => trivial
  | fail f => trivial
  | note line p ih => exact ih
  | call c k ih => exact ⟨trivial, fun r s' _ => ih r⟩

/-- A protocol neither makes nor drops buckets, and does not close the store. -/
theorem ensures_sameBuckets (h : p.Ensures (storing around t) s Q) :
    p.Ensures (storing around t) s fun r s' => Q r s' ∧ MemoryItems.SameBuckets s s' :=
  h.frame .refl (fun _ _ _ => .trans) fun _ _ _ _ => sameBuckets_of_allows

/-! ### Rules for the calls -/

variable {bucket key : Bytes} {x : Option Item} {condition : Precondition}

open MemoryItems

theorem ensures_callLoad {next : Except Failure (Option Item) → Protocol α}
    (hok : s.Offers bucket → (next (.ok (s.raw bucket key))).Ensures (storing around t) s Q)
    (herror : ∀ f, s.items bucket = .error f → (next (.error f)).Ensures (storing around t) s Q) :
    (Program.call (.load bucket key) next : Protocol α).Ensures (storing around t) s Q := by
  refine ⟨trivial, ?_⟩
  rintro _ s' ⟨rfl, hs⟩
  subst hs
  unfold MemoryItems.load
  cases hitems : s'.items bucket with
  | error f => exact herror f hitems
  | ok items =>
    have := hok (offers_of_items hitems)
    rwa [← get?_eq_raw hitems] at this

theorem ensures_load {Q : Except Failure (Option Item) → MemoryItems → Prop}
    (hok : s.Offers bucket → Q (.ok (s.raw bucket key)) s)
    (herror : ∀ f, s.items bucket = .error f → Q (.error f) s) :
    (Protocol.load bucket key).Ensures (storing around t) s Q :=
  ensures_callLoad (fun h => Program.ensures_ofExcept.mpr (hok h)) herror

/-- A write under a condition: it takes effect, or its condition does not hold, or it fails, with
    its effect lost or not. -/
theorem ensures_tryWrite {Q : Except Failure (Except Failure Bool) → MemoryItems → Prop}
    (happlied : condition.holds (s.raw bucket key) = true → s.Offers bucket → ∀ s', SameBuckets s s' →
      s'.raw = Places.put s.raw bucket key x → Q (.ok (.ok true)) s')
    (hdeclined : condition.holds (s.raw bucket key) = false → s.Offers bucket → ∀ s',
      SameBuckets s s' → s'.raw = s.raw → Q (.ok (.ok false)) s')
    (hfailed : ∀ f, (t.refusals ∨ s.items bucket = .error f) → ∀ s', SameBuckets s s' →
      s'.raw = s.raw → Q (.ok (.error f)) s')
    (hlost : t.lostReplies → condition.holds (s.raw bucket key) = true → s.Offers bucket → ∀ f s',
      SameBuckets s s' → s'.raw = Places.put s.raw bucket key x → Q (.ok (.error f)) s') :
    (Protocol.tryWrite bucket key x condition).Ensures (storing around t) s Q := by
  refine ⟨trivial, ?_⟩
  intro r s' hwritten
  change Written t bucket key x condition s r s' at hwritten
  change Q (.ok r) s'
  cases hwritten with
  | unreachable h => exact hfailed _ (.inr h) s (.refl s) rfl
  | refused h ht f fault => exact hfailed f (.inl ht) _ ⟨rfl, fun _ => rfl⟩ rfl
  | @applied items h hcond fault =>
    rw [get?_eq_raw h] at hcond
    refine happlied hcond (offers_of_items h) _ ?_ (raw_withItems h x)
    exact ⟨rfl, (sameBuckets_withItems h (items.put key x)).contains⟩
  | declined h hcond fault =>
    rw [get?_eq_raw h] at hcond
    exact hdeclined hcond (offers_of_items h) _ ⟨rfl, fun _ => rfl⟩ rfl
  | @lost items h ht hcond f fault =>
    rw [get?_eq_raw h] at hcond
    refine hlost ht hcond (offers_of_items h) f _ ?_ (raw_withItems h x)
    exact ⟨rfl, (sameBuckets_withItems h (items.put key x)).contains⟩

theorem ensures_write {Q : Except Failure Bool → MemoryItems → Prop}
    (happlied : condition.holds (s.raw bucket key) = true → s.Offers bucket → ∀ s', SameBuckets s s' →
      s'.raw = Places.put s.raw bucket key x → Q (.ok true) s')
    (hdeclined : condition.holds (s.raw bucket key) = false → s.Offers bucket → ∀ s',
      SameBuckets s s' → s'.raw = s.raw → Q (.ok false) s')
    (hfailed : ∀ f, (t.refusals ∨ s.items bucket = .error f) → ∀ s', SameBuckets s s' →
      s'.raw = s.raw → Q (.error f) s')
    (hlost : t.lostReplies → condition.holds (s.raw bucket key) = true → s.Offers bucket → ∀ f s',
      SameBuckets s s' → s'.raw = Places.put s.raw bucket key x → Q (.error f) s') :
    (Protocol.write bucket key x condition).Ensures (storing around t) s Q := by
  have htry : (Protocol.tryWrite bucket key x condition).Ensures (storing around t) s fun
      | .ok r, s' => Q r s'
      | .error _, _ => False := ensures_tryWrite happlied hdeclined hfailed hlost
  refine ⟨trivial, fun r s' hr => ?_⟩
  exact Program.ensures_ofExcept.mpr (htry.2 r s' hr)

/-- Trying again keeps what every vain attempt keeps; `I n` is what holds while `n` attempts are
    left. -/
theorem ensures_retry {body : Protocol (Option α)} {exhausted : Failure} {I : Nat → MemoryItems → Prop}
    (hbody : ∀ n s, I (n + 1) s → body.Ensures (storing around t) s fun
      | .ok (some a), s' => Q (.ok a) s'
      | .ok none, s' => I n s'
      | .error f, s' => Q (.error f) s')
    (hexhausted : ∀ s, I 0 s → Q (.error exhausted) s) {n : Nat} (hs : I n s) :
    (retry body exhausted n).Ensures (storing around t) s Q := by
  induction n generalizing s with
  | zero => exact hexhausted s hs
  | succ n ih =>
    refine Program.ensures_bind.mpr ((hbody n s hs).mono ?_)
    rintro (f | (_ | a)) s' hQ
    · exact hQ
    · exact ih hQ
    · exact hQ

/-- What ends at the first attempt is tried once, whatever the store. -/
theorem ensures_retry_first {σ : Type} {K : Contract Call Call.Reply σ} {s : σ}
    {Q : Except Failure α → σ → Prop} {body : Protocol (Option α)} {exhausted : Failure} {n : Nat}
    (hn : 0 < n) (hbody : body.Ensures K s fun
      | .ok (some a), s' => Q (.ok a) s'
      | .ok none, _ => False
      | .error f, s' => Q (.error f) s') :
    (retry body exhausted n).Ensures K s Q := by
  cases n with
  | zero => cases hn
  | succ n =>
    refine Program.ensures_bind.mpr (hbody.mono ?_)
    rintro (f | (_ | a)) s' hQ
    · exact hQ
    · exact hQ.elim
    · exact hQ

theorem ensures_scan {token : Option Token} {limit : UInt64}
    {Q : Except Failure (Page (Bytes × Item)) → MemoryItems → Prop}
    (h : Q (s.scan bucket token limit) s) :
    (Protocol.scan bucket token limit).Ensures (storing around t) s Q := by
  refine ⟨trivial, ?_⟩
  rintro _ s' ⟨rfl, hs⟩
  subst hs
  exact Program.ensures_ofExcept.mpr h

theorem ensures_now {Q : Except Failure Int64 → MemoryItems → Prop}
    (h : Q (.ok (around.clock s.readings)) { s with readings := s.readings + 1 }) :
    Protocol.now.Ensures (storing around t) s Q := by
  refine ⟨trivial, ?_⟩
  rintro r _ ⟨rfl, rfl⟩
  exact h

theorem ensures_freshId {Q : Except Failure String → MemoryItems → Prop}
    (h : Q (.ok (around.ids s.drawn)) { s with drawn := s.drawn + 1 }) :
    Protocol.freshId.Ensures (storing around t) s Q := by
  refine ⟨trivial, ?_⟩
  rintro r _ ⟨rfl, rfl⟩
  exact h

/-- A step of a record's life is not refused. -/
theorem ensures_transition {σ : Type} {K : Contract Call Call.Reply σ} {s : σ} {r : Record}
    {next : TxState} {Q : Except Failure Record → σ → Prop} (h : r.state.canBecome next = true)
    (hnext : Q (.ok { r with state := next }) s) : (Protocol.transition r next).Ensures K s Q := by
  rw [Protocol.transition_of_canBecome h]
  exact hnext

/-- The record of a transaction is read as it is stored, if what is stored under its key is a record
    at all. A bucket that does not exist has none. -/
theorem ensures_loadRecord {id : String} (hopen : s.closed = false)
    (hrecord : ∀ item, s.raw bucket (recordKey id) = some item →
      ∃ r : Record, r.Addressable ∧ r.id = id ∧ item = r.item)
    {Q : Except Failure (Option (Record × Bytes)) → MemoryItems → Prop}
    (hsome : ∀ r : Record, r.Addressable → r.id = id → s.raw bucket (recordKey id) = some r.item →
      Q (.ok (some (r, r.encode))) s)
    (hnone : s.raw bucket (recordKey id) = none → Q (.ok none) s) :
    (loadRecord bucket id).Ensures (storing around t) s Q := by
  refine ensures_callLoad ?_ ?_
  · intro _
    cases hraw : s.raw bucket (recordKey id) with
    | none => exact hnone hraw
    | some item =>
      obtain ⟨r, hr, hid, rfl⟩ := hrecord item hraw
      simp only [Record.item, Item.plain, Record.decode_encode hr]
      exact hsome r hr hid hraw
  · intro f hitems
    obtain ⟨rfl, hmissing⟩ := items_error hopen hitems
    refine hnone ?_
    simp [MemoryItems.raw, KeyMap.contains_eq_false.mp hmissing]

end BucketStore.Staging
