/-
  BucketStore/Proofs/Dynamo/Store.lean
  ====================================
  **A store over the service behaves as the store in memory.**

  A client mirrors a store in memory (`Mirrors`) in some tables if both are open or both
  closed, and if these tables hold the encodings of the items of the buckets of their
  names.  There a load, and a write or a removal under any precondition, is answered as
  it is in memory and leaves the client a mirror (`behaves_as_memory`); so does every
  program of such calls (`run_agrees`).
-/
import BucketStore.Dynamo.Store
import BucketStore.Proofs.ActionLogic
import BucketStore.Proofs.Dynamo.Attributes
import BucketStore.Proofs.Dynamo.Service
import BucketStore.Proofs.ProgramLogic
import BucketStore.Staging.MemoryItems

namespace BucketStore.Dynamo

open Staging (Item MemoryItems Precondition)

variable {σ α ρ : Type} {service : Service σ} {view : View σ} {config : Config} {c : Client σ}
  {m : MemoryItems} {P : String → Prop} {items items' : Items} {held : KeyMap Bytes Item}

/-! ### Encoded maps -/

/-- The items of a table are the encodings of those that are held under texts, and none is held under
    anything else. -/
structure Encodes (items : Items) (held : KeyMap Bytes Item) : Prop where
  stored : ∀ key, items.get? key = (held.get? (Bytes.ofString key)).map (itemAttributes key)
  texts : ∀ k, held.contains k = true → ∃ key, Bytes.ofString key = k

namespace Encodes

theorem empty : Encodes {} {} where
  stored _ := rfl
  texts _ hk := nomatch hk

/-- A map has one encoding only. -/
theorem unique (h : Encodes items held) (h' : Encodes items' held) : items = items' := by
  apply KeyMap.ext_get?
  intro key
  rw [h.stored, h'.stored]

theorem put (h : Encodes items held) (key : String) (item : Option Item) :
    Encodes (items.put key (item.map (itemAttributes key)))
      (held.put (Bytes.ofString key) item) where
  stored key' := by
    rw [KeyMap.get?_put, KeyMap.get?_put]
    by_cases hkey : key' = key
    · rw [if_pos hkey, if_pos (congrArg Bytes.ofString hkey), hkey]
    · have hbytes : Bytes.ofString key' ≠ Bytes.ofString key := fun heq =>
        hkey (Bytes.ofString_injective heq)
      rw [if_neg hkey, if_neg hbytes, h.stored]
  texts k hk := by
    by_cases hkey : k = Bytes.ofString key
    · exact ⟨key, hkey.symm⟩
    · rw [KeyMap.contains, KeyMap.get?_put, if_neg hkey] at hk
      exact h.texts k hk

end Encodes

/-! ### Mirrored stores -/

/-- The client is open if the store in memory is, no fault is planned there, both stand at the same
    reading of the clock and at the same identifier, and the tables of which `P` is true hold the
    encodings of the buckets of their names. -/
structure Mirrors (view : View σ) (P : String → Prop) (c : Client σ) (m : MemoryItems) : Prop where
  closed : c.closed = m.closed
  unharmed : m.fault = none
  readings : c.readings = m.readings
  drawn : c.drawn = m.drawn
  tables : ∀ name, P name →
    Option.Rel Encodes (view c.service name) (m.buckets.get? (Bytes.ofString name))

/-- The replies are the same, and the client left mirrors the store that is left. -/
structure Agrees (view : View σ) (P : String → Prop) (x : Step (Client σ) ρ) (y : Step MemoryItems ρ) :
    Prop where
  reply : x.reply = y.reply
  state : Mirrors view P x.state y.state

namespace Mirrors

variable (h : Mirrors view P c m) {name : String}
include h

section

variable (hname : P name)
include hname

theorem held_of_found (hfound : view c.service name = some items) :
    ∃ held, m.buckets.get? (Bytes.ofString name) = some held ∧ Encodes items held := by
  have htable := h.tables name hname
  rw [hfound] at htable
  generalize m.buckets.get? (Bytes.ofString name) = held? at htable ⊢
  cases htable with
  | some hencodes => exact ⟨_, rfl, hencodes⟩

theorem get?_of_missing (hnone : view c.service name = none) :
    m.buckets.get? (Bytes.ofString name) = none := by
  have htable := h.tables name hname
  rw [hnone] at htable
  generalize m.buckets.get? (Bytes.ofString name) = held? at htable ⊢
  cases htable with
  | none => rfl

end

/-- The tables may be looked at. -/
theorem looked {s : σ} (hview : view s = view c.service) : Mirrors view P { c with service := s } m :=
  { h with tables := fun name hname => by rw [hview]; exact h.tables name hname }

/-- A table and the bucket of its name may be put in place of those before. -/
theorem written {s : σ} {held : KeyMap Bytes Item}
    (hview : view s = Function.update (view c.service) name (some items))
    (hencodes : Encodes items held) :
    Mirrors view P { c with service := s } (m.withItems (Bytes.ofString name) held) where
  closed := h.closed
  unharmed := h.unharmed
  readings := h.readings
  drawn := h.drawn
  tables name' hP := by
    rw [hview, MemoryItems.withItems, KeyMap.get?_insert]
    by_cases hname : name' = name
    · subst hname
      rw [Function.update_self, if_pos rfl]
      exact .some hencodes
    · have hbytes : Bytes.ofString name' ≠ Bytes.ofString name := fun heq =>
        hname (Bytes.ofString_injective heq)
      rw [Function.update_of_ne hname, if_neg hbytes]
      exact h.tables name' hP

end Mirrors

/-! ### Requests -/

section

variable {β : Type} {act : Action (Client σ) α} {next : α → Action (Client σ) β} {c' : Client σ}
  {y : Step MemoryItems (Except Failure β)}

theorem Agrees.answered {a : α} (hact : act c = ⟨.ok a, c', []⟩) (h : Agrees view P (next a c') y) :
    Agrees view P ((act >>= next) c) y := by
  rw [Action.bind_of_ok hact]
  exact h

theorem Agrees.failed {f : Failure} (hact : act c = ⟨.error f, c', []⟩)
    (h : Agrees view P ⟨.error f, c', []⟩ y) : Agrees view P ((act >>= next) c) y := by
  rw [Action.bind_of_error hact]
  exact h

end

theorem openTable_run (name : String) (c : Client σ) : openTable (Bytes.ofString name) c =
    ⟨if c.closed then .error .closed else .ok name, c, []⟩ := by
  have hname : tableName (Bytes.ofString name) = .ok name := by
    unfold tableName
    rw [Bytes.text?_ofString]
  unfold openTable
  rw [hname, Action.state_bind]
  cases c.closed <;> rfl

theorem openTable_open (hopen : c.closed = false) (name : String) :
    openTable (Bytes.ofString name) c = ⟨.ok name, c, []⟩ := by
  rw [openTable_run, hopen]
  rfl

theorem openTable_closed (hclosed : c.closed = true) (name : String) :
    openTable (Bytes.ofString name) c = ⟨.error .closed, c, []⟩ := by
  rw [openTable_run, hclosed]
  rfl

theorem keyText_ofString (bucket : Bytes) (key : String) :
    keyText bucket (Bytes.ofString key) = .ok key := by
  unfold keyText
  rw [Bytes.text?_ofString]

theorem tryRequest_run {r : Request} {answer : Except Fault r.Answer} {s : σ}
    (h : service.respond r c.service = (answer, s)) :
    tryRequest service r c = ⟨.ok answer, { c with service := s }, []⟩ := by
  unfold tryRequest
  rw [h]

theorem request_run {r : Request} {answer : Except Fault r.Answer} {s : σ}
    (h : service.respond r c.service = (answer, s)) (bucket : Bytes) :
    request service bucket r c =
      ⟨answer.mapError (Fault.bucketFailure bucket), { c with service := s }, []⟩ := by
  unfold request
  rw [Action.bind_run, tryRequest_run h]
  cases answer <;> rfl

theorem bucketFailure_eq {fault : Fault} (h : fault.code? = some notFound) (bucket : Bytes) :
    fault.bucketFailure bucket = .bucketNotFound bucket := if_pos h

/-! ### Calls on single items -/

/-- A load is answered with the item that is held in memory. -/
theorem load_agrees {bucket key : String}
    (hdoc : Documented service config.consistentRead view bucket key) (h : Mirrors view P c m)
    (hbucket : P bucket) :
    Agrees view P (load service config (Bytes.ofString bucket) (Bytes.ofString key) c)
      ⟨m.load (Bytes.ofString bucket) (Bytes.ofString key), m, []⟩ := by
  unfold load MemoryItems.load MemoryItems.items
  cases hclosed : m.closed with
  | true =>
    rw [Action.bind_of_error (openTable_closed (h.closed.trans hclosed) bucket)]
    exact ⟨rfl, h⟩
  | false =>
    rw [Action.bind_of_ok (openTable_open (h.closed.trans hclosed) bucket), keyText_ofString,
      Action.ofExcept_bind]
    have hread := hdoc.get c.service
    rcases hanswer : service.respond (.getItem bucket key config.consistentRead) c.service with
      ⟨answer, s'⟩
    have hrequest := request_run hanswer (Bytes.ofString bucket)
    rw [hanswer] at hread
    cases hread with
    | found hfound hview =>
      obtain ⟨held, hheld, hencodes⟩ := h.held_of_found hbucket hfound
      apply Agrees.answered hrequest
      rw [hheld, hencodes.stored]
      cases hitem : held.get? (Bytes.ofString key) with
      | none => exact ⟨congrArg Except.ok hitem.symm, h.looked hview⟩
      | some item =>
        simp only [Option.map_some, decode_itemAttributes]
        exact ⟨congrArg Except.ok hitem.symm, h.looked hview⟩
    | missing hnone hcode hview =>
      apply Agrees.failed hrequest
      rw [h.get?_of_missing hbucket hnone, bucketFailure_eq hcode]
      exact ⟨rfl, h.looked hview⟩

/-- In memory, where no fault is planned, the precondition alone decides a write. -/
theorem write_eq {b k : Bytes} (hopen : m.closed = false) (hfault : m.fault = none)
    (hheld : m.buckets.get? b = some held) (item : Option Item) (p : Precondition) :
    m.write b k item p =
      if p.holds (held.get? k) then ⟨.ok true, m.withItems b (held.put k item), []⟩
      else ⟨.ok false, m, []⟩ := by
  obtain ⟨buckets, fault, closed, readings, drawn⟩ := m
  cases hopen
  cases hfault
  unfold MemoryItems.write MemoryItems.items
  rw [hheld]
  rfl

/-- How a write ends once it is answered. -/
def concluding (bucket : Bytes) : Except Fault Unit → Action (Client σ) Bool
  | .ok _ => pure true
  | .error fault =>
    if fault.isConditionFailure then pure false else .fail (fault.bucketFailure bucket)

theorem write_run (hopen : c.closed = false) {bucket : String} {k : Bytes} {item : Option Item}
    {p : Precondition} {r : Request}
    (hr : writeRequest bucket (Bytes.ofString bucket) k item p = .ok r) :
    write service (Bytes.ofString bucket) k item p c =
      concluding (Bytes.ofString bucket) ((service.respond r c.service).1.map fun _ => ())
        { c with service := (service.respond r c.service).2 } := by
  unfold write
  rw [Action.bind_of_ok (openTable_open hopen bucket), hr, Action.ofExcept_bind,
    Action.bind_of_ok (tryRequest_run rfl)]
  cases (service.respond r c.service).1 <;> rfl

/-- The request for a write is made under a text, and a documented service answers it so. -/
theorem Documented.writes {consistent : Bool} {bucket key : String}
    (hdoc : Documented service consistent view bucket key) (s : σ) (item : Option Item)
    (p : Precondition) :
    ∃ r, writeRequest bucket (Bytes.ofString bucket) (Bytes.ofString key) item p = .ok r ∧
      Writes view bucket key s (item.map (itemAttributes key)) (conditionOf p)
        ((service.respond r s).1.map fun _ => (), (service.respond r s).2) := by
  -- That a request is answered with nothing is seen only once it is known which request it is.
  have hunit : ∀ {item condition} {x : Except Fault Unit × σ},
      Writes view bucket key s item condition x →
        Writes view bucket key s item condition (x.1.map fun _ => (), x.2) := by
    rintro _ _ ⟨_ | ⟨⟩, _⟩ h <;> exact h
  unfold writeRequest encode
  rw [keyText_ofString]
  cases item with
  | none => exact ⟨_, rfl, hunit (hdoc.delete s _ (conditionOf_plain p))⟩
  | some item =>
    exact ⟨_, rfl, hunit (hdoc.put s _ _ (conditionOf_plain p) (get?_key key item))⟩

/-- What the service makes of a conditional write is what the precondition makes of it in memory. -/
theorem Writes.agrees {bucket key : String} {item : Option Item} {p : Precondition}
    {answer : Except Fault Unit} {s : σ}
    (hwrites : Writes view bucket key c.service (item.map (itemAttributes key)) (conditionOf p)
      (answer, s)) (h : Mirrors view P c m) (hopen : m.closed = false) (hbucket : P bucket) :
    Agrees view P (concluding (Bytes.ofString bucket) answer { c with service := s })
      (m.write (Bytes.ofString bucket) (Bytes.ofString key) item p) := by
  cases hwrites with
  | applied hfound hverdict hview =>
    obtain ⟨held, hheld, hencodes⟩ := h.held_of_found hbucket hfound
    rw [hencodes.stored, verdict_conditionOf, Option.some_inj] at hverdict
    rw [write_eq hopen h.unharmed hheld, if_pos hverdict]
    exact ⟨rfl, h.written hview (hencodes.put key item)⟩
  | declined hfound hverdict hcode hview =>
    obtain ⟨held, hheld, hencodes⟩ := h.held_of_found hbucket hfound
    rw [hencodes.stored, verdict_conditionOf, Option.some_inj] at hverdict
    rw [write_eq hopen h.unharmed hheld, if_neg (Bool.eq_false_iff.mp hverdict)]
    simp only [concluding, Fault.isConditionFailure, hcode, beq_self_eq_true, if_true]
    exact ⟨rfl, h.looked hview⟩
  | missing hnone hcode hview =>
    have hrefused : m.write (Bytes.ofString bucket) (Bytes.ofString key) item p =
        ⟨.error (.bucketNotFound (Bytes.ofString bucket)), m, []⟩ := by
      unfold MemoryItems.write MemoryItems.items
      rw [hopen, h.get?_of_missing hbucket hnone]
      rfl
    have hother : (some notFound == some conditionFailed) = false := by decide
    simp only [concluding, Fault.isConditionFailure, hcode, hother, Bool.false_eq_true, if_false]
    rw [hrefused, bucketFailure_eq hcode]
    exact ⟨rfl, h.looked hview⟩

/-- A write or a removal is answered as in memory, and leaves the encoding of what is left there. -/
theorem write_agrees {consistent : Bool} {bucket key : String}
    (hdoc : Documented service consistent view bucket key) (h : Mirrors view P c m)
    (hbucket : P bucket) (item : Option Item) (p : Precondition) :
    Agrees view P (write service (Bytes.ofString bucket) (Bytes.ofString key) item p c)
      (m.write (Bytes.ofString bucket) (Bytes.ofString key) item p) := by
  cases hclosed : m.closed with
  | true =>
    have hrefused : m.write (Bytes.ofString bucket) (Bytes.ofString key) item p =
        ⟨.error .closed, m, []⟩ := by
      unfold MemoryItems.write MemoryItems.items
      rw [hclosed]
      rfl
    unfold write
    rw [hrefused, Action.bind_of_error (openTable_closed (h.closed.trans hclosed) bucket)]
    exact ⟨rfl, h⟩
  | false =>
    obtain ⟨r, hr, hwrites⟩ := hdoc.writes c.service item p
    rw [write_run (h.closed.trans hclosed) hr]
    exact hwrites.agrees h hclosed hbucket

/-! ### Keys that are no text -/

/-- Under a key that is no text nothing is held. -/
theorem raw_of_not_text (h : Mirrors view P c m) {bucket : String} (hbucket : P bucket) {k : Bytes}
    (hk : Bytes.text? k = none) : m.raw (Bytes.ofString bucket) k = none := by
  have hheld := h.tables bucket hbucket
  unfold MemoryItems.raw
  generalize view c.service bucket = items? at hheld
  generalize m.buckets.get? (Bytes.ofString bucket) = held? at hheld ⊢
  cases hheld with
  | none => rfl
  | some hencodes =>
    apply KeyMap.contains_eq_false.mp
    rw [← Bool.not_eq_true]
    intro hcontains
    obtain ⟨key, rfl⟩ := hencodes.texts k hcontains
    rw [Bytes.text?_ofString] at hk
    cases hk

/-- An open client refuses such a key without a request. -/
theorem refused_of_not_text (hopen : c.closed = false) (bucket : String) {k : Bytes}
    (hk : Bytes.text? k = none) : ∃ f, f.kind = Kind.invalid ∧
      load service config (Bytes.ofString bucket) k c = ⟨.error f, c, []⟩ ∧
      ∀ item p, write service (Bytes.ofString bucket) k item p c = ⟨.error f, c, []⟩ := by
  obtain ⟨f, hkey, hkind⟩ :
      ∃ f, keyText (Bytes.ofString bucket) k = .error f ∧ f.kind = Kind.invalid := by
    unfold keyText
    rw [hk]
    exact ⟨_, rfl, rfl⟩
  refine ⟨f, hkind, ?_, ?_⟩
  · unfold load
    rw [Action.bind_of_ok (openTable_open hopen bucket), hkey]
    rfl
  · intro item p
    have hrequest : writeRequest bucket (Bytes.ofString bucket) k item p = .error f := by
      unfold writeRequest encode
      rw [hkey]
      cases item <;> rfl
    unfold write
    rw [Action.bind_of_ok (openTable_open hopen bucket), hrequest]
    rfl

/-! ### Single items -/

/-- **A store over a service that does what is documented behaves as the store in memory.** The
    attributes of an item are read back as the item with its key; the expression that is sent for
    a precondition holds of the attributes that are stored, if any, exactly if the precondition
    holds of the item; and a load, a write and a removal, which is a write of no item, are answered
    as in memory and leave the encodings of what is left there. Under a key that is no text nothing
    is held in memory, and an open client refuses it. -/
theorem behaves_as_memory (config : Config) {bucket key : String}
    (hdoc : Documented service config.consistentRead view bucket key) (h : Mirrors view P c m)
    (hbucket : P bucket) :
    (∀ item, decode (itemAttributes key item) = .ok (Bytes.ofString key, item)) ∧
    (∀ (p : Precondition) (stored : Option Item),
      Expression.verdict? (conditionOf p).expression? (conditionOf p).values?
        (stored.map (itemAttributes key)) = some (p.holds stored)) ∧
    Agrees view P (load service config (Bytes.ofString bucket) (Bytes.ofString key) c)
      ⟨m.load (Bytes.ofString bucket) (Bytes.ofString key), m, []⟩ ∧
    (∀ (item : Option Item) (p : Precondition),
      Agrees view P (write service (Bytes.ofString bucket) (Bytes.ofString key) item p c)
        (m.write (Bytes.ofString bucket) (Bytes.ofString key) item p)) ∧
    ∀ k, Bytes.text? k = none →
      m.raw (Bytes.ofString bucket) k = none ∧
      (c.closed = false → ∃ f, f.kind = Kind.invalid ∧
        load service config (Bytes.ofString bucket) k c = ⟨.error f, c, []⟩ ∧
        ∀ item p, write service (Bytes.ofString bucket) k item p c = ⟨.error f, c, []⟩) :=
  ⟨decode_itemAttributes key, verdict_conditionOf key, load_agrees hdoc h hbucket,
    write_agrees hdoc h hbucket, fun _ hk => ⟨raw_of_not_text h hbucket hk, fun hopen =>
      refused_of_not_text hopen bucket hk⟩⟩

/-- An item without a value that a transaction has locked to put one. -/
def lockedGap : Item := ⟨none, some ⟨"tx-1", Bytes.ofString "users", .put [2]⟩⟩

/-- A table with a plain item and a locked gap. -/
def guarded : Items :=
  (({} : Items).put "ada" (some (itemAttributes "ada" (.plain [1])))).put "bob"
    (some (itemAttributes "bob" lockedGap))

def guardedHeld : KeyMap Bytes Item :=
  (({} : KeyMap Bytes Item).put (Bytes.ofString "ada") (some (.plain [1]))).put
    (Bytes.ofString "bob") (some lockedGap)

def guardedClient : Client Tables := { service := ({} : Tables).insert "users" { items := guarded } }

def guardedMemory : MemoryItems := ({} : MemoryItems).withItems (Bytes.ofString "users") guardedHeld

def guardedConfig : Config := ⟨"local", .default, .strong, none, .onDemand, {}⟩

/-- The lock keeps out all writes but those of its owner and those that ask for nothing, also the one
    that expects no value where there is none. -/
theorem behaves_as_memory_guarded :
    Documented Tables.service guardedConfig.consistentRead Tables.view "users" "bob" ∧
      Mirrors Tables.view (fun _ => True) guardedClient guardedMemory ∧
      (load Tables.service guardedConfig (Bytes.ofString "users") (Bytes.ofString "bob")
        guardedClient).reply.toOption = some (some lockedGap) ∧
      [Precondition.none, .absent, .unlocked, .unlockedWith none, .lockedBy "tx-1", .lockedBy "tx-2",
          .valueEquals [2]].map (fun p => (write Tables.service (Bytes.ofString "users")
            (Bytes.ofString "bob") none p guardedClient).reply.toOption) =
        [some true, some false, some false, some false, some true, some false, some false] := by
  have hencodes : Encodes guarded guardedHeld := (Encodes.empty.put "ada" (some _)).put "bob" (some _)
  have hempty : Mirrors Tables.view (fun _ => True) ({ service := {} } : Client Tables) {} :=
    ⟨rfl, rfl, rfl, rfl, fun _ _ => .none⟩
  have hmirrors : Mirrors Tables.view (fun _ => True) guardedClient guardedMemory :=
    hempty.written (Tables.view_insert ..) hencodes
  have hdoc := Tables.documented guardedConfig.consistentRead "users" "bob"
  obtain ⟨_, _, hload, hwrite, _⟩ := behaves_as_memory guardedConfig hdoc hmirrors trivial
  refine ⟨hdoc, hmirrors, ?_, ?_⟩
  · rw [hload.reply]
    decide +kernel
  · simp only [fun p => (hwrite none p).reply]
    decide +kernel

/-! ### Programs -/

section

variable (around : Staging.Surroundings) {K : String → Prop}
  (hdoc : ∀ bucket key, P bucket → K key →
    Documented service config.consistentRead view bucket key)

/-- The call is about one item, under a text of which `K` is true and in a table of which `P` is true,
    or about no item. -/
def OfOneItem (P K : String → Prop) : Staging.Call → Prop
  | .load b k | .write b k _ _ =>
    (∃ bucket, P bucket ∧ Bytes.ofString bucket = b) ∧ ∃ key, K key ∧ Bytes.ofString key = k
  | .scan _ _ _ => False
  | .now | .freshId => True

include hdoc

theorem respond_agrees (h : Mirrors view P c m) {call : Staging.Call} (hone : OfOneItem P K call) :
    Agrees view P (respond service around config call c) (MemoryItems.respond around call m) := by
  cases call with
  | load b k =>
    obtain ⟨⟨bucket, hbucket, rfl⟩, key, hkey, rfl⟩ := hone
    exact load_agrees (hdoc bucket key hbucket hkey) h hbucket
  | write b k item p =>
    obtain ⟨⟨bucket, hbucket, rfl⟩, key, hkey, rfl⟩ := hone
    exact write_agrees (hdoc bucket key hbucket hkey) h hbucket item p
  | scan _ _ _ => exact hone.elim
  | now =>
    constructor
    · exact congrArg around.clock h.readings
    · exact { h with readings := congrArg Nat.succ h.readings }
  | freshId =>
    constructor
    · exact congrArg around.ids h.drawn
    · exact { h with drawn := congrArg Nat.succ h.drawn }

/-- A program whose run in memory makes such calls only is answered the same over the service, and
    leaves the encodings of what it leaves in memory. -/
theorem run_agrees (h : Mirrors view P c m) {p : Staging.Protocol α}
    (hcalls : ∀ e ∈ p.calls (MemoryItems.respond around) m, OfOneItem P K e.1) :
    Agrees view P (p.run (respond service around config) c) (p.run (MemoryItems.respond around) m) := by
  obtain ⟨hreply, hstate⟩ := Program.run_alike (Mirrors view P)
    (fun call c m hone h => ⟨(respond_agrees around hdoc h hone).reply,
      (respond_agrees around hdoc h hone).state⟩) hcalls h
  exact ⟨hreply, hstate⟩

end

end BucketStore.Dynamo
