/-
  BucketStore/Proofs/Embedded.lean
  ================================
  **The drivers that need no server are interchangeable.**

  A session is a list of calls, between which the store may be closed and opened
  again.  On a keyspace and on a table file every call of a session is answered
  like the same call in memory, where nothing is ever closed, and the answers are
  the same as without the closing and opening (`embedded_interchangeable`).

  An engine refines the one in memory (`Refines`) if each single call does, if what
  a call answers depends on the buckets alone, and if reopening succeeds and keeps
  the buckets; for whole sessions this follows by induction.
-/
import BucketStore.Proofs.Keyspace.Calls
import BucketStore.Proofs.TableFile.Calls
import Mathlib.Data.List.Forall2

namespace BucketStore.Embedded

open Step (Matches)

/-! ### Sessions -/

inductive Call where
  | request (r : Request)
  | bucketNames
deriving DecidableEq, Repr

inductive Answer where
  | response (response : Response)
  | names (names : List Bytes)
deriving DecidableEq, Repr

/-- Entries are listed in ascending order of their keys. -/
def InKeyOrder : Response → Prop
  | .entries l => l.Pairwise fun a b => compare a.key b.key = .lt
  | _ => True

/-- The answers are the same, or both are names of the same buckets, in whatever order. -/
inductive Answer.Like : Answer → Answer → Prop
  | response {r : Response} : InKeyOrder r → Like (.response r) (.response r)
  | names {l l' : List Bytes} : l.Perm l' → Like (.names l) (.names l')

/-- The call leaves the driver open, and the bucket names in it are short enough for partitions. -/
def Call.Proper : Call → Prop
  | .request r => r.Within Keyspace.Fits
  | .bucketNames => True

instance : DecidablePred Call.Proper
  | .request r => inferInstanceAs (Decidable (r.Within Keyspace.Fits))
  | .bucketNames => inferInstanceAs (Decidable True)

/-- A driver with the stores that it opens. -/
structure Engine (σ : Type) where
  driver : Driver σ
  bucketNames : Action σ (List Bytes)
  openStore : Action σ Unit
  /-- The store before it is opened for the first time. -/
  blank : σ

inductive Event where
  | call (c : Call)
  /-- The store is closed and opened again. -/
  | reopen
deriving DecidableEq, Repr

def Event.call? : Event → Option Call
  | .call c => some c
  | .reopen => none

namespace Engine

variable {σ : Type} (e : Engine σ)

def perform : Call → Action σ Answer
  | .request r => do return .response (← e.driver.perform r)
  | .bucketNames => do return .names (← e.bucketNames)

theorem reply_request (r : Request) (s : σ) :
    (e.perform (.request r) s).reply = (e.driver.perform r s).reply.map .response :=
  Action.reply_map _

theorem reply_names (s : σ) : (e.perform .bucketNames s).reply = (e.bucketNames s).reply.map .names :=
  Action.reply_map _

def reopen : Action σ Unit := do
  e.driver.close
  e.openStore

/-- What the calls are answered, one after the other. A reopening that fails ends the session with
    its failure. -/
def replies : σ → List Event → List (Except Failure Answer)
  | _, [] => []
  | s, .call c :: rest => (e.perform c s).reply :: replies (e.perform c s).state rest
  | s, .reopen :: rest =>
    match e.reopen s with
    | ⟨.ok (), s', _⟩ => replies s' rest
    | ⟨.error f, _, _⟩ => [.error f]

/-- The replies to a session on a new store. -/
def session (events : List Event) : List (Except Failure Answer) :=
  e.replies (e.openStore e.blank).state events

end Engine

def memoryEngine (config : Memory.Config) : Engine Memory.Store where
  driver := Memory.driver config
  bucketNames := Memory.bucketNames
  openStore := Memory.openStore config
  blank := {}

def keyspaceEngine (config : Keyspace.Config) : Engine Keyspace.Store where
  driver := Keyspace.driver config
  bucketNames := Keyspace.bucketNames
  openStore := Keyspace.openKeyspace config
  blank := {}

def fileEngine (config : TableFile.Config) : Engine TableFile.File where
  driver := TableFile.driver config
  bucketNames := TableFile.bucketNames
  openStore := TableFile.openFile config
  blank := {}

/-! ### Refinement of the engine in memory -/

/-- On stores that hold what a store in memory holds, the engine answers as in memory, the same on
    all of them, and it can be closed and opened. -/
structure Refines {σ : Type} (e : Engine σ) (config : Memory.Config)
    (H : σ → Memory.Store → Prop) : Prop where
  fresh : H (e.openStore e.blank).state {}
  call : ∀ {s m} {c : Call}, H s m → c.Proper →
    Matches SameKind Answer.Like H (e.perform c s) ((memoryEngine config).perform c m)
  steady : ∀ {s s' m} {c : Call}, H s m → H s' m → c.Proper →
    (e.perform c s).reply = (e.perform c s').reply
  reopen : ∀ {s m}, H s m → (e.reopen s).reply = .ok () ∧ H (e.reopen s).state m

namespace Refines

variable {σ : Type} {e : Engine σ} {config : Memory.Config} {H : σ → Memory.Store → Prop}
  {s s' : σ} {m : Memory.Store} {events : List Event}

theorem replies_reopen (hr : Refines e config H) (h : H s m) (rest : List Event) :
    e.replies s (.reopen :: rest) = e.replies (e.reopen s).state rest := by
  have hreply := (hr.reopen h).1
  rw [Engine.replies]
  generalize e.reopen s = step at hreply ⊢
  obtain ⟨r, s', log⟩ := step
  cases hreply
  rfl

/-- The calls of a session are answered as in memory without the reopenings. -/
theorem replies_alike (hr : Refines e config H) (h : H s m)
    (hproper : ∀ c ∈ events.filterMap Event.call?, c.Proper) :
    List.Forall₂ (Alike SameKind Answer.Like) (e.replies s events)
      ((memoryEngine config).replies m ((events.filterMap Event.call?).map .call)) := by
  induction events generalizing s m with
  | nil => exact .nil
  | cons event rest ih =>
    cases event with
    | reopen =>
      rw [replies_reopen hr h]
      exact ih (hr.reopen h).2 hproper
    | call c =>
      have hcall := hr.call h (hproper c (List.mem_cons_self ..))
      apply List.Forall₂.cons hcall.reply
      exact ih hcall.state fun c' hc' => hproper c' (List.mem_cons_of_mem _ hc')

/-- The reopenings of a session change no reply. -/
theorem replies_eq (hr : Refines e config H) (h : H s m) (h' : H s' m)
    (hproper : ∀ c ∈ events.filterMap Event.call?, c.Proper) :
    e.replies s events = e.replies s' ((events.filterMap Event.call?).map .call) := by
  induction events generalizing s s' m with
  | nil => rfl
  | cons event rest ih =>
    cases event with
    | reopen =>
      rw [replies_reopen hr h]
      exact ih (hr.reopen h).2 h' hproper
    | call c =>
      have hc := hproper c (List.mem_cons_self ..)
      change _ :: _ = _ :: _
      rw [hr.steady h h' hc]
      congr 1
      exact ih (hr.call h hc).state (hr.call h' hc).state
        fun c' hc' => hproper c' (List.mem_cons_of_mem _ hc')

end Refines

/-! ### Answers in memory -/

theorem inKeyOrder_of_reply {config : Memory.Config} {m : Memory.Store} {r : Request}
    {response : Response} (hopen : m.closed = false)
    (h : ((Memory.unnamed config).perform r m).reply = .ok response) : InKeyOrder response := by
  cases r with
  | list b =>
    change ((Memory.list config b >>= fun l => pure (Response.entries l)) m).reply = _ at h
    rw [Action.reply_map, Memory.list_run hopen, Memory.bucket_run] at h
    cases hcheck : checkBucket b with
    | error f =>
      rw [hcheck] at h
      cases h
    | ok _ =>
      rw [hcheck] at h
      cases hfound : m.buckets.get? b with
      | none =>
        rw [hfound] at h
        cases h
      | some found =>
        rw [hfound] at h
        cases h
        exact List.pairwise_map.mpr found.ascending
  | _ =>
    rw [Driver.perform, Action.reply_map] at h
    generalize Step.reply _ = reply at h
    cases reply <;> cases h
    trivial

section

variable {σ : Type} {e : Engine σ} {H : σ → Memory.Store → Prop} {s : σ} {m : Memory.Store}
  {config : Memory.Config}

/-- A request that is answered as in memory before a failure is named after its call there. -/
theorem request_matches {r : Request} (hopen : m.closed = false)
    (h : Matches SameKind Eq H (e.driver.perform r s) ((Memory.unnamed config).perform r m)) :
    Matches SameKind Answer.Like H (e.perform (.request r) s)
      ((memoryEngine config).perform (.request r) m) := by
  have hordered : Matches SameKind (fun a b => a = b ∧ InKeyOrder b) H (e.driver.perform r s)
      ((Memory.unnamed config).perform r m) :=
    ⟨h.reply.and_right fun _ => inKeyOrder_of_reply hopen, h.state⟩
  apply (hordered.trans (Memory.perform_unnamed config r m)).map
  rintro response _ ⟨rfl, horder⟩
  exact .response horder

theorem names_matches {names : List Bytes} (hopen : m.closed = false)
    (hreply : (e.bucketNames s).reply = .ok names) (hstate : (e.bucketNames s).state = s)
    (h : H s m) (hnames : names.Perm m.buckets.keys) :
    Matches SameKind Answer.Like H (e.perform .bucketNames s)
      ((memoryEngine config).perform .bucketNames m) := by
  have hmatch : Matches SameKind List.Perm H (e.bucketNames s) (Memory.bucketNames m) := by
    rw [Memory.bucketNames_run hopen]
    constructor
    · rw [hreply]
      exact .answers hnames
    · rw [hstate]
      exact h
  exact hmatch.map fun _ _ => Answer.Like.names

end

/-! ### The engines -/

section

variable (config : Memory.Config)

theorem keyspace_refines {kc : Keyspace.Config} (hpath : kc.path.isEmpty = false) :
    Refines (keyspaceEngine kc) config Keyspace.Holds where
  fresh := by
    change Keyspace.Holds (Keyspace.openKeyspace kc {}).state {}
    unfold Keyspace.openKeyspace
    rw [hpath]
    exact ⟨rfl, rfl, .empty, fun _ _ hnoted => nomatch hnoted⟩
  call {s m c} h hproper := by
    cases c with
    | request r =>
      apply request_matches h.memoryOpened
      exact (Keyspace.perform_matches h kc config hproper).sameKind
    | bucketNames =>
      obtain ⟨hreply, hstate⟩ := Keyspace.bucketNames_run h.opened
      apply names_matches h.memoryOpened hreply hstate h
      exact ((List.reverse_perm _).filterMap _).trans h.keeps.perm_names
  steady {s s' m c} h h' hproper := by
    cases c with
    | request r =>
      have hreply := (Keyspace.perform_matches h kc config hproper).reply.eq
      have hreply' := (Keyspace.perform_matches h' kc config hproper).reply.eq
      rw [Engine.reply_request, Engine.reply_request]
      exact congrArg (Except.map Answer.response) (hreply.trans hreply'.symm)
    | bucketNames =>
      have hreply := (Keyspace.bucketNames_run h.opened).1
      rw [← h.keeps.unique h'.keeps, ← (Keyspace.bucketNames_run h'.opened).1] at hreply
      rw [Engine.reply_names, Engine.reply_names]
      exact congrArg (Except.map Answer.names) hreply
  reopen {s m} h := by
    obtain ⟨hreply, hstate⟩ := Keyspace.reopen_run h hpath
    exact ⟨hreply, (congrArg (Keyspace.Holds · m) hstate).mpr (Keyspace.Holds.forget h)⟩

theorem file_refines {fc : TableFile.Config} (hpath : fc.path.isEmpty = false) :
    Refines (fileEngine fc) config TableFile.Holds where
  fresh := by
    change TableFile.Holds (TableFile.openFile fc {}).state {}
    unfold TableFile.openFile
    rw [hpath]
    exact ⟨rfl, rfl, .empty⟩
  call {s m c} h hproper := by
    cases c with
    | request r =>
      apply request_matches h.memoryOpened
      apply TableFile.perform_matches h fc config
      rintro rfl
      exact hproper
    | bucketNames =>
      obtain ⟨hreply, hstate⟩ := TableFile.bucketNames_run h.opened
      exact names_matches h.memoryOpened hreply hstate h h.keeps.perm_names
  steady {s s' m c} h h' _ := by
    have hsame : s = s' := by
      have htables := h'.keeps.unique h.keeps
      have hopened := h.opened.trans h'.opened.symm
      obtain ⟨tables, opened⟩ := s
      obtain ⟨tables', opened'⟩ := s'
      dsimp only at htables hopened
      rw [htables, hopened]
    rw [hsame]
  reopen {s m} h := by
    obtain ⟨hreply, hstate⟩ := TableFile.reopen_run h hpath
    exact ⟨hreply, (congrArg (TableFile.Holds · m) hstate).mpr h⟩

end

/-! ### Interchangeability -/

/-- Whatever is called, on a keyspace, on a table file and in memory the replies are alike at every
    step, and wherever the keyspace or the file is closed and opened again, the replies to the calls
    are those without it. -/
theorem embedded_interchangeable (config : Memory.Config) (kc : Keyspace.Config)
    (fc : TableFile.Config) (hkeyspace : kc.path.isEmpty = false) (hfile : fc.path.isEmpty = false)
    (events : List Event) (hproper : ∀ c ∈ events.filterMap Event.call?, c.Proper) :
    let calls := (events.filterMap Event.call?).map Event.call
    List.Forall₂ (Alike SameKind Answer.Like) ((keyspaceEngine kc).session events)
        ((memoryEngine config).session calls) ∧
      List.Forall₂ (Alike SameKind Answer.Like) ((fileEngine fc).session events)
        ((memoryEngine config).session calls) ∧
      (keyspaceEngine kc).session events = (keyspaceEngine kc).session calls ∧
      (fileEngine fc).session events = (fileEngine fc).session calls := by
  have hk := keyspace_refines config hkeyspace
  have hf := file_refines config hfile
  intro calls
  refine ⟨?_, ?_, ?_, ?_⟩
  · exact hk.replies_alike hk.fresh hproper
  · exact hf.replies_alike hf.fresh hproper
  · exact hk.replies_eq hk.fresh hk.fresh hproper
  · exact hf.replies_eq hf.fresh hf.fresh hproper

/-- A bucket is filled, and a key is swapped, between reopenings; an update that reads an absent key
    fails and changes nothing; the bucket is dropped and created again. -/
def tour : List Event :=
  [.call (.request (.create [0x62])), .reopen, .call (.request (.create [0x62])),
    .call (.request (.set [0x62] [2] [7])), .call (.request (.set [0x62] [1] [])), .reopen,
    .call (.request (.list [0x62])), .call (.request (.compareAndSwap [0x62] [1] (some []) [9])),
    .call (.request (.update [.delete [0x62] [2], .get [0x62] [3]])), .reopen,
    .call (.request (.get [0x62] [2])), .call .bucketNames, .call (.request (.drop [0x62])),
    .call (.request (.set [0x62] [2] [7])), .reopen, .call (.request (.create [0x62])),
    .call (.request (.list [0x62])), .call (.request (.list []))]

theorem embedded_interchangeable_tour :
    let calls := (tour.filterMap Event.call?).map Event.call
    ({ path? := some "data" } : Keyspace.Config).path.isEmpty = false ∧
      ("data.redb" : String).isEmpty = false ∧ (∀ c ∈ tour.filterMap Event.call?, c.Proper) ∧
      List.Forall₂ (Alike SameKind Answer.Like)
        ((keyspaceEngine { path? := some "data" }).session tour) ((memoryEngine {}).session calls) ∧
      List.Forall₂ (Alike SameKind Answer.Like)
        ((fileEngine { path := "data.redb" }).session tour) ((memoryEngine {}).session calls) ∧
      ((memoryEngine {}).session calls).map Except.toOption =
        [some (.response .done), none, some (.response .done), some (.response .done),
          some (.response (.entries [⟨[0x62], [1], []⟩, ⟨[0x62], [2], [7]⟩])),
          some (.response (.swap ⟨some [], true⟩)), none, some (.response (.value [7])),
          some (.names [[0x62]]), some (.response .done), none, some (.response .done),
          some (.response (.entries [])), none] := by
  have hproper : ∀ c ∈ tour.filterMap Event.call?, c.Proper := by decide
  obtain ⟨hk, hf, _, _⟩ := embedded_interchangeable {} { path? := some "data" }
    { path := "data.redb" } (by decide) (by decide) tour hproper
  refine ⟨by decide, by decide, hproper, hk, hf, ?_⟩
  decide +kernel

end BucketStore.Embedded
