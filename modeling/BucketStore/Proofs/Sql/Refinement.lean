/-
  BucketStore/Proofs/Sql/Refinement.lean
  ======================================
  **The SQL drivers refine the driver in memory.**

  Calls on a server that does what is documented of the texts that it is sent are
  answered as the same calls in memory, up to the words of failures, and the tables
  hold the same entries all along, whatever the calls and the page size are
  (`sql_refines_memory`).
-/
import BucketStore.Proofs.Memory.Growth
import BucketStore.Proofs.Sql.Listing
import BucketStore.Proofs.Sql.Updating
import Mathlib.Data.List.Forall2

namespace BucketStore.Sql

open Program hiding bind
open Step (Matches)

variable {σ : Type} {service : Service σ} {view : σ → Server} {d : Dialect} {c : Client σ}
  {m : Memory.Store} {α β : Type}

/-! ### Calls -/

/-- The client, seen through the view of its server, mirrors the store in memory. -/
def MirrorsThrough (view : σ → Server) (d : Dialect) (c : Client σ) (m : Memory.Store) : Prop :=
  Mirrors d (c.through view) m

/-- A program that ends as a call in memory is run as the call in memory. -/
theorem Documented.matches (hservice : Documented service d view) {p : Protocol α}
    {y : Step Memory.Store (Except Failure α)}
    (h : p.Ensures (talking d) (c.through view) (Agrees d y)) :
    Matches SameKind Eq (MirrorsThrough view d) (p.run (Client.respond service d) c) y :=
  ⟨(hservice.run h).reply, (hservice.run h).state⟩

section

variable (hservice : Documented service d view) (config : Config) (config' : Memory.Config)
include hservice

/-- Each call is answered as in memory, and the tables mirror what is left there. -/
theorem perform_matches (h : MirrorsThrough view d c m) (hsize : config.pageSize.toNat < 2 ^ 64 - 1)
    {r : Request} (hadmits : r.Within d.Admits) (hkeys : r.KeysWithin d.AdmitsKey)
    (hcount : config.pageSize.toNat + 1 < 2 ^ 63 ∨ ∀ b, m.countIn b < 2 ^ 63) :
    Matches SameKind Eq (MirrorsThrough view d) ((driver service d config).perform r c)
      ((Memory.driver config').perform r m) := by
  refine Matches.trans ?_ (Memory.perform_unnamed config' r m)
  obtain ⟨hopen, ⟨version, hrest⟩, hkeeps⟩ := h
  have hresting : ∀ {β : Type} {p : Protocol β} {y : Step Memory.Store (Except Failure β)},
      p.Ensures (talking d) (resting version (view c.server).tables) (Agrees d y) →
      Matches SameKind Eq (MirrorsThrough view d) (p.run (Client.respond service d) c) y :=
    fun hp => hservice.matches (hrest ▸ hp)
  apply Driver.perform_matches
  cases r with
  | create b => exact hresting (create_agrees hopen hkeeps hadmits)
  | drop b => exact hresting (drop_agrees hopen hkeeps hadmits)
  | get b k => exact hresting (get_agrees hopen hkeeps hadmits)
  | set b k value => exact hresting (set_agrees hopen hkeeps hadmits hkeys value)
  | delete b k => exact hresting (delete_agrees hopen hkeeps hadmits)
  | list b =>
    have hreaches : ∀ found, m.buckets.get? b = some found → Reaches config.pageSize found.size := by
      intro found hfound
      refine reaches_of_size (hcount.imp id fun hall => ?_)
      have hless := hall b
      unfold Memory.Store.countIn at hless
      rwa [hfound] at hless
    have hmost : UInt64.size = 2 ^ 64 := rfl
    exact hresting (list_agrees hopen hkeeps hadmits (by omega) (hservice.bounds c.server) config'
      hreaches)
  | update tx => exact hresting (update_agrees hkeeps hadmits hopen hkeys)
  | compareAndSwap b k old new =>
    exact hresting (compareAndSwap_agrees hopen hkeeps hadmits hkeys old new)
  | close => exact hadmits.elim

/-! ### Runs -/

theorem trace_matches (h : MirrorsThrough view d c m) (hsize : config.pageSize.toNat < 2 ^ 64 - 1)
    {requests : List Request} (hadmits : ∀ r ∈ requests, r.Within d.Admits)
    (hkeys : ∀ r ∈ requests, r.KeysWithin d.AdmitsKey)
    (hcount : config.pageSize.toNat + 1 < 2 ^ 63 ∨
      ∀ b, m.countIn b + (requests.flatMap Request.keys).length < 2 ^ 63) :
    List.Forall₂ (Matches SameKind Eq (MirrorsThrough view d))
      ((driver service d config).trace c requests) ((Memory.driver config').trace m requests) := by
  induction requests generalizing c m with
  | nil => exact .nil
  | cons r rest ih =>
    obtain ⟨hfirst, hrest⟩ := List.forall_mem_cons.mp hadmits
    obtain ⟨hkey, hkeys⟩ := List.forall_mem_cons.mp hkeys
    rw [List.flatMap_cons, List.length_append] at hcount
    have hstep := perform_matches hservice config config' h hsize hfirst hkey
      (hcount.imp id fun hall b => Nat.lt_of_le_of_lt (Nat.le_add_right ..) (hall b))
    apply List.Forall₂.cons hstep
    apply ih hstep.state hrest hkeys
    refine hcount.imp id fun hall b => ?_
    have hopens : r ≠ .close := by
      rintro rfl
      exact hfirst
    have hgrown := Memory.countIn_perform h.memoryOpened config' hopens b
    have hless := hall b
    omega

end

/-- **The SQL drivers refine the driver in memory.** The server is whatever does what is documented of
    statements, and has no tables in the beginning. Whatever is then called on buckets whose names are
    identifiers, the calls are answered like those in memory at every step, and leave the tables that
    mirror the buckets there.

    Rows are counted by a signed number. It is only with page sizes that go beyond it that so many
    rows matter, and then a history would have to name as many keys: the store in memory, too, has no
    room for them in an address space of 64 bits. -/
theorem sql_refines_memory {service : Service σ} {d : Dialect} {view : σ → Server}
    (hservice : Documented service d view) (s : σ) (hempty : view s = {}) (config : Config)
    (config' : Memory.Config) (version : String) (hsize : config.pageSize.toNat < 2 ^ 64 - 1)
    (requests : List Request) (hadmits : ∀ r ∈ requests, r.Within d.Admits)
    (hkeys : ∀ r ∈ requests, r.KeysWithin d.AdmitsKey)
    (hcount : config.pageSize.toNat + 1 < 2 ^ 63 ∨
      (requests.flatMap Request.keys).length < 2 ^ 63) :
    List.Forall₂ (Matches SameKind Eq (MirrorsThrough view d))
      ((driver service d config).trace { server := s, version } requests)
      ((Memory.driver config').trace {} requests) := by
  have hresting : MirrorsThrough view d { server := s, version } {} := by
    have hthrough : Client.through view { server := s, version } = resting version {} := by
      unfold Client.through
      rw [hempty]
      rfl
    unfold MirrorsThrough
    rw [hthrough]
    exact mirrors_resting version rfl .empty
  refine trace_matches hservice config config' hresting hsize hadmits hkeys
    (hcount.imp id fun hless b => ?_)
  have hnone : ({} : Memory.Store).countIn b = 0 := rfl
  omega

/-- Two buckets are filled and listed by pages of one entry; keys are claimed and replaced; an update
    locks its keys in another order than it names them, and one that reads an absent key fails. -/
def errands : List Request :=
  [.create [0x75], .create [0x74], .create [0x75], .set [0x75] [2] [7], .set [0x75] [1] [],
    .compareAndSwap [0x75] [1] none [8], .compareAndSwap [0x75] [3] none [8],
    .compareAndSwap [0x75] [2] (some [7]) [9],
    .update [.set [0x75] [4] [1], .get [0x75] [1], .delete [0x75] [3], .set [0x74] [5] [2]],
    .update [.delete [0x75] [2], .get [0x74] [6]], .list [0x75], .drop [0x75], .get [0x75] [1],
    .list [0x74]]

/-- The server in memory is one that does what is documented. -/
theorem sql_refines_memory_errands :
    Documented (Server.service .mysql) .mysql id ∧ (1 : UInt64).toNat < 2 ^ 64 - 1 ∧
      (∀ r ∈ errands, r.Within Dialect.mysql.Admits) ∧
      (∀ r ∈ errands, r.KeysWithin Dialect.mysql.AdmitsKey) ∧
      List.Forall₂ (Matches SameKind Eq (MirrorsThrough id .mysql))
        ((driver (Server.service .mysql) .mysql ⟨"mysql://db/kv", none, 4, 1⟩).trace
          { server := {}, version := "8.0.36" } errands)
        ((Memory.driver {}).trace {} errands) ∧
      ((Memory.driver {}).trace {} errands).map (fun step => step.reply.toOption) =
        [some .done, some .done, none, some .done, some .done, some (.swap ⟨some [], false⟩),
          some (.swap ⟨none, true⟩), some (.swap ⟨some [7], true⟩),
          some (.outcome [.written, .read [], .deleted, .written]), none,
          some (.entries [⟨[0x75], [1], []⟩, ⟨[0x75], [2], [9]⟩, ⟨[0x75], [4], [1]⟩]), some .done, none,
          some (.entries [⟨[0x74], [5], [2]⟩])] := by
  have hadmits : ∀ r ∈ errands, r.Within Dialect.mysql.Admits := by decide
  have hkeys : ∀ r ∈ errands, r.KeysWithin Dialect.mysql.AdmitsKey := by decide
  have hservice : Documented (Server.service .mysql) .mysql id := Server.documented .mysql
  have hrefines := sql_refines_memory hservice {} rfl ⟨"mysql://db/kv", none, 4, 1⟩ {} "8.0.36"
    (by decide) errands hadmits hkeys (.inl (by decide))
  refine ⟨hservice, by decide, hadmits, hkeys, hrefines, ?_⟩
  decide +kernel

end BucketStore.Sql
