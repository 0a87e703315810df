/-
  BucketStore/Proofs/Listing/Fetches.lean
  =======================================
  **A keyset listing is complete, and fetches just the pages that its bindings fill.**

  A source of pages that counts how often it is asked is asked once for every page
  that the paginator takes in (`drain_counted`).  Over the pages of a map that is
  the number of bindings over the size of a page, rounded up, and at least one
  (`Keyset.list_complete`): a listing neither stops early at a page boundary nor
  fetches an empty page behind a full last one.
-/
import BucketStore.Proofs.ActionLogic
import BucketStore.Proofs.Listing

namespace BucketStore

/-! ### Counting what is fetched -/

section

variable {τ : Type} {read : Option Token → Except Failure (Page τ)}
  {decode : τ → Except Failure (Option Entry)}

/-- Reads a page, on a state that counts the reads. -/
def counted (read : Option Token → Except Failure (Page τ)) (_ : Unit) (token : Option Token) :
    Action Nat (Page τ × Unit) := do
  Action.change (· + 1)
  let page ← Action.check (read token)
  return (page, ())

theorem counted_run {token : Option Token} {page : Page τ} (h : read token = .ok page)
    (count : Nat) : counted read () token count = ⟨.ok (page, ()), count + 1, []⟩ := by
  simp [counted, Action.bind_run, Action.change, Action.check, h]

theorem pages_nextFetch (p : Paginator) : p.nextFetch.2.pages = p.pages := by
  unfold Paginator.nextFetch
  split <;> rfl

theorem pages_advance (p : Paginator) (next : Option Token) :
    (p.advance next).2.pages = p.pages := by
  unfold Paginator.advance
  split
  · rfl
  · split <;> rfl

/-- A page that is taken in is counted. -/
theorem pages_accumulate {page : Page τ} {p q : Paginator}
    (h : p.accumulate decode page = (.ok (), q)) : q.pages = p.pages + 1 := by
  unfold Paginator.accumulate at h
  split at h
  · dsimp only at h
    split at h
    · simp at h
    · have hq := congrArg (fun step => step.2.pages) h
      dsimp only at hq
      rw [pages_advance] at hq
      exact hq.symm
  · simp at h

/-- A listing that ends has read a page for each one that it has taken in. -/
theorem drain_counted {limit : Nat} (count : Nat) {p q : Paginator}
    (hdrain : drain (m := Except Failure) (fun () token => return (← read token, ())) decode limit
      () p = .ok q) :
    ∃ reads, q.pages = p.pages + reads ∧
      drain (counted read) decode limit () p count = ⟨.ok q, count + reads, []⟩ := by
  induction limit generalizing count p with
  | zero =>
    cases hdrain
    exact ⟨0, rfl, rfl⟩
  | succ limit ih =>
    unfold drain at hdrain ⊢
    have hpages := pages_nextFetch p
    cases hnext : p.nextFetch with
    | mk token p' =>
      rw [hnext] at hdrain hpages
      dsimp only at hpages
      cases token with
      | none =>
        cases hdrain
        exact ⟨0, hpages, rfl⟩
      | some token =>
        cases hread : read token with
        | error f => simp [hread, bind, Except.bind] at hdrain
        | ok page =>
          simp only [hread, bind, Except.bind, pure, Except.pure] at hdrain
          cases haccumulate : p'.accumulate decode page with
          | mk r p'' =>
            rw [haccumulate] at hdrain
            cases r with
            | error f => cases hdrain
            | ok _ =>
              obtain ⟨reads, hreads, hrest⟩ := ih (count + 1) hdrain
              have hone := pages_accumulate haccumulate
              refine ⟨reads + 1, ?_, ?_⟩
              · omega
              · simp only [Action.bind_run, counted_run hread, haccumulate, hrest]
                congr 1
                omega

theorem listAll_counted {limit : Nat} {q : Paginator} {entries : List Entry}
    (hdrain : drain (m := Except Failure) (fun () token => return (← read token, ())) decode limit
      () {} = .ok q) (hfinish : q.finish = .ok entries) :
    listAll (counted read) decode limit () 0 = ⟨.ok entries, q.pages, []⟩ := by
  obtain ⟨reads, hreads, hrun⟩ := drain_counted 0 hdrain
  simp only [listAll, Action.bind_run, hrun, hfinish, Action.pure_run, List.append_nil, hreads]

end

/-! ### Keyset pages -/

namespace Keyset

variable (bucket : Bytes) (map : KeyMap Bytes Bytes) (size : UInt64)

/-- **A keyset listing gives every binding once, in ascending key order**, whatever the size of
    its pages, and reads as many of them as the bindings fill. That a page leads back to itself is
    never noticed, and neither is any limit beyond one page for each binding. -/
theorem list_complete (spare : Nat) :
    listAll (counted (read map size)) (fun pair => .ok (some (entry bucket pair)))
        (map.size + 1 + spare) () 0 =
      ⟨.ok (map.entries.map (entry bucket)), pageCount (max size.toNat 1) map.size, []⟩ ∧
    list bucket map size = .ok (map.entries.map (entry bucket)) ∧
    (map.entries.map (entry bucket)).Pairwise (fun a b => compare a.key b.key = .lt) ∧
    ∀ e : Entry, e ∈ map.entries.map (entry bucket) ↔
      e.bucket = bucket ∧ map.get? e.key = some e.value := by
  have hpos : 0 < max size.toNat 1 := Nat.lt_of_lt_of_le Nat.one_pos (Nat.le_max_right ..)
  refine ⟨?_, keyset_list bucket map size, ?_, ?_⟩
  · have hlimit : (map.after none).length < map.size + 1 + spare := by
      change map.entries.length < map.entries.length + 1 + spare
      omega
    obtain ⟨q, hdrain, hfinish, hpages⟩ : ∃ q : Paginator,
        drain (m := Except Failure)
          (fun () token => .ok (pageOf (max size.toNat 1) id map token, ()))
          (fun pair => .ok (some (entry bucket pair))) (map.size + 1 + spare) () {} = .ok q ∧
        q.finish = .ok ([] ++ map.entries.filterMap fun pair => some (entry bucket pair)) ∧
        q.pages = 0 + pageCount (max size.toNat 1) map.size := by
      refine drain_pageOf ?_ hpos at_start ⟨[], rfl⟩ hlimit
      exact fun _ => rfl
    rw [List.nil_append, List.filterMap_eq_map'] at hfinish
    rw [Nat.zero_add] at hpages
    rw [← hpages]
    refine listAll_counted ?_ hfinish
    simpa only [keyset_read, bind, Except.bind, pure, Except.pure] using hdrain
  · rw [List.pairwise_map]
    exact map.ascending
  · intro e
    rw [List.mem_map]
    constructor
    · rintro ⟨pair, hpair, rfl⟩
      exact ⟨rfl, map.mem_entries_iff.mp hpair⟩
    · rintro ⟨rfl, hget⟩
      exact ⟨(e.key, e.value), map.mem_entries_iff.mpr hget, rfl⟩

end Keyset

end BucketStore
