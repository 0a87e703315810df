/-
  BucketStore/Proofs/Listing/Paginating.lean
  ==========================================
  **A paginator never gives a part of a list, in whatever order it is called.**

  A paginator may be asked for fetches and given pages in any order, with items that
  decode to anything.  A page that it is given while a fetch is open is a `Take`.
  The takes so far say all about the paginator that calls can find out
  (`Reflects`): its state is what the last take leaves, and as long as no take has
  failed its entries are those of all takes.  Every call keeps this
  (`reflects_move`), so an answer of `finish` is the whole list (`never_partial`).
-/
import BucketStore.Proofs.Listing.Answers

namespace BucketStore.Paginator

/-! ### Calls in any order -/

/-- A call of a paginator: for a fetch, or with a page, whose items may be of any type. -/
inductive Move : Type 1 where
  | nextFetch
  | accumulate {τ : Type} (decode : τ → Except Failure (Option Entry)) (page : Page τ)

/-- The paginator after a call. -/
def move (p : Paginator) : Move → Paginator
  | .nextFetch => p.nextFetch.2
  | .accumulate decode page => (p.accumulate decode page).2

/-- A new paginator after the calls. -/
def after (moves : List Move) : Paginator := moves.foldl move {}

/-- A fetch is open: the page to come will be taken in. -/
def isFetching (p : Paginator) : Bool :=
  match p.state with
  | .fetching _ => true
  | _ => false

/-! ### Takes -/

/-- A page given to a paginator while a fetch was open: what its items are decoded to, where it leads,
    and the answer to the call. -/
structure Take where
  outcomes : List (Except Failure (Option Entry))
  next : Option Token
  answer : Except Failure Unit

def Take.succeeded (take : Take) : Bool :=
  match take.answer with
  | .ok _ => true
  | .error _ => false

/-- The decoded items. -/
def Take.entries (take : Take) : List Entry :=
  take.outcomes.filterMap fun outcome => outcome.toOption.join

/-- The state that a take leads to. -/
def Take.leaves (take : Take) : ListState :=
  match take.answer, take.next with
  | .error _, _ => .accumulating
  | .ok _, none => .done
  | .ok _, some token => .fetching (some token)

/-- The take that a call is, if it is one. -/
def taken (p : Paginator) : Move → List Take
  | .nextFetch => []
  | .accumulate decode page =>
    if p.isFetching then [⟨page.items.map decode, page.next, (p.accumulate decode page).1⟩] else []

/-- The takes among calls, in their order. -/
def takes (p : Paginator) : List Move → List Take
  | [] => []
  | m :: rest => p.taken m ++ (p.move m).takes rest

/-! ### What one call does -/

variable {τ : Type} {decode : τ → Except Failure (Option Entry)} {page : Page τ} {p : Paginator}

theorem isFetching_iff : p.isFetching = true ↔ ∃ token, p.state = .fetching token := by
  unfold isFetching
  split <;> simp_all

/-- Without an open fetch, a page is refused and leaves no trace. -/
theorem accumulate_idle (h : p.isFetching = false) :
    p.accumulate decode page = (.error .pageOutsideFetch, p) := by
  unfold accumulate
  split
  · next token hstate => exact absurd (isFetching_iff.mpr ⟨token, hstate⟩) (by simp [h])
  · rfl

/-- A page given while a fetch is open leaves the state that its take leads to, and unless it fails
    all its items are decoded, and it adds the entries of the take. -/
theorem accumulate_fetching (decode : τ → Except Failure (Option Entry)) (page : Page τ)
    (h : p.isFetching = true) : ∃ take, p.taken (.accumulate decode page) = [take] ∧
      (p.accumulate decode page).2.state = take.leaves ∧
      (take.answer = .ok () → (∀ f, .error f ∉ take.outcomes) ∧
        (p.accumulate decode page).2.entries = p.entries ++ take.entries) := by
  refine ⟨⟨page.items.map decode, page.next, (p.accumulate decode page).1⟩, if_pos h, ?_⟩
  obtain ⟨token, hstate⟩ := isFetching_iff.mp h
  unfold accumulate
  rw [hstate]
  dsimp only
  cases hdecoded : decodeAll decode page.items with
  | error f => exact ⟨rfl, fun hok => nomatch hok⟩
  | ok entries =>
    rw [← Answers.total_map, Answers.total_eq_ok] at hdecoded
    dsimp only
    refine ⟨?_, fun _ => ⟨hdecoded.1, ?_⟩⟩
    · unfold advance
      cases page.next with
      | none => rfl
      | some next =>
        dsimp only
        split <;> rfl
    · rw [entries_advance, hdecoded.2]
      rfl

/-- Asking for a fetch changes nothing, but that a new listing has its first fetch open. -/
theorem nextFetch_cases (p : Paginator) :
    p.nextFetch.2 = p ∨ p.state = .start ∧ p.nextFetch.2 = { p with state := .fetching none } := by
  unfold nextFetch
  split
  · next hstate => exact .inr ⟨hstate, rfl⟩
  · exact .inl rfl
  · exact .inl rfl
  · exact .inl rfl

namespace Take

variable (take : Take)

theorem leaves_ne_start : take.leaves ≠ .start := by
  unfold leaves
  split <;> simp

theorem leaves_eq_done : take.leaves = .done ↔ take.answer = .ok () ∧ take.next = none := by
  unfold leaves
  split <;> simp_all

theorem leaves_eq_accumulating : take.leaves = .accumulating ↔ take.answer ≠ .ok () := by
  unfold leaves
  split <;> simp_all

theorem succeeded_iff : take.succeeded = true ↔ take.answer = .ok () := by
  unfold succeeded
  split <;> simp_all

end Take

/-! ### The invariant -/

/-- The paginator is as the takes so far have left it. -/
structure Reflects (p : Paginator) (log : List Take) : Prop where
  fresh : log = [] → p.state = .start ∨ p.state = .fetching none
  left : ∀ last, log.getLast? = some last → p.state = last.leaves
  /-- Unless the listing is stuck, it holds the entries of all takes. -/
  entries : p.state ≠ .accumulating →
    p.entries = log.flatMap Take.entries ∧ ∀ take ∈ log, take.succeeded = true

variable {log : List Take}

theorem reflects_new : Reflects {} [] := ⟨fun _ => .inl rfl, by simp, fun _ => ⟨rfl, by simp⟩⟩

theorem reflects_nextFetch (h : p.Reflects log) : p.nextFetch.2.Reflects log := by
  rcases nextFetch_cases p with hsame | ⟨hstart, hopened⟩
  · exact hsame.symm ▸ h
  · -- No take leads back to the start, so nothing has been taken yet.
    have hnone : log.getLast? = none := by
      cases hlast : log.getLast? with
      | none => rfl
      | some last => exact absurd ((h.left last hlast).symm.trans hstart) last.leaves_ne_start
    rw [hopened]
    refine ⟨fun _ => .inr rfl, ?_, fun _ => h.entries (by simp [hstart])⟩
    simp [hnone]

theorem reflects_accumulate (h : p.Reflects log) :
    (p.accumulate decode page).2.Reflects (log ++ p.taken (.accumulate decode page)) := by
  cases hfetching : p.isFetching with
  | false =>
    have hnone : p.taken (.accumulate decode page) = [] := if_neg (by simp [hfetching])
    rw [accumulate_idle hfetching, hnone, List.append_nil]
    exact h
  | true =>
    obtain ⟨take, htaken, hstate, hentries⟩ := accumulate_fetching decode page hfetching
    rw [htaken]
    refine ⟨by simp, by simp [hstate], fun hgoes => ?_⟩
    have hok : take.answer = .ok () := by
      rw [hstate, Ne, take.leaves_eq_accumulating] at hgoes
      exact Classical.not_not.mp hgoes
    obtain ⟨token, hopen⟩ := isFetching_iff.mp hfetching
    obtain ⟨hbefore, hall⟩ := h.entries (by simp [hopen])
    refine ⟨by simp [(hentries hok).2, hbefore], ?_⟩
    intro other hother
    rcases List.mem_append.mp hother with hmem | hmem
    · exact hall other hmem
    · rw [List.mem_singleton.mp hmem]
      exact take.succeeded_iff.mpr hok

/-- **Every call keeps the paginator as its takes have left it.** -/
theorem reflects_move (m : Move) (h : p.Reflects log) : (p.move m).Reflects (log ++ p.taken m) := by
  cases m with
  | nextFetch =>
    change p.nextFetch.2.Reflects (log ++ [])
    rw [List.append_nil]
    exact reflects_nextFetch h
  | accumulate decode page => exact reflects_accumulate h

theorem reflects_run (moves : List Move) (h : p.Reflects log) :
    (moves.foldl move p).Reflects (log ++ p.takes moves) := by
  induction moves generalizing p log with
  | nil =>
    change p.Reflects (log ++ [])
    rw [List.append_nil]
    exact h
  | cons m rest ih =>
    change (rest.foldl move (p.move m)).Reflects (log ++ (p.taken m ++ (p.move m).takes rest))
    rw [← List.append_assoc]
    exact ih (reflects_move m h)

theorem reflects_after (moves : List Move) : (after moves).Reflects (takes {} moves) :=
  reflects_run moves reflects_new

/-! ### What the takes say -/

/-- No item of a page that succeeded has failed. -/
theorem decoded_of_succeeded (p : Paginator) (moves : List Move) {take : Take}
    (hmem : take ∈ p.takes moves) (hsucceeded : take.succeeded = true) :
    ∀ f, .error f ∉ take.outcomes := by
  induction moves generalizing p with
  | nil => cases hmem
  | cons m rest ih =>
    rcases List.mem_append.mp hmem with hfirst | hrest
    · cases m with
      | nextFetch => cases hfirst
      | accumulate decode page =>
        cases hfetching : p.isFetching with
        | false =>
          have hnone : p.taken (.accumulate decode page) = [] := if_neg (by simp [hfetching])
          rw [hnone] at hfirst
          cases hfirst
        | true =>
          obtain ⟨made, htaken, -, hdecoded⟩ := accumulate_fetching decode page hfetching
          rw [htaken] at hfirst
          cases List.mem_singleton.mp hfirst
          exact (hdecoded (take.succeeded_iff.mp hsucceeded)).1
    · exact ih (p.move m) hrest

theorem finish_eq_ok {entries : List Entry} :
    p.finish = .ok entries ↔ p.state = .done ∧ p.entries = entries := by
  unfold finish
  split <;> simp_all

/-- The list is given when the last take ended it, and then it is whole. -/
theorem Reflects.finish_eq_ok_iff (h : p.Reflects log) {entries : List Entry} :
    p.finish = .ok entries ↔
      ∃ last, log.getLast? = some last ∧ last.answer = .ok () ∧ last.next = none ∧
        entries = (log.filter Take.succeeded).flatMap Take.entries := by
  have hdone : p.state = .done ↔ ∃ last, log.getLast? = some last ∧ last.leaves = .done := by
    constructor
    · intro hstate
      cases hlast : log.getLast? with
      | none =>
        rcases h.fresh (List.getLast?_eq_none_iff.mp hlast) with hfresh | hfresh
        · simp [hstate] at hfresh
        · simp [hstate] at hfresh
      | some last => exact ⟨last, rfl, (h.left last hlast).symm.trans hstate⟩
    · rintro ⟨last, hlast, hleaves⟩
      exact (h.left last hlast).trans hleaves
  have hwhole : p.state = .done → p.entries = (log.filter Take.succeeded).flatMap Take.entries := by
    intro hstate
    obtain ⟨hentries, hall⟩ := h.entries (by simp [hstate])
    rw [hentries, List.filter_eq_self.mpr hall]
  rw [finish_eq_ok]
  constructor
  · rintro ⟨hstate, rfl⟩
    obtain ⟨last, hlast, hleaves⟩ := hdone.mp hstate
    obtain ⟨hanswer, hnext⟩ := last.leaves_eq_done.mp hleaves
    exact ⟨last, hlast, hanswer, hnext, hwhole hstate⟩
  · rintro ⟨last, hlast, hanswer, hnext, rfl⟩
    have hstate := hdone.mpr ⟨last, hlast, last.leaves_eq_done.mpr ⟨hanswer, hnext⟩⟩
    exact ⟨hstate, hwhole hstate⟩

/-- After a failed take the listing is stuck. -/
theorem Reflects.stuck (h : p.Reflects log) {take : Take} (hmem : take ∈ log)
    (hfailed : take.succeeded = false) : p.state = .accumulating := by
  apply Decidable.byContradiction
  intro hstate
  have hok := (h.entries hstate).2 take hmem
  rw [hfailed] at hok
  cases hok

theorem nextFetch_of_stuck (h : p.state = .accumulating) : p.nextFetch = (none, p) := by
  unfold nextFetch
  rw [h]

theorem isFetching_of_stuck (h : p.state = .accumulating) : p.isFetching = false := by
  unfold isFetching
  rw [h]

theorem finish_of_stuck (h : p.state = .accumulating) : p.finish = .error .unfinishedListing := by
  unfold finish
  rw [h]

/-- **A paginator gives the whole list or fails, in whatever order it is called.**

    The list is given exactly if the last page taken in succeeded and leads nowhere; it is then
    everything that the pages taken in were decoded to, in order, and no item of a page that
    succeeded has failed.  Once a page has failed there is nothing to fetch, and all further pages and
    the end fail.  A page that comes while no fetch is open is refused, and the paginator stays as it
    was. -/
theorem never_partial (moves : List Move) :
    (∀ entries, (after moves).finish = .ok entries ↔
      ∃ last, (takes {} moves).getLast? = some last ∧ last.answer = .ok () ∧ last.next = none ∧
        entries = ((takes {} moves).filter Take.succeeded).flatMap Take.entries) ∧
    (∀ take ∈ takes {} moves, take.succeeded = true → ∀ f, .error f ∉ take.outcomes) ∧
    ((∃ take ∈ takes {} moves, take.succeeded = false) →
      (after moves).nextFetch.1 = none ∧
      (∀ (τ : Type) (decode : τ → Except Failure (Option Entry)) (page : Page τ),
        ((after moves).accumulate decode page).1 = .error .pageOutsideFetch) ∧
      (after moves).finish = .error .unfinishedListing) ∧
    ((after moves).isFetching = false →
      ∀ (τ : Type) (decode : τ → Except Failure (Option Entry)) (page : Page τ),
        (after moves).accumulate decode page = (.error .pageOutsideFetch, after moves)) := by
  have hreflects := reflects_after moves
  refine ⟨fun entries => hreflects.finish_eq_ok_iff, fun take => decoded_of_succeeded {} moves, ?_,
    fun hidle τ decode page => accumulate_idle hidle⟩
  rintro ⟨take, hmem, hfailed⟩
  have hstuck := hreflects.stuck hmem hfailed
  refine ⟨?_, fun τ decode page => ?_, finish_of_stuck hstuck⟩
  · rw [nextFetch_of_stuck hstuck]
  · rw [accumulate_idle (isFetching_of_stuck hstuck)]

/-- A page is refused before the first fetch is asked for, then two pages are taken in, of which the
    second is the last. -/
def twoPages (first second : Entry) : List Move :=
  [.accumulate id ⟨[.ok (some second)], none⟩, .nextFetch,
    .accumulate id ⟨[.ok (some first), .ok none], some [1]⟩, .accumulate id ⟨[.ok (some second)], none⟩]

/-- The second page has an item that cannot be decoded, and a good page comes behind it. -/
def brokenPage (first second : Entry) : List Move :=
  [.nextFetch, .accumulate id ⟨[.ok (some first)], some [1]⟩, .nextFetch,
    .accumulate id ⟨[.ok (some second), .error (.undecodable "no entry")], none⟩,
    .nextFetch, .accumulate id ⟨[.ok (some second)], none⟩]

theorem never_partial_by_pages :
    (after (twoPages ⟨[9], [1], [7]⟩ ⟨[9], [2], [8]⟩)).finish =
      .ok [⟨[9], [1], [7]⟩, ⟨[9], [2], [8]⟩] ∧
    (after (brokenPage ⟨[9], [1], [7]⟩ ⟨[9], [2], [8]⟩)).nextFetch.1 = none ∧
    (after (brokenPage ⟨[9], [1], [7]⟩ ⟨[9], [2], [8]⟩)).finish = .error .unfinishedListing ∧
    (after []).accumulate id ⟨[.ok (some ⟨[9], [1], [7]⟩)], none⟩ =
      (.error .pageOutsideFetch, after []) := by
  have hbroken := (never_partial (brokenPage ⟨[9], [1], [7]⟩ ⟨[9], [2], [8]⟩)).2.2.1
    ⟨⟨[.ok (some ⟨[9], [2], [8]⟩), .error (.undecodable "no entry")], none,
      .error (.undecodable "no entry")⟩, .tail _ (.head _), rfl⟩
  refine ⟨?_, hbroken.1, hbroken.2.2, (never_partial []).2.2.2 rfl _ _ _⟩
  exact ((never_partial (twoPages ⟨[9], [1], [7]⟩ ⟨[9], [2], [8]⟩)).1 _).mpr ⟨_, rfl, rfl, rfl, rfl⟩

end BucketStore.Paginator
