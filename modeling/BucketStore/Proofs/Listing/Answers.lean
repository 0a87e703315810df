/-
  BucketStore/Proofs/Listing/Answers.lean
  =======================================
  **A listing is exactly what its source has answered.**

  A source may answer the fetches of a listing with anything: pages of whatever
  items and leading wherever, or failures.  The listing goes by these answers alone.
  It fetches with no token first, then with the token that each page names, and ends
  with the first answer that leads no further or of which something failed
  (`Answers.EndsAt`); it gives the entries of all items up to there, or the first
  failure among them (`listing_exact`).

  The answers of a source that is called and those of one that is read are drained
  alike, since a program is run fetch by fetch (`Program.run_listAll`).
-/
import BucketStore.Proofs.ActionLogic
import BucketStore.Proofs.Listing

namespace BucketStore

variable {τ : Type}

/-! ### Answers -/

/-- What a source answers to the fetches of a listing, from the first on. -/
abbrev Answers (τ : Type) := Nat → Except Failure (Page τ)

namespace Answers

/-- Where the answer leads, if it does. -/
def next (answers : Answers τ) (n : Nat) : Option Token :=
  match answers n with
  | .ok page => page.next
  | .error _ => none

/-- The token of the fetch with that number: none at first, then what the page before has named. -/
def token (answers : Answers τ) : Nat → Option Token
  | 0 => none
  | n + 1 => answers.next n

/-- What comes of an answer, in order: of a page, what its items are decoded to, and a failure behind
    them if the page names the token that it was fetched with. -/
def outcomes (answers : Answers τ) (decode : τ → Except Failure (Option Entry)) (n : Nat) :
    List (Except Failure (Option Entry)) :=
  match answers n with
  | .error f => [.error f]
  | .ok page =>
    page.items.map decode ++
      if page.next ≠ none ∧ page.next = answers.token n then [.error .repeatedToken] else []

/-- What comes of `m` answers from the answer `n` on. -/
def outcomesFrom (answers : Answers τ) (decode : τ → Except Failure (Option Entry)) (n m : Nat) :
    List (Except Failure (Option Entry)) :=
  (List.range' n m).flatMap (answers.outcomes decode)

/-- The tokens of `m` fetches from the fetch `n` on. -/
def tokensFrom (answers : Answers τ) (n m : Nat) : List (Option Token) :=
  (List.range' n m).map answers.token

/-- A listing has nothing to fetch after the answer: it leads nowhere, or something of it failed. -/
def EndsAt (answers : Answers τ) (decode : τ → Except Failure (Option Entry)) (n : Nat) : Prop :=
  answers.next n = none ∨ ∃ f, .error f ∈ answers.outcomes decode n

/-- It is the first answer with which the listing ends. -/
def LastAt (answers : Answers τ) (decode : τ → Except Failure (Option Entry)) (n : Nat) : Prop :=
  answers.EndsAt decode n ∧ ∀ i < n, ¬answers.EndsAt decode i

/-! ### Sources that give the answers -/

/-- Reads the answers one after the other, on a state that holds the tokens of the fetches so far. -/
def reader (answers : Answers τ) (_ : Unit) (token : Option Token) :
    Action (List (Option Token)) (Page τ × Unit) :=
  fun asked => ⟨(answers asked.length).map fun page => (page, ()), asked ++ [token], []⟩

/-- The source that is called for each page. -/
def caller (_ : Unit) (token : Option Token) :
    Program (Option Token) (fun _ => Except Failure (Page τ)) (Page τ × Unit) :=
  .call token fun answer => .ofExcept (answer.map fun page => (page, ()))

/-- Replies to the calls with the answers one after the other, and notes the tokens. -/
def responder (answers : Answers τ) :
    Responder (Option Token) (fun _ => Except Failure (Page τ)) (List (Option Token)) :=
  fun token asked => ⟨answers asked.length, asked ++ [token], []⟩

/-- The source gives the answers one after the other, as long as it is asked with the tokens that they
    lead on with, and notes the tokens. -/
def GivenBy (answers : Answers τ)
    (fetch : Unit → Option Token → Action (List (Option Token)) (Page τ × Unit)) : Prop :=
  ∀ asked, fetch () (answers.token asked.length) asked =
    ⟨(answers asked.length).map fun page => (page, ()), asked ++ [answers.token asked.length], []⟩

theorem givenBy_reader (answers : Answers τ) : answers.GivenBy answers.reader := fun _ => rfl

theorem run_caller (answers : Answers τ) (memory : Unit) (token : Option Token) :
    (caller memory token).run answers.responder = answers.reader memory token := by
  funext asked
  simp only [caller, responder, reader, Program.run]
  cases answers asked.length <;> rfl

end Answers

/-! ### Sources that are called -/

namespace Program

variable {Call : Type} {Reply : Call → Type} {σ γ : Type} (respond : Responder Call Reply σ)
  (fetch : γ → Option Token → Program Call Reply (Page τ × γ))
  (decode : τ → Except Failure (Option Entry))

theorem run_drain (limit : Nat) (memory : γ) (p : Paginator) :
    (drain fetch decode limit memory p).run respond =
      drain (fun memory token => (fetch memory token).run respond) decode limit memory p := by
  induction limit generalizing memory p with
  | zero => rfl
  | succ limit ih =>
    unfold drain
    cases p.nextFetch with
    | mk token p' =>
      cases token with
      | none => rfl
      | some token =>
        change (bind (fetch memory token) _).run respond = _
        rw [run_bind]
        change Action.bind _ _ = Action.bind _ _
        congr 1
        funext fetched
        dsimp only
        cases p'.accumulate decode fetched.1 with
        | mk r q =>
          cases r with
          | error f => exact run_throw respond f
          | ok _ => exact ih fetched.2 q

/-- Listing a source that is called is listing what its calls come to. -/
theorem run_listAll (limit : Nat) (memory : γ) :
    (listAll fetch decode limit memory).run respond =
      listAll (fun memory token => (fetch memory token).run respond) decode limit memory := by
  unfold listAll
  change (bind (drain fetch decode limit memory {}) _).run respond = _
  rw [run_bind, run_drain]
  change Action.bind _ _ = Action.bind _ _
  congr 1
  funext p
  cases p.finish with
  | error f => exact run_throw respond f
  | ok entries => rfl

end Program

/-! ### Outcomes put together -/

namespace Answers

variable {answers : Answers τ} {decode : τ → Except Failure (Option Entry)} {n k : Nat}

/-- The entries of all outcomes, or the first failure among them. -/
def total : List (Except Failure (Option Entry)) → Except Failure (List Entry) :=
  Paginator.decodeAll id

theorem total_cons_ok (entry : Option Entry) (rest : List (Except Failure (Option Entry))) :
    total (.ok entry :: rest) = (total rest).map (entry.toList ++ ·) := by
  change Paginator.decodeAll id (.ok entry :: rest) = _
  simp only [Paginator.decodeAll, id, bind, Except.bind]
  change _ = (Paginator.decodeAll id rest).map _
  cases Paginator.decodeAll id rest <;> rfl

theorem total_append (front rest : List (Except Failure (Option Entry))) :
    total (front ++ rest) = (total front).bind fun entries => (total rest).map (entries ++ ·) := by
  induction front with
  | nil =>
    change total rest = (total rest).map ([] ++ ·)
    cases total rest <;> rfl
  | cons outcome front ih =>
    cases outcome with
    | error f => rfl
    | ok entry =>
      rw [List.cons_append, total_cons_ok, total_cons_ok, ih]
      cases total front with
      | error f => rfl
      | ok entries => cases total rest <;> simp [Except.map, Except.bind]

theorem total_map (items : List τ) : total (items.map decode) = Paginator.decodeAll decode items := by
  induction items with
  | nil => rfl
  | cons item rest ih =>
    rw [List.map_cons]
    cases hitem : decode item with
    | error f =>
      simp only [Paginator.decodeAll, hitem]
      rfl
    | ok entry =>
      rw [total_cons_ok, ih]
      simp only [Paginator.decodeAll, hitem, bind, Except.bind, pure, Except.pure]
      cases Paginator.decodeAll decode rest <;> rfl

/-- All entries are given if nothing failed. -/
theorem total_eq_ok {l : List (Except Failure (Option Entry))} {entries : List Entry} :
    total l = .ok entries ↔
      (∀ f, .error f ∉ l) ∧ entries = l.filterMap fun outcome => outcome.toOption.join := by
  induction l generalizing entries with
  | nil =>
    constructor
    · rintro ⟨⟩
      simp
    · rintro ⟨-, rfl⟩
      rfl
  | cons outcome rest ih =>
    cases outcome with
    | error f =>
      constructor
      · intro h
        cases h
      · rintro ⟨hnone, -⟩
        exact absurd (List.mem_cons_self ..) (hnone f)
    | ok entry =>
      rw [total_cons_ok]
      cases hrest : total rest with
      | error f =>
        simp only [Except.map, reduceCtorEq, false_iff, List.mem_cons, false_or]
        rintro ⟨hnone, -⟩
        have hfound := ih.mpr ⟨hnone, rfl⟩
        rw [hrest] at hfound
        cases hfound
      | ok found =>
        obtain ⟨hnone, rfl⟩ := ih.mp hrest
        cases entry <;> simp [Except.map, Except.toOption, hnone, eq_comm]

/-- The failure that is given has nothing before it that failed. -/
theorem total_eq_error {l : List (Except Failure (Option Entry))} {f : Failure} :
    total l = .error f ↔ ∃ front rest, l = front ++ .error f :: rest ∧ ∀ g, .error g ∉ front := by
  induction l with
  | nil =>
    constructor
    · intro h
      cases h
    · rintro ⟨front, rest, h, -⟩
      simp at h
  | cons outcome rest ih =>
    cases outcome with
    | error g =>
      constructor
      · rintro ⟨⟩
        exact ⟨[], rest, rfl, by simp⟩
      · rintro ⟨front, rest', hsplit, hnone⟩
        cases front with
        | nil =>
          cases hsplit
          rfl
        | cons first front =>
          cases hsplit
          exact absurd (List.mem_cons_self ..) (hnone g)
    | ok entry =>
      have hmap : total (.ok entry :: rest) = .error f ↔ total rest = .error f := by
        rw [total_cons_ok]
        cases total rest <;> simp [Except.map]
      rw [hmap, ih]
      constructor
      · rintro ⟨front, rest', rfl, hnone⟩
        exact ⟨.ok entry :: front, rest', rfl, by simpa using hnone⟩
      · rintro ⟨front, rest', hsplit, hnone⟩
        cases front with
        | nil => cases hsplit
        | cons first front =>
          cases hsplit
          exact ⟨front, rest', rfl, fun g hg => hnone g (List.mem_cons_of_mem _ hg)⟩

theorem decodeAll_eq_error {items : List τ} {f : Failure}
    (h : Paginator.decodeAll decode items = .error f) : ∃ item ∈ items, decode item = .error f := by
  rw [← total_map, total_eq_error] at h
  obtain ⟨front, rest, hsplit, -⟩ := h
  have hmem : .error f ∈ items.map decode := hsplit ▸ List.mem_append_right _ (List.mem_cons_self ..)
  exact List.mem_map.mp hmem

/-- A page is refused for an item that cannot be decoded, for its token, or because none was asked
    for. -/
theorem accumulate_eq_error {page : Page τ} {p : Paginator} {f : Failure}
    (h : (p.accumulate decode page).1 = .error f) :
    f = .pageOutsideFetch ∨ f = .repeatedToken ∨ ∃ item ∈ page.items, decode item = .error f := by
  unfold Paginator.accumulate at h
  split at h
  · dsimp only at h
    split at h
    · next g hdecode =>
      cases h
      exact .inr (.inr (decodeAll_eq_error hdecode))
    · unfold Paginator.advance at h
      split at h
      · cases h
      · split at h <;> cases h
        exact .inr (.inl rfl)
  · exact .inl (Except.error.inj h).symm

/-! ### One answer -/

/-- What a page comes to is what taking it in comes to: its first failure, or its entries and the place
    to go on from. -/
theorem accumulate_outcomes {page : Page τ} {p : Paginator} (hanswer : answers n = .ok page)
    (hstate : p.state = .fetching (answers.token n)) (hlast : p.lastToken = answers.token n) :
    (∀ f, total (answers.outcomes decode n) = .error f →
      (p.accumulate decode page).1 = .error f) ∧
    ∀ entries, total (answers.outcomes decode n) = .ok entries →
      p.accumulate decode page = (.ok (), { p with
        state := (match page.next with
          | none => .done
          | some token => .fetching (some token))
        lastToken := page.next.or p.lastToken
        entries := p.entries ++ entries
        pages := p.pages + 1 }) := by
  have houtcomes : answers.outcomes decode n = page.items.map decode ++
      if page.next ≠ none ∧ page.next = answers.token n then [.error .repeatedToken] else [] := by
    unfold outcomes
    rw [hanswer]
  rw [houtcomes, total_append, total_map]
  unfold Paginator.accumulate
  rw [hstate]
  dsimp only
  cases Paginator.decodeAll decode page.items with
  | error f => simp [Except.bind]
  | ok entries =>
    simp only [Except.bind, Paginator.advance, hlast]
    cases hnext : page.next with
    | none => simp [total, Paginator.decodeAll, Except.map]
    | some token =>
      by_cases hsame : answers.token n = some token
      · simp [hsame, total, Paginator.decodeAll, Except.map, bind, Except.bind]
      · simp [hsame, Ne.symm hsame, total, Paginator.decodeAll, Except.map]

theorem finish_of_at {p : Paginator} {token : Option Token} (hp : p.At token) :
    p.finish = .error .unfinishedListing := by
  have hfetches := hp.fetches
  unfold Paginator.nextFetch at hfetches
  unfold Paginator.finish
  cases hstate : p.state with
  | done =>
    rw [hstate] at hfetches
    simp at hfetches
  | _ => rfl

variable {fetch : Unit → Option Token → Action (List (Option Token)) (Page τ × Unit)}

/-- The answer to a fetch is taken in. -/
theorem drain_answer (hfetch : answers.GivenBy fetch) {p : Paginator} {asked : List (Option Token)}
    (hp : p.At (answers.token asked.length)) (limit : Nat) :
    drain fetch decode (limit + 1) () p asked =
      match answers asked.length with
      | .error f => ⟨.error f, asked ++ [answers.token asked.length], []⟩
      | .ok page =>
        (match { p with state := .fetching (answers.token asked.length) }.accumulate decode page with
          | (.error f, _) => throw f
          | (.ok (), q) => drain fetch decode limit () q : Action (List (Option Token)) Paginator)
          (asked ++ [answers.token asked.length]) := by
  rw [drain, hp.fetches]
  dsimp only
  rw [Action.bind_run, hfetch asked]
  cases answers asked.length with
  | error f => rfl
  | ok page => rfl

/-- An answer with which the listing does not end adds its entries, and the next fetch is made. -/
theorem drain_onward (hfetch : answers.GivenBy fetch) {p : Paginator} {asked : List (Option Token)}
    (hp : p.At (answers.token asked.length)) (hgo : ¬answers.EndsAt decode asked.length) :
    ∃ entries q, total (answers.outcomes decode asked.length) = .ok entries ∧
      Paginator.At q (answers.token (asked.length + 1)) ∧ q.entries = p.entries ++ entries ∧
      ∀ limit, drain fetch decode (limit + 1) () p asked =
        drain fetch decode limit () q (asked ++ [answers.token asked.length]) := by
  obtain ⟨hleads, hnone⟩ := not_or.mp hgo
  have htotal := total_eq_ok.mpr ⟨not_exists.mp hnone, rfl⟩
  cases hanswer : answers asked.length with
  | error f =>
    unfold next at hleads
    rw [hanswer] at hleads
    exact absurd rfl hleads
  | ok page =>
    have hnext : answers.next asked.length = page.next := by
      unfold next
      rw [hanswer]
    obtain ⟨token, htoken⟩ := Option.ne_none_iff_exists'.mp (hnext ▸ hleads)
    have htaken := (accumulate_outcomes (p := { p with state := .fetching (answers.token asked.length) })
      hanswer rfl hp.lastToken).2 _ htotal
    have hthen : answers.token (asked.length + 1) = some token := hnext.trans htoken
    rw [htoken] at htaken
    rw [hthen]
    refine ⟨_, { p with
      state := .fetching (some token)
      lastToken := some token
      entries := p.entries ++ _
      pages := p.pages + 1 }, htotal, ⟨rfl, rfl⟩, rfl, ?_⟩
    intro limit
    rw [drain_answer hfetch hp, hanswer]
    dsimp only
    rw [htaken]
    rfl

/-- As long as the listing does not end it goes on in the same way. -/
theorem drain_along (hfetch : answers.GivenBy fetch) (m : Nat) {p : Paginator}
    {asked : List (Option Token)} (hp : p.At (answers.token asked.length))
    (hgo : ∀ i, asked.length ≤ i → i < asked.length + m → ¬answers.EndsAt decode i) :
    ∃ entries q, total (answers.outcomesFrom decode asked.length m) = .ok entries ∧
      Paginator.At q (answers.token (asked.length + m)) ∧ q.entries = p.entries ++ entries ∧
      ∀ limit, drain fetch decode (limit + m) () p asked =
        drain fetch decode limit () q (asked ++ answers.tokensFrom asked.length m) := by
  induction m generalizing p asked with
  | zero => exact ⟨[], p, rfl, hp, by simp, fun limit => by simp [tokensFrom]⟩
  | succ m ih =>
    obtain ⟨entries, q, htotal, hq, hentries, hdrain⟩ :=
      drain_onward hfetch hp (hgo asked.length (Nat.le_refl _) (by omega))
    -- The state notes one fetch more, so what is left starts with the next answer.
    have hlength : (asked ++ [answers.token asked.length]).length = asked.length + 1 := by simp
    rw [← hlength] at hq
    obtain ⟨entries', q', htotal', hq', hentries', hdrain'⟩ := ih hq (by
      intro i hle hlt
      exact hgo i (by omega) (by omega))
    rw [hlength] at htotal' hq' hdrain'
    refine ⟨entries ++ entries', q', ?_, ?_, ?_, ?_⟩
    · have hsplit : answers.outcomesFrom decode asked.length (m + 1) =
          answers.outcomes decode asked.length ++
            answers.outcomesFrom decode (asked.length + 1) m := by
        simp [outcomesFrom, List.range'_succ]
      rw [hsplit, total_append, htotal, htotal']
      rfl
    · have hsum : asked.length + 1 + m = asked.length + (m + 1) := by omega
      rwa [hsum] at hq'
    · rw [hentries', hentries, List.append_assoc]
    · intro limit
      rw [← Nat.add_assoc, hdrain, hdrain']
      simp [tokensFrom, List.range'_succ]

/-- A listing that does not end with the first answers has made their fetches, and goes on. -/
theorem drain_start (hfetch : answers.GivenBy fetch) (m : Nat)
    (hgo : ∀ i < m, ¬answers.EndsAt decode i) :
    ∃ q, total (answers.outcomesFrom decode 0 m) = .ok q.entries ∧
      Paginator.At q (answers.token m) ∧
      ∀ limit, drain fetch decode (limit + m) () {} [] =
        drain fetch decode limit () q (answers.tokensFrom 0 m) := by
  have hstart : Paginator.At {} (answers.token ([] : List (Option Token)).length) := at_start
  obtain ⟨entries, q, htotal, hq, hentries, hdrain⟩ := drain_along hfetch m hstart fun i _ hi =>
    hgo i (by simpa using hi)
  simp only [List.length_nil, Nat.zero_add, List.nil_append] at htotal hq hentries hdrain
  exact ⟨q, hentries ▸ htotal, hq, hdrain⟩

/-- With the answer that ends it, the listing has all entries, or the first failure. -/
theorem drain_last (hfetch : answers.GivenBy fetch) {p : Paginator} {asked : List (Option Token)}
    (hp : p.At (answers.token asked.length)) (hend : answers.EndsAt decode asked.length)
    (limit : Nat) :
    (drain fetch decode (limit + 1) () p asked).state = asked ++ [answers.token asked.length] ∧
      (drain fetch decode (limit + 1) () p asked).reply.bind Paginator.finish =
        (total (answers.outcomes decode asked.length)).map (p.entries ++ ·) := by
  rw [drain_answer hfetch hp]
  cases hanswer : answers asked.length with
  | error f =>
    unfold outcomes
    rw [hanswer]
    exact ⟨rfl, rfl⟩
  | ok page =>
    dsimp only
    have htaken := @accumulate_outcomes τ answers decode asked.length page
      { p with state := .fetching (answers.token asked.length) } hanswer rfl hp.lastToken
    cases htotal : total (answers.outcomes decode asked.length) with
    | error f =>
      have hfailed := htaken.1 f htotal
      cases haccumulate : Paginator.accumulate decode page
          { p with state := .fetching (answers.token asked.length) } with
      | mk r q =>
        rw [haccumulate] at hfailed
        cases hfailed
        exact ⟨rfl, rfl⟩
    | ok entries =>
      have hnext : answers.next asked.length = page.next := by
        unfold next
        rw [hanswer]
      have hnowhere : page.next = none := by
        rcases hend with hnone | ⟨f, hf⟩
        · exact hnext ▸ hnone
        · exact absurd hf ((total_eq_ok.mp htotal).1 f)
      rw [htaken.2 entries htotal, hnowhere]
      cases limit with
      | zero => exact ⟨rfl, rfl⟩
      | succ limit => exact ⟨rfl, rfl⟩

theorem listAll_run (limit : Nat) (asked : List (Option Token)) :
    (listAll fetch decode limit () asked).state = (drain fetch decode limit () {} asked).state ∧
      (listAll fetch decode limit () asked).reply =
        (drain fetch decode limit () {} asked).reply.bind Paginator.finish := by
  unfold listAll
  rw [Action.bind_run]
  rcases drain fetch decode limit () {} asked with ⟨_ | q, asked', log⟩
  · exact ⟨rfl, rfl⟩
  · dsimp only [Except.bind]
    cases q.finish with
    | error f => exact ⟨rfl, rfl⟩
    | ok entries => exact ⟨rfl, rfl⟩

/-! ### The whole listing -/

/-- The listing ended with the answer `n`: it has made the fetches up to there, each with the token
    that the answer before has named, and no other; and it gives the entries of all their items if
    nothing failed, or what failed first. -/
structure Exact (answers : Answers τ) (decode : τ → Except Failure (Option Entry)) (n : Nat)
    (run : Step (List (Option Token)) (Except Failure (List Entry))) : Prop where
  fetches : run.state = answers.tokensFrom 0 (n + 1)
  answered : ∀ entries, run.reply = .ok entries ↔
    (∀ f, .error f ∉ answers.outcomesFrom decode 0 (n + 1)) ∧
      entries = (answers.outcomesFrom decode 0 (n + 1)).filterMap fun outcome => outcome.toOption.join
  failed : ∀ f, run.reply = .error f ↔
    ∃ front rest, answers.outcomesFrom decode 0 (n + 1) = front ++ .error f :: rest ∧
      ∀ g, .error g ∉ front

/-- The listing has made as many fetches as it may, and no answer has ended it. -/
structure Unended (answers : Answers τ) (limit : Nat)
    (run : Step (List (Option Token)) (Except Failure (List Entry))) : Prop where
  fetches : run.state = answers.tokensFrom 0 limit
  unfinished : run.reply = .error .unfinishedListing

theorem exact_listAll (hfetch : answers.GivenBy fetch) (hlast : answers.LastAt decode n)
    {limit : Nat} (hlimit : n < limit) : answers.Exact decode n (listAll fetch decode limit () []) := by
  -- The fetches that lead on, the one that ends the listing, and those that are never made.
  obtain ⟨spare, rfl⟩ : ∃ spare, limit = spare + 1 + n := ⟨limit - (n + 1), by omega⟩
  obtain ⟨q, htotal, hq, hdrain⟩ := drain_start hfetch n hlast.2
  have hlength : (answers.tokensFrom 0 n).length = n := by simp [tokensFrom]
  have hend : answers.EndsAt decode (answers.tokensFrom 0 n).length := hlength.symm ▸ hlast.1
  obtain ⟨hstate, hreply⟩ := drain_last hfetch (hlength.symm ▸ hq) hend spare
  rw [← hdrain, hlength] at hstate hreply
  have hrun := @listAll_run _ decode fetch (spare + 1 + n) []
  have htotals : (listAll fetch decode (spare + 1 + n) () []).reply =
      total (answers.outcomesFrom decode 0 (n + 1)) := by
    have hsplit : answers.outcomesFrom decode 0 (n + 1) =
        answers.outcomesFrom decode 0 n ++ answers.outcomes decode n := by
      simp [outcomesFrom, List.range'_concat]
    rw [hrun.2, hreply, hsplit, total_append, htotal]
    rfl
  refine ⟨?_, ?_, ?_⟩
  · rw [hrun.1, hstate]
    simp [tokensFrom, List.range'_concat]
  · intro entries'
    rw [htotals]
    exact total_eq_ok
  · intro f
    rw [htotals]
    exact total_eq_error

theorem unended_listAll (hfetch : answers.GivenBy fetch) (limit : Nat)
    (hgo : ∀ i < limit, ¬answers.EndsAt decode i) :
    answers.Unended limit (listAll fetch decode limit () []) := by
  obtain ⟨q, _, hq, hdrain⟩ := drain_start hfetch limit hgo
  have hrun := @listAll_run _ decode fetch limit []
  have hdrained := hdrain 0
  rw [Nat.zero_add] at hdrained
  refine ⟨?_, ?_⟩
  · rw [hrun.1, hdrained]
    rfl
  · rw [hrun.2, hdrained]
    exact finish_of_at hq

end Answers

/-! ### Exactness -/

/-- **A listing is exact, whatever its source answers.** A source that is called and one that is read
    are listed alike: `drain` is one definition for both, so this part would hold whatever it did with
    pages, and what it does is told by the others. If some answer is the first to end the listing, the
    listing has made the fetches up to that answer and no other, and it gives the entries of all their
    items if nothing failed, or what failed first; no allowance beyond these fetches makes a difference.
    If no answer ends it, it goes on however many fetches are allowed. -/
theorem listing_exact (answers : Answers τ) (decode : τ → Except Failure (Option Entry)) :
    (∀ limit, (listAll Answers.caller decode limit ()).run answers.responder [] =
      listAll answers.reader decode limit () []) ∧
    (∀ n, answers.LastAt decode n → ∀ limit, n < limit →
      answers.Exact decode n (listAll answers.reader decode limit () [])) ∧
    ((∀ n, ¬answers.EndsAt decode n) → ∀ limit,
      answers.Unended limit (listAll answers.reader decode limit () [])) := by
  refine ⟨?_, ?_, ?_⟩
  · intro limit
    rw [Program.run_listAll]
    have hsame : (fun memory token => (Answers.caller memory token).run answers.responder) =
        answers.reader := by
      funext memory token
      exact answers.run_caller memory token
    rw [hsame]
  · intro n hlast limit hlimit
    exact Answers.exact_listAll answers.givenBy_reader hlast hlimit
  · intro hgo limit
    exact Answers.unended_listAll answers.givenBy_reader limit fun i _ => hgo i

/-- A page whose second item is skipped, an empty page that leads on, and a page that leads back to
    itself, with an item that does not decode in the middle. -/
def brokenPages : Answers (Except Failure (Option Entry))
  | 0 => .ok ⟨[.ok (some ⟨[0x62], [1], [7]⟩), .ok none], some [0x61]⟩
  | 1 => .ok ⟨[], some [0x62]⟩
  | _ => .ok ⟨[.ok (some ⟨[0x62], [2], [8]⟩), .error (.stated .encoding "bad item"),
      .ok (some ⟨[0x62], [3], [9]⟩)], some [0x62]⟩

/-- Every page leads to one that was never asked for. -/
def endlessPages : Answers (Except Failure (Option Entry)) := fun n =>
  .ok ⟨[], some (List.replicate (n + 1) 0)⟩

theorem endlessPages_goes_on (n : Nat) : ¬endlessPages.EndsAt id n := by
  have hnew : endlessPages.token n ≠ some (List.replicate (n + 1) 0) := by
    cases n with
    | zero => simp [Answers.token]
    | succ n =>
      intro hsame
      have hlength := congrArg List.length (Option.some.inj hsame)
      simp at hlength
  rintro (hnone | ⟨f, hf⟩)
  · cases hnone
  · simp [Answers.outcomes, endlessPages, Ne.symm hnew] at hf

theorem listing_exact_broken_pages :
    brokenPages.LastAt id 2 ∧ 2 < 9 ∧
      (listAll brokenPages.reader id 9 () []).state = [none, some [0x61], some [0x62]] ∧
      (listAll brokenPages.reader id 9 () []).reply = .error (.stated .encoding "bad item") ∧
      (∀ n, ¬endlessPages.EndsAt id n) ∧
      (listAll endlessPages.reader id 9 () []).reply = .error .unfinishedListing := by
  have hlast : brokenPages.LastAt id 2 := by
    refine ⟨.inr ⟨.stated .encoding "bad item", by simp [Answers.outcomes, brokenPages]⟩, ?_⟩
    intro i hi
    obtain rfl | rfl : i = 0 ∨ i = 1 := by omega
    all_goals simp [Answers.EndsAt, Answers.next, Answers.outcomes, Answers.token, brokenPages]
  have hexact := (listing_exact brokenPages id).2.1 2 hlast 9 (by decide)
  refine ⟨hlast, by decide, hexact.fetches, ?_, endlessPages_goes_on, ?_⟩
  · rw [hexact.failed]
    exact ⟨[.ok (some ⟨[0x62], [1], [7]⟩), .ok none, .ok (some ⟨[0x62], [2], [8]⟩)], _, rfl, by simp⟩
  · exact ((listing_exact endlessPages id).2.2 endlessPages_goes_on 9).unfinished

end BucketStore
