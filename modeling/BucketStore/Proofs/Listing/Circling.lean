/-
  BucketStore/Proofs/Listing/Circling.lean
  ========================================
  **A listing ends unless its pages lead in a circle.**

  If the answer of a source depends on the token alone, and its pages lead to
  finitely many tokens, a listing either ends after at most one fetch more than
  there are tokens or comes to a token again (`Source.exists_endsAt`).  A page that
  leads to the very token it was fetched with ends the listing with a failure.  A
  longer circle is not noticed: each token differs from the one before it, and the
  listing goes around for good (`Source.goes_on_of_circles`).
-/
import Mathlib.Data.Finset.Card
import Mathlib.Data.Nat.Find
import BucketStore.Proofs.Listing.Answers

namespace BucketStore

variable {τ : Type}

/-- What is answered to a token, whenever it is asked for. -/
abbrev Source (τ : Type) := Option Token → Except Failure (Page τ)

namespace Source

/-- Where the page behind a token leads, if there is one. -/
def next (source : Source τ) (token : Option Token) : Option Token :=
  match source token with
  | .ok page => page.next
  | .error _ => none

/-- The tokens that the pages lead to, one after the other. -/
def walk (source : Source τ) : Nat → Option Token
  | 0 => none
  | n + 1 => source.next (source.walk n)

/-- What the source answers along its walk. -/
def answers (source : Source τ) : Answers τ := fun n => source (source.walk n)

/-- Asks the source for a page, and notes the token. -/
def fetch (source : Source τ) (_ : Unit) (token : Option Token) :
    Action (List (Option Token)) (Page τ × Unit) :=
  fun asked => ⟨(source token).map fun page => (page, ()), asked ++ [token], []⟩

/-- The pages lead to these tokens and no others. -/
def LeadsWithin (source : Source τ) (tokens : List Token) : Prop :=
  ∀ asked page token, source asked = .ok page → page.next = some token → token ∈ tokens

/-- The pages lead back to a token after other tokens, and nothing ends the listing before. -/
def Circles (source : Source τ) (decode : τ → Except Failure (Option Entry)) : Prop :=
  ∃ i j, i + 1 < j ∧ source.walk i = source.walk j ∧ ∀ k < j, ¬source.answers.EndsAt decode k

variable {source : Source τ} {decode : τ → Except Failure (Option Entry)} {i j : Nat}

/-! ### The walk -/

@[simp] theorem token_answers (n : Nat) : source.answers.token n = source.walk n := by
  cases n with
  | zero => rfl
  | succ n => rfl

theorem givenBy_fetch : source.answers.GivenBy source.fetch := by
  intro asked
  simp [fetch, answers]

/-- From the same token on, the walk is the same. -/
theorem walk_add (h : source.walk i = source.walk j) (m : Nat) :
    source.walk (i + m) = source.walk (j + m) := by
  induction m with
  | zero => exact h
  | succ m ih => exact congrArg source.next ih

/-- Whether the listing ends with a page depends on its token alone. -/
theorem endsAt_congr (h : source.walk i = source.walk j) :
    source.answers.EndsAt decode i ↔ source.answers.EndsAt decode j := by
  simp only [Answers.EndsAt, Answers.next, Answers.outcomes, token_answers, answers, h]

/-- A page that does not end the listing leads on, and not to the token it was fetched with. -/
theorem leads_of_not_endsAt (h : ¬source.answers.EndsAt decode i) :
    ∃ page token, source (source.walk i) = .ok page ∧ page.next = some token ∧
      source.walk (i + 1) = some token ∧ source.walk i ≠ some token := by
  obtain ⟨hleads, hnone⟩ := not_or.mp h
  cases hanswer : source (source.walk i) with
  | error f => exact absurd (by simp only [Answers.next, answers, hanswer]) hleads
  | ok page =>
    cases hnext : page.next with
    | none => exact absurd (by simp only [Answers.next, answers, hanswer, hnext]) hleads
    | some token =>
      refine ⟨page, token, rfl, hnext, by simp only [walk, next, hanswer, hnext], ?_⟩
      intro hsame
      refine hnone ⟨.repeatedToken, ?_⟩
      simp only [Answers.outcomes, token_answers, answers, hanswer, hnext]
      simp [hsame]

/-! ### Ending or circling -/

/-- Among more pages than there are tokens, one ends the listing, or two have the same token. -/
theorem exists_endsAt {tokens : List Token} (hwithin : source.LeadsWithin tokens)
    (hcircles : ¬source.Circles decode) : ∃ n ≤ tokens.length, source.answers.EndsAt decode n := by
  by_contra hnone
  have hgo : ∀ k ≤ tokens.length, ¬source.answers.EndsAt decode k := by
    intro k hk hend
    exact hnone ⟨k, hk, hend⟩
  -- The first fetch has no token; the pigeonholes are the tokens of the fetches after it.
  have hmaps : ∀ k ∈ Finset.range (tokens.length + 1),
      source.walk (k + 1) ∈ (tokens.map some).toFinset := by
    intro k hk
    obtain ⟨page, token, hpage, hnext, hwalk, -⟩ :=
      leads_of_not_endsAt (hgo k (Nat.le_of_lt_succ (Finset.mem_range.mp hk)))
    rw [hwalk]
    simpa using hwithin _ _ _ hpage hnext
  have hcard : (tokens.map some).toFinset.card < (Finset.range (tokens.length + 1)).card := by
    have hle := (tokens.map some).toFinset_card_le
    simp only [List.length_map] at hle
    simp only [Finset.card_range]
    omega
  obtain ⟨x, hx, y, hy, hne, hsame⟩ := Finset.exists_ne_map_eq_of_card_lt_of_maps_to hcard hmaps
  rw [Finset.mem_range] at hx hy
  have hcircle : ∀ i j, i < j → j ≤ tokens.length → source.walk (i + 1) = source.walk (j + 1) →
      False := by
    intro i j hlt hle heq
    have hapart : i + 1 ≠ j := by
      -- A page that leads to its own token would have ended the listing.
      rintro rfl
      obtain ⟨_, token, -, -, hwalk, hnew⟩ := leads_of_not_endsAt (hgo (i + 1) hle)
      exact hnew (heq.trans hwalk)
    exact hcircles ⟨i + 1, j + 1, by omega, heq, fun k hk => hgo k (by omega)⟩
  rcases Nat.lt_or_gt_of_ne hne with hlt | hgt
  · exact hcircle x y hlt (by omega) hsame
  · exact hcircle y x hgt (by omega) hsame.symm

theorem exists_lastAt {tokens : List Token} (hwithin : source.LeadsWithin tokens)
    (hcircles : ¬source.Circles decode) : ∃ n ≤ tokens.length, source.answers.LastAt decode n := by
  classical
  have hends := exists_endsAt hwithin hcircles
  obtain ⟨hle, hend⟩ := Nat.find_spec hends
  refine ⟨Nat.find hends, hle, hend, ?_⟩
  intro i hi hend'
  exact Nat.find_min hends hi ⟨by omega, hend'⟩

/-- Once around, the listing is where it has been, and it did not end there. -/
theorem goes_on_of_circles (hcircles : source.Circles decode) (n : Nat) :
    ¬source.answers.EndsAt decode n := by
  obtain ⟨i, j, hlt, hsame, hgo⟩ := hcircles
  induction n using Nat.strongRecOn with
  | ind n ih =>
    by_cases hn : n < j
    · exact hgo n hn
    · -- One turn back the listing was at the same token.
      have hback := walk_add hsame (n - j)
      rw [Nat.add_sub_cancel' (Nat.not_lt.mp hn)] at hback
      rw [← endsAt_congr hback]
      exact ih (i + (n - j)) (by omega)

/-! ### What the listing fails with -/

/-- What comes of a page fails because of its fetch, of one of its items, or of its token. -/
theorem failed_outcome {f : Failure} {n : Nat} (h : .error f ∈ source.answers.outcomes decode n) :
    f = .repeatedToken ∨ source (source.walk n) = .error f ∨
      ∃ page, source (source.walk n) = .ok page ∧ ∃ item ∈ page.items, decode item = .error f := by
  unfold Answers.outcomes at h
  cases hanswer : source (source.walk n) with
  | error g =>
    simp only [answers, hanswer, List.mem_singleton, Except.error.injEq] at h
    exact .inr (.inl (congrArg Except.error h.symm))
  | ok page =>
    simp only [answers, hanswer, List.mem_append, List.mem_map] at h
    rcases h with ⟨item, hitem, hdecode⟩ | hrepeated
    · exact .inr (.inr ⟨page, rfl, item, hitem, hdecode⟩)
    · split at hrepeated
      · exact .inl (Except.error.inj (List.mem_singleton.mp hrepeated))
      · cases hrepeated

theorem failed_of_exact {f : Failure} {n : Nat}
    {run : Step (List (Option Token)) (Except Failure (List Entry))}
    (hrun : source.answers.Exact decode n run) (hf : run.reply = .error f) :
    f = .repeatedToken ∨ ∃ token, source token = .error f ∨
      ∃ page, source token = .ok page ∧ ∃ item ∈ page.items, decode item = .error f := by
  obtain ⟨front, rest, hsplit, -⟩ := (hrun.failed f).mp hf
  have hmem : .error f ∈ source.answers.outcomesFrom decode 0 (n + 1) := by
    rw [hsplit]
    simp
  obtain ⟨k, -, hk⟩ := List.mem_flatMap.mp hmem
  rcases failed_outcome hk with hrepeated | hfailed
  · exact .inl hrepeated
  · exact .inr ⟨_, hfailed⟩

end Source

/-! ### Ending -/

/-- **A listing ends unless its pages lead in a circle of several tokens.** The answers of the source
    depend on the token alone, and its pages lead to the given tokens. If they do not circle, the
    listing ends after at most one fetch more than there are tokens; if nothing failed to be fetched
    or decoded, it ends with the entries or because a page named the token it was fetched with. If
    they circle, it has not ended after any number of fetches. -/
theorem ends_unless_circling (source : Source τ) (decode : τ → Except Failure (Option Entry))
    (tokens : List Token) (hwithin : source.LeadsWithin tokens) :
    (¬source.Circles decode → ∃ n ≤ tokens.length, ∀ limit, n < limit →
      source.answers.Exact decode n (listAll source.fetch decode limit () []) ∧
      ∀ f, (listAll source.fetch decode limit () []).reply = .error f →
        f = .repeatedToken ∨ ∃ token, source token = .error f ∨
          ∃ page, source token = .ok page ∧ ∃ item ∈ page.items, decode item = .error f) ∧
    (source.Circles decode → ∀ limit,
      source.answers.Unended limit (listAll source.fetch decode limit () [])) := by
  constructor
  · intro hcircles
    obtain ⟨n, hle, hlast⟩ := Source.exists_lastAt hwithin hcircles
    refine ⟨n, hle, ?_⟩
    intro limit hlimit
    have hexact := Answers.exact_listAll Source.givenBy_fetch hlast hlimit
    exact ⟨hexact, fun f hf => Source.failed_of_exact hexact hf⟩
  · intro hcircles limit
    exact Answers.unended_listAll Source.givenBy_fetch limit fun i _ =>
      Source.goes_on_of_circles hcircles i

/-- Every page is empty; the first leads to `a`, the one at `a` to `b` and the one at `b` to `a`. -/
def swingingSource : Source (Option Entry) := fun token =>
  .ok ⟨[], some (if token = some [0x61] then [0x62] else [0x61])⟩

theorem swingingSource_leadsWithin : swingingSource.LeadsWithin [[0x61], [0x62]] := by
  rintro asked page token ⟨⟩ ⟨⟩
  split <;> simp

theorem swingingSource_goes_on (n : Nat) : ¬swingingSource.answers.EndsAt .ok n := by
  have hnew : ∀ token : Option Token,
      some (if token = some [0x61] then [0x62] else [0x61]) ≠ token := by
    intro token hsame
    by_cases ha : token = some [0x61]
    · simp [ha] at hsame
    · rw [if_neg ha] at hsame
      exact ha hsame.symm
  rintro (hnone | ⟨f, hf⟩)
  · cases hnone
  · simp only [Answers.outcomes, Source.token_answers, Source.answers, swingingSource] at hf
    simp [hnew] at hf

theorem swingingSource_circles : swingingSource.Circles .ok :=
  ⟨1, 3, by decide, by decide, fun k _ => swingingSource_goes_on k⟩

/-- A page that leads back to itself after one that leads there. -/
def stuckSource : Source (Option Entry) := fun _ => .ok ⟨[], some [0x61]⟩

theorem ends_unless_circling_stuck :
    stuckSource.LeadsWithin [[0x61]] ∧ ¬stuckSource.Circles .ok ∧
      (∃ n ≤ 1, ∀ limit, n < limit →
        stuckSource.answers.Exact .ok n (listAll stuckSource.fetch .ok limit () [])) ∧
      swingingSource.LeadsWithin [[0x61], [0x62]] ∧ swingingSource.Circles .ok ∧
      (listAll swingingSource.fetch .ok 7 () []).reply = .error .unfinishedListing := by
  have hstuck : stuckSource.LeadsWithin [[0x61]] := by
    rintro asked page token ⟨⟩ ⟨⟩
    simp
  have hends : stuckSource.answers.EndsAt .ok 1 := by
    refine .inr ⟨.repeatedToken, ?_⟩
    simp [Answers.outcomes, Source.answers, Source.walk, Source.next, stuckSource]
  have hstraight : ¬stuckSource.Circles .ok := by
    rintro ⟨i, j, hlt, -, hgo⟩
    exact hgo 1 (by omega) hends
  obtain ⟨n, hle, hrun⟩ := (ends_unless_circling stuckSource .ok [[0x61]] hstuck).1 hstraight
  have hgo := (ends_unless_circling swingingSource .ok [[0x61], [0x62]]
    swingingSource_leadsWithin).2 swingingSource_circles 7
  exact ⟨hstuck, hstraight, ⟨n, hle, fun limit hlimit => (hrun limit hlimit).1⟩,
    swingingSource_leadsWithin, swingingSource_circles, hgo.unfinished⟩

/-- A listing need not end although its source answers by the token alone and leads to two tokens:
    after any number of fetches it is unfinished, with no failure of the source. -/
theorem swinging_listing_never_ends :
    swingingSource.LeadsWithin [[0x61], [0x62]] ∧
      (∀ token, ∃ page, swingingSource token = .ok page ∧ page.items = []) ∧
      ∀ limit, (listAll swingingSource.fetch .ok limit () []).state.length = limit ∧
        (listAll swingingSource.fetch .ok limit () []).reply = .error .unfinishedListing := by
  refine ⟨swingingSource_leadsWithin, fun token => ⟨_, rfl, rfl⟩, ?_⟩
  intro limit
  have hunended := Answers.unended_listAll Source.givenBy_fetch limit
    fun i _ => swingingSource_goes_on i
  refine ⟨?_, hunended.unfinished⟩
  rw [hunended.fetches]
  simp [Answers.tokensFrom]

end BucketStore
