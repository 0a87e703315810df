/-
  BucketStore/Proofs/ProgramLogic.lean
  ====================================
  **What is true of every run of a program.**

  A `Contract` says what a call needs and what may be relied on about its reply
  and the state it leaves.  `Program.Ensures` says that a program keeps to a
  contract: it makes no call whose need is not met, and however the calls are
  replied to within the contract, it ends in an answer and a state of the
  postcondition.

  The rules follow the shape of programs (`ensures_bind`, `ensures_attempt`, …);
  `Program.Yields` is for programs that are sure to answer, `Program.Steady` for
  programs that come back to the state they started from, and `Program.Leaves` for
  what is known of the state once a program has answered.
  `Ensures.transfer` carries what was shown of a program over to another contract,
  and `Ensures.run` to its runs against whatever responder stays within the
  contract.
-/
import BucketStore.Program

namespace BucketStore

/-- What calls need, and what they may be relied on for, on states of type `σ`. -/
structure Contract (Call : Type) (Reply : Call → Type) (σ : Type) where
  /-- What must be true before the call is made. -/
  needs : Call → σ → Prop
  /-- The replies that the call may get, with the states that it may leave. -/
  allows : (c : Call) → σ → Reply c → σ → Prop

/-- Any call may be made, and any reply may come. -/
def Contract.free {Call : Type} {Reply : Call → Type} : Contract Call Reply Unit where
  needs _ _ := True
  allows _ _ _ _ := True

/-- No call may be made. -/
def Contract.silent {Call : Type} {Reply : Call → Type} : Contract Call Reply Unit where
  needs _ _ := False
  allows _ _ _ _ := True

namespace Program

variable {Call : Type} {Reply : Call → Type} {σ τ α β : Type}

/-- The program keeps to the contract from the state `s` on, and whatever the contract allows, it
    ends as `Q` says. -/
def Ensures (K : Contract Call Reply σ) :
    Program Call Reply α → σ → (Except Failure α → σ → Prop) → Prop
  | .done a, s, Q => Q (.ok a) s
  | .fail f, s, Q => Q (.error f) s
  | .note _ p, s, Q => p.Ensures K s Q
  | .call c k, s, Q => K.needs c s ∧ ∀ r s', K.allows c s r s' → (k r).Ensures K s' Q

variable {K : Contract Call Reply σ} {s : σ}

/-! ### Rules for single steps -/

@[simp] theorem ensures_done {a : α} {Q : Except Failure α → σ → Prop} :
    (Program.done a : Program Call Reply α).Ensures K s Q ↔ Q (.ok a) s := Iff.rfl

@[simp] theorem ensures_pure {a : α} {Q : Except Failure α → σ → Prop} :
    (pure a : Program Call Reply α).Ensures K s Q ↔ Q (.ok a) s := Iff.rfl

@[simp] theorem ensures_fail {f : Failure} {Q : Except Failure α → σ → Prop} :
    (Program.fail f : Program Call Reply α).Ensures K s Q ↔ Q (.error f) s := Iff.rfl

@[simp] theorem ensures_note {line : Log.Line} {p : Program Call Reply α}
    {Q : Except Failure α → σ → Prop} :
    (Program.note line p).Ensures K s Q ↔ p.Ensures K s Q := Iff.rfl

theorem ensures_call {c : Call} {k : Reply c → Program Call Reply α}
    {Q : Except Failure α → σ → Prop} :
    (Program.call c k).Ensures K s Q ↔
      K.needs c s ∧ ∀ r s', K.allows c s r s' → (k r).Ensures K s' Q := Iff.rfl

@[simp] theorem ensures_log {line : Log.Line} {Q : Except Failure Unit → σ → Prop} :
    (Program.log line : Program Call Reply Unit).Ensures K s Q ↔ Q (.ok ()) s := Iff.rfl

@[simp] theorem ensures_ofExcept {e : Except Failure α} {Q : Except Failure α → σ → Prop} :
    (Program.ofExcept e : Program Call Reply α).Ensures K s Q ↔ Q e s := by
  cases e <;> rfl

@[simp] theorem ensures_notes {lines : List Log.Line} {p : Program Call Reply α}
    {Q : Except Failure α → σ → Prop} :
    (lines.foldr Program.note p).Ensures K s Q ↔ p.Ensures K s Q := by
  induction lines with
  | nil => rfl
  | cons line lines ih => exact ih

@[simp] theorem ensures_raise {f : Failure} {Q : Except Failure α → σ → Prop} :
    (Program.raise f : Program Call Reply α).Ensures K s Q ↔ Q (.error f) s := by
  unfold Program.raise
  exact ensures_notes

@[simp] theorem ensures_throw {f : Failure} {Q : Except Failure α → σ → Prop} :
    (throw f : Program Call Reply α).Ensures K s Q ↔ Q (.error f) s := ensures_raise

@[simp] theorem ensures_check {e : Except Failure α} {Q : Except Failure α → σ → Prop} :
    (Program.check e : Program Call Reply α).Ensures K s Q ↔ Q e s := by
  cases e with
  | ok a => rfl
  | error f => exact ensures_raise

/-! ### Sequences -/

theorem ensures_bind {p : Program Call Reply α} {next : α → Program Call Reply β}
    {Q : Except Failure β → σ → Prop} :
    (p >>= next).Ensures K s Q ↔
      p.Ensures K s fun
        | .ok a, s' => (next a).Ensures K s' Q
        | .error f, s' => Q (.error f) s' := by
  change (p.bind next).Ensures K s Q ↔ _
  induction p generalizing s with
  | done a => rfl
  | fail f => rfl
  | note line p ih => exact ih
  | call c k ih =>
    constructor
    · rintro ⟨hneeds, hk⟩
      exact ⟨hneeds, fun r s' hr => (ih r).mp (hk r s' hr)⟩
    · rintro ⟨hneeds, hk⟩
      exact ⟨hneeds, fun r s' hr => (ih r).mpr (hk r s' hr)⟩

@[simp] theorem discard_eq {p : Program Call Reply α} :
    (discard p : Program Call Reply Unit) = p >>= fun _ => .done () := rfl

/-- What ends in `Q` ends in everything that follows from `Q`. -/
theorem Ensures.mono {p : Program Call Reply α} {Q Q' : Except Failure α → σ → Prop}
    (h : p.Ensures K s Q) (hQ : ∀ r s', Q r s' → Q' r s') : p.Ensures K s Q' := by
  induction p generalizing s with
  | done a => exact hQ _ _ h
  | fail f => exact hQ _ _ h
  | note line p ih => exact ih h
  | call c k ih => exact ⟨h.1, fun r s' hr => ih r (h.2 r s' hr)⟩

theorem ensures_discard {p : Program Call Reply α} {Q : Except Failure Unit → σ → Prop} :
    (discard p).Ensures K s Q ↔ p.Ensures K s fun r s' => Q (r.map fun _ => ()) s' := by
  rw [discard_eq, ensures_bind]
  constructor
  · intro h
    refine Ensures.mono h ?_
    rintro (f | a) s' hQ <;> exact hQ
  · intro h
    refine Ensures.mono h ?_
    rintro (f | a) s' hQ <;> exact hQ

/-- What ends in `Q` and in `Q'` ends in both at once. -/
theorem Ensures.and {p : Program Call Reply α} {Q Q' : Except Failure α → σ → Prop}
    (h : p.Ensures K s Q) (h' : p.Ensures K s Q') : p.Ensures K s fun r s' => Q r s' ∧ Q' r s' := by
  induction p generalizing s with
  | done a => exact ⟨h, h'⟩
  | fail f => exact ⟨h, h'⟩
  | note line p ih => exact ih h h'
  | call c k ih => exact ⟨h.1, fun r s' hr => ih r (h.2 r s' hr) (h'.2 r s' hr)⟩

theorem Ensures.bind {p : Program Call Reply α} {next : α → Program Call Reply β}
    {P : Except Failure α → σ → Prop} {Q : Except Failure β → σ → Prop} (h : p.Ensures K s P)
    (hok : ∀ a s', P (.ok a) s' → (next a).Ensures K s' Q)
    (herror : ∀ f s', P (.error f) s' → Q (.error f) s') : (p >>= next).Ensures K s Q := by
  rw [ensures_bind]
  refine h.mono ?_
  rintro (f | a) s' hP
  · exact herror f s' hP
  · exact hok a s' hP

/-- Under the contract that asks for nothing and promises nothing, every program keeps to it. -/
theorem Ensures.free (p : Program Call Reply α) : p.Ensures .free () fun _ _ => True := by
  induction p with
  | done a => trivial
  | fail f => trivial
  | note line p ih => exact ih
  | call c k ih => exact ⟨trivial, fun r _ _ => ih r⟩

/-! ### From one contract to another -/

/-- What is ensured under one contract is ensured under another, on other states, whose needs follow
    from those of the first and whose replies the first allows, both seen through `rel`. -/
theorem Ensures.transfer {K' : Contract Call Reply τ} (rel : τ → σ → Prop)
    (hcall : ∀ c t s, rel t s → K.needs c s →
      K'.needs c t ∧ ∀ r t', K'.allows c t r t' → ∃ s', K.allows c s r s' ∧ rel t' s')
    {p : Program Call Reply α} {Q : Except Failure α → σ → Prop} {t : τ} (h : p.Ensures K s Q)
    (ht : rel t s) : p.Ensures K' t fun r t' => ∃ s', Q r s' ∧ rel t' s' := by
  induction p generalizing s t with
  | done a => exact ⟨s, h, ht⟩
  | fail f => exact ⟨s, h, ht⟩
  | note line p ih => exact ih h ht
  | call c k ih =>
    obtain ⟨hneeds, hallows⟩ := hcall c t s ht h.1
    refine ⟨hneeds, fun r t' hr => ?_⟩
    obtain ⟨s', hs', hrel⟩ := hallows r t' hr
    exact ih r (h.2 r s' hs') hrel

/-! ### Failures as answers, and failures reworded -/

theorem ensures_attempt {p : Program Call Reply α}
    {Q : Except Failure (Except Failure α) → σ → Prop} :
    p.attempt.Ensures K s Q ↔ p.Ensures K s fun r s' => Q (.ok r) s' := by
  induction p generalizing s with
  | done a => rfl
  | fail f => rfl
  | note line p ih => exact ih
  | call c k ih => simp only [attempt, ensures_call, ih]

theorem ensures_mapFailure {reword : Failure → Failure} {p : Program Call Reply α}
    {Q : Except Failure α → σ → Prop} :
    (p.mapFailure reword).Ensures K s Q ↔
      p.Ensures K s fun r s' => Q (r.mapError reword) s' := by
  induction p generalizing s with
  | done a => rfl
  | fail f => rfl
  | note line p ih => exact ih
  | call c k ih => simp only [mapFailure, ensures_call, ih]

theorem ensures_noteFailure {lines : Failure → List Log.Line} {p : Program Call Reply α}
    {Q : Except Failure α → σ → Prop} :
    (p.noteFailure lines).Ensures K s Q ↔ p.Ensures K s Q := by
  induction p generalizing s with
  | done a => rfl
  | fail f => exact ensures_notes
  | note line p ih => exact ih
  | call c k ih => simp only [noteFailure, ensures_call, ih]

/-! ### Programs that answer -/

/-- The program keeps to the contract, answers with `a`, and leaves a state of `R`. -/
def Yields (K : Contract Call Reply σ) (p : Program Call Reply α) (s : σ) (a : α) (R : σ → Prop) :
    Prop :=
  p.Ensures K s fun r s' => r = .ok a ∧ R s'

section

variable {p : Program Call Reply α} {a : α} {R R' : σ → Prop}

theorem yields_done (h : R s) : (Program.done a : Program Call Reply α).Yields K s a R := ⟨rfl, h⟩

theorem yields_ofExcept {e : Except Failure α} (he : e = .ok a) (h : R s) :
    (Program.ofExcept e : Program Call Reply α).Yields K s a R := ensures_ofExcept.mpr ⟨he, h⟩

theorem Yields.mono (h : p.Yields K s a R) (hR : ∀ s', R s' → R' s') : p.Yields K s a R' :=
  Ensures.mono h fun _ _ hr => ⟨hr.1, hR _ hr.2⟩

/-- What follows a program that answers starts with its answer. -/
theorem Yields.then {next : α → Program Call Reply β} {Q : Except Failure β → σ → Prop}
    (h : p.Yields K s a R) (hnext : ∀ s', R s' → (next a).Ensures K s' Q) :
    (p >>= next).Ensures K s Q := by
  refine Ensures.bind h ?_ ?_
  · rintro _ s' ⟨heq, hR⟩
    cases heq
    exact hnext s' hR
  · rintro _ _ ⟨heq, _⟩
    cases heq

theorem Yields.mapFailure (h : p.Yields K s a R) (reword : Failure → Failure) :
    (p.mapFailure reword).Yields K s a R := by
  refine ensures_mapFailure.mpr (Ensures.mono h ?_)
  rintro _ s' ⟨rfl, hR⟩
  exact ⟨rfl, hR⟩

theorem Yields.noteFailure (h : p.Yields K s a R) (lines : Failure → List Log.Line) :
    (p.noteFailure lines).Yields K s a R := ensures_noteFailure.mpr h

end

/-! ### Programs that change nothing -/

/-- The program keeps to the contract, leaves the state as it was, and answers with values of `P`. -/
def Steady (K : Contract Call Reply σ) (p : Program Call Reply α) (s : σ) (P : α → Prop) : Prop :=
  p.Ensures K s fun r s' => s' = s ∧ ∀ a, r = .ok a → P a

section

variable {P : α → Prop} {P' : β → Prop}

theorem steady_done {a : α} (h : P a) : (Program.done a : Program Call Reply α).Steady K s P :=
  ⟨rfl, fun _ heq => Except.ok.inj heq ▸ h⟩

theorem steady_pure {a : α} (h : P a) : (pure a : Program Call Reply α).Steady K s P := steady_done h

theorem steady_fail {f : Failure} : (Program.fail f : Program Call Reply α).Steady K s P :=
  ⟨rfl, by simp⟩

theorem steady_log {line : Log.Line} :
    (Program.log line : Program Call Reply Unit).Steady K s fun _ => True :=
  ⟨rfl, fun _ _ => trivial⟩

theorem steady_check {e : Except Failure α} (h : ∀ a, e = .ok a → P a) :
    (Program.check e : Program Call Reply α).Steady K s P := ensures_check.mpr ⟨rfl, h⟩

theorem steady_ofExcept {e : Except Failure α} (h : ∀ a, e = .ok a → P a) :
    (Program.ofExcept e : Program Call Reply α).Steady K s P := ensures_ofExcept.mpr ⟨rfl, h⟩

theorem Steady.mono {P' : α → Prop} {p : Program Call Reply α} (h : p.Steady K s P)
    (hP : ∀ a, P a → P' a) : p.Steady K s P' :=
  Ensures.mono h fun _ _ hr => ⟨hr.1, fun a heq => hP a (hr.2 a heq)⟩

theorem Steady.bind {p : Program Call Reply α} {next : α → Program Call Reply β}
    (h : p.Steady K s P) (hnext : ∀ a, P a → (next a).Steady K s P') : (p >>= next).Steady K s P' := by
  refine Ensures.bind h ?_ ?_
  · rintro a _ ⟨rfl, hP⟩
    exact hnext a (hP a rfl)
  · rintro f _ ⟨rfl, _⟩
    exact ⟨rfl, by simp⟩

theorem Steady.discard {p : Program Call Reply α} (h : p.Steady K s P) :
    (Functor.discard p : Program Call Reply Unit).Steady K s fun _ => True :=
  h.bind fun _ _ => steady_done trivial

theorem Steady.attempt {p : Program Call Reply α} (h : p.Steady K s P) :
    p.attempt.Steady K s fun r => ∀ a, r = .ok a → P a := by
  refine ensures_attempt.mpr (Ensures.mono h ?_)
  rintro r s' ⟨hs, hP⟩
  exact ⟨hs, fun _ heq a heq' => hP a (Except.ok.inj heq ▸ heq')⟩

theorem Steady.mapFailure {p : Program Call Reply α} (h : p.Steady K s P)
    (reword : Failure → Failure) : (p.mapFailure reword).Steady K s P := by
  refine ensures_mapFailure.mpr (Ensures.mono h ?_)
  rintro (f | a) s' ⟨hs, hP⟩
  · refine ⟨hs, fun a heq => ?_⟩
    cases heq
  · exact ⟨hs, hP⟩

end

/-! ### What answers leave -/

/-- The program keeps to the contract, and if it answers, `R` is true of the answer and the state. -/
def Leaves (K : Contract Call Reply σ) (p : Program Call Reply α) (s : σ) (R : α → σ → Prop) : Prop :=
  p.Ensures K s fun r s' => ∀ a, r = .ok a → R a s'

section

variable {p : Program Call Reply α} {R : α → σ → Prop} {R' : β → σ → Prop}

theorem leaves_done {a : α} (h : R a s) : (Program.done a : Program Call Reply α).Leaves K s R :=
  fun _ heq => Except.ok.inj heq ▸ h

theorem leaves_pure {a : α} (h : R a s) : (pure a : Program Call Reply α).Leaves K s R := leaves_done h

theorem leaves_fail {f : Failure} : (Program.fail f : Program Call Reply α).Leaves K s R :=
  fun _ heq => nomatch heq

theorem leaves_ofExcept {e : Except Failure α} (h : ∀ a, e = .ok a → R a s) :
    (Program.ofExcept e : Program Call Reply α).Leaves K s R := ensures_ofExcept.mpr h

theorem leaves_check {e : Except Failure α} (h : ∀ a, e = .ok a → R a s) :
    (Program.check e : Program Call Reply α).Leaves K s R := ensures_check.mpr h

theorem leaves_throw {f : Failure} : (throw f : Program Call Reply α).Leaves K s R :=
  ensures_throw.mpr fun _ heq => nomatch heq

theorem Leaves.mono {R' : α → σ → Prop} (h : p.Leaves K s R) (hR : ∀ a s', R a s' → R' a s') :
    p.Leaves K s R' := Ensures.mono h fun _ _ hr a heq => hR a _ (hr a heq)

theorem Leaves.bind {next : α → Program Call Reply β} (h : p.Leaves K s R)
    (hnext : ∀ a s', R a s' → (next a).Leaves K s' R') : (p >>= next).Leaves K s R' := by
  refine Ensures.bind h ?_ ?_
  · exact fun a s' hR => hnext a s' (hR a rfl)
  · exact fun f s' _ a heq => nomatch heq

theorem Leaves.mapFailure {reword : Failure → Failure} (h : p.Leaves K s R) :
    (p.mapFailure reword).Leaves K s R := by
  refine ensures_mapFailure.mpr (Ensures.mono h ?_)
  rintro (f | a) s' hR
  · exact fun a heq => nomatch heq
  · exact hR

theorem Leaves.noteFailure {lines : Failure → List Log.Line} (h : p.Leaves K s R) :
    (p.noteFailure lines).Leaves K s R := ensures_noteFailure.mpr h

/-- What every step leaves, a row of them does. -/
theorem leaves_foldlM {R : β → σ → Prop} {step : β → α → Program Call Reply β} (l : List α)
    (hstep : ∀ b a s, a ∈ l → R b s → (step b a).Leaves K s R) (b : β) (h : R b s) :
    (l.foldlM step b).Leaves K s R := by
  induction l generalizing b s with
  | nil => exact leaves_pure h
  | cons a rest ih =>
    rw [List.foldlM_cons]
    refine (hstep b a s (List.mem_cons_self ..) h).bind fun b' s' h' => ih ?_ b' h'
    exact fun b a s ha => hstep b a s (List.mem_cons_of_mem _ ha)

theorem leaves_forM {I : σ → Prop} {step : α → Program Call Reply Unit} (l : List α)
    (hstep : ∀ a s, a ∈ l → I s → (step a).Leaves K s fun _ => I) (h : I s) :
    (l.forM step).Leaves K s fun _ => I := by
  induction l generalizing s with
  | nil => exact leaves_pure h
  | cons a rest ih =>
    refine (hstep a s (List.mem_cons_self ..) h).bind fun _ s' h' => ih ?_ h'
    exact fun a s ha => hstep a s (List.mem_cons_of_mem _ ha)

end

/-! ### Runs -/

/-- The calls that a run makes, each with the state in which it is made. -/
def calls (respond : Responder Call Reply τ) : Program Call Reply α → τ → List (Call × τ)
  | .done _, _ => []
  | .fail _, _ => []
  | .note _ p, t => p.calls respond t
  | .call c k, t => (c, t) :: (k (respond c t).reply).calls respond (respond c t).state

section

variable (respond : Responder Call Reply τ) (t : τ)

/-- Notes go to the log and make no other difference. -/
theorem run_notes (lines : List Log.Line) (p : Program Call Reply α) :
    (lines.foldr note p).run respond t =
      ⟨(p.run respond t).reply, (p.run respond t).state, lines ++ (p.run respond t).log⟩ := by
  induction lines with
  | nil => rfl
  | cons line rest ih => simp only [List.foldr_cons, run, ih, List.cons_append]

theorem run_throw (f : Failure) :
    (throw f : Program Call Reply α).run respond = (throw f : Action τ α) := by
  funext t
  change (f.notice.foldr note (.fail f)).run respond t = ⟨.error f, t, f.notice⟩
  rw [run_notes]
  simp only [run, List.append_nil]

theorem run_attempt (p : Program Call Reply α) : p.attempt.run respond t =
    ⟨.ok (p.run respond t).reply, (p.run respond t).state, (p.run respond t).log⟩ := by
  induction p generalizing t with
  | done a => rfl
  | fail f => rfl
  | note line p ih => simp only [attempt, run, ih]
  | call c k ih => simp only [attempt, run, ih]

/-- What is done about the outcome of a program is done where it has ended. -/
theorem run_attempt_bind (p : Program Call Reply α) (next : Except Failure α → Program Call Reply β) :
    ((p.attempt >>= next).run respond t).reply =
        ((next (p.run respond t).reply).run respond (p.run respond t).state).reply ∧
      ((p.attempt >>= next).run respond t).state =
        ((next (p.run respond t).reply).run respond (p.run respond t).state).state := by
  change ((p.attempt.bind next).run respond t).reply = _ ∧
    ((p.attempt.bind next).run respond t).state = _
  rw [run_bind]
  simp only [Action.bind, run_attempt, and_self]

/-- What is noted about a failure makes no difference to it. -/
theorem run_noteFailure (lines : Failure → List Log.Line) (p : Program Call Reply α) :
    ((p.noteFailure lines).run respond t).reply = (p.run respond t).reply ∧
      ((p.noteFailure lines).run respond t).state = (p.run respond t).state := by
  induction p generalizing t with
  | done a => exact ⟨rfl, rfl⟩
  | fail f =>
    simp only [noteFailure, run_notes, and_self]
  | note line p ih => exact ih t
  | call c k ih => exact ih _ _

/-- After a failed check no call is made. -/
theorem calls_refused (f : Failure) (next : α → Program Call Reply β) :
    (Program.check (.error f) >>= next).calls respond t = [] := by
  change ((f.notice.foldr note (.fail f)).bind next).calls respond t = []
  induction f.notice with
  | nil => rfl
  | cons line rest ih => exact ih

end

/-- Two responders that reply the same from related states, to the calls that a run makes, run a
    program alike. -/
theorem run_alike {respond : Responder Call Reply τ} {respond' : Responder Call Reply σ}
    (rel : τ → σ → Prop) {good : Call → Prop}
    (hcall : ∀ c t s, good c → rel t s → (respond c t).reply = (respond' c s).reply ∧
      rel (respond c t).state (respond' c s).state)
    {p : Program Call Reply α} {t : τ} {s : σ} (hgood : ∀ e ∈ p.calls respond' s, good e.1)
    (h : rel t s) : (p.run respond t).reply = (p.run respond' s).reply ∧
      rel (p.run respond t).state (p.run respond' s).state := by
  induction p generalizing t s with
  | done a => exact ⟨rfl, h⟩
  | fail f => exact ⟨rfl, h⟩
  | note line p ih => exact ih hgood h
  | call c k ih =>
    obtain ⟨hfirst, hrest⟩ := List.forall_mem_cons.mp hgood
    obtain ⟨hreply, hstate⟩ := hcall c t s hfirst h
    simp only [run, hreply]
    exact ih _ hrest hstate

/-- A run, seen through `rel`, ends as was ensured if the responder stays within the contract at the
    calls that the run makes. -/
theorem Ensures.run_along (respond : Responder Call Reply τ) (rel : τ → σ → Prop)
    (good : Call → τ → Prop)
    (hrespond : ∀ c t s, good c t → rel t s → K.needs c s →
      ∃ s', K.allows c s (respond c t).reply s' ∧ rel (respond c t).state s')
    {p : Program Call Reply α} {Q : Except Failure α → σ → Prop} {t : τ}
    (h : p.Ensures K s Q) (hgood : ∀ e ∈ p.calls respond t, good e.1 e.2) (ht : rel t s) :
    ∃ s', Q (p.run respond t).reply s' ∧ rel (p.run respond t).state s' := by
  induction p generalizing s t with
  | done a => exact ⟨s, h, ht⟩
  | fail f => exact ⟨s, h, ht⟩
  | note line p ih => exact ih h hgood ht
  | call c k ih =>
    obtain ⟨hfirst, hrest⟩ := List.forall_mem_cons.mp hgood
    obtain ⟨s', hallowed, hrel⟩ := hrespond c t s hfirst ht h.1
    exact ih _ (h.2 _ s' hallowed) hrest hrel

/-- The needs of every call are met, as the run is seen through `rel`. -/
theorem Ensures.needs_along (respond : Responder Call Reply τ) (rel : τ → σ → Prop)
    (good : Call → τ → Prop)
    (hrespond : ∀ c t s, good c t → rel t s → K.needs c s →
      ∃ s', K.allows c s (respond c t).reply s' ∧ rel (respond c t).state s')
    {p : Program Call Reply α} {Q : Except Failure α → σ → Prop} {t : τ}
    (h : p.Ensures K s Q) (hgood : ∀ e ∈ p.calls respond t, good e.1 e.2) (ht : rel t s) :
    ∀ e ∈ p.calls respond t, ∃ s', rel e.2 s' ∧ K.needs e.1 s' := by
  induction p generalizing s t with
  | done a => simp [calls]
  | fail f => simp [calls]
  | note line p ih => exact ih h hgood ht
  | call c k ih =>
    obtain ⟨hfirst, hrest⟩ := List.forall_mem_cons.mp hgood
    obtain ⟨s', hallowed, hrel⟩ := hrespond c t s hfirst ht h.1
    exact List.forall_mem_cons.mpr ⟨⟨s, ht, h.1⟩, ih _ (h.2 _ s' hallowed) hrest hrel⟩

/-- A run is seen through `rel` at every call that it makes. -/
theorem Ensures.calls_along (respond : Responder Call Reply τ) (rel : τ → σ → Prop)
    (hrespond : ∀ c t s, rel t s → K.needs c s →
      ∃ s', K.allows c s (respond c t).reply s' ∧ rel (respond c t).state s')
    {p : Program Call Reply α} {Q : Except Failure α → σ → Prop} {t : τ}
    (h : p.Ensures K s Q) (ht : rel t s) : ∀ e ∈ p.calls respond t, ∃ s', rel e.2 s' := by
  intro e he
  obtain ⟨s', hrel, _⟩ := h.needs_along respond rel (fun _ _ => True)
    (fun c t s _ => hrespond c t s) (fun _ _ => trivial) ht e he
  exact ⟨s', hrel⟩

/-- A run against a responder that stays within the contract, seen through `rel`, ends as was
    ensured. -/
theorem Ensures.run (respond : Responder Call Reply τ) (rel : τ → σ → Prop)
    (hrespond : ∀ c t s, rel t s → K.needs c s →
      ∃ s', K.allows c s (respond c t).reply s' ∧ rel (respond c t).state s')
    {p : Program Call Reply α} {Q : Except Failure α → σ → Prop} {t : τ}
    (h : p.Ensures K s Q) (ht : rel t s) :
    ∃ s', Q (p.run respond t).reply s' ∧ rel (p.run respond t).state s' :=
  h.run_along respond rel (fun _ _ => True) (fun c t s _ => hrespond c t s) (fun _ _ => trivial) ht

/-- A reflexive and transitive relation that every allowed call keeps relates the state at the end
    to the state at the start. -/
theorem Ensures.frame {R : σ → σ → Prop} (hrefl : ∀ s, R s s)
    (htrans : ∀ s s' s'', R s s' → R s' s'' → R s s'')
    (hcall : ∀ c s r s', K.allows c s r s' → R s s') {p : Program Call Reply α}
    {Q : Except Failure α → σ → Prop} (h : p.Ensures K s Q) :
    p.Ensures K s fun r s' => Q r s' ∧ R s s' := by
  induction p generalizing s with
  | done a => exact ⟨h, hrefl s⟩
  | fail f => exact ⟨h, hrefl s⟩
  | note line p ih => exact ih h
  | call c k ih =>
    refine ⟨h.1, fun r s' hr => (ih r (h.2 r s' hr)).mono ?_⟩
    exact fun r' s'' hQ => ⟨hQ.1, htrans _ _ _ (hcall c s r s' hr) hQ.2⟩

end Program

end BucketStore
