/-
  BucketStore/Proofs/Logging.lean
  ===============================
  **When an error is logged, the call fails, and not as it may be expected to.**

  A step is discreet if it logs an error only where it fails with something that
  callers do not expect (`Step.Discreet`): not with an answer, be it that of a
  compare-and-swap that found another value, and not because something is missing or
  is there already.

  An action keeps discreet part by part (`Action.Discreet`).  A program is followed
  along its calls, whatever the replies that are allowed (`Program.Reports`), with the
  errors noted so far; what may be noted when it fails is a parameter, since inner
  programs have to be silent (`Failure.Muted`) or may not fail in a way that is taken for
  unexpected further out (`Failure.Guarded`).
-/
import BucketStore.Listing
import BucketStore.Proofs.Listing.Answers
import BucketStore.Proofs.Transaction.WriteSet

namespace BucketStore

variable {σ α β : Type}

/-! ### Errors in the log -/

namespace Log

def Line.isError (line : Line) : Bool := line.level == .error

/-- An error is among the lines. -/
def loud (log : List Line) : Bool := log.any Line.isError

@[simp] theorem loud_nil : loud [] = false := rfl

@[simp] theorem loud_cons (line : Line) (log : List Line) :
    loud (line :: log) = (line.isError || loud log) := rfl

@[simp] theorem loud_append (log log' : List Line) : loud (log ++ log') = (loud log || loud log') :=
  List.any_append

theorem loud_eq_false {log : List Line} : loud log = false ↔ ∀ line ∈ log, line.level ≠ .error := by
  simp [loud, Line.isError]

end Log

/-! ### Failures that are expected -/

namespace Failure

/-- Callers go by these: something is missing, or is there already. -/
def isExpected (f : Failure) : Bool := f.kind == .notFound || f.kind == .alreadyExists

/-- If an error was logged, the failure is none that is expected. -/
def Discreet (f : Failure) (loud : Bool) : Prop := loud = true → f.isExpected = false

/-- It is discreet, and stays so if an error is logged for all but missing things. -/
def Guarded (f : Failure) (loud : Bool) : Prop := f.Discreet loud ∧ f.kind ≠ .alreadyExists

/-- No error was logged, and the failure is not that something is there already. -/
def Muted (f : Failure) (loud : Bool) : Prop := loud = false ∧ f.kind ≠ .alreadyExists

variable {f g : Failure} {loud : Bool}

theorem isExpected_congr (h : g.kind = f.kind) : g.isExpected = f.isExpected := by
  unfold isExpected
  rw [h]

theorem Discreet.congr (h : g.kind = f.kind) (hf : f.Discreet loud) : g.Discreet loud := by
  unfold Discreet
  rwa [isExpected_congr h]

theorem Muted.guarded (h : f.Muted loud) : f.Guarded loud :=
  ⟨fun hloud => absurd (h.1.symm.trans hloud) (by decide), h.2⟩

theorem discreet_silent (f : Failure) : f.Discreet false := fun h => nomatch h

/-- What is logged where a failure is detected is about none that is expected. -/
theorem discreet_notice (f : Failure) : f.Discreet (Log.loud f.notice) := by
  cases f with
  | emptyBucketName | emptyKey _ | reservedKey _ _ | repeatedToken | badTransition _ _ _
  | injectedFault _ _ => exact fun _ => rfl
  | _ => exact discreet_silent _

/-- An error for every failure but missing things is discreet about a guarded failure. -/
theorem Guarded.noted (h : f.Guarded loud) (text : Failure → String) :
    f.Discreet (loud || Log.loud (unlessMissing text f)) := by
  unfold unlessMissing
  split
  · rw [Log.loud_nil, Bool.or_false]
    exact h.1
  · next hlogged =>
    intro _
    rw [Bool.not_eq_true, Bool.or_eq_false_iff] at hlogged
    unfold isExpected
    rw [Bool.or_eq_false_iff]
    exact ⟨hlogged.1, beq_eq_false_iff_ne.mpr h.2⟩

end Failure

/-! ### Steps -/

/-- The reply is an answer, or a failure that is expected. -/
def Step.Expected (step : Step σ (Except Failure α)) : Prop :=
  ∀ f, step.reply = .error f → f.isExpected = true

/-- Nothing is logged as an error if the reply is one to expect. -/
def Step.Discreet (step : Step σ (Except Failure α)) : Prop :=
  step.Expected → ∀ line ∈ step.log, line.level ≠ .error

theorem Step.discreet_iff {step : Step σ (Except Failure α)} : step.Discreet ↔
    match step.reply with
    | .ok _ => Log.loud step.log = false
    | .error f => f.Discreet (Log.loud step.log) := by
  unfold Discreet Expected
  rw [← Log.loud_eq_false]
  cases step.reply with
  | ok a => simp
  | error f =>
    cases hexpected : f.isExpected <;> simp [Failure.Discreet, hexpected]

namespace Step.Discreet

variable {act : Action σ α} {s : σ}

theorem bind {next : α → Action σ β} (h : (act s).Discreet)
    (hnext : ∀ a, (next a (act s).state).Discreet) : ((act >>= next) s).Discreet := by
  rw [discreet_iff] at h
  rw [Action.bind_run]
  generalize act s = step at h hnext ⊢
  obtain ⟨f | a, s', log⟩ := step
  · exact discreet_iff.mpr h
  · have hrest := hnext a
    rw [discreet_iff] at hrest ⊢
    dsimp only at h hrest ⊢
    rwa [Log.loud_append, h, Bool.false_or]

theorem map (h : (act s).Discreet) (g : α → β) : ((act >>= fun a => pure (g a)) s).Discreet :=
  h.bind fun _ => discreet_iff.mpr rfl

end Step.Discreet

/-! ### Actions -/

/-- From states of `I` the action is discreet, and it leads to states of `I`. -/
def Action.Discreet (I : σ → Prop) (act : Action σ α) : Prop :=
  ∀ s, I s → (act s).Discreet ∧ I (act s).state

namespace Action

variable {I : σ → Prop} {act : Action σ α} {next : α → Action σ β}

theorem discreet_of_silent (h : ∀ s, I s → Log.loud (act s).log = false ∧ I (act s).state) :
    act.Discreet I :=
  fun s hs => ⟨fun _ => Log.loud_eq_false.mp (h s hs).1, (h s hs).2⟩

theorem discreet_pure (a : α) : (pure a : Action σ α).Discreet I :=
  discreet_of_silent fun _ hs => ⟨rfl, hs⟩

theorem discreet_fail (f : Failure) : (fail f : Action σ α).Discreet I :=
  discreet_of_silent fun _ hs => ⟨rfl, hs⟩

theorem discreet_state : (state : Action σ σ).Discreet I := discreet_of_silent fun _ hs => ⟨rfl, hs⟩

theorem discreet_ofExcept (e : Except Failure α) : (ofExcept e : Action σ α).Discreet I := by
  cases e with
  | ok a => exact discreet_pure a
  | error f => exact discreet_fail f

theorem discreet_note {line : Log.Line} (h : line.isError = false) :
    (note line : Action σ Unit).Discreet I :=
  discreet_of_silent fun _ hs => ⟨by simp [note, h], hs⟩

theorem discreet_change {f : σ → σ} (h : ∀ s, I s → I (f s)) : (change f).Discreet I :=
  discreet_of_silent fun s hs => ⟨rfl, h s hs⟩

theorem discreet_raise (f : Failure) : (raise f : Action σ α).Discreet I :=
  fun _ hs => ⟨Step.discreet_iff.mpr f.discreet_notice, hs⟩

theorem discreet_complain (line : String) {f : Failure} (h : f.isExpected = false) :
    (complain line f : Action σ α).Discreet I :=
  fun _ hs => ⟨Step.discreet_iff.mpr fun _ => h, hs⟩

theorem discreet_check (e : Except Failure α) : (check e : Action σ α).Discreet I := by
  cases e with
  | ok a => exact discreet_pure a
  | error f => exact discreet_raise f

theorem Discreet.bind (h : act.Discreet I) (hnext : ∀ a, (next a).Discreet I) :
    (act >>= next).Discreet I :=
  fun s hs => ⟨(h s hs).1.bind fun a => (hnext a _ (h s hs).2).1,
    Keeps.bind (fun s hs => (h s hs).2) (fun a s hs => (hnext a s hs).2) s hs⟩

theorem Discreet.mapFailure (h : act.Discreet I) {reword : Failure → Failure}
    (hkind : ∀ f, (reword f).kind = f.kind) : (act.mapFailure reword).Discreet I := by
  intro s hs
  obtain ⟨hdiscreet, hstate⟩ := h s hs
  rw [Step.discreet_iff] at hdiscreet
  unfold Action.mapFailure
  generalize act s = step at hdiscreet hstate ⊢
  obtain ⟨f | a, s', log⟩ := step
  · exact ⟨Step.discreet_iff.mpr (.congr (hkind f) hdiscreet), hstate⟩
  · exact ⟨Step.discreet_iff.mpr hdiscreet, hstate⟩

theorem Discreet.named (h : act.Discreet I) (action : String) (bucket key : Bytes) :
    (act.named action bucket key).Discreet I := h.mapFailure fun _ => rfl

theorem Discreet.namedBucket (h : act.Discreet I) (action : String) (bucket : Bytes) :
    (act.namedBucket action bucket).Discreet I := h.mapFailure fun _ => rfl

theorem Discreet.atomically (h : act.Discreet I) : act.atomically.Discreet I := by
  intro s hs
  obtain ⟨hdiscreet, hstate⟩ := h s hs
  rw [Step.discreet_iff] at hdiscreet
  unfold Action.atomically
  generalize act s = step at hdiscreet hstate ⊢
  obtain ⟨f | a, s', log⟩ := step
  · exact ⟨Step.discreet_iff.mpr hdiscreet, hs⟩
  · exact ⟨Step.discreet_iff.mpr hdiscreet, hstate⟩

theorem discreet_forM {l : List α} {f : α → Action σ Unit} (h : ∀ a, (f a).Discreet I) :
    (l.forM f).Discreet I := by
  induction l with
  | nil => exact discreet_pure ()
  | cons a rest ih => exact (h a).bind fun _ => ih

theorem discreet_foldlM {l : List α} {f : β → α → Action σ β} (h : ∀ b a, (f b a).Discreet I)
    (b : β) : (l.foldlM f b).Discreet I := by
  induction l generalizing b with
  | nil => exact discreet_pure b
  | cons a rest ih =>
    rw [List.foldlM_cons]
    exact (h b a).bind fun b' => ih b'

theorem discreet_mapM {l : List α} {f : α → Action σ β} (h : ∀ a, (f a).Discreet I) :
    (l.mapM f).Discreet I := by
  induction l with
  | nil => exact discreet_pure []
  | cons a rest ih =>
    rw [List.mapM_cons]
    exact (h a).bind fun b => ih.bind fun found => discreet_pure (b :: found)

/-- Evaluating a transaction is as discreet as loading the values. -/
theorem discreet_evaluate {load : Bytes → Bytes → Action σ (Option Bytes)}
    (h : ∀ b k, (load b k).Discreet I) (tx : Transaction) :
    (WriteSet.evaluate load tx).Discreet I := by
  have hload : ∀ (ws : WriteSet) (place : Bytes × Bytes),
      (do return ws.load place.1 place.2 (← load place.1 place.2) : Action σ WriteSet).Discreet I :=
    fun _ place => (h place.1 place.2).bind fun _ => discreet_pure _
  refine (discreet_foldlM hload {}).bind fun ws => ?_
  split
  · exact discreet_pure _
  · next f _ _ => exact discreet_raise f

/-- An update is as discreet as loading the values and publishing the changes. -/
theorem discreet_published {load : Bytes → Bytes → Action σ (Option Bytes)}
    {publish : List Change → Action σ Unit} (hload : ∀ b k, (load b k).Discreet I)
    (hpublish : ∀ changes, (publish changes).Discreet I) (tx : Transaction) :
    (do
      let (ws, outcome) ← WriteSet.evaluate load tx
      publish ws.changes
      return outcome : Action σ TxOutcome).Discreet I :=
  (discreet_evaluate hload tx).bind fun evaluated =>
    (hpublish evaluated.1.changes).bind fun _ => discreet_pure _

end Action

/-! ### Programs -/

namespace Program

variable {Call : Type} {Reply : Call → Type} {allows : (c : Call) → Reply c → Prop}
  {P : α → Prop} {P' : β → Prop} {E E' : Failure → Bool → Prop} {loud : Bool}

/-- Whatever allowed replies the calls get, the program answers with a value of `P` and has logged no
    error, or it fails as `E` says of the failure and of whether an error was logged. `loud` tells
    whether one was logged before. -/
def Reports (allows : (c : Call) → Reply c → Prop) (P : α → Prop) (E : Failure → Bool → Prop) :
    Program Call Reply α → Bool → Prop
  | .done a, loud => loud = false ∧ P a
  | .fail f, loud => E f loud
  | .note line p, loud => p.Reports allows P E (loud || line.isError)
  | .call c k, loud => ∀ r, allows c r → (k r).Reports allows P E loud

/-- The program is silent, and it does not fail for something that is there already. -/
abbrev Silent (allows : (c : Call) → Reply c → Prop) (p : Program Call Reply α) : Prop :=
  p.Reports allows (fun _ => True) Failure.Muted false

abbrev Guarded (allows : (c : Call) → Reply c → Prop) (p : Program Call Reply α) : Prop :=
  p.Reports allows (fun _ => True) Failure.Guarded false

abbrev Discreet (allows : (c : Call) → Reply c → Prop) (p : Program Call Reply α) : Prop :=
  p.Reports allows (fun _ => True) Failure.Discreet false

theorem reports_done {a : α} (h : P a) :
    (Program.done a : Program Call Reply α).Reports allows P E false := ⟨rfl, h⟩

theorem reports_pure {a : α} (h : P a) : (pure a : Program Call Reply α).Reports allows P E false :=
  reports_done h

theorem reports_fail {f : Failure} (h : E f false) :
    (Program.fail f : Program Call Reply α).Reports allows P E false := h

theorem reports_call {c : Call} {k : Reply c → Program Call Reply α}
    (h : ∀ r, allows c r → (k r).Reports allows P E loud) :
    (Program.call c k).Reports allows P E loud := h

theorem reports_log {line : Log.Line} (h : line.isError = false) :
    (Program.log line : Program Call Reply Unit).Reports allows (fun _ => True) E false := by
  change (false || line.isError) = false ∧ True
  simp [h]

theorem reports_ofExcept {e : Except Failure α} (hok : ∀ a, e = .ok a → P a)
    (herror : ∀ f, e = .error f → E f false) :
    (Program.ofExcept e : Program Call Reply α).Reports allows P E false := by
  cases e with
  | ok a => exact reports_done (hok a rfl)
  | error f => exact herror f rfl

theorem reports_notes {lines : List Log.Line} {p : Program Call Reply α}
    (h : p.Reports allows P E (loud || Log.loud lines)) :
    (lines.foldr Program.note p).Reports allows P E loud := by
  induction lines generalizing loud with
  | nil => rwa [Log.loud_nil, Bool.or_false] at h
  | cons line lines ih =>
    apply ih
    rwa [Bool.or_assoc]

theorem reports_raise {f : Failure} (h : E f (Log.loud f.notice)) :
    (Program.raise f : Program Call Reply α).Reports allows P E false :=
  reports_notes (by rwa [Bool.false_or])

theorem reports_check {e : Except Failure α} (hok : ∀ a, e = .ok a → P a)
    (herror : ∀ f, e = .error f → E f (Log.loud f.notice)) :
    (Program.check e : Program Call Reply α).Reports allows P E false := by
  cases e with
  | ok a => exact reports_done (hok a rfl)
  | error f => exact reports_raise (herror f rfl)

theorem Reports.bind {p : Program Call Reply α} {next : α → Program Call Reply β}
    (h : p.Reports allows P E loud) (hnext : ∀ a, P a → (next a).Reports allows P' E false) :
    (p >>= next).Reports allows P' E loud := by
  change (p.bind next).Reports allows P' E loud
  induction p generalizing loud with
  | done a =>
    obtain ⟨rfl, hP⟩ := h
    exact hnext a hP
  | fail f => exact h
  | note line p ih => exact ih h
  | call c k ih => exact fun r hr => ih r (h r hr)

/-- Of what is answered on the way nothing has to be known. -/
theorem Reports.seq {p : Program Call Reply α} {next : α → Program Call Reply β}
    (h : p.Reports allows (fun _ => True) E loud)
    (hnext : ∀ a, (next a).Reports allows P' E false) : (p >>= next).Reports allows P' E loud :=
  h.bind fun a _ => hnext a

theorem Reports.mono {P' : α → Prop} {p : Program Call Reply α} (h : p.Reports allows P E loud)
    (hP : ∀ a, P a → P' a) (hE : ∀ f loud, E f loud → E' f loud) : p.Reports allows P' E' loud := by
  induction p generalizing loud with
  | done a => exact ⟨h.1, hP a h.2⟩
  | fail f => exact hE f loud h
  | note line p ih => exact ih h
  | call c k ih => exact fun r hr => ih r (h r hr)

theorem Reports.discard {p : Program Call Reply α} (h : p.Reports allows P E loud) :
    (Functor.discard p : Program Call Reply Unit).Reports allows (fun _ => True) E loud :=
  h.bind fun _ _ => reports_done trivial

/-- Of a program that fails silently, the outcome may be looked at. -/
theorem Reports.attempt {p : Program Call Reply α} {F : Failure → Prop}
    (h : p.Reports allows P (fun f loud => loud = false ∧ F f) loud) :
    p.attempt.Reports allows (fun r => (∀ a, r = .ok a → P a) ∧ ∀ f, r = .error f → F f) E loud := by
  induction p generalizing loud with
  | done a =>
    refine ⟨h.1, ?_, nofun⟩
    rintro _ ⟨⟩
    exact h.2
  | fail f =>
    refine ⟨h.1, nofun, ?_⟩
    rintro _ ⟨⟩
    exact h.2
  | note line p ih => exact ih h
  | call c k ih => exact fun r hr => ih r (h r hr)

theorem Reports.mapFailure {p : Program Call Reply α} {reword : Failure → Failure}
    (h : p.Reports allows P (fun f => E (reword f)) loud) :
    (p.mapFailure reword).Reports allows P E loud := by
  induction p generalizing loud with
  | done a => exact h
  | fail f => exact h
  | note line p ih => exact ih h
  | call c k ih => exact fun r hr => ih r (h r hr)

theorem Reports.noteFailure {p : Program Call Reply α} {lines : Failure → List Log.Line}
    (h : p.Reports allows P (fun f loud => E f (loud || Log.loud (lines f))) loud) :
    (p.noteFailure lines).Reports allows P E loud := by
  induction p generalizing loud with
  | done a => exact h
  | fail f => exact reports_notes h
  | note line p ih => exact ih h
  | call c k ih => exact fun r hr => ih r (h r hr)

/-- An error for every failure but missing things keeps discreet what is guarded. -/
theorem Reports.noted {p : Program Call Reply α} (h : p.Reports allows P Failure.Guarded loud)
    (text : Failure → String) :
    (p.noteFailure (unlessMissing text)).Reports allows P Failure.Discreet loud :=
  (h.mono (fun _ => id) fun _ _ hf => hf.noted text).noteFailure

theorem Reports.reworded {p : Program Call Reply α} {reword : Failure → Failure}
    (h : p.Reports allows P Failure.Discreet loud) (hkind : ∀ f, (reword f).kind = f.kind) :
    (p.mapFailure reword).Reports allows P Failure.Discreet loud :=
  (h.mono (fun _ => id) fun f _ hf => hf.congr (hkind f)).mapFailure

theorem silent_pure (a : α) : (pure a : Program Call Reply α).Silent allows := reports_pure trivial

theorem silent_fail {f : Failure} (h : f.kind ≠ .alreadyExists) :
    (Program.fail f : Program Call Reply α).Silent allows := reports_fail ⟨rfl, h⟩

theorem silent_ofExcept {e : Except Failure α} (h : ∀ f, e = .error f → f.kind ≠ .alreadyExists) :
    (Program.ofExcept e : Program Call Reply α).Silent allows :=
  reports_ofExcept (fun _ _ => trivial) fun f hf => ⟨rfl, h f hf⟩

theorem Reports.guarded {p : Program Call Reply α} (h : p.Reports allows P Failure.Muted loud) :
    p.Reports allows P Failure.Guarded loud :=
  h.mono (fun _ => id) fun _ _ hf => hf.guarded

theorem Silent.discreet {p : Program Call Reply α} (h : p.Silent allows) : p.Discreet allows :=
  Reports.mono h (fun _ => id) fun _ _ hf => hf.guarded.1

/-- A check complains about names only. -/
theorem discreet_check {e : Except Failure α} :
    (Program.check e : Program Call Reply α).Discreet allows :=
  reports_check (fun _ _ => trivial) fun f _ => f.discreet_notice

theorem reports_forM {ι : Type} {l : List ι} {f : ι → Program Call Reply Unit}
    (h : ∀ i, (f i).Reports allows (fun _ => True) E false) :
    (l.forM f).Reports allows (fun _ => True) E false := by
  induction l with
  | nil => exact reports_pure trivial
  | cons i rest ih => exact (h i).bind fun _ _ => ih

theorem reports_foldlM {ι : Type} {l : List ι} {f : α → ι → Program Call Reply α}
    (h : ∀ a i, (f a i).Reports allows (fun _ => True) E false) (a : α) :
    (l.foldlM f a).Reports allows (fun _ => True) E false := by
  induction l generalizing a with
  | nil => exact reports_pure trivial
  | cons i rest ih =>
    rw [List.foldlM_cons]
    exact (h a i).bind fun a' _ => ih a'

/-- A listing complains about a store that goes in circles, and that is not expected. -/
theorem guarded_listAll {τ γ : Type} {fetch : γ → Option Token → Program Call Reply (Page τ × γ)}
    {decode : τ → Except Failure (Option Entry)}
    (hfetch : ∀ memory token, (fetch memory token).Guarded allows)
    (hdecode : ∀ item f, decode item = .error f → f.Guarded (Log.loud f.notice)) (limit : Nat)
    (memory : γ) :
    (listAll fetch decode limit memory : Program Call Reply (List Entry)).Guarded allows := by
  have hdrain : ∀ p : Paginator,
      (drain fetch decode limit memory p : Program Call Reply Paginator).Guarded allows := by
    induction limit generalizing memory with
    | zero => exact fun _ => reports_pure trivial
    | succ limit ih =>
      intro p
      unfold drain
      split
      · exact reports_pure trivial
      · next token p' _ =>
        refine (hfetch memory token).seq fun fetched => ?_
        obtain ⟨page, memory'⟩ := fetched
        dsimp only
        split
        · next f q hstep =>
          apply reports_raise
          rcases Answers.accumulate_eq_error (congrArg Prod.fst hstep) with rfl | rfl | ⟨item, -, hf⟩
          · exact Failure.Muted.guarded ⟨rfl, by decide⟩
          · exact ⟨fun _ => rfl, by decide⟩
          · exact hdecode item f hf
        · exact ih memory' _
  refine (hdrain {}).bind fun p _ => ?_
  split
  · exact reports_pure trivial
  · next f hfinish =>
    apply reports_raise
    unfold Paginator.finish at hfinish
    split at hfinish <;> cases hfinish
    exact Failure.Muted.guarded ⟨rfl, by decide⟩

/-- A run whose calls are replied to as is allowed, without an error, ends as is reported. -/
theorem Reports.run {p : Program Call Reply α} (h : p.Reports allows P E loud)
    (respond : Responder Call Reply σ) {s : σ} (hcalls : ∀ e ∈ p.calls respond s,
      allows e.1 (respond e.1 e.2).reply ∧ Log.loud (respond e.1 e.2).log = false) :
    match (p.run respond s).reply with
    | .ok a => (loud || Log.loud (p.run respond s).log) = false ∧ P a
    | .error f => E f (loud || Log.loud (p.run respond s).log) := by
  induction p generalizing loud s with
  | done a =>
    simp only [Program.run, Log.loud_nil, Bool.or_false]
    exact h
  | fail f =>
    simp only [Program.run, Log.loud_nil, Bool.or_false]
    exact h
  | note line p ih =>
    simp only [Program.run, Log.loud_cons, ← Bool.or_assoc]
    exact ih h hcalls
  | call c k ih =>
    obtain ⟨hfirst, hrest⟩ := List.forall_mem_cons.mp hcalls
    simp only [Program.run, Log.loud_append, hfirst.2, Bool.false_or]
    exact ih _ (h _ hfirst.1) hrest

/-- What reports discreetly runs discreetly. -/
theorem Discreet.run {p : Program Call Reply α} (h : p.Discreet allows)
    (respond : Responder Call Reply σ) {s : σ} (hcalls : ∀ e ∈ p.calls respond s,
      allows e.1 (respond e.1 e.2).reply ∧ Log.loud (respond e.1 e.2).log = false) :
    (p.run respond s).Discreet := by
  have hrun := Reports.run h respond hcalls
  rw [Step.discreet_iff]
  cases hreply : (p.run respond s).reply with
  | ok a =>
    rw [hreply] at hrun
    simpa using hrun.1
  | error f =>
    rw [hreply] at hrun
    simpa using hrun

end Program

end BucketStore
