/-
  BucketStore/Proofs/Alike.lean
  =============================
  **Two actions side by side, on stores of different kinds.**

  Two steps match (`Step.Matches`) if both answer, and the answers are related, or
  both fail, and the failures are, and if the states left are related.  There is a
  rule for every way of putting actions together, so that two drivers are compared
  call by call as their code is written.
-/
import BucketStore.Proofs.ActionLogic
import BucketStore.Proofs.Transaction.WriteSet

namespace BucketStore

variable {σ τ α β γ δ : Type} {E E' : Failure → Failure → Prop} {R : α → β → Prop}
  {S : σ → τ → Prop}

/-! ### Replies -/

/-- Both replies are answers, or both are failures, and they are related. -/
inductive Alike (E : Failure → Failure → Prop) (R : α → β → Prop) :
    Except Failure α → Except Failure β → Prop
  | answers {a : α} {b : β} : R a b → Alike E R (.ok a) (.ok b)
  | fails {f g : Failure} : E f g → Alike E R (.error f) (.error g)

/-- The failures are of one kind. -/
def SameKind (f g : Failure) : Prop := f.kind = g.kind

instance (f g : Failure) : Decidable (SameKind f g) := inferInstanceAs (Decidable (_ = _))

namespace Alike

theorem mono {R' : α → β → Prop} {r : Except Failure α} {r' : Except Failure β} (h : Alike E R r r')
    (hE : ∀ f g, E f g → E' f g) (hR : ∀ a b, R a b → R' a b) : Alike E' R' r r' := by
  cases h with
  | answers hab => exact .answers (hR _ _ hab)
  | fails hfg => exact .fails (hE _ _ hfg)

theorem refl (r : Except Failure α) : Alike Eq Eq r r := by
  cases r with
  | ok a => exact .answers rfl
  | error f => exact .fails rfl

theorem eq {r r' : Except Failure α} (h : Alike Eq Eq r r') : r = r' := by
  cases h with
  | answers hab => exact congrArg Except.ok hab
  | fails hfg => exact congrArg Except.error hfg

theorem answered_right {a : α} {r' : Except Failure β} (h : Alike E R (.ok a) r') :
    ∃ b, r' = .ok b ∧ R a b := by
  cases h with
  | answers hab => exact ⟨_, rfl, hab⟩

theorem answered_left {r : Except Failure α} {b : β} (h : Alike E R r (.ok b)) :
    ∃ a, r = .ok a ∧ R a b := by
  cases h with
  | answers hab => exact ⟨_, rfl, hab⟩

theorem failed_right {f : Failure} {r' : Except Failure β} (h : Alike E R (.error f) r') :
    ∃ g, r' = .error g ∧ E f g := by
  cases h with
  | fails hfg => exact ⟨_, rfl, hfg⟩

theorem and_right {P : β → Prop} {r : Except Failure α} {r' : Except Failure β} (h : Alike E R r r')
    (hP : ∀ b, r' = .ok b → P b) : Alike E (fun a b => R a b ∧ P b) r r' := by
  cases h with
  | answers hab => exact .answers ⟨hab, hP _ rfl⟩
  | fails hfg => exact .fails hfg

/-- Failures may be reworded on the right, within their kind. -/
theorem trans {r : Except Failure α} {r' r'' : Except Failure β} (h : Alike SameKind R r r')
    (h' : Alike SameKind Eq r' r'') : Alike SameKind R r r'' := by
  cases h with
  | answers hab =>
    cases h' with
    | answers heq => exact .answers (heq ▸ hab)
  | fails hfg =>
    cases h' with
    | fails hgg => exact .fails (Eq.trans hfg hgg)

theorem map {R' : γ → δ → Prop} {r : Except Failure α} {r' : Except Failure β} (h : Alike E R r r')
    {g : α → γ} {g' : β → δ} (hg : ∀ a b, R a b → R' (g a) (g' b)) :
    Alike E R' (r.map g) (r'.map g') := by
  cases h with
  | answers hab => exact .answers (hg _ _ hab)
  | fails hfg => exact .fails hfg

theorem bind {R' : γ → δ → Prop} {r : Except Failure α} {r' : Except Failure β} (h : Alike E R r r')
    {next : α → Except Failure γ} {next' : β → Except Failure δ}
    (hnext : ∀ a b, R a b → Alike E R' (next a) (next' b)) :
    Alike E R' (r.bind next) (r'.bind next') := by
  cases h with
  | answers hab => exact hnext _ _ hab
  | fails hfg => exact .fails hfg

theorem mapError_left {reword : Failure → Failure} {r : Except Failure α} {r' : Except Failure β}
    (h : Alike E R r r') (hreword : ∀ f g, E f g → E' (reword f) g) :
    Alike E' R (r.mapError reword) r' := by
  cases h with
  | answers hab => exact .answers hab
  | fails hfg => exact .fails (hreword _ _ hfg)

theorem mapError_right {reword : Failure → Failure} {r : Except Failure α} {r' : Except Failure β}
    (h : Alike E R r r') (hreword : ∀ f g, E f g → E' f (reword g)) :
    Alike E' R r (r'.mapError reword) := by
  cases h with
  | answers hab => exact .answers hab
  | fails hfg => exact .fails (hreword _ _ hfg)

end Alike

/-! ### Steps -/

/-- The replies are alike, and the states are related. -/
structure Step.Matches (E : Failure → Failure → Prop) (R : α → β → Prop) (S : σ → τ → Prop)
    (x : Step σ (Except Failure α)) (y : Step τ (Except Failure β)) : Prop where
  reply : Alike E R x.reply y.reply
  state : S x.state y.state

namespace Step.Matches

variable {act : Action σ α} {act' : Action τ β} {s : σ} {t : τ}

/-! ### Ends -/

theorem answer {a : α} {b : β} (hR : R a b) (hS : S s t) :
    Matches E R S ((pure a : Action σ α) s) ((pure b : Action τ β) t) := ⟨.answers hR, hS⟩

theorem failure {f g : Failure} (hE : E f g) (hS : S s t) :
    Matches E R S (Action.fail f s) (Action.fail g t) := ⟨.fails hE, hS⟩

theorem change {f : σ → σ} {g : τ → τ} (hS : S (f s) (g t)) :
    Matches E Eq S (Action.change f s) (Action.change g t) := ⟨.answers rfl, hS⟩

/-! ### Sequences -/

theorem bind {R' : γ → δ → Prop} {next : α → Action σ γ} {next' : β → Action τ δ}
    (h : Matches E R S (act s) (act' t))
    (hnext : ∀ a b, R a b → (act s).reply = .ok a → (act' t).reply = .ok b →
      Matches E R' S (next a (act s).state) (next' b (act' t).state)) :
    Matches E R' S ((act >>= next) s) ((act' >>= next') t) := by
  obtain ⟨hreply, hstate⟩ := h
  rw [Action.bind_run, Action.bind_run]
  rcases hx : act s with ⟨r, s', log⟩
  rcases hy : act' t with ⟨r', t', log'⟩
  rw [hx, hy] at hreply hstate hnext
  cases hreply with
  | answers hab =>
    obtain ⟨hreply', hstate'⟩ := hnext _ _ hab rfl rfl
    exact ⟨hreply', hstate'⟩
  | fails hfg => exact ⟨.fails hfg, hstate⟩

theorem map {R' : γ → δ → Prop} {g : α → γ} {g' : β → δ} (h : Matches E R S (act s) (act' t))
    (hg : ∀ a b, R a b → R' (g a) (g' b)) :
    Matches E R' S ((act >>= fun a => pure (g a)) s) ((act' >>= fun b => pure (g' b)) t) := by
  constructor
  · rw [Action.reply_map, Action.reply_map]
    exact h.reply.map hg
  · rw [Action.state_map, Action.state_map]
    exact h.state

/-- What passes or fails a check on both sides. -/
theorem check {R' : γ → δ → Prop} {e : Except Failure α} {next : α → Action σ γ}
    {next' : α → Action τ δ} (hE : ∀ f, E f f) (hS : S s t)
    (hnext : ∀ a, e = .ok a → Matches E R' S (next a s) (next' a t)) :
    Matches E R' S ((Action.check e >>= next) s) ((Action.check e >>= next') t) := by
  cases e with
  | error f => exact ⟨.fails (hE f), hS⟩
  | ok a => exact ⟨(hnext a rfl).reply, (hnext a rfl).state⟩

theorem note {act : Action σ Unit} {act' : Action τ Unit} {line line' : Log.Line}
    (h : Matches E Eq S (act s) (act' t)) :
    Matches E Eq S ((act >>= fun _ => Action.note line) s)
      ((act' >>= fun _ => Action.note line') t) := by
  constructor
  · rw [Action.reply_note, Action.reply_note]
    exact h.reply
  · rw [Action.state_note, Action.state_note]
    exact h.state

/-! ### Failures -/

theorem mapFailure_left {reword : Failure → Failure} (h : Matches E R S (act s) (act' t))
    (hreword : ∀ f g, E f g → E' (reword f) g) :
    Matches E' R S (act.mapFailure reword s) (act' t) := by
  constructor
  · rw [Action.reply_mapFailure]
    exact h.reply.mapError_left hreword
  · rw [Action.state_mapFailure]
    exact h.state

theorem mapFailure_right {reword : Failure → Failure} (h : Matches E R S (act s) (act' t))
    (hreword : ∀ f g, E f g → E' f (reword g)) :
    Matches E' R S (act s) (act'.mapFailure reword t) := by
  constructor
  · rw [Action.reply_mapFailure]
    exact h.reply.mapError_right hreword
  · rw [Action.state_mapFailure]
    exact h.state

/-- What is undone if it fails matches what leaves such a state then. -/
theorem atomically (h : Matches E R S (act s) (act' t))
    (hback : ∀ g, (act' t).reply = .error g → S s (act' t).state) :
    Matches E R S (act.atomically s) (act' t) := by
  obtain ⟨hreply, hstate⟩ := h
  unfold Action.atomically
  rcases hx : act s with ⟨r, s', log⟩
  rcases hy : act' t with ⟨r', t', log'⟩
  rw [hx, hy] at hreply hstate
  rw [hy] at hback
  cases hreply with
  | answers hab => exact ⟨.answers hab, hstate⟩
  | fails hfg => exact ⟨.fails hfg, hback _ rfl⟩

theorem mono {R' : α → β → Prop} {x : Step σ (Except Failure α)} {y : Step τ (Except Failure β)}
    (h : Matches E R S x y) (hE : ∀ f g, E f g → E' f g) (hR : ∀ a b, R a b → R' a b) :
    Matches E' R' S x y := ⟨h.reply.mono hE hR, h.state⟩

/-- Equal failures are of one kind. -/
theorem sameKind {x : Step σ (Except Failure α)} {y : Step τ (Except Failure β)}
    (h : Matches Eq R S x y) : Matches SameKind R S x y :=
  h.mono (fun _ _ hfg => congrArg Failure.kind hfg) fun _ _ hab => hab

theorem trans {x : Step σ (Except Failure α)} {y y' : Step τ (Except Failure β)}
    (h : Matches SameKind R S x y) (h' : Matches SameKind Eq Eq y y') : Matches SameKind R S x y' :=
  ⟨h.reply.trans h'.reply, h'.state ▸ h.state⟩

/-! ### Evaluations -/

section

variable {load : Bytes → Bytes → Action σ (Option Bytes)}
  {load' : Bytes → Bytes → Action τ (Option Bytes)}

/-- Loaders that match at every place load the same copies. -/
theorem loading {places : List (Bytes × Bytes)} (hload : ∀ s t, S s t → ∀ place ∈ places,
      Matches E Eq S (load place.1 place.2 s) (load' place.1 place.2 t)) (hS : S s t) (ws : WriteSet) :
    Matches E Eq S (WriteSet.loading load places ws s) (WriteSet.loading load' places ws t) := by
  unfold WriteSet.loading
  induction places generalizing s t ws with
  | nil => exact answer rfl hS
  | cons place rest ih =>
    rw [List.foldlM_cons, List.foldlM_cons]
    apply Matches.bind (R := Eq)
    · apply (hload s t hS place (List.mem_cons_self ..)).map
      rintro value _ rfl
      rfl
    · rintro ws' _ rfl _ _
      apply ih fun s t hS place hplace => hload s t hS place (List.mem_cons_of_mem _ hplace)
      rw [Action.state_map, Action.state_map]
      exact (hload s t hS place (List.mem_cons_self ..)).state

/-- Evaluations with loaders that match do so. -/
theorem evaluate {tx : Transaction} (hE : ∀ f, E f f) (hload : ∀ s t, S s t → ∀ place ∈ tx.touched,
      Matches E Eq S (load place.1 place.2 s) (load' place.1 place.2 t)) (hS : S s t) :
    Matches E Eq S (WriteSet.evaluate load tx s) (WriteSet.evaluate load' tx t) := by
  have hloaded := loading hload hS {}
  obtain ⟨hstate, hreply⟩ := WriteSet.evaluate_run load tx s
  obtain ⟨hstate', hreply'⟩ := WriteSet.evaluate_run load' tx t
  constructor
  · rw [hreply, hreply']
    apply hloaded.reply.bind
    rintro ws _ rfl
    exact (Alike.refl _).mono (fun f g hfg => hfg ▸ hE f) fun _ _ h => h
  · rw [hstate, hstate']
    exact hloaded.state

end

end Step.Matches

/-! ### Drivers -/

/-- A call on two drivers matches if the actions do that the drivers have for it. -/
theorem Driver.perform_matches {d : Driver σ} {d' : Driver τ} {s : σ} {t : τ} {r : Request}
    (h : match r with
      | .create b => Step.Matches E Eq S (d.create b s) (d'.create b t)
      | .drop b => Step.Matches E Eq S (d.drop b s) (d'.drop b t)
      | .get b k => Step.Matches E Eq S (d.get b k s) (d'.get b k t)
      | .set b k v => Step.Matches E Eq S (d.set b k v s) (d'.set b k v t)
      | .delete b k => Step.Matches E Eq S (d.delete b k s) (d'.delete b k t)
      | .list b => Step.Matches E Eq S (d.list b s) (d'.list b t)
      | .update tx => Step.Matches E Eq S (d.update tx s) (d'.update tx t)
      | .compareAndSwap b k old new =>
        Step.Matches E Eq S (d.compareAndSwap b k old new s) (d'.compareAndSwap b k old new t)
      | .close => Step.Matches E Eq S (d.close s) (d'.close t)) :
    Step.Matches E Eq S (d.perform r s) (d'.perform r t) := by
  cases r with
  | create b => exact h.map fun _ _ _ => rfl
  | drop b => exact h.map fun _ _ _ => rfl
  | get b k => exact h.map fun _ _ heq => congrArg Response.value heq
  | set b k v => exact h.map fun _ _ _ => rfl
  | delete b k => exact h.map fun _ _ _ => rfl
  | list b => exact h.map fun _ _ heq => congrArg Response.entries heq
  | update tx => exact h.map fun _ _ heq => congrArg Response.outcome heq
  | compareAndSwap b k old new => exact h.map fun _ _ heq => congrArg Response.swap heq
  | close => exact h.map fun _ _ _ => rfl

end BucketStore
