/-
  BucketStore/Proofs/Staging/ReadsOnly.lean
  =========================================
  **The protocols that only read.**

  `ReadsOnly p` says that the protocol makes loads, scans and clock readings only,
  whatever is replied to it.  Reading a key and listing a bucket are of this kind;
  so no lock is cleared and no record is touched by a reader.

  What such calls keep is kept by the whole protocol (`ReadsOnly.ensures`), for
  any contract that does not forbid them.
-/
import BucketStore.Proofs.Staging.Replies
import BucketStore.Staging.Engine

namespace BucketStore.Staging

/-- Does the call leave the store as it is, whatever the reply? -/
def Call.reads : Call → Bool
  | .load _ _ | .scan _ _ _ | .now => true
  | .write _ _ _ _ | .freshId => false

/-- Calls may only read; nothing is known of the replies. -/
def reading : Contract Call Call.Reply Unit where
  needs c _ := c.reads = true
  allows _ _ _ _ := True

/-- The protocol makes no call but reading ones. -/
def ReadsOnly {α : Type} (p : Protocol α) : Prop := p.Ensures reading () fun _ _ => True

variable {σ α β γ τ : Type}

theorem ReadsOnly.ensures {K : Contract Call Call.Reply σ} {P : σ → Prop} {p : Protocol α}
    (h : ReadsOnly p) (hneeds : ∀ c s, c.reads = true → K.needs c s)
    (hkeeps : ∀ c s r s', c.reads = true → P s → K.allows c s r s' → P s') {s : σ} (hs : P s) :
    p.Ensures K s fun _ s' => P s' := by
  refine (Program.Ensures.transfer (fun s _ => P s) ?_ h hs).mono fun _ _ ⟨_, _, hP⟩ => hP
  intro c s _ hs hreads
  exact ⟨hneeds c s hreads, fun r s' hr => ⟨(), trivial, hkeeps c s r s' hreads hs hr⟩⟩

/-- A reading call leaves what is stored, and an open store open. -/
theorem stored_of_reads {around : Surroundings} {t : Trouble} {c : Call} {s s' : MemoryItems}
    {r : Call.Reply c} (hreads : c.reads = true) (h : (storing around t).allows c s r s') :
    s'.raw = s.raw ∧ s'.closed = s.closed := by
  cases c with
  | load _ _ => exact h.2 ▸ ⟨rfl, rfl⟩
  | scan _ _ _ => exact h.2 ▸ ⟨rfl, rfl⟩
  | now => exact h.2 ▸ ⟨rfl, rfl⟩
  | write _ _ _ _ => cases hreads
  | freshId => cases hreads

theorem ReadsOnly.stored {around : Surroundings} {t : Trouble} {s : MemoryItems} {p : Protocol α}
    (h : ReadsOnly p) :
    p.Ensures (storing around t) s fun _ s' => s'.raw = s.raw ∧ s'.closed = s.closed := by
  refine h.ensures (fun _ _ _ => trivial) ?_ ⟨rfl, rfl⟩
  intro c s₁ r s₂ hreads hs₁ hallowed
  obtain ⟨hraw, hclosed⟩ := stored_of_reads hreads hallowed
  exact ⟨hraw.trans hs₁.1, hclosed.trans hs₁.2⟩

/-! ### Rules -/

theorem readsOnly_done {a : α} : ReadsOnly (.done a) := trivial

theorem readsOnly_pure {a : α} : ReadsOnly (pure a) := trivial

theorem readsOnly_fail {f : Failure} : ReadsOnly (.fail f : Protocol α) := trivial

theorem readsOnly_log {line : Log.Line} : ReadsOnly (Program.log line) := trivial

theorem readsOnly_throw {f : Failure} : ReadsOnly (throw f : Protocol α) :=
  (Program.ensures_throw (Q := fun _ _ => True)).mpr trivial

theorem ReadsOnly.bind {p : Protocol α} {next : α → Protocol β} (h : ReadsOnly p)
    (hnext : ∀ a, ReadsOnly (next a)) : ReadsOnly (p >>= next) :=
  Program.Ensures.bind h (fun a _ _ => hnext a) fun _ _ _ => trivial

theorem readsOnly_check {e : Except Failure α} : ReadsOnly (.check e) :=
  Program.ensures_check.mpr trivial

theorem readsOnly_ofExcept {e : Except Failure α} : ReadsOnly (.ofExcept e) :=
  Program.ensures_ofExcept.mpr trivial

theorem ReadsOnly.mapFailure {p : Protocol α} (h : ReadsOnly p) (reword : Failure → Failure) :
    ReadsOnly (p.mapFailure reword) := Program.ensures_mapFailure.mpr h

theorem ReadsOnly.noteFailure {p : Protocol α} (h : ReadsOnly p)
    (lines : Failure → List Log.Line) : ReadsOnly (p.noteFailure lines) :=
  Program.ensures_noteFailure.mpr h

theorem readsOnly_load (bucket key : Bytes) : ReadsOnly (.load bucket key) :=
  ⟨rfl, fun _ _ _ => readsOnly_ofExcept⟩

theorem readsOnly_scan (bucket : Bytes) (token : Option Token) (limit : UInt64) :
    ReadsOnly (.scan bucket token limit) :=
  ⟨rfl, fun _ _ _ => readsOnly_ofExcept⟩

/-- A listing reads only if fetching a page does. -/
theorem readsOnly_listAll {fetch : γ → Option Token → Protocol (Page τ × γ)}
    (hfetch : ∀ memory token, ReadsOnly (fetch memory token))
    (decode : τ → Except Failure (Option Entry)) (limit : Nat) (memory : γ) :
    ReadsOnly (listAll fetch decode limit memory) := by
  have hdrain : ∀ p : Paginator, ReadsOnly (drain fetch decode limit memory p) := by
    induction limit generalizing memory with
    | zero => exact fun p => readsOnly_pure
    | succ limit ih =>
      intro p
      unfold drain
      split
      · exact readsOnly_pure
      · next token p _ =>
        refine (hfetch memory token).bind fun fetched => ?_
        obtain ⟨page, memory⟩ := fetched
        dsimp only
        split
        · exact readsOnly_throw
        · exact ih memory _
  refine (hdrain {}).bind fun p => ?_
  split
  · exact readsOnly_pure
  · exact readsOnly_throw

/-! ### Reading locks -/

theorem readsOnly_loadRecord (bucket : Bytes) (id : String) : ReadsOnly (loadRecord bucket id) := by
  refine ⟨rfl, fun r _ _ => ?_⟩
  dsimp only
  split
  · split
    · exact readsOnly_done
    · exact readsOnly_fail
  · exact readsOnly_done
  · split
    · exact readsOnly_done
    · exact readsOnly_fail

theorem readsOnly_recordState (lock : Lock) : ReadsOnly (recordState lock) :=
  (readsOnly_loadRecord _ _).bind fun _ => readsOnly_pure

theorem readsOnly_visible (item : Item) : ReadsOnly (visible item) := by
  unfold visible
  split
  · exact readsOnly_done
  · exact (readsOnly_recordState _).bind fun _ => readsOnly_pure

theorem readsOnly_isAborted {staged : Staged} : ReadsOnly (isAborted staged) := by
  refine ReadsOnly.bind (Program.ensures_attempt.mpr (readsOnly_loadRecord _ _)) fun r => ?_
  split <;> exact readsOnly_pure

theorem readsOnly_isCommitted {staged : Staged} : ReadsOnly (isCommitted staged) := by
  refine ReadsOnly.bind (Program.ensures_attempt.mpr (readsOnly_loadRecord _ _)) fun r => ?_
  split
  · exact readsOnly_pure
  · exact readsOnly_pure
  · exact readsOnly_log.bind fun _ => readsOnly_pure

/-! ### Reading keys and buckets -/

theorem readsOnly_readKey (bucket key : Bytes) : ReadsOnly (readKey bucket key) := by
  refine (readsOnly_load bucket key).bind fun found => ?_
  cases found with
  | none => exact readsOnly_fail
  | some item =>
    refine (readsOnly_visible item).bind fun value => ?_
    cases value with
    | none => exact readsOnly_fail
    | some value => exact readsOnly_pure

theorem readsOnly_visibleItems (seen : SeenStates) (items : List (Bytes × Item)) :
    ReadsOnly (visibleItems seen items) := by
  induction items generalizing seen with
  | nil => exact readsOnly_done
  | cons e rest ih =>
    obtain ⟨key, item⟩ := e
    unfold visibleItems
    split
    · exact ih seen
    · split
      · exact (ih seen).bind fun _ => readsOnly_pure
      · next lock _ =>
        have hstate : ReadsOnly (seenState seen lock) := by
          unfold seenState
          split
          · exact readsOnly_done
          · exact (readsOnly_recordState lock).bind fun _ => readsOnly_pure
        exact hstate.bind fun s => (ih s.2).bind fun _ => readsOnly_pure

theorem readsOnly_listBucket (config : Config) (limit : Nat) (bucket : Bytes) :
    ReadsOnly (listBucket config limit bucket) := by
  refine readsOnly_listAll (fun seen token => ?_) _ _ _
  exact (readsOnly_scan _ _ _).bind fun page =>
    (readsOnly_visibleItems seen page.items).bind fun _ => readsOnly_pure

/-! ### The reading calls of the engine -/

theorem readsOnly_checkName (bucket key : Bytes) : ReadsOnly (Engine.checkName bucket key) :=
  readsOnly_check.bind fun _ => readsOnly_check

theorem readsOnly_get (bucket key : Bytes) : ReadsOnly (Engine.get bucket key) :=
  (readsOnly_checkName bucket key).bind fun _ =>
    ((readsOnly_readKey bucket key).noteFailure _).mapFailure _

theorem readsOnly_list (config : Config) (limit : Nat) (bucket : Bytes) :
    ReadsOnly (Engine.list config limit bucket) :=
  readsOnly_check.bind fun _ => ((readsOnly_listBucket config limit bucket).noteFailure _).mapFailure _

end BucketStore.Staging
