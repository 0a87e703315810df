/-
  BucketStore/Proofs/Staging/Committing.lean
  ==========================================
  **The second half of an update: one write decides, the rest is cleaning up.**

  The flip of the record is the only write that readers notice (`ensures_commit`).
  What follows drops the locks one by one and deletes the record once none is left
  (`ensures_clear`), whether the values before or the values after are put in
  their place.

  `Ended` says how an update may end, and `ensures_updateKeys_ended` that every
  run of an update ends so, from any store that is well-formed and whatever goes
  wrong on the way.
-/
import BucketStore.Proofs.Staging.Lifecycle
import BucketStore.Proofs.Staging.Preparing

namespace BucketStore.Staging

open MemoryItems

variable {around : Surroundings} {t : Trouble} {known : String → Prop} {staged : Staged}
  {c c' : Contents} {state : Option TxState} {held held' : Places Pending} {s s' : MemoryItems}

/-! ### The decision -/

theorem ensures_loadOwn (h : Laid staged c state held s) (hr : staged.record.Addressable)
    {Q : Except Failure (Option (Record × Bytes)) → MemoryItems → Prop}
    (hsome : ∀ now, state = some now → Q (.ok (some (staged.decided now, (staged.decided now).encode))) s)
    (hnone : state = none → Q (.ok none) s) :
    (loadRecord staged.recordBucket staged.record.id).Ensures (storing around t) s Q := by
  have hrecord : s.raw staged.recordBucket (recordKey staged.record.id) =
      state.map fun now => (staged.decided now).item := h.layers.item_record
  refine ensures_loadRecord h.opened ?_ ?_ ?_
  · intro item hitem
    rw [hrecord] at hitem
    obtain ⟨now, _, rfl⟩ := Option.map_eq_some_iff.mp hitem
    exact ⟨staged.decided now, hr.withState now, rfl, rfl⟩
  · intro r hr' _ hitem
    rw [hrecord] at hitem
    obtain ⟨now, rfl, heq⟩ := Option.map_eq_some_iff.mp hitem
    have hencode : (staged.decided now).encode = r.encode := by
      simpa [Record.item, Item.plain] using heq
    rw [← Record.encode_injective (hr.withState now) hr' hencode]
    exact hsome now rfl
  · intro hitem
    rw [hrecord] at hitem
    exact hnone (Option.map_eq_none_iff.mp hitem)

theorem ensures_flip (hpending : staged.record.state = .pending) {next : TxState}
    (h : Laid staged c (some .pending) held s)
    {Q : Except Failure (Except Failure Bool) → MemoryItems → Prop}
    (hdone : ∀ s', Laid staged c (some next) held s' → Q (.ok (.ok true)) s')
    (hfailed : t.Possible → ∀ f s', Laid staged c (some .pending) held s' → Q (.ok (.error f)) s')
    (hlost : t.lostReplies → ∀ f s', Laid staged c (some next) held s' → Q (.ok (.error f)) s') :
    (staged.flip (staged.decided next)).Ensures (storing around t) s Q := by
  have hflip : (Protocol.tryWrite _ _ _ _).Ensures (storing around t) s Q :=
    ensures_putRecord (some next) h hdone hfailed hlost
  have hrecord : staged.decided .pending = staged.record := by
    unfold Staged.decided
    rw [← hpending]
  rw [hrecord] at hflip
  exact hflip

/-- Committing tells the truth: it succeeds exactly if the record is committed afterwards. -/
theorem ensures_commit (hproper : staged.record.Proper known)
    (hpending : staged.record.state = .pending) (h : Laid staged c (some .pending) held s) :
    (commit staged).Ensures (storing around t) s fun r s' =>
      (r = .ok (.ok ()) ∧ Laid staged c (some .committed) held s') ∨
        (t.Possible ∧ ∃ f, r = .ok (.error f) ∧ Laid staged c (some .pending) held s') := by
  -- The record is asked whenever the flip did not plainly succeed.
  have hask : ∀ {now : TxState} {s' : MemoryItems}, Laid staged c (some now) held s' →
      (isCommitted staged).Ensures (storing around t) s' fun r s'' =>
        r = .ok (now == .committed) ∧ s'' = s' := by
    intro now s' hlaid
    refine Program.ensures_bind.mpr (Program.ensures_attempt.mpr (ensures_loadOwn hlaid hproper.addressable ?_ ?_))
    · rintro _ ⟨⟩
      exact ⟨rfl, rfl⟩
    · intro hnone
      cases hnone
  refine Program.ensures_bind.mpr (ensures_transition (by rw [hpending]; rfl) ?_)
  refine Program.ensures_bind.mpr (ensures_flip hpending h ?_ ?_ ?_)
  · intro s' hlaid
    exact .inl ⟨rfl, hlaid⟩
  · intro ht f s' hlaid
    refine Program.ensures_bind.mpr ((hask hlaid).mono ?_)
    rintro _ _ ⟨rfl, rfl⟩
    exact .inr ⟨ht, f, rfl, hlaid⟩
  · intro ht f s' hlaid
    refine Program.ensures_bind.mpr ((hask hlaid).mono ?_)
    rintro _ _ ⟨rfl, rfl⟩
    exact .inl ⟨rfl, hlaid⟩

/-! ### Cleaning up -/

/-- Some of the locks are dropped, with the values `x` in their place. -/
def Cleared (x : Places Bytes) (c c' : Contents) (held held' : Places Pending) : Prop :=
  ∀ b k, (c' b k = c b k ∧ held' b k = held b k) ∨
    (held b k ≠ none ∧ c' b k = (x b k).map .plain ∧ held' b k = none)

theorem Cleared.refl (x : Places Bytes) (c : Contents) (held : Places Pending) :
    Cleared x c c held held := fun _ _ => .inl ⟨rfl, rfl⟩

theorem Cleared.trans {x : Places Bytes} {c'' : Contents} {held'' : Places Pending}
    (h : Cleared x c c' held held') (h' : Cleared x c' c'' held' held'') :
    Cleared x c c'' held held'' := by
  intro b k
  rcases h' b k with ⟨hc', hheld'⟩ | ⟨hne', hc', hheld'⟩
  · rw [hc', hheld']
    exact h b k
  · rcases h b k with ⟨_, hheld⟩ | ⟨_, _, hheld⟩
    · exact .inr ⟨hheld ▸ hne', hc', hheld'⟩
    · exact absurd hheld hne'

theorem Cleared.put {x : Places Bytes} {b k : Bytes} (h : held b k ≠ none) :
    Cleared x c (c.put b k ((x b k).map .plain)) held (held.put b k none) := by
  intro b' k'
  by_cases heq : b' = b ∧ k' = k
  · obtain ⟨rfl, rfl⟩ := heq
    exact .inr ⟨h, Places.put_same, Places.put_same⟩
  · exact .inl ⟨Places.put_other heq, Places.put_other heq⟩

theorem Cleared.none_of_none {x : Places Bytes} {b k : Bytes} (h : Cleared x c c' held held')
    (hnone : held b k = none) : held' b k = none := by
  rcases h b k with ⟨_, heq⟩ | ⟨_, _, heq⟩
  · rw [heq, hnone]
  · exact heq

/-- Dropping locks does not change what readers see once the locks have taken effect, if they leave
    the values that they were going to make. -/
theorem Cleared.committing {v : Places Bytes} {b k : Bytes} (h : Cleared v c c' held held')
    (hfree : ∀ b id, held b (recordKey id) = none)
    (hcommitting : committing held c.visible b k = v b k) :
    committing held' c'.visible b k = v b k := by
  have hcommitted : c'.committed = c.committed := by
    funext lock
    refine Contents.committed_congr ?_
    rcases h lock.recordBucket (recordKey lock.owner) with ⟨heq, _⟩ | ⟨hne, _⟩
    · exact heq
    · exact absurd (hfree _ _) hne
  rw [← hcommitting]
  unfold Staging.committing
  rcases h b k with ⟨heq, hheld⟩ | ⟨_, heq, hheld⟩
  · rw [hheld]
    unfold Contents.visible
    rw [hcommitted, heq]
  · rw [hheld]
    change c'.visible b k = Staging.committing held c.visible b k
    rw [hcommitting, (heq ▸ bare_map (v b k) : Bare (c' b k)).visible, heq]
    cases v b k <;> rfl

/-- How dropping locks may end: all of them are dropped if none of the writes failed. -/
inductive LocksCleared (t : Trouble) (staged : Staged) (state : Option TxState) (x : Places Bytes)
    (c : Contents) (held : Places Pending) (locks : List Locked) :
    Except Failure Bool → MemoryItems → Prop
  | mk {done : Bool} {c' : Contents} {held' : Places Pending} {s' : MemoryItems}
      (hlaid : Laid staged c' state held' s') (hcleared : Cleared x c c' held held')
      (hall : done = true → ∀ l ∈ locks, held' l.bucket l.key = none)
      (hdone : ¬t.Possible → done = true) :
      LocksCleared t staged state x c held locks (.ok done) s'

theorem LocksCleared.cons {x : Places Bytes} {l : Locked} {rest : List Locked}
    {r : Except Failure Bool} (hcleared : Cleared x c c' held held')
    (hl : held' l.bucket l.key = none) (h : LocksCleared t staged state x c' held' rest r s') :
    LocksCleared t staged state x c held (l :: rest) r s' := by
  obtain ⟨hlaid, hcleared', hall, hdone⟩ := h
  refine ⟨hlaid, hcleared.trans hcleared', fun htrue l' hl' => ?_, hdone⟩
  rcases List.mem_cons.mp hl' with rfl | hl'
  · exact hcleared'.none_of_none hl
  · exact hall htrue l' hl'

theorem ensures_failedLock {write : Locked → Protocol (Except Failure Bool)}
    {about : Locked → Failure → Log.Line} {line : Log.Line} {l : Locked} {rest : List Locked}
    {x : Places Bytes} (ht : t.Possible) (hcleared : Cleared x c c' held held')
    (h : (forEachLock write about rest).Ensures (storing around t) s
      (LocksCleared t staged state x c' held' rest)) :
    (do
      .log line
      discard (forEachLock write about rest)
      return false : Protocol Bool).Ensures (storing around t) s
      (LocksCleared t staged state x c held (l :: rest)) := by
  refine Program.ensures_bind.mpr (Program.ensures_log.mpr ?_)
  refine Program.ensures_bind.mpr (Program.ensures_bind.mpr (h.mono ?_))
  rintro _ s' ⟨hlaid, hcleared', _, _⟩
  exact ⟨hlaid, hcleared.trans hcleared', fun hfalse => (nomatch hfalse), fun hn => absurd ht hn⟩

/-- The locks are dropped one by one; a failure leaves one as it is and goes on with the next. -/
theorem ensures_forEachLock {write : Locked → Protocol (Except Failure Bool)}
    {about : Locked → Failure → Log.Line} {locks : List Locked} {x : Places Bytes}
    (hwrite : ∀ l ∈ locks, write l =
      .tryWrite l.bucket l.key ((x l.bucket l.key).map .plain) (.lockedBy staged.record.id))
    (hnodup : (locks.map Locked.place).Nodup) (hmine : ∀ l ∈ locks, held l.bucket l.key ≠ none)
    (h : Laid staged c state held s) :
    (forEachLock write about locks).Ensures (storing around t) s
      (LocksCleared t staged state x c held locks) := by
  induction locks generalizing c held s with
  | nil => exact ⟨h, .refl x c held, fun _ _ hl => (nomatch hl), fun _ => rfl⟩
  | cons l rest ih =>
    obtain ⟨hnew, hrest⟩ := List.nodup_cons.mp hnodup
    have hfirst := List.mem_cons_self (a := l) (l := rest)
    obtain ⟨pending, hpending⟩ := Option.ne_none_iff_exists'.mp (hmine l hfirst)
    have hwrite' := fun l' hl' => hwrite l' (List.mem_cons_of_mem l hl')
    have hmine' := fun l' hl' => hmine l' (List.mem_cons_of_mem l hl')
    have hcleared := Cleared.put (x := x) (c := c) (hmine l hfirst)
    have hdropped : ∀ l' ∈ rest, (held.put l.bucket l.key none) l'.bucket l'.key ≠ none := by
      intro l' hl'
      rw [Places.put_other]
      · exact hmine' l' hl'
      · exact fun heq => hnew (List.mem_map.mpr ⟨l', hl', Prod.ext heq.1 heq.2⟩)
    refine Program.ensures_bind.mpr ?_
    rw [hwrite l hfirst]
    refine ensures_unlock h hpending ?_ ?_ ?_
    · intro s' hlaid
      exact (ih hwrite' hrest hdropped hlaid).mono fun _ _ => .cons hcleared Places.put_same
    · intro ht f s' hlaid
      exact ensures_failedLock ht (.refl x c held) (ih hwrite' hrest hmine' hlaid)
    · intro ht f s' hlaid
      exact ensures_failedLock (.inr ht) hcleared (ih hwrite' hrest hdropped hlaid)

theorem ensures_reclaim {now : TxState} (hdecided : now.canBecome .reclaimed = true)
    (h : Laid staged c (some now) held s) :
    (reclaim staged.recordBucket (staged.decided now)).Ensures (storing around t) s fun r s' =>
      r = .ok () ∧ ∃ state, Laid staged c state held s' ∧ (state = some now ∨ state = none) ∧
        (¬t.Possible → state = none) := by
  refine Program.ensures_bind.mpr (Program.ensures_attempt.mpr (ensures_transition hdecided ?_))
  refine Program.ensures_bind.mpr (ensures_putRecord none h ?_ ?_ ?_)
  · exact fun s' hlaid => ⟨rfl, none, hlaid, .inr rfl, fun _ => rfl⟩
  · exact fun ht f s' hlaid => ⟨rfl, some now, hlaid, .inl rfl, fun hn => absurd ht hn⟩
  · exact fun ht f s' hlaid => ⟨rfl, none, hlaid, .inr rfl, fun _ => rfl⟩

/-- Locks are dropped first, and the record is deleted only if none of them is left. -/
theorem ensures_clear {now : TxState} (hdecided : now.canBecome .reclaimed = true)
    {write : Locked → Protocol (Except Failure Bool)} {about : Locked → Failure → Log.Line}
    {locks : List Locked} {x : Places Bytes}
    (hwrite : ∀ l ∈ locks, write l =
      .tryWrite l.bucket l.key ((x l.bucket l.key).map .plain) (.lockedBy staged.record.id))
    (hnodup : (locks.map Locked.place).Nodup) (hmine : ∀ l ∈ locks, held l.bucket l.key ≠ none)
    (h : Laid staged c (some now) held s) :
    (do
      let done ← forEachLock write about locks
      if done then reclaim staged.recordBucket (staged.decided now) : Protocol Unit).Ensures
      (storing around t) s fun r s' => r = .ok () ∧ ∃ c' state held',
        Laid staged c' state held' s' ∧ Cleared x c c' held held' ∧
        (state = some now ∨ state = none ∧ ∀ l ∈ locks, held' l.bucket l.key = none) ∧
        (¬t.Possible → state = none) := by
  refine Program.ensures_bind.mpr ((ensures_forEachLock hwrite hnodup hmine h).mono ?_)
  rintro _ s' ⟨hlaid, hcleared, hall, hdone⟩
  dsimp only
  split
  · next htrue =>
    refine (ensures_reclaim hdecided hlaid).mono ?_
    rintro _ s'' ⟨rfl, state, hlaid', hstate, hexact⟩
    exact ⟨rfl, _, state, _, hlaid', hcleared, hstate.imp_right fun hnone => ⟨hnone, hall htrue⟩, hexact⟩
  · next hfalse => exact ⟨rfl, _, _, _, hlaid, hcleared, .inl rfl, fun hn => absurd (hdone hn) hfalse⟩

/-! ### How an update may end -/

/-- How an update may end whose record was stored over the contents `c`. -/
inductive Ended (t : Trouble) (staged : Staged) (tx : Transaction) (c : Contents) :
    Except Failure TxOutcome → MemoryItems → Prop
  /-- It is not committed. Its record stays until none of its known locks is left. -/
  | failed {c' : Contents} {state : Option TxState} {held : Places Pending} {f : Failure}
      {s' : MemoryItems} (htidied : Tidied (· ≠ staged.record.id) c c')
      (hlaid : Laid staged c' state held s')
      (hstate : ∀ now, state = some now → now = .pending ∨ now = .aborted)
      (hheld : ∀ b k, held b k ≠ none → (b, k) ∈ tx.touched)
      (hrecord : ¬t.lostReplies → state = none → ∀ b k, held b k = none)
      (hexact : ¬Disturbed t c → state = none ∧ Rejected s' c.visible tx f) :
      Ended t staged tx c (.error f) s'
  /-- It is committed, and readers see what its operations have made of what they saw before. -/
  | applied {c' c'' : Contents} {state : Option TxState} {held : Places Pending}
      {outcome : TxOutcome} {v : Places Bytes} {s' : MemoryItems}
      (htidied : Tidied (· ≠ staged.record.id) c c') (hlaid : Laid staged c'' state held s')
      (hput : ∀ b k, c'' b k = c' b k ∨
        isReservedKey k = false ∧ Bare (c' b k) ∧ c'' b k = (v b k).map .plain)
      (hstate : state = some .committed ∨ state = none ∧ ∀ b k, held b k = none)
      (hheld : ∀ b k, held b k ≠ none → (b, k) ∈ tx.touched)
      (hon : Transaction.on c.visible tx = .ok (outcome, v))
      (hshows : ∀ b k, isReservedKey k = false → Contents.visible s'.raw b k = v b k)
      (hbuckets : ∀ place ∈ tx.touched, s'.buckets.contains place.1 = true)
      (hexact : ¬t.Possible → state = none) :
      Ended t staged tx c (.ok outcome) s'

theorem Rejected.congr {v : Places Bytes} {tx : Transaction} {f : Failure}
    (h : Rejected s v tx f) (hsame : SameBuckets s s') : Rejected s' v tx f := by
  have hcontains : ∀ b, s'.buckets.contains b = s.buckets.contains b := hsame.contains
  unfold Rejected MissesBucket at h ⊢
  simpa only [hcontains] using h

section

variable (hpending : staged.record.state = .pending) {locks : List Locked} {tx : Transaction}
include hpending

theorem ensures_abort (h : Laid staged c (some .pending) held s)
    (hnodup : (locks.map Locked.place).Nodup)
    (hcommitted : ∀ l ∈ locks, l.committed = (c l.bucket l.key).bind Item.value)
    (hmine : ∀ l ∈ locks, held l.bucket l.key ≠ none) :
    (abort staged locks).Ensures (storing around t) s fun r s' => r = .ok () ∧ ∃ state held',
      Laid staged c state held' s' ∧ (∀ b k, held' b k ≠ none → held b k ≠ none) ∧
      (state = some .pending ∨ state = some .aborted ∨
        state = none ∧ ∀ l ∈ locks, held' l.bucket l.key = none) ∧ (¬t.Possible → state = none) := by
  refine Program.ensures_bind.mpr (Program.ensures_bind.mpr (Program.ensures_attempt.mpr
    (ensures_transition (by rw [hpending]; rfl) ?_)))
  refine Program.ensures_bind.mpr (ensures_flip hpending h ?_ ?_ ?_)
  · intro s₁ hlaid
    have hclear : (releaseAll staged locks).Ensures (storing around t) s₁ _ :=
      ensures_clear rfl (x := fun b k => (c b k).bind Item.value)
        (fun l hl => by rw [← hcommitted l hl]; rfl) hnodup hmine hlaid
    refine hclear.mono ?_
    rintro _ s' ⟨rfl, c', state, held', hlaid', hcleared, hstate, hexact⟩
    have hsame : c' = c := by
      funext b k
      rcases hcleared b k with ⟨heq, _⟩ | ⟨hne, heq, _⟩
      · exact heq
      · obtain ⟨pending, hheld⟩ := Option.ne_none_iff_exists'.mp hne
        rw [heq]
        exact (h.layers.bare b k pending hheld).2.symm
    subst hsame
    refine ⟨rfl, state, held', hlaid', fun b k hne hnone => ?_, .inr hstate, hexact⟩
    exact hne (hcleared.none_of_none hnone)
  · intro ht f s' hlaid
    exact ⟨rfl, _, held, hlaid, fun _ _ hne => hne, .inl rfl, fun hn => absurd ht hn⟩
  · intro ht f s' hlaid
    exact ⟨rfl, _, held, hlaid, fun _ _ hne => hne, .inr (.inl rfl), fun hn => absurd (.inr ht) hn⟩

theorem ensures_giveUp {f : Failure} (htidied : Tidied (· ≠ staged.record.id) c c')
    (h : Laid staged c' (some .pending) held s) (hnodup : (locks.map Locked.place).Nodup)
    (hcommitted : ∀ l ∈ locks, l.committed = (c' l.bucket l.key).bind Item.value)
    (hmine : ∀ l ∈ locks, held l.bucket l.key ≠ none)
    (hheld : ∀ b k, held b k ≠ none → (b, k) ∈ tx.touched ∧
      (¬t.lostReplies → (b, k) ∈ locks.map Locked.place))
    (hblame : ¬Disturbed t c → Rejected s c.visible tx f) :
    (do
      abort staged locks
      .fail f : Protocol TxOutcome).Ensures (storing around t) s (Ended t staged tx c) := by
  refine Program.ensures_bind.mpr ((ensures_sameBuckets
    (ensures_abort hpending h hnodup hcommitted hmine)).mono ?_)
  rintro _ s' ⟨⟨rfl, state, held', hlaid, hless, hstate, hexact⟩, hsame⟩
  refine .failed htidied hlaid ?_ (fun b k hne => (hheld b k (hless b k hne)).1) ?_ ?_
  · rintro now rfl
    rcases hstate with heq | heq | ⟨heq, _⟩
    · exact .inl (Option.some.inj heq)
    · exact .inr (Option.some.inj heq)
    · cases heq
  · rintro ht rfl b k
    rcases hstate with heq | heq | ⟨_, hall⟩
    · cases heq
    · cases heq
    · cases hheld' : held' b k with
      | none => rfl
      | some pending =>
        have hne : held' b k ≠ none := hheld' ▸ Option.some_ne_none pending
        obtain ⟨l, hl, heq⟩ := List.mem_map.mp ((hheld b k (hless b k hne)).2 ht)
        cases heq
        rw [← hheld']
        exact hall l hl
  · exact fun hu => ⟨hexact fun ht => hu (.inl ht), (hblame hu).congr hsame⟩

variable (hproper : staged.record.Proper known)
include hproper

omit hpending in
theorem ensures_applyAll {ws : WriteSet} {v : Places Bytes} {outcome : TxOutcome}
    (htidied : Tidied (· ≠ staged.record.id) c c')
    (h : Laid staged c' (some .committed) held s) (hlocks : locks.map Locked.place = tx.touched)
    (hheld : ∀ b k, held b k ≠ none ↔ (b, k) ∈ tx.touched)
    (hon : Transaction.on c.visible tx = .ok (outcome, v))
    (hcurrent : ∀ l ∈ locks, ws.current l.bucket l.key = v l.bucket l.key)
    (hcommitting : ∀ b k, isReservedKey k = false → committing held c'.visible b k = v b k) :
    (do
      applyAll staged ws locks
      return outcome : Protocol TxOutcome).Ensures (storing around t) s (Ended t staged tx c) := by
  have hplace : ∀ l ∈ locks, held l.bucket l.key ≠ none := fun l hl =>
    (hheld _ _).mpr (hlocks ▸ List.mem_map.mpr ⟨l, hl, rfl⟩)
  have hclear : (applyAll staged ws locks).Ensures (storing around t) s _ :=
    ensures_clear rfl (x := v) (fun l hl => by rw [← hcurrent l hl]; rfl)
      (hlocks ▸ tx.nodup_touched) hplace h
  refine Program.ensures_bind.mpr ((ensures_sameBuckets hclear).mono ?_)
  rintro _ s' ⟨⟨rfl, c'', state, held', hlaid, hcleared, hstate, hexact⟩, hsame⟩
  have hnone : state = none → ∀ b k, held' b k = none := by
    rintro rfl b k
    by_cases hne : held b k = none
    · exact hcleared.none_of_none hne
    · rcases hstate with heq | ⟨_, hall⟩
      · cases heq
      · have hmem := (hheld b k).mp hne
        rw [← hlocks] at hmem
        obtain ⟨l, hl, heq⟩ := List.mem_map.mp hmem
        cases heq
        exact hall l hl
  refine .applied htidied hlaid ?_ ?_ ?_ hon ?_ ?_ hexact
  · intro b k
    rcases hcleared b k with ⟨heq, _⟩ | ⟨hne, heq, _⟩
    · exact .inl heq
    · obtain ⟨pending, hpending⟩ := Option.ne_none_iff_exists'.mp hne
      obtain ⟨hk, hbare⟩ := h.layers.bare b k pending hpending
      exact .inr ⟨hk, hbare, heq⟩
  · exact hstate.imp_right fun hs => ⟨hs.1, hnone hs.1⟩
  · intro b k hne
    exact (hheld b k).mp fun heq => hne (hcleared.none_of_none heq)
  · intro b k hk
    have hvisible := hcleared.committing
      (fun b id => h.layers.free_of_reserved (isReservedKey_recordKey id)) (hcommitting b k hk)
    rw [hlaid.layers.visible hproper.addressable hk, ← hvisible]
    split
    · rfl
    · next hne =>
      have hfree := hnone (hstate.resolve_left hne).1 b k
      simp only [committing, hfree]
  · intro place hmem
    obtain ⟨pending, hpending⟩ := Option.ne_none_iff_exists'.mp ((hheld place.1 place.2).mpr hmem)
    rw [hsame.contains]
    exact (h.offers_held hpending).2

theorem ensures_runStaged {config : Config}
    (huser : ∀ place ∈ tx.touched, isReservedKey place.2 = false) (hc : c.Sound known)
    (h : Laid staged c (some .pending) (fun _ _ => none) s) :
    (runStaged config staged tx).Ensures (storing around t) s (Ended t staged tx c) := by
  refine Program.ensures_bind.mpr ((ensures_prepare hproper huser hc h).mono ?_)
  intro r s₁ hprepared
  cases hprepared with
  | failed htidied hlaid hnodup hcommitted hmine hheld hblame =>
    exact ensures_giveUp hpending htidied hlaid hnodup hcommitted hmine hheld hblame
  | ready htidied hlaid hlocks hcommitted hheld hon hcurrent hcommitting =>
    refine Program.ensures_bind.mpr ((ensures_commit hproper hpending hlaid).mono ?_)
    rintro _ s₂ (⟨rfl, hlaid'⟩ | ⟨ht, f, rfl, hlaid'⟩)
    · exact ensures_applyAll hproper htidied hlaid' hlocks hheld hon hcurrent hcommitting
    · refine ensures_giveUp hpending htidied hlaid' (hlocks ▸ tx.nodup_touched) hcommitted ?_ ?_ ?_
      · exact fun l hl => (hheld _ _).mpr (hlocks ▸ List.mem_map.mpr ⟨l, hl, rfl⟩)
      · intro b k hne
        have hmem := (hheld b k).mp hne
        exact ⟨hmem, fun _ => hlocks ▸ hmem⟩
      · exact fun hu => absurd (.inl ht) hu

end

/-! ### The update -/

/-- Contents in which every identifier is known have nothing of a transaction that is not. -/
theorem Contents.Sound.foreign (h : c.Sound known) {id : String} (hid : ¬known id) :
    c.Foreign id := by
  constructor
  · intro b k item lock hitem hlock howner
    exact hid (howner ▸ ((h b k item hitem).of_lock hlock).2)
  · intro b
    cases hitem : c b (recordKey id) with
    | none => rfl
    | some item =>
      obtain ⟨r, hproper, hr, _⟩ := h.record hitem
      exact absurd (hr ▸ hproper.known) hid

/-- Storing the pending record is the first layer of an update. -/
theorem layers_of_record (hpending : staged.record.state = .pending)
    (hc : c.Foreign staged.record.id) :
    Layers staged c (some .pending) (fun _ _ => none)
      (c.put staged.recordBucket staged.record.key (some staged.record.item)) := by
  refine ⟨?_, hc, fun _ _ _ hheld => nomatch hheld⟩
  unfold Staged.overlay Staged.decided
  rw [← hpending]
  rfl

/-- How an update may end. -/
inductive Updated (around : Surroundings) (t : Trouble) (tx : Transaction) (s : MemoryItems) :
    Except Failure TxOutcome → MemoryItems → Prop
  | empty (htx : tx = []) : Updated around t tx s (.ok []) s
  /-- No record was stored. -/
  | refused {f : Failure} {s' : MemoryItems} (hraw : s'.raw = s.raw)
      (hexact : ¬Disturbed t s.raw → s.closed = false → Rejected s' (Contents.visible s.raw) tx f) :
      Updated around t tx s (.error f) s'
  | ended {staged : Staged} {r : Except Failure TxOutcome} {s' : MemoryItems}
      (hid : staged.record.id = around.ids s.drawn) (hkeys : staged.record.keys = tx.touched)
      (hproper : staged.record.Proper (around.drawn (s.drawn + 1)))
      (h : Ended t staged tx s.raw r s') : Updated around t tx s r s'

/-- Every run of an update ends in one of these ways, if nothing in the store has its identifier. -/
theorem ensures_updateKeys_ended {config : Config} {tx : Transaction} (htx : tx.Addressable)
    (huser : ∀ place ∈ tx.touched, isReservedKey place.2 = false) (hids : around.Addressable)
    (hs : s.Sound around) (hforeign : Contents.Foreign (around.ids s.drawn) s.raw) :
    (updateKeys config tx).Ensures (storing around t) s (Updated around t tx s) := by
  unfold updateKeys
  split
  · next hbuckets => exact .empty (Transaction.eq_nil_of_buckets hbuckets)
  · next recordBucket rest hbuckets =>
    refine Program.ensures_bind.mpr (ensures_freshId ?_)
    refine Program.ensures_bind.mpr (ensures_now ?_)
    have hproper : Record.Proper (around.drawn (s.drawn + 1))
        ⟨around.ids s.drawn, .pending, tx.touched, around.clock s.readings⟩ :=
      ⟨usable_record htx ⟨s.drawn, Nat.lt_succ_self _, rfl⟩ (hids s.drawn) _ huser, fun h => nomatch h⟩
    have hsound : Contents.Sound (around.drawn (s.drawn + 1)) s.raw := by
      rw [around.drawn_succ]
      exact Contents.Sound.mono (fun _ => .inl) hs
    have hlaid : ∀ {s' : MemoryItems}, s'.closed = false →
        s'.raw = Places.put s.raw recordBucket (recordKey (around.ids s.drawn)) _ →
        Laid ⟨⟨around.ids s.drawn, .pending, tx.touched, around.clock s.readings⟩, recordBucket⟩
          s.raw (some .pending) (fun _ _ => none) s' := fun hopen hraw =>
      ⟨hopen, hraw ▸ layers_of_record rfl hforeign⟩
    refine Program.ensures_bind.mpr (ensures_write ?_ ?_ ?_ ?_)
    · intro _ hoffers s' hsame hraw
      have hstored := hlaid (hsame.closed.trans hoffers.1) hraw
      exact (ensures_runStaged rfl hproper huser hsound hstored).mono fun _ _ =>
        .ended rfl rfl hproper
    · intro hdeclined
      have hnone : s.raw recordBucket (recordKey (around.ids s.drawn)) = none := hforeign.record _
      change Option.isNone (s.raw recordBucket (recordKey (around.ids s.drawn))) = false at hdeclined
      rw [hnone] at hdeclined
      cases hdeclined
    · intro f hf s' hsame hraw
      refine .refused hraw fun hu hopen => .inl ?_
      obtain ⟨rfl, hmissing⟩ := items_error hopen (hf.resolve_left fun ht => hu (.inl (.inl ht)))
      obtain ⟨key, places, htouched⟩ := Transaction.touched_of_buckets hbuckets
      refine ⟨(recordBucket, key), ?_, rfl⟩
      rw [htouched, List.find?_cons_of_pos]
      change (!s'.buckets.contains recordBucket) = true
      rw [hsame.contains, hmissing]
      rfl
    · intro ht _ hoffers f s' hsame hraw
      have hstored := hlaid (hsame.closed.trans hoffers.1) hraw
      refine .ended rfl rfl hproper (.failed .refl hstored ?_ ?_ ?_ ?_)
      · exact fun now hnow => .inl (Option.some.inj hnow).symm
      · exact fun b k hne => absurd rfl hne
      · exact fun hn => absurd ht hn
      · exact fun hu => absurd (.inl (.inr ht)) hu

end BucketStore.Staging
