/-
  BucketStore/Proofs/Staging/SingleKey.lean
  =========================================
  **Calls on one key are exact on what readers see, whatever locks are left over.**

  From every reachable store, and where no fault strikes the call: `get` answers
  with what readers see and changes nothing, and a write of one key changes what
  they see under that key only.  A write fails exactly if the key is locked by a
  pending transaction that has not outlived the timeout (`BarredNow`); any other
  lock it clears, and its second attempt succeeds (`Attempted`).  So no call on
  one key ever gives up for contention (`single_key_calls_exact`).
-/
import BucketStore.Proofs.Staging.Reachable
import BucketStore.Proofs.Staging.Reading
import BucketStore.Proofs.Staging.Tidying

namespace BucketStore.Staging

open MemoryItems

/-- Readers see the value under the key, and under every other key what they saw before. -/
def Contents.Shows (c c' : Contents) (bucket key : Bytes) (value : Option Bytes) : Prop :=
  ∀ b k, isReservedKey k = false → c'.visible b k = Places.put c.visible bucket key value b k

/-- The transaction bars the key from writers when the clock is read next. -/
abbrev BarredNow (around : Surroundings) (config : Config) (s : MemoryItems) (bucket key : Bytes)
    (owner : String) : Prop :=
  Contents.Barred s.raw config.lockTimeout (around.clock s.readings) bucket key owner

variable {around : Surroundings} {t : Trouble} {admits : Event → Prop} {s s₁ s' : MemoryItems}
  {known : String → Prop} {config : Config} {bucket key : Bytes} {item : Item} {lock : Lock}
  {c c' : Contents} {P : String → Prop} {α : Type}

/-- A value that is written after tidying up is seen under its key, and changes nothing else. -/
theorem Contents.shows_put (hc : c.Sound known) (htidied : Tidied P c c')
    (hkey : isReservedKey key = false) (value : Option Bytes) :
    c.Shows (c'.put bucket key (value.map .plain)) bucket key value := by
  intro b k hk
  rw [visible_put hkey]
  unfold Places.put
  split
  · cases value <;> rfl
  · exact htidied.sameView hc b k hk

/-- What is not locked is not barred. -/
theorem Contents.Barred.locked {timeout : Nat} {now : Int64} {owner : String}
    (h : c.Barred timeout now bucket key owner) : ∃ item, c bucket key = some item ∧
      item.isLocked = true := by
  obtain ⟨item, lock, r, hitem, hlock, _⟩ := h
  refine ⟨item, hitem, ?_⟩
  unfold Item.isLocked
  rw [hlock]
  rfl

/-! ### Attempts at writing -/

/-- Nothing is stored but what was stored, and the clock was not read. -/
structure Untouched (s s' : MemoryItems) : Prop where
  same : SameBuckets s s'
  raw : s'.raw = s.raw
  readings : s'.readings = s.readings

/-- A write where nothing goes wrong is applied or declined. -/
theorem ensures_unfailingWrite {x : Option Item} {condition : Precondition}
    {Q : Except Failure Bool → MemoryItems → Prop} (hoffers : s.Offers bucket)
    (happlied : condition.holds (s.raw bucket key) = true → ∀ s', SameBuckets s s' →
      s'.raw = Places.put s.raw bucket key x → Q (.ok true) s')
    (hdeclined : condition.holds (s.raw bucket key) = false → ∀ s', Untouched s s' →
      Q (.ok false) s') :
    (Protocol.write bucket key x condition).Ensures (storing around .nothing) s Q := by
  refine ⟨trivial, fun r s' hwritten => Program.ensures_ofExcept.mpr ?_⟩
  change Written .nothing bucket key x condition s r s' at hwritten
  cases hwritten with
  | unreachable h => exact absurd h (hoffers.items_ne_error _)
  | refused _ ht _ _ => exact ht.elim
  | lost _ ht _ _ _ => exact ht.elim
  | @applied items h hcond fault =>
    rw [get?_eq_raw h] at hcond
    exact happlied hcond _ ⟨rfl, (sameBuckets_withItems h (items.put key x)).contains⟩
      (raw_withItems h x)
  | declined h hcond fault =>
    rw [get?_eq_raw h] at hcond
    exact hdeclined hcond _ ⟨⟨rfl, fun _ => rfl⟩, rfl, rfl⟩

/-- The lock of a key was cleared: readers see what they saw, and nobody had barred the key. -/
structure Freed (around : Surroundings) (config : Config) (s : MemoryItems) (bucket key : Bytes)
    (s' : MemoryItems) : Prop where
  same : SameBuckets s s'
  tidied : Tidied (fun _ => True) s.raw s'.raw
  plain : s'.raw bucket key = (Contents.visible s.raw bucket key).map .plain
  free : ∀ owner, ¬BarredNow around config s bucket key owner

/-- Where nothing goes wrong, a lock is cleared unless a transaction bars the key. -/
theorem ensures_freed (hopen : s.closed = false) (hs : Contents.Sound known s.raw)
    (huntouched : Untouched s s₁) (hitem : s.raw bucket key = some item)
    (hlock : item.lock = some lock) :
    (resolveLock config bucket key item).Ensures (storing around .nothing) s₁ fun
      | .ok _, s' => Freed around config s bucket key s'
      | .error f, s' => ∃ owner, f = .lockedBy bucket key owner ∧
          BarredNow around config s bucket key owner ∧ s'.raw = s.raw := by
  obtain ⟨hsame, hraw, hreadings⟩ := huntouched
  refine (ensures_resolved (hsame.closed.trans hopen) (hraw ▸ hs) (hraw ▸ hitem) hlock).mono ?_
  rintro (f | _) s' ⟨hsame', htidied, hcleared, hfailed⟩
  · rw [hraw, hreadings] at hfailed
    obtain ⟨hf, hraw', hbarred⟩ := (hfailed f rfl).resolve_left Trouble.not_possible_nothing
    exact ⟨lock.owner, hf, hbarred, hraw'⟩
  · rw [hraw, hreadings] at hcleared
    rw [hraw] at htidied
    obtain ⟨hplain, hfree⟩ := hcleared rfl
    rw [← Contents.visible_of_item hitem] at hplain
    exact ⟨hsame.trans hsame', htidied.mono fun _ _ => trivial, hplain, hfree⟩

/-- The states in which a call on one key makes its attempts, with the number of attempts that are
    left: as it found the store, and after it has cleared the lock of the key. -/
def Attempted (around : Surroundings) (config : Config) (s : MemoryItems) (bucket key : Bytes)
    (n : Nat) (s₁ : MemoryItems) : Prop :=
  n = maxAttempts ∧ s₁ = s ∨ n + 1 = maxAttempts ∧ Freed around config s bucket key s₁

namespace Attempted

variable {n : Nat} (h : Attempted around config s bucket key n s₁)
include h

theorem same : SameBuckets s s₁ := by
  rcases h with ⟨_, rfl⟩ | ⟨_, hfreed⟩
  · exact .refl _
  · exact hfreed.same

theorem offers (hoffers : s.Offers bucket) : s₁.Offers bucket :=
  ⟨h.same.closed.trans hoffers.1, (h.same.contains bucket).trans hoffers.2⟩

theorem tidied : Tidied (fun _ => True) s.raw s₁.raw := by
  rcases h with ⟨_, rfl⟩ | ⟨_, hfreed⟩
  · exact .refl
  · exact hfreed.tidied

theorem ne_zero : n ≠ 0 := by
  rintro rfl
  rcases h with ⟨hn, _⟩ | ⟨hn, _⟩ <;> cases hn

/-- Where there is no lock, the key was barred by nobody. -/
theorem free_of_unlocked (hlock : ∀ item, s₁.raw bucket key = some item → item.isLocked = false)
    (owner : String) : ¬BarredNow around config s bucket key owner := by
  rcases h with ⟨_, rfl⟩ | ⟨_, hfreed⟩
  · intro hbarred
    obtain ⟨item, hitem, hlocked⟩ := hbarred.locked
    rw [hlock item hitem] at hlocked
    cases hlocked
  · exact hfreed.free owner

/-- What is locked was found so: the call has not cleared a lock yet. -/
theorem first_of_locked (hitem : s₁.raw bucket key = some item) (hlocked : item.isLocked = true) :
    n = maxAttempts ∧ s₁ = s := by
  rcases h with hfirst | ⟨_, hfreed⟩
  · exact hfirst
  · rw [hfreed.plain] at hitem
    obtain ⟨v, _, rfl⟩ := Option.map_eq_some_iff.mp hitem
    cases hlocked

/-- Readers see the value of an item without a lock, before and after a lock was cleared. -/
theorem visible_of_unlocked (hs : Contents.Sound known s.raw) (hkey : isReservedKey key = false)
    (hlock : ∀ item, s₁.raw bucket key = some item → item.isLocked = false) :
    Contents.visible s.raw bucket key = (s₁.raw bucket key).bind Item.value := by
  rw [← h.tidied.sameView hs bucket key hkey]
  unfold Contents.visible
  cases hitem : s₁.raw bucket key with
  | none => rfl
  | some item =>
    have hnone : item.lock = none := by
      have hunlocked := hlock item hitem
      unfold Item.isLocked at hunlocked
      simpa using hunlocked
    change item.seen _ = item.value
    simp only [Item.seen, hnone]

end Attempted

/-! ### Writing a value -/

/-- How the write of a value under a key ends, if nothing goes wrong: it is refused if a transaction
    bars the key, and changes what readers see there if not. -/
inductive Wrote (around : Surroundings) (config : Config) (s : MemoryItems) (bucket key : Bytes)
    (value : Option Bytes) (answer : α) : Except Failure α → MemoryItems → Prop
  | refused {owner : String} {s' : MemoryItems}
      (hbarred : BarredNow around config s bucket key owner)
      (hview : Contents.SameView s.raw s'.raw) :
      Wrote around config s bucket key value answer (.error (.lockedBy bucket key owner)) s'
  | written {s' : MemoryItems} (hfree : ∀ owner, ¬BarredNow around config s bucket key owner)
      (hshows : Contents.Shows s.raw s'.raw bucket key value) :
      Wrote around config s bucket key value answer (.ok answer) s'

theorem unlocked_of_holds {x : Option Item} (h : Precondition.unlocked.holds x = true) :
    ∀ item, x = some item → item.isLocked = false := by
  rintro item rfl
  simpa [Precondition.holds] using h

theorem locked_of_not_holds {x : Option Item} (h : Precondition.unlocked.holds x = false) :
    ∃ item, x = some item ∧ item.isLocked = true := by
  cases x with
  | none => cases h
  | some item => exact ⟨item, rfl, by simpa [Precondition.holds] using h⟩

/-- Writing a key, or removing it, clears the lock of the key first if nobody bars it. -/
theorem ensures_writeKey_wrote (hoffers : s.Offers bucket) (hs : Contents.Sound known s.raw)
    (hkey : isReservedKey key = false) (value : Option Bytes) :
    (writeKey config bucket key value).Ensures (storing around .nothing) s
      (Wrote around config s bucket key value ()) := by
  refine ensures_retry (I := Attempted around config s bucket key) ?_ ?_ (.inl ⟨rfl, rfl⟩)
  · intro n s₁ hattempted
    refine Program.ensures_bind.mpr (ensures_unfailingWrite (hattempted.offers hoffers) ?_ ?_)
    · intro hholds s' _ hraw
      refine Wrote.written (hattempted.free_of_unlocked (unlocked_of_holds hholds)) ?_
      rw [hraw]
      exact Contents.shows_put hs hattempted.tidied hkey value
    · intro hdeclined s' huntouched
      obtain ⟨item, hitem, hlocked⟩ := locked_of_not_holds hdeclined
      obtain ⟨hn, rfl⟩ := hattempted.first_of_locked hitem hlocked
      have hitem' : s'.raw bucket key = some item := huntouched.raw ▸ hitem
      obtain ⟨lock, hlock⟩ := Option.isSome_iff_exists.mp hlocked
      refine Program.ensures_bind.mpr (Program.ensures_bind.mpr (ensures_load ?_ ?_))
      · intro _
        rw [hitem']
        simp only [hlocked, if_true]
        refine (ensures_freed hoffers.1 hs huntouched hitem hlock).mono ?_
        rintro (f | _) s₂ hcleared
        · obtain ⟨owner, rfl, hbarred, hraw⟩ := hcleared
          exact .refused hbarred (hraw ▸ .refl _)
        · exact .inr ⟨hn, hcleared⟩
      · intro f hitems
        exact absurd hitems ((offers_of_raw (huntouched.same.closed.trans hoffers.1)
          hitem').items_ne_error f)
  · exact fun _ hattempted => absurd rfl hattempted.ne_zero

/-! ### Writing a value in the place of another -/

/-- How a compare-and-swap ends, if nothing goes wrong: it tells what readers see if that is another
    value, and otherwise writes as any other call does. -/
inductive Swapped (around : Surroundings) (config : Config) (s : MemoryItems) (bucket key : Bytes)
    (old : Option Bytes) (new : Bytes) : Except Failure Swap → MemoryItems → Prop
  | mismatch {s' : MemoryItems} (hother : Contents.visible s.raw bucket key ≠ old)
      (hview : Contents.SameView s.raw s'.raw) : Swapped around config s bucket key old new
        (.ok (.mismatch (Contents.visible s.raw bucket key))) s'
  | tried {r : Except Failure Swap} {s' : MemoryItems}
      (hsame : Contents.visible s.raw bucket key = old)
      (hwrote : Wrote around config s bucket key (some new) (.took old) r s') :
      Swapped around config s bucket key old new r s'

theorem unlocked_of_holdsWith {x : Option Item} {old : Option Bytes}
    (h : (Precondition.unlockedWith old).holds x = true) :
    (∀ item, x = some item → item.isLocked = false) ∧ x.bind Item.value = old := by
  cases x with
  | none =>
    refine ⟨fun _ hitem => (nomatch hitem), ?_⟩
    exact (Option.isNone_iff_eq_none.mp h).symm
  | some item =>
    obtain ⟨hlock, hvalue⟩ : item.isLocked = false ∧ item.value = old := by
      simpa [Precondition.holds] using h
    refine ⟨?_, hvalue⟩
    intro _ heq
    cases heq
    exact hlock

/-- A value without a lock on which the condition does not hold is another one. -/
theorem value_ne_of_declined {x : Option Item} {old : Option Bytes}
    (h : (Precondition.unlockedWith old).holds x = false)
    (hlock : ∀ item, x = some item → item.isLocked = false) : x.bind Item.value ≠ old := by
  rintro rfl
  cases x with
  | none => cases h
  | some item => simp [Precondition.holds, hlock item rfl] at h

/-- A swap that meets another value without a lock tells what readers see. -/
theorem swapped_of_declined {old : Option Bytes} (new : Bytes) {n : Nat}
    (hattempted : Attempted around config s bucket key n s₁) (hs : Contents.Sound known s.raw)
    (hkey : isReservedKey key = false)
    (hdeclined : (Precondition.unlockedWith old).holds (s₁.raw bucket key) = false)
    (hlock : ∀ item, s₁.raw bucket key = some item → item.isLocked = false)
    (hraw : s'.raw = s₁.raw) :
    (s₁.raw bucket key).bind Item.value ≠ old ∧ Swapped around config s bucket key old new
      (.ok (.mismatch ((s₁.raw bucket key).bind Item.value))) s' := by
  have hother := value_ne_of_declined hdeclined hlock
  refine ⟨hother, ?_⟩
  rw [← hattempted.visible_of_unlocked hs hkey hlock] at hother ⊢
  exact .mismatch hother (hraw ▸ hattempted.tidied.sameView hs)

/-- A swap that meets a lock tells what readers see if that is another value, and clears the lock if
    not. -/
theorem ensures_swapLocked (old : Option Bytes) (new : Bytes) (hopen : s.closed = false)
    (hs : Contents.Sound known s.raw) (huntouched : Untouched s s₁)
    (hitem : s.raw bucket key = some item) (hlock : item.lock = some lock) :
    (do
      let seen ← visible item
      if seen ≠ old then return some (.mismatch seen)
      resolveLock config bucket key item
      return none : Protocol (Option Swap)).Ensures (storing around .nothing) s₁ fun
        | .ok (some swap), s' => Swapped around config s bucket key old new (.ok swap) s'
        | .ok none, s' => Freed around config s bucket key s'
        | .error f, s' => Swapped around config s bucket key old new (.error f) s' := by
  refine Program.ensures_bind.mpr (ensures_visible (huntouched.same.closed.trans hopen)
    (huntouched.raw ▸ hs) ?_)
  rw [huntouched.raw, ← Contents.visible_of_item hitem]
  dsimp only
  split
  · next hother => exact Swapped.mismatch hother (huntouched.raw ▸ .refl _)
  · next hsame =>
    refine Program.ensures_bind.mpr ((ensures_freed hopen hs huntouched hitem hlock).mono ?_)
    rintro (f | _) s₂ hcleared
    · obtain ⟨owner, rfl, hbarred, hraw⟩ := hcleared
      exact .tried (Decidable.not_not.mp hsame) (.refused hbarred (hraw ▸ .refl _))
    · exact hcleared

/-- A compare-and-swap tells what readers see, or clears the lock of the key and writes. -/
theorem ensures_swapKey_swapped (hoffers : s.Offers bucket) (hs : Contents.Sound known s.raw)
    (hkey : isReservedKey key = false) (old : Option Bytes) (new : Bytes) :
    (swapKey config bucket key old new).Ensures (storing around .nothing) s
      (Swapped around config s bucket key old new) := by
  refine ensures_retry (I := Attempted around config s bucket key) ?_ ?_ (.inl ⟨rfl, rfl⟩)
  · intro n s₁ hattempted
    refine Program.ensures_bind.mpr (ensures_unfailingWrite (hattempted.offers hoffers) ?_ ?_)
    · intro hholds s' _ hraw
      obtain ⟨hunlocked, hvalue⟩ := unlocked_of_holdsWith hholds
      refine Swapped.tried ?_ (Wrote.written (hattempted.free_of_unlocked hunlocked) ?_)
      · rw [hattempted.visible_of_unlocked hs hkey hunlocked, hvalue]
      · rw [hraw]
        exact Contents.shows_put hs hattempted.tidied hkey (some new)
    · intro hdeclined s' huntouched
      have hoffers' : s'.Offers bucket :=
        ⟨huntouched.same.closed.trans (hattempted.offers hoffers).1,
          (huntouched.same.contains bucket).trans (hattempted.offers hoffers).2⟩
      refine Program.ensures_bind.mpr (ensures_load ?_ ?_)
      · intro _
        rw [huntouched.raw]
        cases hitem : s₁.raw bucket key with
        | none =>
          obtain ⟨hother, hswapped⟩ := swapped_of_declined new hattempted hs hkey hdeclined
            (fun item heq => nomatch hitem.symm.trans heq) huntouched.raw
          rw [hitem] at hother hswapped
          dsimp only
          rw [if_pos (Option.isSome_iff_ne_none.mpr hother.symm)]
          exact hswapped
        | some item =>
          dsimp only
          split
          · next hlocked =>
            obtain ⟨hn, rfl⟩ := hattempted.first_of_locked hitem hlocked
            obtain ⟨lock, hlock⟩ := Option.isSome_iff_exists.mp hlocked
            refine (ensures_swapLocked old new hoffers.1 hs huntouched hitem hlock).mono ?_
            rintro (f | (_ | swap)) s₂ hends
            · exact hends
            · exact .inr ⟨hn, hends⟩
            · exact hends
          · next hlocked =>
            have hunlocked : ∀ item', s₁.raw bucket key = some item' → item'.isLocked = false := by
              intro item' heq
              cases hitem.symm.trans heq
              simpa using hlocked
            obtain ⟨hother, hswapped⟩ :=
              swapped_of_declined new hattempted hs hkey hdeclined hunlocked huntouched.raw
            rw [hitem, Option.bind_some] at hother hswapped
            rw [if_pos hother]
            exact hswapped
      · exact fun f hitems => absurd hitems (hoffers'.items_ne_error f)
  · exact fun _ hattempted => absurd rfl hattempted.ne_zero

/-! ### The calls of the engine -/

/-- What a write of one key has to do: it fails as unavailable exactly if the key is barred, and
    changes what readers see under that key only. -/
structure ExactWrite (s : MemoryItems) (barred : Prop) (action : String) (bucket key : Bytes)
    (value : Option Bytes) (answer : α) (step : Step MemoryItems (Except Failure α)) : Prop where
  unavailable : (∃ f, step.reply = .error f ∧ f.kind = .unavailable) ↔ barred
  refused : barred → Contents.SameView s.raw step.state.raw
  written : ¬barred → step.reply = .ok answer ∧
    Contents.Shows s.raw step.state.raw bucket key value
  uncontended : step.reply ≠ .error (.during action bucket key .contention)

/-- What a compare-and-swap has to do: it tells the value that readers see if that is not `old`, and
    otherwise writes as any other call does. -/
structure ExactSwap (s : MemoryItems) (barred : Prop) (bucket key : Bytes) (old : Option Bytes)
    (new : Bytes) (step : Step MemoryItems (Except Failure Swap)) : Prop where
  mismatch : Contents.visible s.raw bucket key ≠ old →
    step.reply = .ok (.mismatch (Contents.visible s.raw bucket key)) ∧
      Contents.SameView s.raw step.state.raw
  swapped : Contents.visible s.raw bucket key = old →
    ExactWrite s barred "compare-and-swap" bucket key (some new) (.took old) step

/-- What the calls on one key have to do. Reading is exact under every fault plan, since it writes
    nothing; the other calls are exact unless a fault strikes them. -/
structure ExactCalls (around : Surroundings) (config : Config) (s : MemoryItems)
    (bucket key : Bytes) : Prop where
  get_state : ((Engine.driver (itemStore around) config).get bucket key s).state = s
  get_found : ∀ value, Contents.visible s.raw bucket key = some value →
    ((Engine.driver (itemStore around) config).get bucket key s).reply = .ok value
  get_missing : Contents.visible s.raw bucket key = none →
    ∃ f, ((Engine.driver (itemStore around) config).get bucket key s).reply = .error f ∧
      f.kind = .notFound
  set : ∀ value, Unstruck around (Engine.set config bucket key value) s →
    ExactWrite s (∃ owner, BarredNow around config s bucket key owner) "set" bucket key (some value)
      () ((Engine.driver (itemStore around) config).set bucket key value s)
  delete : Unstruck around (Engine.delete config bucket key) s →
    ExactWrite s (∃ owner, BarredNow around config s bucket key owner) "delete" bucket key none
      () ((Engine.driver (itemStore around) config).delete bucket key s)
  swap : ∀ old new, Unstruck around (Engine.compareAndSwap config bucket key old new) s →
    ExactSwap s (∃ owner, BarredNow around config s bucket key owner) bucket key old new
      ((Engine.driver (itemStore around) config).compareAndSwap bucket key old new s)

theorem Wrote.exact {value : Option Bytes} {answer : α} {r : Except Failure α}
    (h : Wrote around config s bucket key value answer r s') (action : String)
    (log : List Log.Line) :
    ExactWrite s (∃ owner, BarredNow around config s bucket key owner) action bucket key value answer
      ⟨r.mapError (.during action bucket key), s', log⟩ := by
  cases h with
  | @refused owner _ hbarred hview =>
    refine ⟨⟨fun _ => ⟨owner, hbarred⟩, fun _ => ⟨_, rfl, rfl⟩⟩, fun _ => hview, ?_, ?_⟩
    · exact fun hfree => absurd ⟨owner, hbarred⟩ hfree
    · intro heq
      cases heq
  | written hfree hshows =>
    have hunbarred : ¬∃ owner, BarredNow around config s bucket key owner :=
      fun ⟨owner, hbarred⟩ => hfree owner hbarred
    refine ⟨⟨?_, fun hbarred => absurd hbarred hunbarred⟩, fun hbarred => absurd hbarred hunbarred,
      fun _ => ⟨rfl, hshows⟩, fun heq => nomatch heq⟩
    rintro ⟨f, hf, _⟩
    cases hf

theorem Swapped.exact {old : Option Bytes} {new : Bytes} {r : Except Failure Swap}
    (h : Swapped around config s bucket key old new r s') (log : List Log.Line) :
    ExactSwap s (∃ owner, BarredNow around config s bucket key owner) bucket key old new
      ⟨r.mapError (.during "compare-and-swap" bucket key), s', log⟩ := by
  cases h with
  | mismatch hother hview => exact ⟨fun _ => ⟨rfl, hview⟩, fun heq => absurd heq hother⟩
  | tried hsame hwrote => exact ⟨fun hother => absurd hsame hother, fun _ => hwrote.exact _ log⟩

section

variable (hname : checkKey bucket key = .ok ()) (hkey : isReservedKey key = false)
include hname hkey

/-- A call on a key that users may name runs its protocol, and names the action in what fails. -/
theorem ensures_onKey_named {action : String} {p : Protocol α}
    {Q : Except Failure α → MemoryItems → Prop} (h : p.Ensures (storing around t) s Q) :
    (Engine.onKey action bucket key p).Ensures (storing around t) s fun r s' =>
      ∃ r', r = r'.mapError (.during action bucket key) ∧ Q r' s' := by
  refine ensures_onKey ?_ ?_ ?_
  · intro f hf
    rw [hname] at hf
    cases hf
  · intro hreserved
    rw [hkey] at hreserved
    cases hreserved
  · exact fun _ _ => h.mono fun r s' hQ => ⟨r, rfl, hQ⟩

end

theorem exactWrite_run {action : String} {value : Option Bytes} {p : Protocol Unit}
    (hname : checkKey bucket key = .ok ()) (hkey : isReservedKey key = false)
    (hp : p.Ensures (storing around .nothing) s (Wrote around config s bucket key value ()))
    (hunstruck : Unstruck around (Engine.onKey action bucket key p) s) :
    ExactWrite s (∃ owner, BarredNow around config s bucket key owner) action bucket key value ()
      ((Engine.onKey action bucket key p).run (respond around) s) := by
  obtain ⟨r, hreply, hwrote⟩ := run_of_unstruck (ensures_onKey_named hname hkey hp) hunstruck
  have hexact := hwrote.exact action ((Engine.onKey action bucket key p).run (respond around) s).log
  rwa [← hreply] at hexact

/-- **Calls on one key are exact.** From every reachable store, for every bucket that it offers and
    every key that users may name: what the calls answer, and what they change, is told by what
    readers see under the key and by whether a transaction bars it. -/
theorem single_key_calls_exact (hids : around.Addressable) (hs : Reachable around admits s)
    (hoffers : s.Offers bucket) (hne : key ≠ []) (hkey : isReservedKey key = false)
    (config : Config) : ExactCalls around config s bucket key := by
  have hsound := sound_of_reachable hids hs
  have hname : checkKey bucket key = .ok () := by
    unfold checkKey
    rw [named_of_reachable hs hoffers.2]
    cases key with
    | nil => exact absurd rfl hne
    | cons _ _ => rfl
  have hread : (readKey bucket key).Ensures (storing around .faults) s _ :=
    ensures_readKey hoffers hsound
  have hget : (Engine.get bucket key).Ensures (storing around .faults) s _ :=
    ensures_onKey_named hname hkey hread
  obtain ⟨r, hreply, hstate, hr⟩ := run_of_faults hget
  constructor
  · exact hstate
  · intro value hvalue
    rw [hvalue] at hr
    subst hr
    exact hreply
  · intro hnone
    rw [hnone] at hr
    subst hr
    exact ⟨_, hreply, rfl⟩
  · intro value hunstruck
    exact exactWrite_run hname hkey (ensures_writeKey_wrote hoffers hsound hkey (some value)) hunstruck
  · intro hunstruck
    exact exactWrite_run hname hkey (ensures_writeKey_wrote hoffers hsound hkey none) hunstruck
  · intro old new hunstruck
    obtain ⟨r, hreply, hswapped⟩ := run_of_unstruck (ensures_onKey_named hname hkey
      (ensures_swapKey_swapped hoffers hsound hkey old new)) hunstruck
    have hexact := hswapped.exact
      ((Engine.compareAndSwap config bucket key old new).run (respond around) s).log
    rwa [← hreply] at hexact

/-- An update stops when it has locked both of its keys, and nothing fails any more. -/
def interrupted : MemoryItems :=
  [.request {} (.create [65]), .request {} (.create [66]), .faults (some ⟨3, true⟩),
    .request {} (.update [.set [65] [97] [49], .set [66] [98] [50]]), .faults none].foldl
      (Event.step still) {}

/-- The update that was interrupted bars its keys, so it refuses whoever wants to write there. -/
theorem single_key_calls_exact_interrupted :
    (still.Addressable ∧ Reachable still (fun _ => True) interrupted ∧ interrupted.Offers [65] ∧
      ([97] : Bytes) ≠ [] ∧ isReservedKey [97] = false ∧
      Unstruck still (Engine.set {} [65] [97] [51]) interrupted ∧
      BarredNow still {} interrupted [65] [97] "p") ∧
    ExactCalls still {} interrupted [65] [97] := by
  have hreachable : Reachable still (fun _ => True) interrupted :=
    Reachable.empty.run (by decide) (fun _ _ => trivial)
  have hoffers : interrupted.Offers [65] := ⟨by decide +kernel, by decide +kernel⟩
  have hbarred : BarredNow still {} interrupted [65] [97] "p" := by
    refine ⟨⟨none, some ⟨"p", [65], .keep⟩⟩, ⟨"p", [65], .keep⟩,
      ⟨"p", .pending, [([65], [97]), ([66], [98])], 0⟩, ?_⟩
    decide +kernel
  refine ⟨⟨addressable_still, hreachable, hoffers, by decide, by decide, ?_, hbarred⟩, ?_⟩
  · decide +kernel
  · exact single_key_calls_exact addressable_still hreachable hoffers (by decide) (by decide) {}

end BucketStore.Staging
