/-
  BucketStore/Proofs/Staging/LostReplies.lean
  ===========================================
  **An update tells the truth although the replies to its writes get lost.**

  A script of `Rule.LosesReply` rules picks any of the writes, by number: each
  of them is decided and takes effect as usual, and is then reported as failed.
  All else is as in the store in memory (`allows_of_lossy`).

  Over such a store, in whatever state earlier calls with lost replies have left
  it, an update answers exactly if its record was committed, and it is seen as a
  whole or not at all (`update_truthful_despite_lost_replies`).
-/
import BucketStore.Proofs.Staging.Atomicity
import BucketStore.Proofs.Staging.Truthful
import BucketStore.Staging.Script

namespace BucketStore.Staging.Script

open MemoryItems

/-! ### Scripts that lose replies -/

/-- The rule does nothing but lose the replies to the writes that it applies to. -/
def Rule.LosesReply (rule : Rule) : Prop :=
  rule.on = .write ∧ rule.before = [] ∧ rule.verdict = .failAfter

instance (rule : Rule) : Decidable rule.LosesReply :=
  inferInstanceAs (Decidable (_ ∧ _ ∧ _))

/-- The script does nothing but lose replies to writes. -/
def Scripted.Lossy (t : Scripted) : Prop := ∀ rule ∈ t.rules, rule.LosesReply

variable {around : Surroundings} {t : Scripted} {rules : List Rule}

open Scripted

/-- Such a script is not used up, and only writes find a rule in it. -/
theorem takeRule_of_losesReply (on : CallClass) (n : Nat) (h : ∀ rule ∈ rules, rule.LosesReply) :
    (takeRule on n rules).2 = rules ∧
      ∀ rule, (takeRule on n rules).1 = some rule → on = .write ∧ rule.LosesReply := by
  induction rules with
  | nil => exact ⟨rfl, nofun⟩
  | cons rule rest ih =>
    obtain ⟨hrule, hrest⟩ := List.forall_mem_cons.mp h
    unfold takeRule
    cases hmatches : rule.matches on n with
    | true =>
      have hon : rule.on = on := by
        unfold Rule.matches at hmatches
        simp only [Bool.and_eq_true, beq_iff_eq] at hmatches
        exact hmatches.1.1
      refine ⟨?_, ?_⟩
      · change { rule with before := [] } :: rest = rule :: rest
        rw [← hrule.2.1]
      · rintro _ ⟨⟩
        exact ⟨hon.symm.trans hrule.1, hrule⟩
    | false =>
      obtain ⟨hsame, hfound⟩ := ih hrest
      exact ⟨congrArg (rule :: ·) hsame, hfound⟩

theorem Scripted.Lossy.of_rules {t' : Scripted} (h : t.Lossy) (hsame : t'.rules = t.rules) : t'.Lossy :=
  fun rule hrule => h rule (hsame ▸ hrule)

/-- A call finds the store and the script unchanged, and goes through unless it is a write whose reply
    gets lost. -/
theorem meet_of_lossy (on : CallClass) (h : t.Lossy) : ∃ verdict failure t',
    t.meet on = (verdict, failure, t') ∧ t'.store = t.store ∧ t'.rules = t.rules ∧
      (verdict = .pass ∨ on = .write ∧ verdict = .failAfter) := by
  have hcounted : (t.counted on).store = t.store := by cases on <;> rfl
  obtain ⟨hrules, hfound⟩ := takeRule_of_losesReply on (t.count on) h
  unfold meet
  generalize takeRule on (t.count on) t.rules = taken at hrules hfound ⊢
  obtain ⟨found, left⟩ := taken
  dsimp only at hrules hfound
  subst hrules
  cases found with
  | none => exact ⟨.pass, _, _, rfl, hcounted, rfl, .inl rfl⟩
  | some rule =>
    obtain ⟨hon, _, hbefore, hverdict⟩ := hfound rule rfl
    refine ⟨rule.verdict, _, _, rfl, ?_, rfl, .inr ⟨hon, hverdict⟩⟩
    rw [hbefore]
    exact hcounted

/-- But for the lost replies the scripted store is the store in memory. -/
theorem allows_of_lossy (h : t.Lossy) (c : Call) :
    (storing around .anything).allows c t.store (Scripted.respond around c t).reply
        (Scripted.respond around c t).state.store ∧
      (Scripted.respond around c t).state.rules = t.rules := by
  have hmemory : ∀ c, (storing around .anything).allows c t.store
      (MemoryItems.respond around c t.store).reply (MemoryItems.respond around c t.store).state :=
    fun c => storing_of_respond c t.store (.inl trivial)
  cases c with
  | now => exact ⟨hmemory .now, rfl⟩
  | freshId => exact ⟨hmemory .freshId, rfl⟩
  | load bucket key =>
    obtain ⟨_, failure, t', hmet, hstore, hrules, rfl | ⟨⟨⟩, _⟩⟩ := meet_of_lossy .load h
    change (storing around .anything).allows (.load bucket key) t.store (t.load bucket key).reply
      (t.load bucket key).state.store ∧ (t.load bucket key).state.rules = t.rules
    unfold Scripted.load
    rw [hmet]
    exact ⟨hstore ▸ ⟨rfl, rfl⟩, hrules⟩
  | scan bucket token limit =>
    obtain ⟨_, failure, t', hmet, hstore, hrules, rfl | ⟨⟨⟩, _⟩⟩ := meet_of_lossy .scan h
    change (storing around .anything).allows (.scan bucket token limit) t.store
      (t.scan bucket token limit).reply (t.scan bucket token limit).state.store ∧
        (t.scan bucket token limit).state.rules = t.rules
    unfold Scripted.scan
    rw [hmet]
    exact ⟨hstore ▸ ⟨rfl, rfl⟩, hrules⟩
  | write bucket key x condition =>
    obtain ⟨verdict, failure, t', hmet, hstore, hrules, hverdict⟩ := meet_of_lossy .write h
    have hwritten : Written .anything bucket key x condition t.store
        (t.store.write bucket key x condition).reply (t.store.write bucket key x condition).state :=
      hmemory (.write bucket key x condition)
    change Written .anything bucket key x condition t.store (t.write bucket key x condition).reply
      (t.write bucket key x condition).state.store ∧
        (t.write bucket key x condition).state.rules = t.rules
    unfold Scripted.write
    rw [hmet]
    rw [← hstore] at hwritten ⊢
    rcases hverdict with rfl | ⟨_, rfl⟩
    · exact ⟨hwritten, hrules⟩
    · -- The write is decided as usual, and then reported as failed.
      dsimp only
      generalize t'.store.write bucket key x condition = step at hwritten ⊢
      obtain ⟨reply, s', log⟩ := step
      cases reply with
      | error f => exact ⟨hwritten, hrules⟩
      | ok decided => exact ⟨hwritten.unreported trivial trivial failure, hrules⟩

/-! ### Any choice of writes -/

/-- The script that loses the replies to the writes of these numbers. -/
def loseReplies (numbers : List Nat) : List Rule :=
  numbers.map fun n => { on := .write, first := n, verdict := .failAfter }

theorem losesReply_of_mem (numbers : List Nat) : ∀ rule ∈ loseReplies numbers, rule.LosesReply := by
  intro rule hrule
  obtain ⟨n, _, rfl⟩ := List.mem_map.mp hrule
  exact ⟨rfl, rfl, rfl⟩

/-- The rule that is found for a write is the one made for its number. -/
theorem takeRule_loseReplies (n : Nat) (numbers : List Nat) :
    (takeRule .write n (loseReplies numbers)).1 =
      if n ∈ numbers then some { on := .write, first := n, verdict := .failAfter } else none := by
  induction numbers with
  | nil => rfl
  | cons m rest ih =>
    unfold loseReplies at ih ⊢
    rw [List.map_cons]
    unfold takeRule
    by_cases heq : n = m
    · subst heq
      simp [Rule.matches]
    · have hother :
          Rule.matches { on := .write, first := m, verdict := .failAfter } .write n = false := by
        simp only [Rule.matches, beq_self_eq_true, Bool.true_and, Bool.and_eq_false_iff,
          decide_eq_false_iff_not]
        omega
      rw [if_neg (by rw [hother]; exact Bool.false_ne_true)]
      simpa only [List.mem_cons, heq, false_or] using ih

/-- Exactly the replies to the chosen writes get lost. -/
theorem meet_loseReplies {numbers : List Nat} (h : t.rules = loseReplies numbers) :
    (t.meet .write).1 = .failAfter ↔ t.writes ∈ numbers := by
  have hfound := takeRule_loseReplies (t.count .write) numbers
  change _ ↔ t.count .write ∈ numbers
  unfold meet
  rw [h]
  generalize takeRule .write (t.count .write) (loseReplies numbers) = taken at hfound ⊢
  obtain ⟨found, left⟩ := taken
  dsimp only at hfound
  subst hfound
  by_cases hmem : t.count .write ∈ numbers
  · simp only [hmem, if_true]
  · simp only [hmem, if_false]
    exact ⟨nofun, False.elim⟩

/-- The write takes effect as in memory, and it is answered as there, unless its number is one of
    these: then a fault is reported. -/
structure LosesAt (numbers : List Nat) (t : Scripted) (bucket key : Bytes) (item : Option Item)
    (condition : Precondition) : Prop where
  effect : (t.write bucket key item condition).state.store =
    (t.store.write bucket key item condition).state
  lost : t.writes ∈ numbers → ∃ f, (t.write bucket key item condition).reply = .error f
  kept : t.writes ∉ numbers →
    (t.write bucket key item condition).reply = (t.store.write bucket key item condition).reply

theorem losesAt_of_rules {numbers : List Nat} (h : t.rules = loseReplies numbers) (bucket key : Bytes)
    (item : Option Item) (condition : Precondition) :
    LosesAt numbers t bucket key item condition := by
  have hlossy : t.Lossy := fun rule hrule => losesReply_of_mem numbers rule (h ▸ hrule)
  have hchosen := meet_loseReplies h
  obtain ⟨verdict, failure, t', hmet, hstore, -, hverdict⟩ := meet_of_lossy .write hlossy
  rw [hmet] at hchosen
  rcases hverdict with rfl | ⟨-, rfl⟩
  · have hnot : t.writes ∉ numbers := fun hmem => nomatch hchosen.mpr hmem
    refine ⟨?_, fun hmem => absurd hmem hnot, fun _ => ?_⟩
    · unfold Scripted.write
      rw [hmet, ← hstore]
      rfl
    · unfold Scripted.write
      rw [hmet, ← hstore]
  · have hmem : t.writes ∈ numbers := hchosen.mp rfl
    refine ⟨?_, fun _ => ?_, fun hnot => absurd hmem hnot⟩
    · unfold Scripted.write
      rw [hmet, ← hstore]
      dsimp only
      obtain ⟨_ | _, _, _⟩ := t'.store.write bucket key item condition <;> rfl
    · unfold Scripted.write
      rw [hmet]
      dsimp only
      obtain ⟨_ | _, _, _⟩ := t'.store.write bucket key item condition
      · exact ⟨_, rfl⟩
      · exact ⟨_, rfl⟩

/-! ### Runs -/

/-- The script stays as it is while a program runs. -/
theorem rules_calls {α : Type} (p : Protocol α) (h : t.Lossy) :
    ∀ e ∈ p.calls (Scripted.respond around) t, e.2.rules = t.rules := by
  intro e he
  obtain ⟨⟨⟩, hsame⟩ := (Program.Ensures.free p).calls_along (Scripted.respond around)
    (fun u _ => u.rules = t.rules)
    (fun c u s hsame _ => ⟨s, trivial, (allows_of_lossy (h.of_rules hsame) c).2.trans hsame⟩) rfl e he
  exact hsame

/-- A run ends as is ensured whatever goes wrong with writes, and leaves the script as lossy. -/
theorem run_of_lossy {α : Type} {p : Protocol α} {Q : Except Failure α → MemoryItems → Prop}
    (h : p.Ensures (storing around .anything) t.store Q) (ht : t.Lossy) :
    Q (p.run (Scripted.respond around) t).reply (p.run (Scripted.respond around) t).state.store ∧
      (p.run (Scripted.respond around) t).state.Lossy := by
  have hrun := h.run (Scripted.respond around) (fun t s => t.store = s ∧ t.Lossy) ?_ ⟨rfl, ht⟩
  · obtain ⟨_, hQ, rfl, hlossy⟩ := hrun
    exact ⟨hQ, hlossy⟩
  · rintro c t _ ⟨rfl, hlossy⟩ _
    obtain ⟨hallowed, hrules⟩ := allows_of_lossy hlossy c
    exact ⟨_, hallowed, rfl, hlossy.of_rules hrules⟩

/-! ### Stores that have lost replies -/

/-- The scripted store after an event. A fault plan is one of the store below. -/
def Scripted.step (around : Surroundings) (t : Scripted) : Event → Scripted
  | .request config r => ((Engine.driver (Scripted.itemStore around) config).perform r t).state
  | .recover config bucket => (Engine.recoverOn (Scripted.itemStore around) config bucket t).state
  | .faults plan => { t with store := { t.store with fault := plan } }

/-- The states that events lead to while scripts lose replies, one script after another. -/
inductive Reachable (around : Surroundings) : Scripted → Prop
  | empty : Reachable around {}
  | install {t : Scripted} (h : Reachable around t) {rules : List Rule}
      (hrules : ∀ rule ∈ rules, rule.LosesReply) : Reachable around (t.install rules)
  | step {t : Scripted} {e : Event} (h : Reachable around t) (hsize : e.Addressable) :
      Reachable around (t.step around e)

theorem Reachable.run (h : Reachable around t) {events : List Event}
    (hsize : ∀ e ∈ events, e.Addressable) :
    Reachable around (events.foldl (Scripted.step around) t) := by
  induction events generalizing t with
  | nil => exact h
  | cons e events ih =>
    rw [List.forall_mem_cons] at hsize
    exact ih (h.step hsize.1) hsize.2

/-- The store is well-formed, and its script does nothing but lose replies. -/
structure Scripted.Fit (around : Surroundings) (t : Scripted) : Prop where
  sound : t.store.Sound around
  lossy : t.Lossy

theorem fit_run {α : Type} {p : Protocol α} (h : Issues p) (hids : around.Addressable)
    (ht : t.Fit around) : (p.run (Scripted.respond around) t).state.Fit around := by
  obtain ⟨hsound, hlossy⟩ := run_of_lossy (ensures_sound h hids ht.sound) ht.lossy
  exact ⟨hsound, hlossy⟩

theorem fit_step (hids : around.Addressable) {e : Event} (hsize : e.Addressable)
    (ht : t.Fit around) : (t.step around e).Fit around := by
  cases e with
  | faults plan => exact ⟨ht.sound, ht.lossy⟩
  | recover config bucket => exact fit_run (issues_recover config _ bucket) hids ht
  | request config r =>
    apply state_perform_of
    · exact fun call hcall _ => fit_run (issues_program (hcall hsize)) hids ht
    · exact fun _ _ => ⟨sound_createBucket ht.sound, ht.lossy⟩
    · exact fun _ _ => ⟨sound_deleteBucket ht.sound, ht.lossy⟩
    · exact ⟨ht.sound, ht.lossy⟩
    · exact ht

theorem fit_of_reachable (hids : around.Addressable) (h : Reachable around t) : t.Fit around := by
  induction h with
  | empty => exact ⟨fun _ _ _ hitem => (nomatch hitem), nofun⟩
  | install _ hrules ih => exact ⟨ih.sound, hrules⟩
  | step _ hsize ih => exact fit_step hids hsize ih

/-! ### The update -/

/-- **An update tells the truth although replies get lost.** From every reachable store, and for
    every choice of writes whose replies get lost: an update of some operations answers if and only
    if its record came to be committed on the way. If it answers it has applied its operations, in
    order and as a whole, to the values that readers saw, and if it fails it has changed none of
    them. Its identifier has to be new. The writes may be chosen by their numbers: exactly their
    replies get lost on the way. -/
theorem update_truthful_despite_lost_replies (hids : around.Addressable) (ht : Reachable around t)
    {lost : List Rule} (hlost : ∀ rule ∈ lost, rule.LosesReply) {tx : Transaction}
    (htx : tx.Addressable) (hne : tx ≠ [])
    (hnew : ∀ i < t.store.drawn, around.ids i ≠ around.ids t.store.drawn) (config : Config) :
    ((∃ outcome, ((Engine.driver (Scripted.itemStore around) config).update tx
          (t.install lost)).reply = .ok outcome) ↔
        ∃ u ∈ (Engine.update config .memory tx).passes (Scripted.respond around) (t.install lost),
          Contents.HasCommitted u.store.raw (around.ids t.store.drawn)) ∧
      AllOrNothing tx t.store.raw
        ((Engine.driver (Scripted.itemStore around) config).update tx (t.install lost)).state.store.raw
        ((Engine.driver (Scripted.itemStore around) config).update tx (t.install lost)).reply ∧
      ∀ numbers, lost = loseReplies numbers →
        ∀ e ∈ (Engine.update config .memory tx).calls (Scripted.respond around) (t.install lost),
          ∀ bucket key item condition, e.1 = .write bucket key item condition →
            LosesAt numbers e.2 bucket key item condition := by
  have hsound := (fit_of_reachable hids ht).sound
  have hforeign : Contents.Foreign (around.ids t.store.drawn) t.store.raw :=
    Contents.Sound.foreign hsound fun ⟨i, hi, heq⟩ => hnew i hi heq
  have hensures : (Engine.update config .memory tx).Ensures
      (watching around .anything (around.ids t.store.drawn)) (t.store, False) fun r s' =>
        Truthful r s' ∧ AllOrNothing tx t.store.raw s'.1.raw r := by
    have hrefused : ∀ f, Truthful (.error f) (t.store, False) ∧
        AllOrNothing tx t.store.raw t.store.raw (.error f) := fun f =>
      ⟨truthful_error id, .refl t.store.raw⟩
    apply ensures_engineUpdate
    · exact fun _ => hrefused _
    · exact fun f _ => hrefused f
    · exact fun _ f => hrefused f
    · intro _ huser
      have hended : (updateKeys config tx).Ensures (storing around .anything) t.store
          (Updated around .anything tx t.store) :=
        ensures_updateKeys_ended htx huser hids hsound hforeign
      exact (ensures_updateKeys_truthful htx hne huser hids hsound hforeign id).and
        ((hended.mono fun r s' h => h.allOrNothing hsound).noting False)
  obtain ⟨seen, ⟨htruth, hall⟩, hseen⟩ := hensures.run_noting (Scripted.respond around)
    Scripted.store Scripted.Lossy (fun c _ hlossy _ =>
      ⟨(allows_of_lossy hlossy c).1, hlossy.of_rules (allows_of_lossy hlossy c).2⟩)
    (t := t.install lost) hlost
  refine ⟨htruth.trans (hseen.trans (or_iff_right id)), hall, ?_⟩
  rintro numbers rfl e he bucket key item condition -
  have hlossy : (t.install (loseReplies numbers)).Lossy := hlost
  exact losesAt_of_rules (rules_calls _ hlossy e he) bucket key item condition

/-- The store after the crash, with its fault healed. -/
def mended : Scripted := (crash ++ [Event.faults none]).foldl (Scripted.step still) {}

/-- The reply to the commit of an update, its eighth write, and the replies to the next three get
    lost. -/
def lostFromCommit : List Rule := loseReplies [7, 8, 9, 10]

/-- The update of both keys finds the crashed transaction, hears of no success from its commit on,
    and answers all the same. -/
theorem update_truthful_despite_lost_commit :
    (still.Addressable ∧ Reachable still mended ∧ (∀ rule ∈ lostFromCommit, rule.LosesReply) ∧
        mended.store.drawn = 1) ∧
      ((Engine.driver (Scripted.itemStore still) {}).update [.set [65] [97] [51], .delete [66] [98]]
        (mended.install lostFromCommit)).reply.isOk = true ∧
      ((∃ outcome, ((Engine.driver (Scripted.itemStore still) {}).update
            [.set [65] [97] [51], .delete [66] [98]] (mended.install lostFromCommit)).reply =
              .ok outcome) ↔
          ∃ u ∈ (Engine.update {} .memory [.set [65] [97] [51], .delete [66] [98]]).passes
              (Scripted.respond still) (mended.install lostFromCommit),
            Contents.HasCommitted u.store.raw (still.ids mended.store.drawn)) ∧
        AllOrNothing [.set [65] [97] [51], .delete [66] [98]] mended.store.raw
          ((Engine.driver (Scripted.itemStore still) {}).update
            [.set [65] [97] [51], .delete [66] [98]] (mended.install lostFromCommit)).state.store.raw
          ((Engine.driver (Scripted.itemStore still) {}).update
            [.set [65] [97] [51], .delete [66] [98]] (mended.install lostFromCommit)).reply ∧
        ∀ e ∈ (Engine.update {} .memory [.set [65] [97] [51], .delete [66] [98]]).calls
            (Scripted.respond still) (mended.install lostFromCommit),
          ∀ bucket key item condition, e.1 = .write bucket key item condition →
            LosesAt [7, 8, 9, 10] e.2 bucket key item condition := by
  have hreachable : Reachable still mended := Reachable.empty.run (by decide)
  have hlost : ∀ rule ∈ lostFromCommit, rule.LosesReply := losesReply_of_mem _
  have hdrawn : mended.store.drawn = 1 := by decide +kernel
  have hnew : ∀ i < mended.store.drawn, still.ids i ≠ still.ids mended.store.drawn := by
    rw [hdrawn]
    decide
  have htx : Transaction.Addressable [.set [65] [97] [51], .delete [66] [98]] := by decide
  have hupdate := update_truthful_despite_lost_replies addressable_still hreachable hlost htx
    (by decide) hnew {}
  exact ⟨⟨addressable_still, hreachable, hlost, hdrawn⟩, by decide +kernel, hupdate.1, hupdate.2.1,
    hupdate.2.2 _ rfl⟩

end BucketStore.Staging.Script
