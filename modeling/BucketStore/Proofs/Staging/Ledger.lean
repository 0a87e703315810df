/-
  BucketStore/Proofs/Staging/Ledger.lean
  ======================================
  **No identifier is used twice.**

  Of all that clients do to a store, only a `Ledger` matters to the lives of
  records: which records are stored, which identifiers were drawn, and which of
  them their clients have not used yet.  A `Turn` is what one step may do to it.

  Every turn keeps an identifier to one use, in the hands of one client or in one
  record (`Turn.good`).  So a record that was decided is not changed any more, and
  once it is forgotten it does not come back: its identifier is nobody's
  (`Turn.spent`).
-/
import BucketStore.Proofs.Staging.RecordLife
import Mathlib.Logic.Function.Basic
import Mathlib.Logic.Relation

namespace BucketStore.Staging

/-- The records in a store, the identifiers drawn so far, and for every client the one that it drew
    and has not used. -/
structure Ledger where
  records : Places Record
  drawn : String → Prop
  fresh : Nat → Option String

/-- What one step may do to a ledger. -/
inductive Turn : Ledger → Ledger → Prop
  /-- Clients lose what they drew. -/
  | drops {l : Ledger} {fresh : Nat → Option String}
      (hfresh : ∀ i, fresh i = l.fresh i ∨ fresh i = none) : Turn l { l with fresh }
  | draws {l : Ledger} (i : Nat) {id : String} (hnew : ¬l.drawn id) :
      Turn l { l with
        drawn := fun id' => l.drawn id' ∨ id' = id
        fresh := Function.update l.fresh i (some id) }
  | writes {l : Ledger} {i : Nat} {bucket key : Bytes} {x : Option Record}
      (hlife : Life (l.fresh i) (l.records bucket key) x) (hkey : ∀ r, x = some r → key = r.key) :
      Turn l { l with
        records := l.records.put bucket key x
        fresh := Function.update l.fresh i none }

namespace Ledger

/-- Every identifier has at most one use: in the hands of one client, or in one record. -/
structure Good (l : Ledger) : Prop where
  keys : ∀ b k r, l.records b k = some r → k = r.key
  recorded : ∀ b k r, l.records b k = some r → l.drawn r.id
  held : ∀ i id, l.fresh i = some id → l.drawn id
  alone : ∀ i j id, l.fresh i = some id → l.fresh j = some id → i = j
  unused : ∀ i b k r, l.records b k = some r → l.fresh i ≠ some r.id
  placed : ∀ b k r b' k' r', l.records b k = some r → l.records b' k' = some r' → r.id = r'.id → b = b'

/-- The record was stored in the bucket; there it is still, or nowhere, and its identifier is not
    going to be used again. -/
structure Spent (bucket : Bytes) (r : Record) (l : Ledger) : Prop where
  drawn : l.drawn r.id
  nobody : ∀ i, l.fresh i ≠ some r.id
  only : ∀ b k r', l.records b k = some r' → r'.id = r.id → b = bucket ∧ r' = r

theorem Good.spent {l : Ledger} (h : l.Good) {bucket key : Bytes} {r : Record}
    (hr : l.records bucket key = some r) : l.Spent bucket r where
  drawn := h.recorded bucket key r hr
  nobody i := h.unused i bucket key r hr
  only := by
    intro b k r' hr' hid
    have hb : b = bucket := h.placed b k r' bucket key r hr' hr hid
    have hk : k = key := by
      rw [h.keys b k r' hr', h.keys bucket key r hr]
      exact congrArg recordKey hid
    subst hb hk
    exact ⟨rfl, Option.some.inj (hr'.symm.trans hr)⟩

end Ledger

variable {l l' : Ledger} {i j : Nat} {bucket key : Bytes} {x : Option Record} {r : Record} {id : String}

/-- Losing what one client drew takes from the others nothing. -/
theorem update_none_or (fresh : Nat → Option String) (i j : Nat) :
    Function.update fresh i none j = fresh j ∨ Function.update fresh i none j = none := by
  by_cases heq : j = i
  · subst heq
    exact .inr (Function.update_self ..)
  · exact .inl (Function.update_of_ne heq ..)

theorem fresh_update_none (h : Function.update l.fresh i none j = some id) :
    l.fresh j = some id ∧ j ≠ i := by
  by_cases heq : j = i
  · subst heq
    rw [Function.update_self] at h
    cases h
  · rw [Function.update_of_ne heq] at h
    exact ⟨h, heq⟩

theorem fresh_update_some {id' : String} (h : Function.update l.fresh i (some id) j = some id') :
    (j = i ∧ id' = id) ∨ l.fresh j = some id' := by
  by_cases heq : j = i
  · subst heq
    rw [Function.update_self] at h
    exact .inl ⟨rfl, (Option.some.inj h).symm⟩
  · rw [Function.update_of_ne heq] at h
    exact .inr h

/-- A record that is written goes on from the one in its place, or is new. -/
theorem Life.origin {fresh : Option String} {before : Option Record} (h : Life fresh before x)
    (hx : x = some r) : (∃ r', before = some r' ∧ r'.id = r.id) ∨ fresh = some r.id := by
  cases h with
  | announced hfresh _ => exact .inr (Option.some.inj hx ▸ hfresh)
  | @committed r' _ => exact .inl ⟨r', rfl, by cases hx; rfl⟩
  | @aborted r' _ => exact .inl ⟨r', rfl, by cases hx; rfl⟩
  | forgotten _ => cases hx

/-- What is written in place of a record that is decided is nothing. -/
theorem Life.of_decided {fresh : Option String} (h : Life fresh (some r) x) (hr : r.Decided) :
    x = none := by
  cases h with
  | committed hpending => rcases hr with heq | heq <;> rw [hpending] at heq <;> cases heq
  | aborted hpending => rcases hr with heq | heq <;> rw [hpending] at heq <;> cases heq
  | forgotten _ => rfl

/-- Where a record stands after a write, one with its identifier stood before; or the identifier was
    the writer's. -/
theorem origin_of_writes {b k : Bytes} (hlife : Life (l.fresh i) (l.records bucket key) x)
    (hr : l.records.put bucket key x b k = some r) :
    (∃ r', l.records b k = some r' ∧ r'.id = r.id) ∨
      l.fresh i = some r.id ∧ b = bucket ∧ k = key := by
  unfold Places.put at hr
  split at hr
  · next heq =>
    obtain ⟨rfl, rfl⟩ := heq
    exact (hlife.origin hr).imp_right fun hfresh => ⟨hfresh, rfl, rfl⟩
  · exact .inl ⟨r, hr, rfl⟩

theorem good_of_writes (hlife : Life (l.fresh i) (l.records bucket key) x)
    (hkey : ∀ r, x = some r → key = r.key) (h : l.Good) :
    Ledger.Good { l with
      records := l.records.put bucket key x
      fresh := Function.update l.fresh i none } where
  keys := by
    intro b k r hr
    dsimp only at hr
    unfold Places.put at hr
    split at hr
    · next heq => exact heq.2.trans (hkey r hr)
    · exact h.keys b k r hr
  recorded := by
    intro b k r hr
    rcases origin_of_writes hlife hr with ⟨r', hr', hid⟩ | ⟨hfresh, _⟩
    · exact hid ▸ h.recorded b k r' hr'
    · exact h.held i r.id hfresh
  held := fun j id hj => h.held j id (fresh_update_none hj).1
  alone := fun j j' id hj hj' => h.alone j j' id (fresh_update_none hj).1 (fresh_update_none hj').1
  unused := by
    intro j b k r hr hj
    obtain ⟨hj, hne⟩ := fresh_update_none hj
    rcases origin_of_writes hlife hr with ⟨r', hr', hid⟩ | ⟨hfresh, _⟩
    · exact h.unused j b k r' hr' (hid ▸ hj)
    · exact hne (h.alone j i r.id hj hfresh)
  placed := by
    intro b k r b' k' r' hr hr' hid
    rcases origin_of_writes hlife hr with ⟨q, hq, hqid⟩ | ⟨hfresh, hb, _⟩
    · rcases origin_of_writes hlife hr' with ⟨q', hq', hqid'⟩ | ⟨hfresh, _⟩
      · exact h.placed b k q b' k' q' hq hq' (hqid.trans (hid.trans hqid'.symm))
      · exact absurd (hfresh.trans (congrArg some (hqid.trans hid).symm)) (h.unused i b k q hq)
    · rcases origin_of_writes hlife hr' with ⟨q', hq', hqid'⟩ | ⟨_, hb', _⟩
      · exact absurd (hfresh.trans (congrArg some (hid.trans hqid'.symm))) (h.unused i b' k' q' hq')
      · exact hb.trans hb'.symm

/-- Every turn keeps the uses of identifiers apart. -/
theorem Turn.good (hturn : Turn l l') (h : l.Good) : l'.Good := by
  cases hturn with
  | @drops fresh hfresh =>
    have hkept : ∀ i id, fresh i = some id → l.fresh i = some id := by
      intro i id hi
      rcases hfresh i with heq | heq
      · rw [← heq, hi]
      · rw [heq] at hi
        cases hi
    exact ⟨h.keys, h.recorded, fun i id hi => h.held i id (hkept i id hi),
      fun i j id hi hj => h.alone i j id (hkept i id hi) (hkept j id hj),
      fun i b k r hr hi => h.unused i b k r hr (hkept i r.id hi), h.placed⟩
  | @draws i id hnew =>
    refine ⟨h.keys, fun b k r hr => .inl (h.recorded b k r hr), ?_, ?_, ?_, h.placed⟩
    · intro j id' hj
      rcases fresh_update_some hj with ⟨_, rfl⟩ | hold
      · exact .inr rfl
      · exact .inl (h.held j id' hold)
    · intro j j' id' hj hj'
      rcases fresh_update_some hj with ⟨rfl, rfl⟩ | hold
      · rcases fresh_update_some hj' with ⟨rfl, _⟩ | hold'
        · rfl
        · exact absurd (h.held j' id' hold') hnew
      · rcases fresh_update_some hj' with ⟨_, rfl⟩ | hold'
        · exact absurd (h.held j id' hold) hnew
        · exact h.alone j j' id' hold hold'
    · intro j b k r hr hj
      rcases fresh_update_some hj with ⟨_, hid⟩ | hold
      · exact hnew (hid ▸ h.recorded b k r hr)
      · exact h.unused j b k r hr hold
  | writes hlife hkey => exact good_of_writes hlife hkey h

/-- No turn changes or brings back a record that was decided. -/
theorem Turn.spent (hturn : Turn l l') (hr : r.Decided) (h : l.Spent bucket r) :
    l'.Spent bucket r := by
  cases hturn with
  | @drops fresh hfresh =>
    refine ⟨h.drawn, fun i hi => ?_, h.only⟩
    rcases hfresh i with heq | heq
    · exact h.nobody i (heq ▸ hi)
    · cases heq.symm.trans hi
  | @draws i id hnew =>
    refine ⟨.inl h.drawn, fun j hj => ?_, h.only⟩
    rcases fresh_update_some hj with ⟨_, hid⟩ | hold
    · exact hnew (hid ▸ h.drawn)
    · exact h.nobody j hold
  | @writes i b k x hlife hkey =>
    refine ⟨h.drawn, fun j hj => h.nobody j (fresh_update_none hj).1, ?_⟩
    intro b' k' r' hr' hid
    dsimp only at hr'
    by_cases heq : b' = b ∧ k' = k
    · obtain ⟨rfl, rfl⟩ := heq
      rw [Places.put_same] at hr'
      rcases hlife.origin hr' with ⟨q, hq, hqid⟩ | hfresh
      · obtain ⟨_, rfl⟩ := h.only b' k' q hq (hqid.trans hid)
        rw [hq] at hlife
        rw [hlife.of_decided hr] at hr'
        cases hr'
      · exact absurd (hfresh.trans (congrArg some hid)) (h.nobody i)
    · rw [Places.put_other heq] at hr'
      exact h.only b' k' r' hr' hid

/-! ### Any number of turns -/

theorem good_of_turns (hturns : Relation.ReflTransGen Turn l l') (h : l.Good) : l'.Good := by
  induction hturns with
  | refl => exact h
  | tail _ hturn ih => exact hturn.good ih

theorem spent_of_turns (hturns : Relation.ReflTransGen Turn l l') (hr : r.Decided)
    (h : l.Spent bucket r) : l'.Spent bucket r := by
  induction hturns with
  | refl => exact h
  | tail _ hturn ih => exact hturn.spent hr ih

/-- A record that is decided is never decided otherwise, nor made anew in another bucket. -/
theorem eq_of_turns (hturns : Relation.ReflTransGen Turn l l') (h : l.Good) {bucket' : Bytes}
    {r' : Record} (hr : l.records bucket key = some r) (hdecided : r.Decided)
    (hr' : l'.records bucket' key = some r') : bucket' = bucket ∧ r' = r := by
  have hspent : l'.Spent bucket r := spent_of_turns hturns hdecided (h.spent hr)
  refine hspent.only bucket' key r' hr' (recordKey_injective ?_)
  have hkey' : key = r'.key := (good_of_turns hturns h).keys bucket' key r' hr'
  exact hkey'.symm.trans (h.keys bucket key r hr)

end BucketStore.Staging
