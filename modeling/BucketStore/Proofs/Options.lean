/-
  BucketStore/Proofs/Options.lean
  ===============================
  **The order of settings does not matter, and the last pair for a setting is the one that counts.**

  What a pair says is read without regard to the draft, and replaces one setting of the
  draft and nothing else (`put_eq`).  So pairs for different settings may change places
  (`foldlM_perm`), and a setting is forgotten where a pair for it follows
  (`foldlM_take`).  The credentials are decided from three settings together, but only
  when all pairs are read, from a draft that is the same in any order.

  Which fault is reported does depend on the order, since the first is; so drafts are
  compared through `toOption`.
-/
import BucketStore.Options
import BucketStore.Proofs.Fallible

namespace BucketStore

theorem Setting.name_of_ofName? {s : Setting} {text : String} (h : ofName? text = some s) :
    s.name = text := by
  simpa using List.find?_some h

namespace OptionDraft

variable {s t : Setting} {p q : String × String} {pairs pairs' : List (String × String)}

/-! ### One setting of a draft -/

/-- The draft with one setting as it is in another draft. -/
def take (d : OptionDraft) (s : Setting) (a : OptionDraft) : OptionDraft :=
  match s with
  | .credentials => { d with source := a.source }
  | .accessKeyId => { d with accessKeyId := a.accessKeyId }
  | .secretAccessKey => { d with secretAccessKey := a.secretAccessKey }
  | .consistency => { d with options.consistency := a.options.consistency }
  | .pageSize => { d with options.pageSize := a.options.pageSize }
  | .database => { d with options.database := a.options.database }
  | .endpointUrl => { d with options.endpointUrl := a.options.endpointUrl }
  | .maxConnections => { d with options.maxConnections := a.options.maxConnections }
  | .lockTimeout => { d with options.lockTimeout := a.options.lockTimeout }
  | .emulatedTransactions => { d with options.emulatedTransactions := a.options.emulatedTransactions }
  | .readCapacity => { d with options.readCapacity := a.options.readCapacity }
  | .writeCapacity => { d with options.writeCapacity := a.options.writeCapacity }
  | .cacheSize => { d with options.cacheSize := a.options.cacheSize }
  | .fsyncMs => { d with options.fsyncMs := a.options.fsyncMs }

theorem take_take (d : OptionDraft) (s : Setting) (a b : OptionDraft) :
    (d.take s a).take s b = d.take s b := by
  cases s <;> rfl

/-- Different settings are different parts of the draft. -/
theorem take_comm (d : OptionDraft) (h : s ≠ t) (a b : OptionDraft) :
    (d.take s a).take t b = (d.take t b).take s a := by
  cases s <;> cases t <;> first | rfl | exact absurd rfl h

/-- **A value is read without regard to the draft, and only its setting is taken over.** -/
theorem put_eq (d : OptionDraft) (s : Setting) (value : String) :
    d.put s value = (put {} s value).map (d.take s) := by
  cases s with
  | credentials | accessKeyId | secretAccessKey | database | endpointUrl => rfl
  | consistency =>
    simp only [put]
    cases freshness value <;> rfl
  | emulatedTransactions =>
    simp only [put]
    cases truth .emulatedTransactions value <;> rfl
  | pageSize =>
    simp only [put]
    cases number .pageSize (.unsigned 64) value with
    | error _ => rfl
    | ok n =>
      by_cases hzero : n = 0
      · simp only [hzero, bind, Except.bind, if_true]
        rfl
      · simp only [hzero, bind, Except.bind, if_false]
        rfl
  | maxConnections =>
    simp only [put]
    cases number .maxConnections (.unsigned 32) value <;> rfl
  | lockTimeout | cacheSize =>
    simp only [put]
    cases number _ (.unsigned 64) value <;> rfl
  | readCapacity | writeCapacity =>
    simp only [put]
    cases number _ (.signed 64) value <;> rfl
  | fsyncMs =>
    simp only [put]
    cases number .fsyncMs (.unsigned 16) value <;> rfl

/-! ### One pair -/

/-- The name of the setting that a pair is for. -/
def settingName (pair : String × String) : String := Text.trim pair.1

theorem putPair_known (d : OptionDraft) (h : Setting.ofName? (settingName p) = some s) :
    d.putPair p = (put {} s (Text.trim p.2)).map (d.take s) := by
  unfold settingName at h
  simp only [putPair, h]
  exact put_eq d s _

theorem putPair_unknown (d : OptionDraft) (h : Setting.ofName? (settingName p) = none) :
    d.putPair p = .error (.unknown (settingName p)) := by
  unfold settingName at h
  simp only [putPair, h]
  rfl

/-- A pair that is read takes its setting from what it says. -/
theorem take_of_putPair {d d' : OptionDraft} (h : d.putPair p = .ok d') :
    ∃ s a, Setting.ofName? (settingName p) = some s ∧ d' = d.take s a := by
  cases hp : Setting.ofName? (settingName p) with
  | none =>
    rw [putPair_unknown d hp] at h
    cases h
  | some s =>
    rw [putPair_known d hp, map_eq_ok] at h
    obtain ⟨a, -, rfl⟩ := h
    exact ⟨s, a, rfl, rfl⟩

/-- What the pair is for is known, and its value is one for it. -/
def Readable (pair : String × String) : Prop := ∃ d, putPair {} pair = .ok d

theorem readable_iff (d : OptionDraft) : Readable p ↔ ∃ d', d.putPair p = .ok d' := by
  unfold Readable
  cases hp : Setting.ofName? (settingName p) with
  | none => simp only [putPair_unknown _ hp]
  | some s =>
    simp only [putPair_known _ hp, map_eq_ok]
    exact ⟨fun ⟨_, a, hput, _⟩ => ⟨_, a, hput, rfl⟩, fun ⟨_, a, hput, _⟩ => ⟨_, a, hput, rfl⟩⟩

/-- Two pairs for different settings are read in either order to the same draft, or in neither. -/
theorem putPair_comm (d : OptionDraft) (h : settingName p ≠ settingName q) :
    (d.putPair p >>= (putPair · q)).toOption = (d.putPair q >>= (putPair · p)).toOption := by
  cases hp : Setting.ofName? (settingName p) with
  | none =>
    simp only [putPair_unknown _ hp]
    cases d.putPair q <;> rfl
  | some s =>
    cases hq : Setting.ofName? (settingName q) with
    | none =>
      simp only [putPair_unknown _ hq]
      cases d.putPair p <;> rfl
    | some t =>
      have hne : s ≠ t := by
        rintro rfl
        exact h ((Setting.name_of_ofName? hp).symm.trans (Setting.name_of_ofName? hq))
      simp only [putPair_known _ hp, putPair_known _ hq]
      cases put {} s (Text.trim p.2) with
      | error _ => cases put {} t (Text.trim q.2) <;> rfl
      | ok a =>
        cases put {} t (Text.trim q.2) with
        | error _ => rfl
        | ok b => exact congrArg some (take_comm d hne a b)

/-! ### All pairs -/

/-- **Pairs for different settings give the same draft in any order**, or none in any order. -/
theorem foldlM_perm (h : pairs.Perm pairs') (hnames : (pairs.map settingName).Nodup)
    (d : OptionDraft) : (pairs.foldlM putPair d).toOption = (pairs'.foldlM putPair d).toOption := by
  induction h generalizing d with
  | nil => rfl
  | cons p _ ih =>
    rw [List.map_cons, List.nodup_cons] at hnames
    simp only [List.foldlM_cons]
    cases d.putPair p with
    | error _ => rfl
    | ok d' => exact ih hnames.2 d'
  | swap p q rest =>
    have hne : settingName q ≠ settingName p := by
      intro hsame
      simp only [List.map_cons, List.nodup_cons, List.mem_cons, hsame, true_or, not_true_eq_false,
        false_and] at hnames
    simp only [List.foldlM_cons, ← bind_assoc]
    exact toOption_bind_congr (putPair_comm d hne) _
  | trans hfirst _ ih ih' =>
    exact (ih hnames d).trans (ih' ((hfirst.map _).nodup_iff.mp hnames) d)

/-- **A setting is forgotten where a pair for it follows.** -/
theorem foldlM_take (h : ∃ q ∈ pairs, Setting.ofName? (settingName q) = some s)
    (d a : OptionDraft) : pairs.foldlM putPair (d.take s a) = pairs.foldlM putPair d := by
  induction pairs generalizing d with
  | nil =>
    obtain ⟨_, hmem, _⟩ := h
    cases hmem
  | cons q rest ih =>
    simp only [List.foldlM_cons]
    cases hq : Setting.ofName? (settingName q) with
    | none => simp only [putPair_unknown _ hq]
    | some t =>
      simp only [putPair_known _ hq]
      cases put {} t (Text.trim q.2) with
      | error _ => rfl
      | ok b =>
        change rest.foldlM putPair ((d.take s a).take t b) = rest.foldlM putPair (d.take t b)
        by_cases hsame : s = t
        · rw [hsame, take_take]
        · -- the pair that makes the setting forgotten comes later
          rw [take_comm d hsame]
          apply ih
          obtain ⟨q', hmem, hq'⟩ := h
          rcases List.mem_cons.mp hmem with rfl | hmem
          · rw [hq] at hq'
            exact absurd (Option.some.inj hq').symm hsame
          · exact ⟨q', hmem, hq'⟩

/-- The pairs without each one whose setting comes again later. -/
def lastPairs : List (String × String) → List (String × String)
  | [] => []
  | pair :: rest =>
    if settingName pair ∈ rest.map settingName then lastPairs rest else pair :: lastPairs rest

/-- Pairs give the draft that the last ones for their settings give, if all of them can be read. -/
theorem foldlM_lastPairs {d d' : OptionDraft} : pairs.foldlM putPair d = .ok d' ↔
    (∀ pair ∈ pairs, Readable pair) ∧ (lastPairs pairs).foldlM putPair d = .ok d' := by
  induction pairs generalizing d with
  | nil => simp [lastPairs]
  | cons p rest ih =>
    rw [List.foldlM_cons, bind_eq_ok, List.forall_mem_cons, readable_iff d, lastPairs]
    split
    · next hlater =>
      obtain ⟨q, hq, hname⟩ := List.mem_map.mp hlater
      -- what is read from this pair is forgotten
      have hrest : ∀ {d₁}, d.putPair p = .ok d₁ → rest.foldlM putPair d₁ = rest.foldlM putPair d := by
        intro d₁ hput
        obtain ⟨s, a, hs, rfl⟩ := take_of_putPair hput
        exact foldlM_take ⟨q, hq, hname ▸ hs⟩ d a
      constructor
      · rintro ⟨d₁, hput, hfold⟩
        rw [hrest hput, ih] at hfold
        exact ⟨⟨⟨d₁, hput⟩, hfold.1⟩, hfold.2⟩
      · rintro ⟨⟨⟨d₁, hput⟩, hall⟩, hlast⟩
        exact ⟨d₁, hput, (hrest hput).trans (ih.mpr ⟨hall, hlast⟩)⟩
    · rw [List.foldlM_cons, bind_eq_ok]
      constructor
      · rintro ⟨d₁, hput, hfold⟩
        obtain ⟨hall, hlast⟩ := ih.mp hfold
        exact ⟨⟨⟨d₁, hput⟩, hall⟩, d₁, hput, hlast⟩
      · rintro ⟨⟨_, hall⟩, d₁, hput, hlast⟩
        exact ⟨d₁, hput, ih.mpr ⟨hall, hlast⟩⟩

end OptionDraft

/-! ### Options -/

namespace Options

open OptionDraft

variable {pairs pairs' : List (String × String)} {o : Options} {f : Failure}

theorem ofPairs_eq_ok : ofPairs pairs = .ok o ↔
    ∃ d, pairs.foldlM putPair {} = .ok d ∧ d.finish = .ok o := by
  rw [← bind_eq_ok]
  change (ofPairs? pairs).mapError _ = _ ↔ ofPairs? pairs = _
  cases ofPairs? pairs with
  | error fault => exact ⟨nofun, nofun⟩
  | ok o' =>
    constructor
    · intro h
      cases h
      rfl
    · intro h
      cases h
      rfl

/-- Options that are not accepted are not accepted for a fault of their own. -/
theorem kind_of_ofPairs (h : ofPairs pairs = .error f) : f.kind = .configuration := by
  unfold ofPairs at h
  cases hread : ofPairs? pairs with
  | error fault =>
    rw [hread] at h
    cases h
    rfl
  | ok o =>
    rw [hread] at h
    cases h

/-- **The order of pairs does not matter, and of pairs for one setting the last one counts.** Pairs with
    names that differ once they are trimmed give the same options in any order, or are refused in any
    order. Any pairs give the options that are given without each pair whose name comes again later,
    provided that those left out can be read as well. Whatever is refused is refused for its
    configuration. -/
theorem settings_order_irrelevant (pairs pairs' : List (String × String)) :
    (pairs.Perm pairs' → (pairs.map settingName).Nodup →
      (∃ o, ofPairs pairs = .ok o ∧ ofPairs pairs' = .ok o) ∨
        ∃ f f', ofPairs pairs = .error f ∧ f.kind = .configuration ∧
          ofPairs pairs' = .error f' ∧ f'.kind = .configuration) ∧
    (∀ o, ofPairs pairs = .ok o ↔
      (∀ pair ∈ pairs, Readable pair) ∧ ofPairs (lastPairs pairs) = .ok o) ∧
    ∀ f, ofPairs pairs = .error f → f.kind = .configuration := by
  refine ⟨?_, ?_, fun f => kind_of_ofPairs⟩
  · intro hperm hnames
    have hsame : ∀ o, ofPairs pairs = .ok o ↔ ofPairs pairs' = .ok o := by
      intro o
      rw [ofPairs_eq_ok, ofPairs_eq_ok]
      refine exists_congr fun d => and_congr_left fun _ => ?_
      rw [← toOption_eq_some, foldlM_perm hperm hnames, toOption_eq_some]
    cases hpairs : ofPairs pairs with
    | ok o => exact .inl ⟨o, rfl, (hsame o).mp hpairs⟩
    | error f =>
      cases hpairs' : ofPairs pairs' with
      | ok o =>
        rw [(hsame o).mpr hpairs'] at hpairs
        cases hpairs
      | error f' => exact .inr ⟨f, f', rfl, kind_of_ofPairs hpairs, rfl, kind_of_ofPairs hpairs'⟩
  · intro o
    rw [ofPairs_eq_ok, ofPairs_eq_ok]
    constructor
    · rintro ⟨d, hfold, hfinish⟩
      obtain ⟨hall, hlast⟩ := foldlM_lastPairs.mp hfold
      exact ⟨hall, d, hlast, hfinish⟩
    · rintro ⟨hall, d, hlast, hfinish⟩
      exact ⟨d, foldlM_lastPairs.mpr ⟨hall, hlast⟩, hfinish⟩

/-- Both static keys, without a source, and another setting between them. -/
def staticPairs : List (String × String) :=
  [("secret_access_key", "s3cr3t"), (" page_size", "7 "), ("access_key_id", "AKIA")]

/-- Two settings, each given twice under names that are the same once they are trimmed. -/
def repeatedPairs : List (String × String) :=
  [("page_size", "5"), ("credentials", "magic"), ("page_size ", "+7"), (" credentials", "profile:dev")]

theorem settings_order_irrelevant_static :
    (staticPairs.Perm staticPairs.reverse ∧ (staticPairs.map settingName).Nodup) ∧
    ofPairs staticPairs = .ok { credentials := .keys "AKIA" "s3cr3t", pageSize := 7 } ∧
    ofPairs staticPairs.reverse = .ok { credentials := .keys "AKIA" "s3cr3t", pageSize := 7 } ∧
    lastPairs repeatedPairs = [("page_size ", "+7"), (" credentials", "profile:dev")] ∧
    ofPairs repeatedPairs = .ok { credentials := .profile "dev", pageSize := 7 } ∧
    ofPairs (lastPairs repeatedPairs) = .ok { credentials := .profile "dev", pageSize := 7 } := by
  have hperm : staticPairs.Perm staticPairs.reverse := (List.reverse_perm _).symm
  have hnames : (staticPairs.map settingName).Nodup := by decide +kernel
  have hstatic : ofPairs staticPairs =
      .ok { credentials := .keys "AKIA" "s3cr3t", pageSize := 7 } := by rfl
  have hrepeated : ofPairs repeatedPairs = .ok { credentials := .profile "dev", pageSize := 7 } := by
    rfl
  obtain ⟨horder, -, -⟩ := settings_order_irrelevant staticPairs staticPairs.reverse
  obtain ⟨-, hlast, -⟩ := settings_order_irrelevant repeatedPairs []
  refine ⟨⟨hperm, hnames⟩, hstatic, ?_, by decide +kernel, hrepeated, ((hlast _).mp hrepeated).2⟩
  rcases horder hperm hnames with ⟨o, ho, ho'⟩ | ⟨f, f', hf, -⟩
  · rw [hstatic] at ho
    rw [ho', ho]
  · rw [hstatic] at hf
    cases hf

end Options

end BucketStore
