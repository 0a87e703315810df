/-
  BucketStore/Proofs/Naming.lean
  ==============================
  **Buckets that are kept elsewhere, under other names.**

  A `Naming` gives buckets names from which they can be told again.  A map by such
  names keeps buckets (`Naming.Keeps`) if it holds what they hold and nothing else;
  it does so again after a bucket is put in place or taken away on both sides
  (`insert`, `erase`), it is determined by the buckets (`unique`), and its names
  are those of the buckets in some order (`perm_names`).

  A map that others use as well may keep more.  The buckets it shows
  (`Naming.seen`) are what stands under names of buckets and can be read as one;
  whatever else it keeps does not change when buckets are written (`Naming.Shows`).
-/
import BucketStore.Bytes
import BucketStore.Proofs.Fallible
import BucketStore.Proofs.KeyMap
import Mathlib.Data.List.Nodup
import Mathlib.Data.List.Pairwise

namespace BucketStore

/-- Names of buckets, each of one bucket only. Not every bucket needs to have one. -/
structure Naming where
  code : Bytes → Option String
  /-- The bucket that a name stands for. -/
  decode : String → Option Bytes
  decode_code : ∀ b name, code b = some name → decode name = some b

namespace Naming

variable {n : Naming} {α β : Type} {shown : α → β} {native native' : KeyMap String β}
  {buckets : KeyMap Bytes α} {b b' : Bytes} {name : String}

/-- The name is read as a bucket, but that bucket is not kept under it. -/
def Stray (n : Naming) (name : String) : Prop := ∃ b, n.decode name = some b ∧ n.code b ≠ some name

theorem stray_iff_bind : n.Stray name ↔
    n.decode name ≠ none ∧ (n.decode name).bind n.code ≠ some name := by
  unfold Stray
  cases n.decode name <;> simp

instance (n : Naming) (name : String) : Decidable (n.Stray name) :=
  decidable_of_iff _ stray_iff_bind.symm

theorem code_injective (h : n.code b = some name) (h' : n.code b' = some name) : b = b' := by
  have hdecode := n.decode_code b name h
  rw [n.decode_code b' name h', Option.some_inj] at hdecode
  exact hdecode.symm

theorem code_of_not_stray (h : ¬n.Stray name) (hdecode : n.decode name = some b) :
    n.code b = some name := by
  by_contra hcode
  exact h ⟨b, hdecode, hcode⟩

/-- A name that is not stray is read as a bucket only if it is one's name. -/
theorem decode_of_not_stray (h : ¬n.Stray name) (hnone : ∀ b, n.code b ≠ some name) :
    n.decode name = none := by
  rw [Option.eq_none_iff_forall_ne_some]
  exact fun b hdecode => hnone b (code_of_not_stray h hdecode)

/-- No bucket is kept under a stray name. -/
theorem Stray.code_ne (h : n.Stray name) (b : Bytes) : n.code b ≠ some name := by
  obtain ⟨b', hdecode, hcode⟩ := h
  intro hcode'
  have hsame := n.decode_code b name hcode'
  rw [hdecode, Option.some_inj] at hsame
  exact hcode (hsame ▸ hcode')

/-- Different names, none of them stray, are read as different buckets. -/
theorem nodup_decode {names : List String} (hnodup : names.Nodup)
    (hstray : ∀ name ∈ names, ¬n.Stray name) : (names.filterMap n.decode).Nodup := by
  rw [List.Nodup, List.pairwise_filterMap]
  apply List.Pairwise.imp_of_mem _ hnodup
  rintro name name' hname hname' hne b hdecode _ hdecode' rfl
  have hcode := code_of_not_stray (hstray name hname) hdecode
  rw [code_of_not_stray (hstray name' hname') hdecode', Option.some_inj] at hcode
  exact hne hcode.symm

/-- If no bucket is read twice, it is read from one name. -/
theorem eq_of_nodup_decode {names : List String} (hnodup : (names.filterMap n.decode).Nodup)
    {name' : String} (hname : name ∈ names) (hname' : name' ∈ names) (hdecode : n.decode name = some b)
    (hdecode' : n.decode name' = some b) : name = name' := by
  rw [List.Nodup, List.pairwise_filterMap] at hnodup
  have hsymm : Std.Symm fun name name' => ∀ b, n.decode name = some b →
      ∀ b', n.decode name' = some b' → b ≠ b' := ⟨fun _ _ h b hb b' hb' => (h b' hb' b hb).symm⟩
  by_contra hne
  exact hnodup.forall hname hname' hne b hdecode b hdecode' rfl

/-- **Names that are read back are those of the buckets that are kept, each once, unless there is a
    stray one among them.** A stray name shows a bucket that is not there, or shows one twice. -/
theorem names_exact_iff (native : KeyMap String β) :
    (native.keys.filterMap n.decode).Nodup ∧ (∀ b, b ∈ native.keys.filterMap n.decode ↔
        ∃ name, n.code b = some name ∧ native.contains name = true) ↔
      ∀ name ∈ native.keys, ¬n.Stray name := by
  simp only [← KeyMap.mem_keys]
  constructor
  · rintro ⟨hnodup, hexact⟩ name hname ⟨b, hdecode, hcode⟩
    obtain ⟨name', hcode', hname'⟩ := (hexact b).mp (List.mem_filterMap.mpr ⟨name, hname, hdecode⟩)
    have hdecode' := n.decode_code b name' hcode'
    have hsame : name = name' := eq_of_nodup_decode hnodup hname hname' hdecode hdecode'
    exact hcode (hsame ▸ hcode')
  · intro hstray
    refine ⟨nodup_decode (KeyMap.nodup_keys native) hstray, ?_⟩
    intro b
    rw [List.mem_filterMap]
    constructor
    · rintro ⟨name, hname, hdecode⟩
      exact ⟨name, code_of_not_stray (hstray name hname) hdecode, hname⟩
    · rintro ⟨name, hcode, hname⟩
      exact ⟨name, hname, n.decode_code b name hcode⟩

/-- What is kept under names, shown in its own form, are the buckets, and nothing else is kept. -/
structure Keeps (n : Naming) (shown : α → β) (native : KeyMap String β) (buckets : KeyMap Bytes α) :
    Prop where
  stored : ∀ b name, n.code b = some name → native.get? name = (buckets.get? b).map shown
  coded : ∀ b, buckets.contains b = true → ∃ name, n.code b = some name
  known : ∀ name, native.contains name = true → ∃ b, n.code b = some name

namespace Keeps

theorem empty : n.Keeps shown {} {} where
  stored _ _ _ := rfl
  coded _ hb := nomatch hb
  known _ hname := nomatch hname

variable (h : n.Keeps shown native buckets)
include h

theorem contains (hcode : n.code b = some name) : native.contains name = buckets.contains b := by
  simp only [KeyMap.contains, h.stored b name hcode, Option.isSome_map]

theorem insert (hcode : n.code b = some name) (a : α) :
    n.Keeps shown (native.insert name (shown a)) (buckets.insert b a) where
  stored b' name' hcode' := by
    rw [KeyMap.get?_insert, KeyMap.get?_insert]
    by_cases hb : b' = b
    · subst hb
      rw [hcode, Option.some_inj] at hcode'
      rw [if_pos hcode'.symm, if_pos rfl, Option.map_some]
    · have hname : name' ≠ name := by
        rintro rfl
        exact hb (code_injective hcode' hcode)
      rw [if_neg hname, if_neg hb, h.stored b' name' hcode']
  coded b' hb' := by
    by_cases hb : b' = b
    · exact ⟨name, hb ▸ hcode⟩
    · simp only [KeyMap.contains, KeyMap.get?_insert, if_neg hb] at hb'
      exact h.coded b' hb'
  known name' hname' := by
    by_cases hname : name' = name
    · exact ⟨b, hname ▸ hcode⟩
    · simp only [KeyMap.contains, KeyMap.get?_insert, if_neg hname] at hname'
      exact h.known name' hname'

theorem erase (hcode : n.code b = some name) :
    n.Keeps shown (native.erase name) (buckets.erase b) where
  stored b' name' hcode' := by
    rw [KeyMap.get?_erase, KeyMap.get?_erase]
    by_cases hb : b' = b
    · subst hb
      rw [hcode, Option.some_inj] at hcode'
      rw [if_pos hcode'.symm, if_pos rfl, Option.map_none]
    · have hname : name' ≠ name := by
        rintro rfl
        exact hb (code_injective hcode' hcode)
      rw [if_neg hname, if_neg hb, h.stored b' name' hcode']
  coded b' hb' := by
    simp only [KeyMap.contains, KeyMap.get?_erase] at hb'
    split at hb'
    · cases hb'
    · exact h.coded b' hb'
  known name' hname' := by
    simp only [KeyMap.contains, KeyMap.get?_erase] at hname'
    split at hname'
    · cases hname'
    · exact h.known name' hname'

/-- There is one way only to keep the buckets. -/
theorem unique (h' : n.Keeps shown native' buckets) : native' = native := by
  apply KeyMap.ext_get?
  intro name
  by_cases hcoded : ∃ b, n.code b = some name
  · obtain ⟨b, hcode⟩ := hcoded
    rw [h.stored b name hcode, h'.stored b name hcode]
  · have hnone : ∀ {m : KeyMap String β}, n.Keeps shown m buckets → m.get? name = none := by
      intro m hm
      apply KeyMap.contains_eq_false.mp
      rw [← Bool.not_eq_true]
      exact fun hname => hcoded (hm.known name hname)
    rw [hnone h, hnone h']

/-- The names that are kept, read back, are those of the buckets in some order. -/
theorem perm_names : (native.keys.filterMap n.decode).Perm buckets.keys := by
  have hmem : ∀ name ∈ native.keys, ∃ b, n.code b = some name ∧ n.decode name = some b := by
    intro name hname
    obtain ⟨b, hcode⟩ := h.known name ((KeyMap.mem_keys _).mp hname)
    exact ⟨b, hcode, n.decode_code b name hcode⟩
  have hnodup : (native.keys.filterMap n.decode).Nodup := by
    apply nodup_decode (KeyMap.nodup_keys native)
    intro name hname hstray
    obtain ⟨b, hcode, _⟩ := hmem name hname
    exact hstray.code_ne b hcode
  rw [List.perm_ext_iff_of_nodup hnodup (KeyMap.nodup_keys buckets)]
  intro b
  rw [List.mem_filterMap, KeyMap.mem_keys]
  constructor
  · rintro ⟨name, hname, hdecode⟩
    obtain ⟨b', hcode, hdecode'⟩ := hmem name hname
    rw [hdecode, Option.some_inj] at hdecode'
    rw [hdecode', ← h.contains hcode]
    exact (KeyMap.mem_keys _).mp hname
  · intro hb
    obtain ⟨name, hcode⟩ := h.coded b hb
    refine ⟨name, (KeyMap.mem_keys _).mpr ?_, n.decode_code b name hcode⟩
    rw [h.contains hcode]
    exact hb

end Keeps

/-! ### Maps that keep other things besides -/

section

variable {read : β → Option α} {native₀ : KeyMap String β}

/-- The buckets in a map by names that may keep other things: what can be read as a bucket under the
    name of one. -/
def seen (n : Naming) (read : β → Option α) (native : KeyMap String β) (b : Bytes) : Option α :=
  (n.code b).bind fun name => (native.get? name).bind read

/-- The map shows the buckets, and what is kept in it besides is as in another map. -/
structure Shows (n : Naming) (read : β → Option α) (native₀ native : KeyMap String β)
    (buckets : KeyMap Bytes α) : Prop where
  seen : ∀ b, buckets.get? b = n.seen read native b
  foreign : ∀ name, (∀ b, n.code b = some name → buckets.contains b = false) →
    native.get? name = native₀.get? name

theorem seen_of_code (hcode : n.code b = some name) :
    n.seen read native b = (native.get? name).bind read := by
  rw [Naming.seen, hcode, Option.bind_some]

/-- Every map shows buckets. -/
theorem exists_shows (n : Naming) (read : β → Option α) (native : KeyMap String β) :
    ∃ buckets : KeyMap Bytes α, n.Shows read native native buckets := by
  refine ⟨KeyMap.gather (n.seen read native) (native.keys.filterMap n.decode), ?_, fun _ _ => rfl⟩
  intro b
  rw [KeyMap.get?_gather]
  split
  · rfl
  · next hnone =>
    symm
    rw [Option.eq_none_iff_forall_ne_some]
    intro a hseen
    obtain ⟨name, hcode, hget⟩ := Option.bind_eq_some_iff.mp hseen
    obtain ⟨x, hx, _⟩ := Option.bind_eq_some_iff.mp hget
    refine hnone (List.mem_filterMap.mpr ⟨name, ?_, n.decode_code b name hcode⟩)
    exact (KeyMap.mem_keys native).mpr (KeyMap.contains_eq_true.mpr ⟨x, hx⟩)

namespace Shows

theorem insert (h : n.Shows read native₀ native buckets) (wrap : α → β)
    (hread : ∀ a, read (wrap a) = some a) (hcode : n.code b = some name) (a : α) :
    n.Shows read native₀ (native.insert name (wrap a)) (buckets.insert b a) where
  seen b' := by
    rw [KeyMap.get?_insert]
    by_cases hb : b' = b
    · rw [if_pos hb, hb, seen_of_code hcode, KeyMap.get?_insert, if_pos rfl]
      exact (hread a).symm
    · rw [if_neg hb, h.seen b']
      cases hcode' : n.code b' with
      | none => simp [Naming.seen, hcode']
      | some name' =>
        have hname : name' ≠ name := by
          rintro rfl
          exact hb (code_injective hcode' hcode)
        rw [seen_of_code hcode', seen_of_code hcode', KeyMap.get?_insert, if_neg hname]
  foreign name' hforeign := by
    have hname : name' ≠ name := by
      rintro rfl
      have hnone := hforeign b hcode
      simp [KeyMap.contains] at hnone
    rw [KeyMap.get?_insert, if_neg hname]
    apply h.foreign
    intro b' hcode'
    have hb : b' ≠ b := by
      rintro rfl
      exact hname (Option.some.inj (hcode'.symm.trans hcode))
    have hnone := hforeign b' hcode'
    rwa [KeyMap.contains, KeyMap.get?_insert, if_neg hb] at hnone

/-- Where a bucket is read from one thing only, a map that shows the same buckets is the same. -/
theorem unique (h : n.Shows read native₀ native buckets) (h₀ : n.Shows read native₀ native₀ buckets)
    (wrap : α → β) (hwrap : ∀ x a, read x = some a → x = wrap a) : native = native₀ := by
  apply KeyMap.ext_get?
  intro name
  by_cases hforeign : ∀ b, n.code b = some name → buckets.contains b = false
  · exact h.foreign name hforeign
  · -- A name of a bucket that exists has the same bucket behind it on both sides.
    push Not at hforeign
    obtain ⟨b, hcode, hthere⟩ := hforeign
    rw [Bool.ne_false_iff] at hthere
    obtain ⟨a, hget⟩ := KeyMap.contains_eq_true.mp hthere
    have hfound : ∀ {m : KeyMap String β}, n.Shows read native₀ m buckets →
        m.get? name = some (wrap a) := by
      intro m hm
      have hseen := hm.seen b
      rw [hget, seen_of_code hcode] at hseen
      obtain ⟨x, hx, hread⟩ := Option.bind_eq_some_iff.mp hseen.symm
      rw [hx, hwrap x a hread]
    rw [hfound h, hfound h₀]

end Shows

end

end Naming

end BucketStore
