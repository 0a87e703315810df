/-
  BucketStore/Proofs/KeyMap.lean
  ==============================
  **A map is what it looks up, and its bindings are what it binds.**

  The bindings of a map and its look-ups tell the same (`mem_entries_iff`), a map is
  determined by its look-ups (`KeyMap.ext_get?`), and one made of pairs with different
  keys binds them all (`get?_ofList`).  The bindings behind a
  key of the map are those that come later in the list (`after_of_append`), which
  is why pages that go on behind their last key leave nothing out.
-/
import BucketStore.KeyMap

namespace BucketStore

variable {κ α : Type} [Ord κ] [Std.TransOrd κ] [Std.LawfulEqOrd κ] [DecidableEq κ]

namespace Bindings

omit [Std.TransOrd κ] [DecidableEq κ] in
theorem nodup_of_ascending {entries : List (κ × α)} (h : Ascending entries) :
    (entries.map (·.1)).Nodup := by
  unfold Ascending at h
  unfold List.Nodup
  rw [List.pairwise_map]
  apply h.imp
  intro a b hlt heq
  rw [heq, Std.compare_eq_iff_eq.mpr rfl] at hlt
  cases hlt

omit [Std.TransOrd κ] in
/-- Where no key is bound twice, every binding is found. -/
theorem find?_eq_some_of_mem {entries : List (κ × α)} (h : (entries.map (·.1)).Nodup) {k : κ}
    {v : α} (hmem : (k, v) ∈ entries) : find? k entries = some v := by
  induction entries with
  | nil => cases hmem
  | cons head rest ih =>
    obtain ⟨hhead, hrest⟩ := List.nodup_cons.mp h
    rw [KeyMap.find?_cons]
    rcases List.mem_cons.mp hmem with rfl | hmem
    · simp
    · have hne : k ≠ head.1 := by
        rintro rfl
        exact hhead (List.mem_map.mpr ⟨(head.1, v), hmem, rfl⟩)
      rw [if_neg hne]
      exact ih hrest hmem

omit [Std.TransOrd κ] in
theorem mem_of_find?_eq_some {entries : List (κ × α)} {k : κ} {v : α}
    (h : find? k entries = some v) : (k, v) ∈ entries := by
  induction entries with
  | nil => cases h
  | cons head rest ih =>
    rw [KeyMap.find?_cons] at h
    split at h
    · next heq =>
      cases h
      rw [heq]
      exact List.mem_cons_self ..
    · exact List.mem_cons_of_mem _ (ih h)

/-- Ascending bindings with the same look-ups are the same: the least key of one is the least key of
    the other. -/
theorem ext_find? {entries entries' : List (κ × α)} (h : Ascending entries)
    (h' : Ascending entries') (heq : ∀ k, find? k entries = find? k entries') :
    entries = entries' := by
  induction entries generalizing entries' with
  | nil =>
    cases entries' with
    | nil => rfl
    | cons head rest =>
      have hhead := heq head.1
      rw [KeyMap.find?_cons, if_pos rfl] at hhead
      cases hhead
  | cons head rest ih =>
    cases entries' with
    | nil =>
      have hhead := heq head.1
      rw [KeyMap.find?_cons, if_pos rfl] at hhead
      cases hhead
    | cons head' rest' =>
      obtain ⟨hleast, hrest⟩ := List.pairwise_cons.mp h
      obtain ⟨hleast', hrest'⟩ := List.pairwise_cons.mp h'
      have hmem : head ∈ head' :: rest' := by
        refine mem_of_find?_eq_some (k := head.1) (v := head.2) ?_
        rw [← heq, KeyMap.find?_cons, if_pos rfl]
      have hmem' : head' ∈ head :: rest := by
        refine mem_of_find?_eq_some (k := head'.1) (v := head'.2) ?_
        rw [heq, KeyMap.find?_cons, if_pos rfl]
      have hsame : head = head' := by
        rcases List.mem_cons.mp hmem with heq | hlater
        · exact heq
        rcases List.mem_cons.mp hmem' with heq | hlater'
        · exact heq.symm
        have hcycle := Std.TransCmp.lt_trans (hleast _ hlater') (hleast' _ hlater)
        rw [Std.compare_eq_iff_eq.mpr rfl] at hcycle
        cases hcycle
      subst hsame
      congr 1
      refine ih hrest hrest' fun k => ?_
      by_cases hk : k = head.1
      · have hnone : ∀ {l : List (κ × α)}, (∀ e ∈ l, compare head.1 e.1 = .lt) →
            find? head.1 l = none := by
          intro l hl
          cases hfind : find? head.1 l with
          | none => rfl
          | some v =>
            have hlt := hl _ (mem_of_find?_eq_some hfind)
            rw [Std.compare_eq_iff_eq.mpr rfl] at hlt
            cases hlt
        rw [hk, hnone hleast, hnone hleast']
      · have hkeys := heq k
        rwa [KeyMap.find?_cons, KeyMap.find?_cons, if_neg hk, if_neg hk] at hkeys

end Bindings

namespace KeyMap

section

omit [Std.TransOrd κ] [Std.LawfulEqOrd κ] [DecidableEq κ]

theorem contains_eq_true {m : KeyMap κ α} {k : κ} : m.contains k = true ↔ ∃ v, m.get? k = some v :=
  Option.isSome_iff_exists

theorem contains_eq_false {m : KeyMap κ α} {k : κ} : m.contains k = false ↔ m.get? k = none := by
  simp [contains]

end

omit [Std.TransOrd κ] in
/-- A pair is among the bindings exactly if the key is bound to the value. -/
theorem mem_entries_iff (m : KeyMap κ α) {k : κ} {v : α} :
    (k, v) ∈ m.entries ↔ m.get? k = some v :=
  ⟨Bindings.find?_eq_some_of_mem (Bindings.nodup_of_ascending m.ascending),
    Bindings.mem_of_find?_eq_some⟩

/-- A map is determined by its look-ups. -/
theorem ext_get? {m m' : KeyMap κ α} (h : ∀ k, m.get? k = m'.get? k) : m = m' := by
  obtain ⟨entries, hm⟩ := m
  obtain ⟨entries', hm'⟩ := m'
  cases Bindings.ext_find? hm hm' h
  rfl

/-- What is bound already is bound again in vain. -/
theorem put_get? (m : KeyMap κ α) (k : κ) : m.put k (m.get? k) = m := by
  apply ext_get?
  intro k'
  rw [get?_put]
  split
  · next hkey => rw [hkey]
  · rfl

/-- A map whose look-ups are those of another map under a function binds the images. -/
theorem entries_of_map {β : Type} {m : KeyMap κ α} {m' : KeyMap κ β} (g : α → β)
    (h : ∀ k, m'.get? k = (m.get? k).map g) :
    m'.entries = m.entries.map fun e => (e.1, g e.2) := by
  have hascending : Bindings.Ascending (m.entries.map fun e => (e.1, g e.2)) := by
    unfold Bindings.Ascending
    rw [List.pairwise_map]
    exact m.ascending
  have hfind : ∀ (entries : List (κ × α)) (k : κ),
      Bindings.find? k (entries.map fun e => (e.1, g e.2)) = (Bindings.find? k entries).map g := by
    intro entries k
    induction entries with
    | nil => rfl
    | cons e rest ih =>
      rw [List.map_cons, find?_cons, find?_cons, ih]
      split <;> rfl
  apply Bindings.ext_find? m'.ascending hascending
  intro k
  rw [hfind]
  exact h k

/-- Pairs with different keys are all bound. -/
theorem get?_ofList {pairs : List (κ × α)} (h : (pairs.map (·.1)).Nodup) (k : κ) :
    (ofList pairs).get? k = Bindings.find? k pairs := by
  -- the induction has to hold for what is bound before
  have hfold : ∀ m : KeyMap κ α, (pairs.foldl (fun m e => m.insert e.1 e.2) m).get? k =
      (Bindings.find? k pairs).or (m.get? k) := by
    induction pairs with
    | nil => exact fun m => rfl
    | cons e rest ih =>
      obtain ⟨hfirst, hrest⟩ := List.nodup_cons.mp h
      intro m
      rw [List.foldl_cons, ih hrest, get?_insert, find?_cons]
      by_cases hk : k = e.1
      · have hnone : Bindings.find? k rest = none := by
          rw [Option.eq_none_iff_forall_not_mem]
          intro v hv
          exact hfirst (List.mem_map.mpr ⟨(k, v), Bindings.mem_of_find?_eq_some hv, hk⟩)
        rw [hnone, if_pos hk, if_pos hk]
        rfl
      · rw [if_neg hk, if_neg hk]
  exact (hfold empty).trans (Option.or_none ..)

/-- The map of what a function gives for the keys of a list. -/
def gather (f : κ → Option α) (keys : List κ) : KeyMap κ α :=
  keys.foldr (fun k m => m.put k (f k)) {}

theorem get?_gather (f : κ → Option α) (keys : List κ) (k : κ) :
    (gather f keys).get? k = if k ∈ keys then f k else none := by
  induction keys with
  | nil => rfl
  | cons key rest ih =>
    change ((gather f rest).put key (f key)).get? k = _
    rw [get?_put, ih]
    by_cases hk : k = key
    · simp [hk]
    · simp [hk]

omit [Std.TransOrd κ] in
theorem mem_keys (m : KeyMap κ α) {k : κ} : k ∈ m.keys ↔ m.contains k = true := by
  rw [contains_eq_true]
  constructor
  · intro hmem
    obtain ⟨⟨k', v⟩, he, rfl⟩ := List.mem_map.mp hmem
    exact ⟨v, m.mem_entries_iff.mp he⟩
  · rintro ⟨v, hget⟩
    exact List.mem_map.mpr ⟨(k, v), m.mem_entries_iff.mpr hget, rfl⟩

omit [Std.TransOrd κ] [DecidableEq κ] in
theorem nodup_keys (m : KeyMap κ α) : m.keys.Nodup := Bindings.nodup_of_ascending m.ascending

omit [DecidableEq κ] in
/-- The bindings behind a key of the map are those that follow its binding. -/
theorem after_of_append {m : KeyMap κ α} {front rest : List (κ × α)} {e : κ × α}
    (h : m.entries = front ++ e :: rest) : m.after (some e.1) = rest := by
  have hascending := m.ascending
  unfold Bindings.Ascending at hascending
  rw [h, List.pairwise_append, List.pairwise_cons] at hascending
  obtain ⟨_, ⟨hrest, _⟩, hfront⟩ := hascending
  have hbefore : ∀ e' ∈ front, ¬compare e.1 e'.1 = .lt := by
    intro e' he' hlt
    have hgt := Std.OrientedCmp.gt_of_lt (hfront e' he' e (List.mem_cons_self ..))
    rw [hlt] at hgt
    cases hgt
  change m.entries.filter (fun e' => compare e.1 e'.1 == .lt) = rest
  rw [h, List.filter_append, List.filter_cons_of_neg (by simp)]
  have hnone : front.filter (fun e' => compare e.1 e'.1 == .lt) = [] := by
    simpa using hbefore
  have hall : rest.filter (fun e' => compare e.1 e'.1 == .lt) = rest := by
    simpa using hrest
  rw [hnone, hall, List.nil_append]

omit [Std.TransOrd κ] [DecidableEq κ] in
theorem ne_of_mem_after {m : KeyMap κ α} {k : κ} {e : κ × α} (h : e ∈ m.after (some k)) :
    k ≠ e.1 := by
  rintro rfl
  have hlt := (List.mem_filter.mp h).2
  rw [Std.compare_eq_iff_eq.mpr rfl] at hlt
  cases hlt

end KeyMap

end BucketStore
