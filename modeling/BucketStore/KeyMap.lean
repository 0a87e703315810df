/-
  BucketStore/KeyMap.lean
  =======================
  **Finite maps that hold their bindings in ascending key order.**

  A map is the list of its bindings, sorted strictly by key: equal maps have
  equal bindings, and listing a map needs no sorting.  The view of a map is
  `get?`; `get?_insert`, `get?_erase` and `get?_put` say what each change does
  to it.
-/

namespace BucketStore

variable {κ α β : Type}

/-! ### Bindings in key order -/

namespace Bindings

variable [Ord κ]

/-- Strictly ascending in the key, hence without a key bound twice. -/
def Ascending (entries : List (κ × α)) : Prop :=
  entries.Pairwise fun a b => compare a.1 b.1 = .lt

instance (entries : List (κ × α)) : Decidable (Ascending entries) :=
  inferInstanceAs (Decidable (List.Pairwise _ _))

def find? (k : κ) : List (κ × α) → Option α
  | [] => none
  | (k', v) :: rest => if compare k k' = .eq then some v else find? k rest

def insert (k : κ) (v : α) : List (κ × α) → List (κ × α)
  | [] => [(k, v)]
  | (k', v') :: rest =>
    match compare k k' with
    | .lt => (k, v) :: (k', v') :: rest
    | .eq => (k, v) :: rest
    | .gt => (k', v') :: insert k v rest

def erase (k : κ) (entries : List (κ × α)) : List (κ × α) :=
  entries.filter fun e => compare k e.1 != .eq

theorem mem_insert {k : κ} {v : α} {entries : List (κ × α)} {e : κ × α}
    (h : e ∈ insert k v entries) : e = (k, v) ∨ e ∈ entries := by
  induction entries with
  | nil => simpa [insert] using h
  | cons head rest ih =>
    unfold insert at h
    split at h
    · simpa using h
    · rcases List.mem_cons.1 h with h | h
      · exact .inl h
      · exact .inr (.tail _ h)
    · rcases List.mem_cons.1 h with h | h
      · exact .inr (h ▸ .head _)
      · rcases ih h with h | h
        · exact .inl h
        · exact .inr (.tail _ h)

variable [Std.TransOrd κ]

theorem ascending_insert (k : κ) (v : α) {entries : List (κ × α)} (h : Ascending entries) :
    Ascending (insert k v entries) := by
  induction entries with
  | nil => simp [insert, Ascending]
  | cons head rest ih =>
    obtain ⟨hhead, hrest⟩ := List.pairwise_cons.1 h
    unfold insert
    split
    · next hlt =>
      refine List.pairwise_cons.2 ⟨fun e he => ?_, h⟩
      rcases List.mem_cons.1 he with rfl | he
      · exact hlt
      · exact Std.TransCmp.lt_trans hlt (hhead e he)
    · next heq =>
      refine List.pairwise_cons.2 ⟨fun e he => ?_, hrest⟩
      exact Std.TransCmp.lt_of_eq_of_lt heq (hhead e he)
    · next hgt =>
      refine List.pairwise_cons.2 ⟨fun e he => ?_, ih hrest⟩
      rcases mem_insert he with rfl | he
      · exact Std.OrientedCmp.lt_of_gt hgt
      · exact hhead e he

omit [Std.TransOrd κ] in
theorem ascending_filter (p : κ × α → Bool) {entries : List (κ × α)} (h : Ascending entries) :
    Ascending (entries.filter p) :=
  List.Pairwise.filter p h

end Bindings

/-! ### Maps -/

/-- A finite map from `κ` to `α`, kept in ascending key order. -/
structure KeyMap (κ α : Type) [Ord κ] where
  entries : List (κ × α)
  ascending : Bindings.Ascending entries
deriving DecidableEq, Repr

namespace KeyMap

variable [Ord κ]

def empty : KeyMap κ α := ⟨[], List.Pairwise.nil⟩

instance : EmptyCollection (KeyMap κ α) := ⟨empty⟩
instance : Inhabited (KeyMap κ α) := ⟨empty⟩

def get? (m : KeyMap κ α) (k : κ) : Option α := Bindings.find? k m.entries

def contains (m : KeyMap κ α) (k : κ) : Bool := (m.get? k).isSome

def keys (m : KeyMap κ α) : List κ := m.entries.map (·.1)

def size (m : KeyMap κ α) : Nat := m.entries.length

def insert [Std.TransOrd κ] (m : KeyMap κ α) (k : κ) (v : α) : KeyMap κ α :=
  ⟨Bindings.insert k v m.entries, Bindings.ascending_insert k v m.ascending⟩

/-- Takes the binding of a key away, if there is one. -/
def erase (m : KeyMap κ α) (k : κ) : KeyMap κ α :=
  ⟨Bindings.erase k m.entries, Bindings.ascending_filter _ m.ascending⟩

def put [Std.TransOrd κ] (m : KeyMap κ α) (k : κ) : Option α → KeyMap κ α
  | some v => m.insert k v
  | none => m.erase k

/-- The bindings whose keys come strictly after `k`; all of them for `none`. -/
def after (m : KeyMap κ α) : Option κ → List (κ × α)
  | none => m.entries
  | some k => m.entries.filter fun e => compare k e.1 == .lt

/-- Binds the pairs from left to right, so that of two pairs for one key the later one stays. -/
def ofList [Std.TransOrd κ] (pairs : List (κ × α)) : KeyMap κ α :=
  pairs.foldl (fun m e => m.insert e.1 e.2) empty

/-! ### The view -/

@[simp] theorem get?_empty (k : κ) : (empty : KeyMap κ α).get? k = none := rfl

variable [Std.LawfulEqOrd κ] [DecidableEq κ]

theorem find?_cons (k : κ) (e : κ × α) (rest : List (κ × α)) :
    Bindings.find? k (e :: rest) = if k = e.1 then some e.2 else Bindings.find? k rest := by
  simp [Bindings.find?]

theorem find?_insert (k k' : κ) (v : α) (entries : List (κ × α)) :
    Bindings.find? k' (Bindings.insert k v entries) =
      if k' = k then some v else Bindings.find? k' entries := by
  induction entries with
  | nil => simp [Bindings.insert, find?_cons]
  | cons head rest ih =>
    unfold Bindings.insert
    split
    · rw [find?_cons]
    · next heq =>
      cases Std.compare_eq_iff_eq.1 heq
      simp only [find?_cons]
      split <;> rfl
    · next hgt =>
      have hne : k ≠ head.1 := fun h => by
        rw [h, Std.compare_eq_iff_eq.2 rfl] at hgt; exact absurd hgt (by decide)
      simp only [find?_cons, ih]
      by_cases hk : k' = k
      · subst hk; simp [hne]
      · simp [hk]

theorem find?_erase (k k' : κ) (entries : List (κ × α)) :
    Bindings.find? k' (Bindings.erase k entries) =
      if k' = k then none else Bindings.find? k' entries := by
  induction entries with
  | nil => simp [Bindings.erase, Bindings.find?]
  | cons head rest ih =>
    unfold Bindings.erase at ih ⊢
    by_cases hk : k = head.1
    · rw [List.filter_cons_of_neg (by simp [hk]), ih, find?_cons]
      subst hk
      split <;> rfl
    · rw [List.filter_cons_of_pos (by simp [hk]), find?_cons, find?_cons, ih]
      by_cases hk' : k' = k
      · subst hk'; simp [hk]
      · simp [hk']

/-- An inserted binding is found under its key, every other look-up is as before. -/
@[simp] theorem get?_insert [Std.TransOrd κ] (m : KeyMap κ α) (k k' : κ) (v : α) :
    (m.insert k v).get? k' = if k' = k then some v else m.get? k' :=
  find?_insert k k' v m.entries

/-- An erased key is found no more, every other look-up is as before. -/
@[simp] theorem get?_erase (m : KeyMap κ α) (k k' : κ) :
    (m.erase k).get? k' = if k' = k then none else m.get? k' :=
  find?_erase k k' m.entries

@[simp] theorem get?_put [Std.TransOrd κ] (m : KeyMap κ α) (k k' : κ) (v : Option α) :
    (m.put k v).get? k' = if k' = k then v else m.get? k' := by
  cases v <;> simp [put]

end KeyMap

end BucketStore
