/-
  BucketStore/Text/Hex.lean
  =========================
  **Bytes written as pairs of lowercase hexadecimal digits.**

  `digits` writes two digits a byte, the high half first.  `nibble?` is the
  strict reader of one digit, which knows lowercase only.
-/
import BucketStore.Bytes

namespace BucketStore.Text.Hex

def digit (n : Nat) : Char :=
  if n < 10 then Char.ofNat (48 + n) else Char.ofNat (87 + n)

/-- The value of a digit `0-9a-f`. -/
def nibble? (c : Char) : Option Nat :=
  if '0' ≤ c ∧ c ≤ '9' then some (c.toNat - 48)
  else if 'a' ≤ c ∧ c ≤ 'f' then some (c.toNat - 87)
  else none

def byteDigits (b : UInt8) : List Char := [digit (b.toNat / 16), digit (b.toNat % 16)]

/-- The digits of a byte string, two for each byte. -/
def digits (bytes : Bytes) : List Char := bytes.flatMap byteDigits

def encode (bytes : Bytes) : String := String.ofList (digits bytes)

theorem nibble?_digit {n : Nat} (h : n < 16) : nibble? (digit n) = some n := by
  revert h; revert n; decide

/-- There is one digit for each value. -/
theorem nibble?_eq_some {c : Char} {n : Nat} : nibble? c = some n ↔ n < 16 ∧ c = digit n := by
  constructor
  · intro h
    unfold nibble? at h
    split at h
    · next hc =>
      have hlow : 48 ≤ c.toNat := hc.1
      have hhigh : c.toNat ≤ 57 := hc.2
      cases h
      refine ⟨by omega, ?_⟩
      rw [digit, if_pos (by omega), Nat.add_sub_cancel' hlow, Char.ofNat_toNat]
    · split at h
      · next hc =>
        have hlow : 97 ≤ c.toNat := hc.1
        have hhigh : c.toNat ≤ 102 := hc.2
        cases h
        refine ⟨by omega, ?_⟩
        rw [digit, if_neg (by omega), Nat.add_sub_cancel' (by omega), Char.ofNat_toNat]
      · cases h
  · rintro ⟨hn, rfl⟩
    exact nibble?_digit hn

theorem length_digits (bytes : Bytes) : (digits bytes).length = 2 * bytes.length := by
  induction bytes with
  | nil => rfl
  | cons b rest ih =>
    rw [digits, List.flatMap_cons, List.length_append, ← digits, ih]
    simp only [byteDigits, List.length_cons, List.length_nil]
    omega

theorem digits_ne_nil {bytes : Bytes} (h : bytes ≠ []) : digits bytes ≠ [] := by
  intro hnil
  have hlength := length_digits bytes
  rw [hnil, List.length_nil] at hlength
  exact h (List.length_eq_zero_iff.mp (by omega))

end BucketStore.Text.Hex
