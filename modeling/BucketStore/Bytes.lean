/-
  BucketStore/Bytes.lean
  ======================
  **Byte strings: the bucket names, keys and values of every store.**

  A byte string is a list of bytes, compared lexicographically.  Text enters
  through its UTF-8 bytes (`Bytes.ofString`) and leaves again only where the
  bytes are well-formed UTF-8 (`Bytes.text?`); the two are inverse to each
  other, which `text?_ofString` and `ofString_of_text?` state.
-/

namespace BucketStore

abbrev Bytes := List UInt8

namespace Bytes

def ofString (s : String) : Bytes := s.toByteArray.data.toList

/-- The text that the bytes encode, if they are well-formed UTF-8. -/
def text? (b : Bytes) : Option String := String.fromUTF8? ⟨b.toArray⟩

theorem text?_ofString (s : String) : text? (ofString s) = some s := by
  simp [text?, ofString, String.fromUTF8?, String.fromUTF8, s.isValidUTF8]

theorem ofString_of_text? {b : Bytes} {s : String} (h : text? b = some s) : ofString s = b := by
  unfold text? String.fromUTF8? at h
  split at h
  · cases h; simp [ofString, String.fromUTF8]
  · simp at h

theorem text?_eq_some {b : Bytes} {s : String} : text? b = some s ↔ ofString s = b :=
  ⟨ofString_of_text?, fun h => h ▸ text?_ofString s⟩

/-- Bytes are no text if they are the bytes of none. -/
theorem text?_eq_none {b : Bytes} : text? b = none ↔ ∀ s, ofString s ≠ b := by
  simp only [Option.eq_none_iff_forall_ne_some, Ne, text?_eq_some]

theorem ofString_injective {s t : String} (h : ofString s = ofString t) : s = t := by
  have := text?_ofString s
  rw [h, text?_ofString] at this
  exact (Option.some.inj this).symm

/-- A text of ASCII characters has their numbers for bytes. -/
theorem ofString_ascii {bytes : Bytes} (h : ∀ b ∈ bytes, b.toNat < 128) :
    ofString (String.ofList (bytes.map fun b => Char.ofNat b.toNat)) = bytes := by
  have hchar : ∀ n < 128, String.utf8EncodeChar (Char.ofNat n) = [UInt8.ofNat n] := by decide
  unfold ofString
  rw [String.toByteArray_ofList]
  induction bytes with
  | nil => rfl
  | cons b rest ih =>
    obtain ⟨hb, hrest⟩ := List.forall_mem_cons.mp h
    rw [List.map_cons, List.utf8Encode_cons]
    simp only [ByteArray.data_append, Array.toList_append, ih hrest]
    simp [List.utf8Encode, hchar _ hb]

end Bytes

end BucketStore
