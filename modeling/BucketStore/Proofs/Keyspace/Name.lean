/-
  BucketStore/Proofs/Keyspace/Name.lean
  =====================================
  **The name of a partition tells the bucket.**

  Every bucket whose name is not empty and not too long has a partition
  (`encodeName_eq`), and reading the name of that partition gives the bucket back
  (`decodeName_of_encodeName`), so no two buckets share one.  All names of partitions
  are legal, and which buckets are too long depends on whether they are plain
  (`partition_names_faithful`).

  The reader takes more names than there are partitions of buckets: a plain bucket
  is read from its digits as well, and no length is too much (`decodeName_eq_ok`).
-/
import BucketStore.Keyspace.Name

namespace BucketStore.Keyspace

variable {bucket : Bytes} {name : String}

/-- The name of the bucket's partition is not too long. -/
def Fits (bucket : Bytes) : Prop := (nameChars bucket).length ≤ maxNameLength

instance (bucket : Bytes) : Decidable (Fits bucket) := inferInstanceAs (Decidable (_ ≤ _))

/-- Pairs of digits read back as the bytes that they were written for. -/
theorem bytes?_digits (bucket : Bytes) : bytes? (Text.Hex.digits bucket) = some bucket := by
  induction bucket with
  | nil => rfl
  | cons b rest ih =>
    have hb : b.toNat < 256 := b.toNat_lt
    have hhigh := Text.Hex.nibble?_digit (show b.toNat / 16 < 16 by omega)
    have hlow := Text.Hex.nibble?_digit (show b.toNat % 16 < 16 by omega)
    have hhalves : b.toNat / 16 * 16 + b.toNat % 16 = b.toNat := by omega
    change bytes? (Text.Hex.digit (b.toNat / 16) :: Text.Hex.digit (b.toNat % 16) ::
      Text.Hex.digits rest) = _
    simp only [bytes?, hhigh, hlow, ih, hhalves, bind, Option.bind, pure, UInt8.ofNat_toNat]

/-- A plain byte is the number of an ASCII character other than the mark. -/
theorem ascii_of_isPlain {b : UInt8} (h : isPlain b = true) :
    b.toNat < 128 ∧ Char.ofNat b.toNat ≠ '#' := by
  have hall : ∀ n < 256, isPlain (UInt8.ofNat n) = true → n < 128 ∧ Char.ofNat n ≠ '#' := by
    decide +kernel
  apply hall b.toNat b.toNat_lt
  rw [UInt8.ofNat_toNat]
  exact h

theorem encodeName_eq (hname : bucket ≠ []) (hfits : Fits bucket) :
    encodeName bucket = .ok (String.ofList (nameChars bucket)) := by
  have hlength : ¬maxNameLength < (nameChars bucket).length := Nat.not_lt.mpr hfits
  simp only [encodeName, List.isEmpty_iff, hname, if_false, hlength]

theorem encodeName_eq_ok (hname : bucket ≠ []) : encodeName bucket = .ok name ↔
    Fits bucket ∧ name = String.ofList (nameChars bucket) := by
  by_cases hfits : Fits bucket
  · simp [encodeName_eq hname hfits, hfits, eq_comm]
  · have hlong : maxNameLength < (nameChars bucket).length := Nat.lt_of_not_le hfits
    simp [encodeName, hname, hlong, hfits]

theorem decodeName_marked (hname : bucket ≠ []) :
    decodeName (String.ofList ('#' :: Text.Hex.digits bucket)) = .ok bucket := by
  obtain ⟨digit, rest, hcons⟩ := List.exists_cons_of_ne_nil (Text.Hex.digits_ne_nil hname)
  simp only [decodeName, String.toList_ofList, hcons]
  rw [← hcons, bytes?_digits]

/-- Plain text does not begin with the mark. -/
theorem plain_ne_marked (hname : bucket ≠ []) (hplain : bucket.all isPlain = true) (rest : List Char) :
    bucket.map (fun b => Char.ofNat b.toNat) ≠ '#' :: rest := by
  intro hmap
  obtain ⟨b, bs, rfl⟩ := List.exists_cons_of_ne_nil hname
  rw [List.map_cons, List.cons.injEq] at hmap
  exact (ascii_of_isPlain (List.all_eq_true.mp hplain b (List.mem_cons_self ..))).2 hmap.1

theorem decodeName_plain (hname : bucket ≠ []) (hplain : bucket.all isPlain = true) :
    decodeName (String.ofList (bucket.map fun b => Char.ofNat b.toNat)) = .ok bucket := by
  have hbytes : ∀ b ∈ bucket, b.toNat < 128 := fun b hb =>
    (ascii_of_isPlain (List.all_eq_true.mp hplain b hb)).1
  unfold decodeName
  split
  · next heq =>
    rw [String.toList_ofList, List.map_eq_nil_iff] at heq
    exact absurd heq hname
  · next heq =>
    rw [String.toList_ofList] at heq
    exact absurd heq (plain_ne_marked hname hplain [])
  · next rest _ heq =>
    rw [String.toList_ofList] at heq
    exact absurd heq (plain_ne_marked hname hplain rest)
  · simp only [Bytes.ofString_ascii hbytes, hplain, if_true]

/-- **A partition's name reads back as the bucket that it was made for.** -/
theorem decodeName_of_encodeName (h : encodeName bucket = .ok name) : decodeName name = .ok bucket := by
  have hname : bucket ≠ [] := by
    rintro rfl
    cases h
  obtain ⟨-, rfl⟩ := (encodeName_eq_ok hname).mp h
  by_cases hplain : bucket.all isPlain = true
  · rw [nameChars, if_pos hplain]
    exact decodeName_plain hname hplain
  · rw [nameChars, if_neg hplain]
    exact decodeName_marked hname

/-! ### What names look like -/

/-- A letter or a digit of ASCII, `_` or `-`. -/
def IsPlainChar (c : Char) : Prop := c.isAlphanum = true ∨ c = '_' ∨ c = '-'

instance (c : Char) : Decidable (IsPlainChar c) := inferInstanceAs (Decidable (_ ∨ _))

theorem isPlain_iff {b : UInt8} : isPlain b = true ↔ IsPlainChar (Char.ofNat b.toNat) := by
  have hall : ∀ n < 256, isPlain (UInt8.ofNat n) = true ↔ IsPlainChar (Char.ofNat n) := by
    decide +kernel
  have hb := hall b.toNat b.toNat_lt
  rwa [UInt8.ofNat_toNat] at hb

theorem plain_digits : ∀ c ∈ Text.Hex.digits bucket, IsPlainChar c := by
  intro c hc
  obtain ⟨b, -, hc⟩ := List.mem_flatMap.mp hc
  have hall : ∀ n < 16, IsPlainChar (Text.Hex.digit n) := by decide
  have hb : b.toNat < 256 := b.toNat_lt
  rcases List.mem_cons.mp hc with rfl | hc
  · exact hall _ (by omega)
  · rw [List.mem_singleton.mp hc]
    exact hall _ (by omega)

theorem legal_nameChars : ∀ c ∈ nameChars bucket, IsPlainChar c ∨ c = '#' := by
  intro c hc
  unfold nameChars at hc
  split at hc
  · next hplain =>
    obtain ⟨b, hb, rfl⟩ := List.mem_map.mp hc
    exact .inl (isPlain_iff.mp (List.all_eq_true.mp hplain b hb))
  · rcases List.mem_cons.mp hc with rfl | hc
    · exact .inr rfl
    · exact .inl (plain_digits c hc)

theorem length_nameChars (bucket : Bytes) : (nameChars bucket).length =
    if bucket.all isPlain then bucket.length else 1 + 2 * bucket.length := by
  unfold nameChars
  split
  · rw [List.length_map]
  · rw [List.length_cons, Text.Hex.length_digits, Nat.add_comm]

/-- A bucket that is not plain may be only half as long: it takes the mark and two digits a byte. -/
theorem fits_iff : Fits bucket ↔
    (∀ b ∈ bucket, IsPlainChar (Char.ofNat b.toNat)) ∧ bucket.length ≤ 255 ∨
      (∃ b ∈ bucket, ¬IsPlainChar (Char.ofNat b.toNat)) ∧ bucket.length ≤ 127 := by
  have hplain : bucket.all isPlain = true ↔ ∀ b ∈ bucket, IsPlainChar (Char.ofNat b.toNat) := by
    simp only [List.all_eq_true, isPlain_iff]
  have hother : (∃ b ∈ bucket, ¬IsPlainChar (Char.ofNat b.toNat)) ↔ ¬bucket.all isPlain = true := by
    simp only [hplain, Classical.not_forall, exists_prop]
  rw [hother, ← hplain, Fits, length_nameChars, maxNameLength]
  by_cases h : bucket.all isPlain = true
  · simp [h]
  · rw [if_neg h]
    simp only [h, Bool.false_eq_true, false_and, false_or, true_and, not_false_eq_true]
    omega

theorem nameChars_ne_nil (hname : bucket ≠ []) : nameChars bucket ≠ [] := by
  unfold nameChars
  split
  · exact fun hnil => hname (List.map_eq_nil_iff.mp hnil)
  · exact List.cons_ne_nil _ _

/-- **Partitions have legal names, and each is of one bucket.** A bucket has a partition exactly if it is
    not empty, and plain and at most 255 bytes long or else at most 127. The name of the partition has
    1 to 255 characters, which are plain or the mark; it is read as the bucket, and no other bucket
    has a partition of that name. -/
theorem partition_names_faithful (bucket : Bytes) :
    ((∃ name, encodeName bucket = .ok name) ↔ bucket ≠ [] ∧
      ((∀ b ∈ bucket, IsPlainChar (Char.ofNat b.toNat)) ∧ bucket.length ≤ 255 ∨
        (∃ b ∈ bucket, ¬IsPlainChar (Char.ofNat b.toNat)) ∧ bucket.length ≤ 127)) ∧
    ∀ name, encodeName bucket = .ok name →
      (1 ≤ name.length ∧ name.length ≤ 255 ∧ ∀ c ∈ name.toList, IsPlainChar c ∨ c = '#') ∧
      decodeName name = .ok bucket ∧ ∀ other, encodeName other = .ok name → other = bucket := by
  have hnamed : ∀ {name}, encodeName bucket = .ok name → bucket ≠ [] := by
    rintro name hcode rfl
    cases hcode
  constructor
  · rw [← fits_iff]
    constructor
    · rintro ⟨name, hcode⟩
      exact ⟨hnamed hcode, ((encodeName_eq_ok (hnamed hcode)).mp hcode).1⟩
    · rintro ⟨hname, hfits⟩
      exact ⟨_, encodeName_eq hname hfits⟩
  · intro name hcode
    obtain ⟨hfits, hchars⟩ := (encodeName_eq_ok (hnamed hcode)).mp hcode
    have hread := decodeName_of_encodeName hcode
    refine ⟨⟨?_, ?_, ?_⟩, hread, ?_⟩
    · rw [hchars, String.length_ofList]
      exact List.length_pos_iff.mpr (nameChars_ne_nil (hnamed hcode))
    · rw [hchars, String.length_ofList]
      exact hfits
    · rw [hchars, String.toList_ofList]
      exact legal_nameChars
    · intro other hother
      rw [decodeName_of_encodeName hother, Except.ok.injEq] at hread
      exact hread

/-- A bucket called `#61` does not meet the bucket `a`, nor a partition that is one byte too long. -/
theorem partition_names_faithful_marked :
    encodeName [0x23, 0x36, 0x31] = .ok "#233631" ∧
    decodeName "#233631" = .ok [0x23, 0x36, 0x31] ∧
    (∀ other, encodeName other = .ok "#233631" → other = [0x23, 0x36, 0x31]) ∧
    (∃ name, encodeName (List.replicate 127 0x2E) = .ok name) ∧
    ¬∃ name, encodeName (List.replicate 128 0x2E) = .ok name := by
  have hcode : encodeName [0x23, 0x36, 0x31] = .ok "#233631" := rfl
  have hdot : ¬IsPlainChar (Char.ofNat (0x2E : UInt8).toNat) := by decide
  obtain ⟨-, hname⟩ := partition_names_faithful [0x23, 0x36, 0x31]
  obtain ⟨-, hread, hsole⟩ := hname _ hcode
  obtain ⟨hlongest, -⟩ := partition_names_faithful (List.replicate 127 0x2E)
  obtain ⟨hlonger, -⟩ := partition_names_faithful (List.replicate 128 0x2E)
  refine ⟨hcode, hread, hsole, ?_, ?_⟩
  · rw [hlongest]
    exact ⟨by simp, .inr ⟨⟨0x2E, by simp, hdot⟩, by simp⟩⟩
  · rw [hlonger]
    rintro ⟨-, ⟨hplain, -⟩ | ⟨-, hlength⟩⟩
    · exact hdot (hplain 0x2E (by simp))
    · simp at hlength

/-! ### What the reader takes -/

/-- Digits that are read as a bucket are those that are written for it. -/
theorem bytes?_eq_some {digits : List Char} :
    bytes? digits = some bucket ↔ digits = Text.Hex.digits bucket := by
  constructor
  · intro h
    induction digits using bytes?.induct generalizing bucket with
    | case1 =>
      cases h
      rfl
    | case2 c => cases h
    | case3 high low rest ih =>
      simp only [bytes?, bind, Option.bind_eq_some_iff, pure, Option.some_inj] at h
      obtain ⟨n, hn, k, hk, bucket', hrest, rfl⟩ := h
      obtain ⟨hn, rfl⟩ := Text.Hex.nibble?_eq_some.mp hn
      obtain ⟨hk, rfl⟩ := Text.Hex.nibble?_eq_some.mp hk
      rw [ih hrest]
      have hbyte : (UInt8.ofNat (n * 16 + k)).toNat = n * 16 + k := by
        rw [UInt8.toNat_ofNat']
        omega
      have hhigh : (n * 16 + k) / 16 = n := by omega
      have hlow : (n * 16 + k) % 16 = k := by omega
      simp only [Text.Hex.digits, List.flatMap_cons, Text.Hex.byteDigits, hbyte, hhigh, hlow]
      rfl
  · rintro rfl
    exact bytes?_digits bucket

/-- **A name is read as a bucket if it is the plain name or the digits of one**, whether or not that
    is how the bucket's partition is called. -/
theorem decodeName_eq_ok : decodeName name = .ok bucket ↔
    bucket ≠ [] ∧ (name = String.ofList (nameChars bucket) ∨
      name = String.ofList ('#' :: Text.Hex.digits bucket)) := by
  constructor
  · intro h
    unfold decodeName at h
    split at h
    · cases h
    · cases h
    · next digits hdigits hname =>
      have hbucket : digits = Text.Hex.digits bucket := by
        split at h
        · next found hfound =>
          cases h
          exact bytes?_eq_some.mp hfound
        · cases h
      refine ⟨?_, .inr ?_⟩
      · rintro rfl
        exact hdigits hbucket
      · rw [← hbucket, ← hname, String.ofList_toList]
    · next hempty _ _ =>
      dsimp only at h
      split at h
      · next hplain =>
        cases h
        have hname : name = String.ofList ((Bytes.ofString name).map fun b => Char.ofNat b.toNat) := by
          apply Bytes.ofString_injective
          rw [Bytes.ofString_ascii]
          exact fun b hb => (ascii_of_isPlain (List.all_eq_true.mp hplain b hb)).1
        refine ⟨?_, .inl ?_⟩
        · intro hnone
          rw [hnone] at hname
          exact hempty (by rw [hname]; rfl)
        · rw [nameChars, if_pos hplain]
          exact hname
      · cases h
  · rintro ⟨hname, rfl | rfl⟩
    · by_cases hplain : bucket.all isPlain = true
      · rw [nameChars, if_pos hplain]
        exact decodeName_plain hname hplain
      · rw [nameChars, if_neg hplain]
        exact decodeName_marked hname
    · exact decodeName_marked hname

/-- What is reported of any other name is the name. -/
theorem fault_of_decodeName {fault : NameFault} (h : decodeName name = .error fault) :
    fault = .unreadable name := by
  unfold decodeName at h
  split at h
  · cases h
    rfl
  · cases h
    rfl
  · split at h
    · cases h
    · cases h
      rfl
  · dsimp only at h
    split at h
    · cases h
    · cases h
      rfl

end BucketStore.Keyspace
