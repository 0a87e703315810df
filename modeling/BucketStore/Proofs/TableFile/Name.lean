/-
  BucketStore/Proofs/TableFile/Name.lean
  ======================================
  **The name of a table tells the bucket.**

  Every bucket whose name is not empty has a table (`exists_encodeName`), and
  reading the name of that table gives the bucket back
  (`decodeName_of_encodeName`), so no two buckets share one (`table_names_faithful`).

  The reader takes more names than there are tables of buckets: any digits are read,
  of text as of other bytes, and they may be written in other ways
  (`decodeName_eq_ok`).
-/
import BucketStore.TableFile.Name

namespace BucketStore.TableFile

variable {bucket : Bytes} {name : String}

/-! ### What is written -/

/-- The bucket is text that does not begin with the mark. -/
def Unmarked (bucket : Bytes) : Prop :=
  ∃ text, Bytes.text? bucket = some text ∧ text.toList.head? ≠ some '#'

theorem encodeName_unmarked (hname : bucket ≠ []) {text : String} (htext : Bytes.text? bucket = some text)
    (hmark : text.toList.head? ≠ some '#') : encodeName bucket = .ok text := by
  simp only [encodeName, List.isEmpty_iff, hname, if_false, htext, hmark]

theorem encodeName_marked (hname : bucket ≠ []) (h : ¬Unmarked bucket) :
    encodeName bucket = .ok (encodeName.marked bucket) := by
  simp only [encodeName, List.isEmpty_iff, hname, if_false]
  cases htext : Bytes.text? bucket with
  | none => rfl
  | some text =>
    have hmark : text.toList.head? = some '#' :=
      Decidable.byContradiction fun hmark => h ⟨text, htext, hmark⟩
    dsimp only
    rw [if_pos hmark]

/-- **A bucket's table is the bucket as text, if that has no mark, or else the mark and its digits.** -/
theorem encodeName_eq_ok (hname : bucket ≠ []) : encodeName bucket = .ok name ↔
    (name.toList.head? ≠ some '#' ∧ Bytes.ofString name = bucket) ∨
      ¬Unmarked bucket ∧ name = encodeName.marked bucket := by
  by_cases hunmarked : Unmarked bucket
  · obtain ⟨text, htext, hmark⟩ := hunmarked
    have hbytes := Bytes.ofString_of_text? htext
    rw [encodeName_unmarked hname htext hmark, Except.ok.injEq]
    constructor
    · rintro rfl
      exact .inl ⟨hmark, hbytes⟩
    · rintro (⟨-, hbytes'⟩ | ⟨hmarked, -⟩)
      · exact Bytes.ofString_injective (hbytes.trans hbytes'.symm)
      · exact absurd ⟨text, htext, hmark⟩ hmarked
  · rw [encodeName_marked hname hunmarked, Except.ok.injEq]
    constructor
    · rintro rfl
      exact .inr ⟨hunmarked, rfl⟩
    · rintro (⟨hmark, rfl⟩ | ⟨-, rfl⟩)
      · exact absurd ⟨name, Bytes.text?_ofString name, hmark⟩ hunmarked
      · rfl

theorem exists_encodeName (hname : bucket ≠ []) : ∃ name, encodeName bucket = .ok name := by
  by_cases hunmarked : Unmarked bucket
  · obtain ⟨text, htext, hmark⟩ := hunmarked
    exact ⟨text, encodeName_unmarked hname htext hmark⟩
  · exact ⟨_, encodeName_marked hname hunmarked⟩

/-! ### Reading back -/

/-- A pair of written digits reads back as the byte: no digit that is written is a letter in upper
    case or a `+`. -/
theorem byte?_digits {n : Nat} (h : n < 256) :
    byte? (Text.Hex.digit (n / 16)) (Text.Hex.digit (n % 16)) = some (UInt8.ofNat n) := by
  revert h
  revert n
  decide +kernel

theorem bytes?_digits (bucket : Bytes) : bytes? (Text.Hex.digits bucket) = some bucket := by
  induction bucket with
  | nil => rfl
  | cons b rest ih =>
    change bytes? (Text.Hex.digit (b.toNat / 16) :: Text.Hex.digit (b.toNat % 16) ::
      Text.Hex.digits rest) = _
    simp only [bytes?, byte?_digits b.toNat_lt, ih, bind, Option.bind, pure, UInt8.ofNat_toNat]

theorem decodeName_marked (hname : bucket ≠ []) :
    decodeName (encodeName.marked bucket) = .ok bucket := by
  obtain ⟨digit, rest, hcons⟩ := List.exists_cons_of_ne_nil (Text.Hex.digits_ne_nil hname)
  simp only [decodeName, encodeName.marked, String.toList_ofList, hcons]
  rw [← hcons, bytes?_digits]

theorem decodeName_text {text : String} (hname : Bytes.ofString text ≠ [])
    (hmark : text.toList.head? ≠ some '#') : decodeName text = .ok (Bytes.ofString text) := by
  unfold decodeName
  split
  · next heq =>
    rw [String.toList_eq_nil_iff] at heq
    subst heq
    exact absurd rfl hname
  · next heq =>
    rw [heq] at hmark
    exact absurd rfl hmark
  · next heq =>
    rw [heq] at hmark
    exact absurd rfl hmark
  · rfl

/-- **A table's name reads back as the bucket that it was made for.** -/
theorem decodeName_of_encodeName (h : encodeName bucket = .ok name) : decodeName name = .ok bucket := by
  have hname : bucket ≠ [] := by
    rintro rfl
    cases h
  rcases (encodeName_eq_ok hname).mp h with ⟨hmark, rfl⟩ | ⟨-, rfl⟩
  · exact decodeName_text hname hmark
  · exact decodeName_marked hname

/-- **Each bucket but the empty one has a table, and each table is of one bucket.** The table is called
    by the bucket if that is text without the mark in front, and by the mark and the bucket's digits
    if it is not; either way the name is read as the bucket, and no other bucket has a table of that
    name. -/
theorem table_names_faithful (bucket : Bytes) :
    ((∃ fault, encodeName bucket = .error fault) ↔ bucket = []) ∧
    (bucket ≠ [] → ∃ name, encodeName bucket = .ok name ∧ decodeName name = .ok bucket ∧
      (Unmarked bucket ∧ Bytes.ofString name = bucket ∨
        ¬Unmarked bucket ∧ name = String.ofList ('#' :: Text.Hex.digits bucket)) ∧
      ∀ other, encodeName other = .ok name → other = bucket) := by
  constructor
  · constructor
    · rintro ⟨fault, hfailed⟩
      cases bucket with
      | nil => rfl
      | cons b rest =>
        obtain ⟨name, hcode⟩ := exists_encodeName (List.cons_ne_nil b rest)
        rw [hcode] at hfailed
        cases hfailed
    · rintro rfl
      exact ⟨.empty, rfl⟩
  · intro hname
    obtain ⟨name, hcode⟩ := exists_encodeName hname
    have hread := decodeName_of_encodeName hcode
    refine ⟨name, hcode, hread, ?_, ?_⟩
    · rcases (encodeName_eq_ok hname).mp hcode with ⟨hmark, rfl⟩ | hmarked
      · exact .inl ⟨⟨name, Bytes.text?_ofString name, hmark⟩, rfl⟩
      · exact .inr hmarked
    · intro other hother
      rw [decodeName_of_encodeName hother, Except.ok.injEq] at hread
      exact hread

/-- Text with the mark and bytes that are no text are both called by their digits. -/
theorem table_names_faithful_marked :
    encodeName [0x23, 0x61] = .ok "#2361" ∧ decodeName "#2361" = .ok [0x23, 0x61] ∧
    encodeName [0xFF, 0x00] = .ok "#ff00" ∧ decodeName "#ff00" = .ok [0xFF, 0x00] := by
  have hcode : encodeName [0x23, 0x61] = .ok "#2361" := rfl
  have hcode' : encodeName [0xFF, 0x00] = .ok "#ff00" := rfl
  obtain ⟨-, hnamed⟩ := table_names_faithful [0x23, 0x61]
  obtain ⟨-, hnamed'⟩ := table_names_faithful [0xFF, 0x00]
  obtain ⟨name, hname, hread, -⟩ := hnamed (by decide)
  obtain ⟨name', hname', hread', -⟩ := hnamed' (by decide)
  rw [hcode, Except.ok.injEq] at hname
  rw [hcode', Except.ok.injEq] at hname'
  exact ⟨hcode, hname ▸ hread, hcode', hname' ▸ hread'⟩

/-! ### What the reader takes -/

/-- The digits that pairs of characters are read as: letters in lower case, and a zero for a `+` in
    front. -/
def lowerDigits : List Char → List Char
  | high :: low :: rest =>
    (if high = '+' then '0' else high.toLower) :: low.toLower :: lowerDigits rest
  | rest => rest

theorem digit?_eq_nibble? (c : Char) : digit? c = Text.Hex.nibble? c.toLower := by
  by_cases hc : c.toNat < 128
  · have hascii : ∀ n < 128, digit? (Char.ofNat n) = Text.Hex.nibble? (Char.ofNat n).toLower := by
      decide
    have h := hascii c.toNat hc
    rwa [Char.ofNat_toNat] at h
  · have hupper : ¬('A' ≤ c ∧ c ≤ 'F') := by
      rintro ⟨-, hle⟩
      have hle' : c.toNat ≤ 70 := hle
      omega
    have hlower : c.toLower = c := by
      unfold Char.toLower
      rw [dif_neg]
      rintro ⟨-, hle⟩
      have hle' : c.toNat ≤ 90 := hle
      omega
    rw [digit?, if_neg hupper, hlower]

theorem digit?_eq_some {c : Char} {n : Nat} :
    digit? c = some n ↔ n < 16 ∧ c.toLower = Text.Hex.digit n := by
  rw [digit?_eq_nibble?, Text.Hex.nibble?_eq_some]

theorem byte?_eq_some {high low : Char} {b : UInt8} : byte? high low = some b ↔
    (if high = '+' then '0' else high.toLower) = Text.Hex.digit (b.toNat / 16) ∧
      low.toLower = Text.Hex.digit (b.toNat % 16) := by
  have hb : b.toNat < 256 := b.toNat_lt
  have hbyte : ∀ {n}, n < 256 → (UInt8.ofNat n).toNat = n := by
    intro n hn
    rw [UInt8.toNat_ofNat']
    omega
  unfold byte?
  simp only [bind, Option.bind_eq_some_iff, digit?_eq_some]
  by_cases hplus : high = '+'
  · have hzero : '0' = Text.Hex.digit (b.toNat / 16) ↔ 0 = b.toNat / 16 := by
      have h := Text.Hex.nibble?_eq_some (c := '0') (n := b.toNat / 16)
      have hhalf : b.toNat / 16 < 16 := by omega
      simp only [hhalf, true_and] at h
      rw [← h]
      exact Option.some_inj
    simp only [hplus, if_true, pure, Option.some_inj, hzero]
    constructor
    · rintro ⟨l, ⟨hl, hlow⟩, rfl⟩
      rw [hbyte (by omega), hlow, Nat.mod_eq_of_lt hl]
      exact ⟨by omega, rfl⟩
    · rintro ⟨hhigh, hlow⟩
      refine ⟨b.toNat % 16, ⟨by omega, hlow⟩, ?_⟩
      have hsmall : b.toNat % 16 = b.toNat := by omega
      rw [hsmall, UInt8.ofNat_toNat]
  · simp only [hplus, if_false, Option.bind_eq_some_iff, digit?_eq_some, pure, Option.some_inj]
    constructor
    · rintro ⟨l, ⟨hl, hlow⟩, h, ⟨hh, hhigh⟩, rfl⟩
      rw [hbyte (by omega), hlow, hhigh]
      exact ⟨congrArg _ (by omega), congrArg _ (by omega)⟩
    · rintro ⟨hhigh, hlow⟩
      refine ⟨b.toNat % 16, ⟨by omega, hlow⟩, b.toNat / 16, ⟨by omega, hhigh⟩, ?_⟩
      have hhalves : b.toNat / 16 * 16 + b.toNat % 16 = b.toNat := by omega
      rw [hhalves, UInt8.ofNat_toNat]

theorem bytes?_eq_some {digits : List Char} :
    bytes? digits = some bucket ↔ lowerDigits digits = Text.Hex.digits bucket := by
  induction digits using bytes?.induct generalizing bucket with
  | case1 =>
    constructor
    · rintro ⟨⟩
      rfl
    · intro h
      cases bucket with
      | nil => rfl
      | cons b rest => cases h
  | case2 c =>
    constructor
    · intro h
      cases h
    · intro h
      have hlength := congrArg List.length h
      rw [Text.Hex.length_digits] at hlength
      simp only [lowerDigits, List.length_cons, List.length_nil] at hlength
      omega
  | case3 high low rest ih =>
    simp only [bytes?, bind, Option.bind_eq_some_iff, pure, Option.some_inj]
    constructor
    · rintro ⟨b, hb, bucket', hrest, rfl⟩
      obtain ⟨hhigh, hlow⟩ := byte?_eq_some.mp hb
      rw [lowerDigits, hhigh, hlow, ih.mp hrest]
      rfl
    · intro h
      cases bucket with
      | nil => cases h
      | cons b bucket' =>
        change lowerDigits (high :: low :: rest) = Text.Hex.digit (b.toNat / 16) ::
          Text.Hex.digit (b.toNat % 16) :: Text.Hex.digits bucket' at h
        simp only [lowerDigits, List.cons.injEq] at h
        exact ⟨b, byte?_eq_some.mpr ⟨h.1, h.2.1⟩, bucket', ih.mpr h.2.2, rfl⟩

theorem bytes?_nil {digits : List Char} (h : bytes? digits = some []) : digits = [] := by
  match digits with
  | [] => rfl
  | [_] => cases h
  | high :: low :: rest => simp [bytes?, bind, Option.bind_eq_some_iff] at h

/-- **A name is read as a bucket if it is text without the mark, which is the bucket, or some way to
    write the bucket's digits behind the mark.** -/
theorem decodeName_eq_ok : decodeName name = .ok bucket ↔
    bucket ≠ [] ∧ ((name.toList.head? ≠ some '#' ∧ Bytes.ofString name = bucket) ∨
      ∃ digits, name.toList = '#' :: digits ∧ lowerDigits digits = Text.Hex.digits bucket) := by
  constructor
  · intro h
    unfold decodeName at h
    split at h
    · cases h
    · cases h
    · next digits hdigits hname =>
      have hbucket : bytes? digits = some bucket := by
        split at h
        · next found hfound =>
          cases h
          exact hfound
        · cases h
      refine ⟨?_, .inr ⟨digits, hname, bytes?_eq_some.mp hbucket⟩⟩
      rintro rfl
      exact hdigits (bytes?_nil hbucket)
    · next hempty _ hmark =>
      cases h
      refine ⟨?_, .inl ⟨?_, rfl⟩⟩
      · intro hnone
        have hname : name = "" := Bytes.ofString_injective hnone
        exact hempty (by rw [hname]; rfl)
      · intro hhead
        obtain ⟨rest, hrest⟩ := List.head?_eq_some_iff.mp hhead
        exact hmark rest hrest
  · rintro ⟨hname, ⟨hmark, rfl⟩ | ⟨digits, hdigits, hbucket⟩⟩
    · exact decodeName_text hname hmark
    · have hread := bytes?_eq_some.mpr hbucket
      unfold decodeName
      rw [hdigits]
      match digits, hread with
      | [], hread => exact absurd (Option.some.inj hread).symm hname
      | c :: rest, hread => simp only [hread]

/-- What is reported of any other name is the name. -/
theorem fault_of_decodeName {fault : NameFault} (h : decodeName name = .error fault) :
    fault = .unreadable name := by
  unfold decodeName at h
  split at h
  · cases h
    rfl
  · cases h
    rfl
  · split at h
    · cases h
    · cases h
      rfl
  · cases h

end BucketStore.TableFile
