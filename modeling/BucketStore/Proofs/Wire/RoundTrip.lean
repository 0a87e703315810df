/-
  BucketStore/Proofs/Wire/RoundTrip.lean
  ======================================
  **Every reader takes exactly what its writer put.**

  `Reads take bytes a` says that the reader takes `a` off the front of anything
  that begins with `bytes`, and leaves all that is behind them.  Readers made of
  parts read the parts one behind the other (`Reads.bind`), so each layout is
  read back by the same steps in which it was written.

  Lengths and counts are 64-bit numbers on the wire, as they are in memory: a byte
  string is `Addressable` if its length is one, and the reader of byte strings
  asks for no more (`putBytes_reads`).  Nor does a reader ever take more: what
  is read of foreign bytes is addressable as well (`takeBytes_yields`).
-/
import BucketStore.Wire.Layout
import Mathlib.Algebra.Group.Nat.Defs

namespace BucketStore

/-- A byte string that fits into memory: its length is a 64-bit number. -/
def Bytes.Addressable (bytes : Bytes) : Prop := bytes.length < 2 ^ 64

instance (bytes : Bytes) : Decidable bytes.Addressable :=
  inferInstanceAs (Decidable (bytes.length < 2 ^ 64))

namespace Wire

variable {α β : Type}

/-- The reader takes `a` off the front of whatever begins with `bytes`. -/
def Reads (take : Reader α) (bytes : Bytes) (a : α) : Prop :=
  ∀ rest, take (bytes ++ rest) = .ok (a, rest)

/-! ### Readers made of parts -/

theorem Reads.pure (a : α) : Reads (pure a) [] a := fun _ => rfl

theorem Reads.bind {take : Reader α} {next : α → Reader β} {bytes bytes' : Bytes} {a : α} {b : β}
    (h : Reads take bytes a) (h' : Reads (next a) bytes' b) :
    Reads (take >>= next) (bytes ++ bytes') b := by
  intro rest
  change (take (bytes ++ bytes' ++ rest) >>= fun r => next r.1 r.2) = _
  rw [List.append_assoc, h]
  exact h' rest

theorem Reads.last {take : Reader α} {next : α → Reader β} {bytes : Bytes} {a : α} {b : β}
    (h : Reads take bytes a) (h' : Reads (next a) [] b) : Reads (take >>= next) bytes b := by
  have hall := h.bind h'
  rwa [List.append_nil] at hall

/-! ### Fixed numbers of bytes -/

@[simp] theorem length_littleEndian (n v : Nat) : (littleEndian n v).length = n := by
  induction n generalizing v with
  | zero => rfl
  | succ n ih => simp [littleEndian, ih]

theorem ofLittleEndian_littleEndian (n v : Nat) (h : v < 256 ^ n) :
    ofLittleEndian (littleEndian n v) = v := by
  induction n generalizing v with
  | zero => simp only [littleEndian, ofLittleEndian]; omega
  | succ n ih =>
    have hdiv : v / 256 < 256 ^ n := by
      rw [Nat.div_lt_iff_lt_mul (by decide)]
      rwa [Nat.pow_succ] at h
    simp only [littleEndian, ofLittleEndian, ih _ hdiv, UInt8.toNat_ofNat']
    omega

theorem takeByte_reads (b : UInt8) : Reads takeByte [b] b := fun _ => rfl

theorem takeRaw_reads (bytes : Bytes) : Reads (takeRaw bytes.length) bytes bytes := by
  intro rest
  simp [takeRaw]

/-! ### Whole numbers -/

theorem ofLittleEndian_reads {n v : Nat} (h : v < 256 ^ n) :
    Reads (do return ofLittleEndian (← takeRaw n)) (littleEndian n v) v := by
  have hraw := takeRaw_reads (littleEndian n v)
  rw [length_littleEndian] at hraw
  refine hraw.last ?_
  rw [ofLittleEndian_littleEndian n v h]
  exact Reads.pure v

/-- A number of one byte is read back whatever the widest mark is. -/
theorem takeNatUpTo_reads_small (widest : UInt8) (width : Width) {n : Nat} (h : n < 251) :
    Reads (takeNatUpTo widest width) (putNat n) n := by
  have hsmall : (UInt8.ofNat n).toNat = n := by simp; omega
  have hmark : UInt8.ofNat n < 251 := by
    rw [UInt8.lt_iff_toNat_lt, hsmall]
    exact h
  unfold putNat takeNatUpTo
  rw [if_pos h]
  refine (takeByte_reads (UInt8.ofNat n)).last ?_
  rw [if_pos hmark, hsmall]
  exact Reads.pure n

theorem putNat_reads (n : Nat) (width : Width) (h : n < 2 ^ 64) :
    Reads (takeNat width) (putNat n) n := by
  by_cases h8 : n < 251
  · exact takeNatUpTo_reads_small 253 width h8
  unfold putNat takeNat takeNatUpTo
  rw [if_neg h8]
  by_cases h16 : n < UInt16.size
  · rw [if_pos h16]
    exact (takeByte_reads 251).bind (ofLittleEndian_reads (n := 2) (by omega))
  rw [if_neg h16]
  by_cases h32 : n < UInt32.size
  · rw [if_pos h32]
    exact (takeByte_reads 252).bind (ofLittleEndian_reads (n := 4) (by omega))
  · rw [if_neg h32]
    exact (takeByte_reads 253).bind (ofLittleEndian_reads (n := 8) (by omega))

/-- The number of a variant is one byte, so no reader is in doubt about its width. -/
theorem takeVariant_reads {n count : Nat} (hcount : n < count) (hn : n < 251) :
    Reads (takeVariant count) (putNat n) n := by
  refine (takeNatUpTo_reads_small 252 .u32 hn).last ?_
  rw [if_pos hcount]
  exact Reads.pure n

theorem unzigzag_zigzag (i : Int) : unzigzag (zigzag i) = i := by
  unfold unzigzag zigzag
  split <;> split <;> omega

theorem zigzag_lt (i : Int64) : zigzag i.toInt < 2 ^ 64 := by
  have hlow := i.le_toInt
  have hhigh := i.toInt_lt
  unfold zigzag
  split <;> omega

theorem putInt_reads (i : Int64) : Reads takeInt (putInt i) i := by
  intro rest
  have h := putNat_reads (zigzag i.toInt) .u64 (zigzag_lt i) rest
  unfold takeInt putInt
  rw [h]
  simp only [unzigzag_zigzag, Int64.ofInt_toInt]

/-! ### Byte strings and texts -/

theorem putBytes_reads (bytes : Bytes) (h : bytes.Addressable) :
    Reads takeBytes (putBytes bytes) bytes := by
  refine (putNat_reads bytes.length .size h).bind ?_
  intro rest
  simp

theorem putText_reads (s : String) (h : (Bytes.ofString s).Addressable) :
    Reads takeText (putText s) s := by
  refine (putNat_reads _ .u64 h).bind ((takeRaw_reads (Bytes.ofString s)).last ?_)
  rw [Bytes.text?_ofString]
  exact Reads.pure s

/-! ### Lists -/

theorem takeMany_reads {take : Reader α} {put : α → Bytes} (l : List α)
    (h : ∀ a ∈ l, Reads take (put a) a) : Reads (takeMany take l.length) (l.flatMap put) l := by
  induction l with
  | nil => exact Reads.pure []
  | cons a l ih =>
    refine (h a (List.mem_cons_self ..)).bind ((ih fun x hx => h x (List.mem_cons_of_mem a hx)).last ?_)
    exact Reads.pure (a :: l)

theorem putList_reads {take : Reader α} {put : α → Bytes} (l : List α) (hlen : l.length < 2 ^ 64)
    (h : ∀ a ∈ l, Reads take (put a) a) : Reads (takeList take) (putList put l) l :=
  (putNat_reads l.length .size hlen).bind (takeMany_reads l h)

/-! ### Transaction states -/

theorem putTxState_reads (state : TxState) : Reads takeTxState (putTxState state) state := by
  have hvariant : ∀ n, n < 4 → Reads (takeVariant 4) (putNat n) n :=
    fun n h => takeVariant_reads h (by omega)
  cases state with
  | pending => exact (hvariant 0 (by decide)).last (Reads.pure _)
  | committed => exact (hvariant 1 (by decide)).last (Reads.pure _)
  | aborted => exact (hvariant 2 (by decide)).last (Reads.pure _)
  | reclaimed => exact (hvariant 3 (by decide)).last (Reads.pure _)

/-! ### What readers may take -/

/-- Whatever the reader takes off the front of a byte string has the property. -/
def Yields (take : Reader α) (P : α → Prop) : Prop :=
  ∀ bytes a rest, take bytes = .ok (a, rest) → P a

section

variable {take : Reader α} {next : α → Reader β} {P : α → Prop} {P' : β → Prop}

theorem Yields.pure {a : α} (h : P a) : Yields (pure a) P := by
  rintro bytes _ _ ⟨⟩
  exact h

theorem Yields.bind (h : Yields take P) (h' : ∀ a, P a → Yields (next a) P') :
    Yields (take >>= next) P' := by
  intro bytes b rest hb
  change (take bytes >>= fun r => next r.1 r.2) = _ at hb
  cases htake : take bytes with
  | error fault =>
    rw [htake] at hb
    cases hb
  | ok r =>
    rw [htake] at hb
    exact h' r.1 (h bytes r.1 r.2 htake) r.2 b rest hb

theorem yields_true (take : Reader α) : Yields take fun _ => True := fun _ _ _ _ => trivial

theorem yields_reject (fault : Fault) : Yields (reject fault) P := fun _ _ _ h => nomatch h

theorem takeRaw_yields (n : Nat) : Yields (takeRaw n) fun bytes => bytes.length = n := by
  intro bytes a rest h
  unfold takeRaw at h
  split at h
  · next hle =>
    cases h
    exact List.length_take_of_le hle
  · cases h

theorem ofLittleEndian_lt (bytes : Bytes) : ofLittleEndian bytes < 256 ^ bytes.length := by
  induction bytes with
  | nil => decide
  | cons b rest ih =>
    have hb := b.toNat_lt
    rw [ofLittleEndian, List.length_cons, Nat.pow_succ]
    omega

/-- No number is read that has more than 64 bits. -/
theorem takeNat_yields (width : Width) : Yields (takeNat width) fun n => n < 2 ^ 64 := by
  have hwide : ∀ n ≤ 8, Yields (do return ofLittleEndian (← takeRaw n)) fun v => v < 2 ^ 64 := by
    intro n hn
    refine (takeRaw_yields n).bind fun bytes hbytes => Yields.pure ?_
    have hlt := ofLittleEndian_lt bytes
    rw [hbytes] at hlt
    exact Nat.lt_of_lt_of_le hlt (Nat.pow_le_pow_right (by decide) hn)
  refine (yields_true takeByte).bind fun mark _ => ?_
  have hmark := mark.toNat_lt
  split
  · exact Yields.pure (by omega)
  · split
    · exact hwide 2 (by decide)
    · split
      · exact hwide 4 (by decide)
      · split
        · exact hwide 8 (by decide)
        · split <;> exact yields_reject _

theorem takeBytes_yields : Yields takeBytes Bytes.Addressable := by
  refine (takeNat_yields .size).bind fun n hn => ?_
  intro bytes a rest h
  dsimp only at h
  split at h
  · next hle =>
    cases h
    exact Nat.lt_of_le_of_lt (Nat.le_of_eq (List.length_take_of_le hle)) hn
  · cases h

theorem takeText_yields : Yields takeText fun s => (Bytes.ofString s).Addressable := by
  refine (takeNat_yields .u64).bind fun n hn => (takeRaw_yields n).bind fun bytes hbytes => ?_
  cases htext : Bytes.text? bytes with
  | none => exact yields_reject _
  | some s =>
    refine Yields.pure ?_
    rw [Bytes.ofString_of_text? htext]
    exact Nat.lt_of_le_of_lt (Nat.le_of_eq hbytes) hn

theorem takeMany_yields (h : Yields take P) (n : Nat) :
    Yields (takeMany take n) fun l => l.length = n ∧ ∀ a ∈ l, P a := by
  induction n with
  | zero => exact Yields.pure ⟨rfl, fun _ ha => nomatch ha⟩
  | succ n ih =>
    refine h.bind fun a ha => ih.bind fun l hl => Yields.pure ⟨congrArg (· + 1) hl.1, ?_⟩
    exact List.forall_mem_cons.mpr ⟨ha, hl.2⟩

theorem takeList_yields (h : Yields take P) :
    Yields (takeList take) fun l => l.length < 2 ^ 64 ∧ ∀ a ∈ l, P a := by
  refine (takeNat_yields .size).bind fun n hn bytes l rest hl => ?_
  obtain ⟨hlen, hall⟩ := takeMany_yields h n bytes l rest hl
  exact ⟨Nat.lt_of_le_of_lt (Nat.le_of_eq hlen) hn, hall⟩

end

end Wire

end BucketStore
