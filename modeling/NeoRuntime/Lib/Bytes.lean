import Mathlib.Data.Nat.Notation
import Mathlib.Data.UInt
import Mathlib.Tactic.Ring

/-!
# Words as bytes and CRC-16

`leBytes k v` are the `k` bytes of the number `v`, least significant byte first, and `ofLeBytes`
reads them back; `beBytes` and `ofBeBytes` have the most significant byte first.  `crc16 init` is
the CRC with the polynomial `0x1021`, most significant bit first, from the register value `init`.
-/

namespace NeoRuntime

theorem forall_uint8 {P : UInt8 → Prop} (all : ∀ i : Fin 256, P (UInt8.ofNat i)) (b : UInt8) : P b := by
  have := all ⟨b.toNat, b.toNat_lt⟩
  rwa [UInt8.ofNat_toNat] at this

/-! ## Words in memory -/

/-- The `k` low bytes of `v`, least significant first. -/
def leBytes : ℕ → ℕ → List UInt8
  | 0, _ => []
  | k + 1, v => UInt8.ofNat v :: leBytes k (v / 256)

/-- The number whose bytes are `bs`, least significant first. -/
def ofLeBytes : List UInt8 → ℕ
  | [] => 0
  | b :: bs => b.toNat + 256 * ofLeBytes bs

@[simp] theorem length_leBytes (k v : ℕ) : (leBytes k v).length = k := by
  induction k generalizing v with
  | zero => rfl
  | succ k ih => simp [leBytes, ih]

variable (bs : List UInt8)

theorem ofLeBytes_lt : ofLeBytes bs < 256 ^ bs.length := by
  induction bs with
  | nil => simp [ofLeBytes]
  | cons b bs ih =>
    have hb := b.toNat_lt
    simp only [ofLeBytes, List.length_cons, pow_succ]
    omega

theorem ofLeBytes_leBytes {k v : ℕ} (h : v < 256 ^ k) : ofLeBytes (leBytes k v) = v := by
  induction k generalizing v with
  | zero =>
    rw [pow_zero] at h
    simp only [leBytes, ofLeBytes]
    omega
  | succ k ih =>
    have hdiv : v / 256 < 256 ^ k := by
      rw [pow_succ] at h
      exact Nat.div_lt_of_lt_mul (by rwa [mul_comm])
    simp only [leBytes, ofLeBytes, ih hdiv, UInt8.toNat_ofNat']
    omega

theorem leBytes_ofLeBytes : leBytes bs.length (ofLeBytes bs) = bs := by
  induction bs with
  | nil => rfl
  | cons b bs ih =>
    have hb := b.toNat_lt
    have hdiv : (b.toNat + 256 * ofLeBytes bs) / 256 = ofLeBytes bs := by omega
    have hlow : UInt8.ofNat (b.toNat + 256 * ofLeBytes bs) = b := by
      apply UInt8.toNat_inj.1
      rw [UInt8.toNat_ofNat']
      omega
    simp only [List.length_cons, ofLeBytes, leBytes, hdiv, hlow, ih]

/-- The `k` low bytes of `v`, most significant first. -/
def beBytes (k v : ℕ) : List UInt8 := (leBytes k v).reverse

/-- The number whose bytes are `bs`, most significant first. -/
def ofBeBytes : ℕ := ofLeBytes bs.reverse

@[simp] theorem length_beBytes (k v : ℕ) : (beBytes k v).length = k := by simp [beBytes]

theorem ofBeBytes_lt : ofBeBytes bs < 256 ^ bs.length := by
  simpa [ofBeBytes] using ofLeBytes_lt bs.reverse

theorem ofBeBytes_beBytes {k v : ℕ} (h : v < 256 ^ k) : ofBeBytes (beBytes k v) = v := by
  rw [ofBeBytes, beBytes, List.reverse_reverse, ofLeBytes_leBytes h]

/-- A 16-bit word read from its two bytes. -/
def readLe16 : UInt16 := UInt16.ofNat (ofLeBytes (bs.take 2))

variable (v : UInt16)

def le16 : List UInt8 := leBytes 2 v.toNat

@[simp] theorem length_le16 : (le16 v).length = 2 := length_leBytes 2 _

theorem readLe16_le16_append (rest : List UInt8) : readLe16 (le16 v ++ rest) = v := by
  have hv : v.toNat < 256 ^ 2 := v.toNat_lt
  rw [readLe16, List.take_append_of_le_length (by simp), le16,
    List.take_of_length_le (by simp), ofLeBytes_leBytes hv, UInt16.ofNat_toNat]

theorem readLe16_le16 : readLe16 (le16 v) = v := by
  simpa using readLe16_le16_append v []

theorem le16_readLe16 (b₀ b₁ : UInt8) (rest : List UInt8) :
    le16 (readLe16 (b₀ :: b₁ :: rest)) = [b₀, b₁] := by
  have hlt : ofLeBytes [b₀, b₁] < 2 ^ 16 := (ofLeBytes_lt [b₀, b₁]).trans_eq (by norm_num)
  rw [readLe16, le16]
  simp only [List.take_succ_cons, List.take_zero]
  rw [UInt16.toNat_ofNat', Nat.mod_eq_of_lt hlt]
  exact leBytes_ofLeBytes [b₀, b₁]

theorem le16_readLe16_of_length {bs : List UInt8} (two : bs.length = 2) :
    le16 (readLe16 bs) = bs := by
  obtain ⟨b₀, b₁, rfl⟩ := List.length_eq_two.1 two
  exact le16_readLe16 b₀ b₁ []

/-- A 32-bit word read from its four bytes. -/
def readLe32 : UInt32 := UInt32.ofNat (ofLeBytes (bs.take 4))

def le32 (v : UInt32) : List UInt8 := leBytes 4 v.toNat

@[simp] theorem length_le32 (v : UInt32) : (le32 v).length = 4 := length_leBytes 4 _

theorem readLe32_le32_append (v : UInt32) (rest : List UInt8) : readLe32 (le32 v ++ rest) = v := by
  have hv : v.toNat < 256 ^ 4 := v.toNat_lt
  rw [readLe32, List.take_append_of_le_length (by simp), le32,
    List.take_of_length_le (by simp), ofLeBytes_leBytes hv, UInt32.ofNat_toNat]

theorem readLe32_le32 (v : UInt32) : readLe32 (le32 v) = v := by
  simpa using readLe32_le32_append v []

/-! ## CRC-16 -/

variable (crc : UInt16)

def crc16Shift : UInt16 :=
  if crc &&& 0x8000 ≠ 0 then (crc <<< 1) ^^^ 0x1021 else crc <<< 1

/-- The register after one more input byte. -/
def crc16Byte (b : UInt8) : UInt16 :=
  Nat.iterate crc16Shift 8 (crc ^^^ (b.toUInt16 <<< 8))

/-- The CRC of a byte string with the initial register value `init`. -/
def crc16 (init : UInt16) (data : List UInt8) : UInt16 := data.foldl crc16Byte init

theorem and_top_ne_zero_iff : v &&& 0x8000 ≠ 0 ↔ v.toBitVec.getLsbD 15 = true := by
  have top : (0x8000 : UInt16).toBitVec = BitVec.twoPow 16 15 := by decide
  rw [Ne, ← UInt16.toBitVec_inj, UInt16.toBitVec_and, top, BitVec.and_twoPow]
  split_ifs with set
  · simp only [set]
    decide
  · exact ⟨fun h => absurd rfl h, fun h => absurd h set⟩

theorem crc16Shift_bits {i : ℕ} (inside : i < 16) : (crc16Shift crc).toBitVec.getLsbD i =
      ((decide (0 < i) && crc.toBitVec.getLsbD (i - 1)) ^^
        (crc.toBitVec.getLsbD 15 && (0x1021 : UInt16).toBitVec.getLsbD i)) := by
  have shift : (crc <<< 1).toBitVec.getLsbD i =
      (decide (0 < i) && crc.toBitVec.getLsbD (i - 1)) := by
    rw [UInt16.toBitVec_shiftLeft, show (1 : UInt16).toBitVec % 16 = 1#16 by decide,
      BitVec.shiftLeft_eq', BitVec.getLsbD_shiftLeft]
    cases i <;> simp [inside]
  unfold crc16Shift
  split_ifs with top
  · rw [and_top_ne_zero_iff] at top
    rw [top, UInt16.toBitVec_xor, BitVec.getLsbD_xor, shift, Bool.true_and]
  · rw [and_top_ne_zero_iff, Bool.not_eq_true] at top
    rw [top, shift, Bool.false_and, Bool.xor_false]

theorem crc16Shift_injective : Function.Injective crc16Shift := by
  intro x y same
  apply UInt16.toBitVec_inj.1
  have bit {i : ℕ} (inside : i < 16) :
      ((decide (0 < i) && x.toBitVec.getLsbD (i - 1)) ^^
        (x.toBitVec.getLsbD 15 && (0x1021 : UInt16).toBitVec.getLsbD i)) =
      ((decide (0 < i) && y.toBitVec.getLsbD (i - 1)) ^^
        (y.toBitVec.getLsbD 15 && (0x1021 : UInt16).toBitVec.getLsbD i)) := by
    rw [← crc16Shift_bits x inside, ← crc16Shift_bits y inside, same]
  have top : x.toBitVec.getLsbD 15 = y.toBitVec.getLsbD 15 := by simpa using bit (i := 0) (by omega)
  apply BitVec.eq_of_getLsbD_eq
  intro i inside
  by_cases last : i = 15
  · rw [last, top]
  · have next := bit (i := i + 1) (by omega)
    rw [top] at next
    simpa using next

theorem crc16Byte_injective_left (b : UInt8) : Function.Injective (crc16Byte · b) := by
  intro x y same
  exact (UInt16.xor_left_inj _).1 (crc16Shift_injective.iterate 8 same)

theorem toUInt16_shift_injective : Function.Injective fun b : UInt8 => b.toUInt16 <<< 8 := by
  intro a b same
  have high (b : UInt8) : (b.toUInt16 <<< 8).toNat = b.toNat * 256 := by
    have := b.toNat_lt
    rw [UInt16.toNat_shiftLeft, UInt8.toNat_toUInt16, show (8 : UInt16).toNat % 16 = 8 from rfl,
      Nat.shiftLeft_eq]
    omega
  have := congrArg UInt16.toNat same
  rw [high, high] at this
  exact UInt8.toNat_inj.1 (by omega)

theorem crc16Byte_injective_right : Function.Injective (crc16Byte crc) := by
  intro a b same
  apply toUInt16_shift_injective
  exact (UInt16.xor_right_inj _).1 (crc16Shift_injective.iterate 8 same)

/-- The CRC tells any two strings apart that differ in one byte. -/
theorem crc16_ne_of_byte {a b : UInt8} (ne : a ≠ b) (init : UInt16) (before after : List UInt8) :
    crc16 init (before ++ a :: after) ≠ crc16 init (before ++ b :: after) := by
  intro same
  have inj (rest : List UInt8) : Function.Injective (crc16 · rest) := by
    induction rest with
    | nil => exact fun _ _ h => h
    | cons c rest ih => exact fun _ _ h => crc16Byte_injective_left c (ih h)
  rw [crc16, crc16, List.foldl_append, List.foldl_append] at same
  exact ne (crc16Byte_injective_right _ (inj after same))

end NeoRuntime
