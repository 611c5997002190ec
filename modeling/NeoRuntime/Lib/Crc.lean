import Mathlib.Algebra.Group.Nat.Even
import Mathlib.Data.List.GetD
import NeoRuntime.Lib.Bytes

/-!
# Error detection of the CRC

Bit by bit the register of `crc16` goes through a linear map, so that the CRCs of two strings differ
by what the register holds after the pattern of their differences (`crc16_xor`).  That is not zero

* after an odd number of ones, because a shift keeps the parity of the register (`parity_shift`);
* after ones inside sixteen bits, because these are the register, shifted (`crcBits_eq_iterate`).
-/

namespace NeoRuntime

/-- The bits of a string, each byte with the most significant bit first. -/
def bitsOf (data : List UInt8) : List Bool :=
  data.flatMap fun b => (List.range 8).map fun i => b.toBitVec.getMsbD i

/-- The pattern of the differences of two strings. -/
def bitDiff (a b : List UInt8) : List Bool := List.zipWith xor (bitsOf a) (bitsOf b)

@[simp] theorem length_bitsOf (data : List UInt8) : (bitsOf data).length = 8 * data.length := by
  induction data with
  | nil => rfl
  | cons b data ih =>
    rw [bitsOf, List.flatMap_cons, ← bitsOf, List.length_append, ih]
    simp
    omega

/-- A bit in the place where the register takes it in. -/
def topBit (bit : Bool) : UInt16 := if bit then 0x8000 else 0

theorem getLsbD_topBit (bit : Bool) (i : ℕ) :
    (topBit bit).toBitVec.getLsbD i = (bit && decide (i = 15)) := by
  cases bit with
  | false => simp [topBit]
  | true =>
    rw [topBit, if_pos rfl, show (0x8000 : UInt16).toBitVec = BitVec.twoPow 16 15 by decide,
      BitVec.getLsbD_twoPow]
    simp [eq_comm]

variable (crc : UInt16)

def crcBit (bit : Bool) : UInt16 := crc16Shift (crc ^^^ topBit bit)

variable (bits : List Bool)

def crcBits : UInt16 := bits.foldl crcBit crc

/-! ## Linearity -/

theorem crc16Shift_xor (x y : UInt16) : crc16Shift (x ^^^ y) = crc16Shift x ^^^ crc16Shift y := by
  apply UInt16.toBitVec_inj.1
  apply BitVec.eq_of_getLsbD_eq
  intro i inside
  rw [UInt16.toBitVec_xor, BitVec.getLsbD_xor, crc16Shift_bits _ inside, crc16Shift_bits _ inside,
    crc16Shift_bits _ inside]
  simp only [UInt16.toBitVec_xor, BitVec.getLsbD_xor, Bool.and_xor_distrib_left,
    Bool.and_xor_distrib_right, Bool.xor_assoc, Bool.xor_left_comm]

theorem crcBit_xor (x y : UInt16) (a b : Bool) :
    crcBit (x ^^^ y) (a ^^ b) = crcBit x a ^^^ crcBit y b := by
  have tops : topBit (a ^^ b) = topBit a ^^^ topBit b := by
    cases a <;> cases b <;> rfl
  rw [crcBit, crcBit, crcBit, tops, ← crc16Shift_xor]
  congr 1
  ac_rfl

theorem crcBits_xor {p q : List Bool} (same : p.length = q.length) (x y : UInt16) :
    crcBits (x ^^^ y) (List.zipWith xor p q) = crcBits x p ^^^ crcBits y q := by
  induction p generalizing q x y with
  | nil =>
    obtain rfl := List.length_eq_zero_iff.1 same.symm
    rfl
  | cons a p ih =>
    obtain ⟨b, q, rfl⟩ := List.exists_cons_of_length_eq_add_one same.symm
    rw [List.zipWith_cons_cons, crcBits, List.foldl_cons, crcBit_xor]
    exact ih (Nat.succ.inj same) _ _

/-! ## Up to sixteen bits -/

/-- The bits in a register, the first one on top. -/
def place : List Bool → UInt16
  | [] => 0
  | b :: bits => topBit b ^^^ (place bits >>> 1)

theorem getLsbD_shiftRight_one (x : UInt16) (i : ℕ) :
    (x >>> 1).toBitVec.getLsbD i = x.toBitVec.getLsbD (i + 1) := by
  rw [UInt16.toBitVec_shiftRight, show (1 : UInt16).toBitVec % 16 = 1#16 by decide,
    BitVec.ushiftRight_eq', BitVec.getLsbD_ushiftRight, Nat.add_comm]
  rfl

theorem getLsbD_place {i : ℕ} (inside : i < 16) :
    (place bits).toBitVec.getLsbD i = bits.getD (15 - i) false := by
  induction bits generalizing i with
  | nil => simp [place]
  | cons b bits ih =>
    rw [place, UInt16.toBitVec_xor, BitVec.getLsbD_xor, getLsbD_topBit, getLsbD_shiftRight_one]
    by_cases last : i = 15
    · subst last
      simp [BitVec.getLsbD_of_ge]
    · rw [ih (by omega), show 15 - i = (15 - (i + 1)) + 1 by omega, List.getD_cons_succ]
      simp [last]

/-- A shift undoes one to the right that loses nothing. -/
theorem crc16Shift_shiftRight {x : UInt16} (even : x.toBitVec.getLsbD 0 = false) :
    crc16Shift (x >>> 1) = x := by
  apply UInt16.toBitVec_inj.1
  apply BitVec.eq_of_getLsbD_eq
  intro i inside
  have top : (x >>> 1).toBitVec.getLsbD 15 = false := by
    rw [getLsbD_shiftRight_one]
    exact BitVec.getLsbD_of_ge _ _ (by omega)
  rw [crc16Shift_bits _ inside, top, Bool.false_and, Bool.xor_false, getLsbD_shiftRight_one]
  obtain _ | i := i
  · exact even.symm
  · simp

/-- Putting the bits in one by one is the same as putting them in at once. -/
theorem crcBits_eq_iterate {bits : List Bool} (few : bits.length ≤ 16) (crc : UInt16) :
    crcBits crc bits = crc16Shift^[bits.length] (crc ^^^ place bits) := by
  induction bits generalizing crc with
  | nil => simp [crcBits, place]
  | cons b bits ih =>
    have even : (place bits).toBitVec.getLsbD 0 = false := by
      rw [getLsbD_place bits (by omega), List.getD_eq_default]
      exact Nat.le_of_succ_le_succ few
    have first : crcBit crc b ^^^ place bits = crc16Shift (crc ^^^ place (b :: bits)) := by
      rw [crcBit, place, ← UInt16.xor_assoc, crc16Shift_xor (crc ^^^ topBit b),
        crc16Shift_shiftRight even]
    rw [crcBits, List.foldl_cons, ← crcBits, ih (Nat.le_of_succ_le few), first]
    rfl

theorem getD_bitsOf (b : UInt8) (i : ℕ) : (bitsOf [b]).getD i false = b.toBitVec.getMsbD i := by
  rw [bitsOf, List.flatMap_singleton, List.getD_eq_getElem?_getD, List.getElem?_map]
  by_cases inside : i < 8
  · simp [inside]
  · simp [inside, BitVec.getMsbD_of_ge _ _ (Nat.le_of_not_lt inside)]

theorem place_bitsOf (b : UInt8) : place (bitsOf [b]) = b.toUInt16 <<< 8 := by
  apply UInt16.toBitVec_inj.1
  apply BitVec.eq_of_getLsbD_eq
  intro i inside
  rw [getLsbD_place _ inside, getD_bitsOf, BitVec.getMsbD_eq_getLsbD, UInt16.toBitVec_shiftLeft,
    show (8 : UInt16).toBitVec % 16 = 8#16 by decide, BitVec.shiftLeft_eq', BitVec.getLsbD_shiftLeft,
    UInt8.toBitVec_toUInt16, BitVec.getLsbD_setWidth]
  by_cases high : 8 ≤ i
  · rw [show 8 - 1 - (15 - i) = i - 8 by omega]
    simp [inside, high, show 15 - i < 8 by omega, show i - 8 < 16 by omega]
  · simp [high, show ¬ 15 - i < 8 by omega]

theorem crc16Byte_eq (b : UInt8) : crc16Byte crc b = crcBits crc (bitsOf [b]) := by
  rw [crcBits_eq_iterate (by simp), place_bitsOf, crc16Byte]
  simp

theorem crc16_eq (init : UInt16) (data : List UInt8) :
    crc16 init data = crcBits init (bitsOf data) := by
  induction data generalizing init with
  | nil => rfl
  | cons b data ih =>
    rw [crc16, List.foldl_cons, ← crc16, ih, crc16Byte_eq, bitsOf, bitsOf, bitsOf,
      List.flatMap_cons, crcBits, crcBits, crcBits, List.foldl_append]
    simp

/-- The CRCs differ by what the pattern of the differences leaves in the register. -/
theorem crc16_xor {a b : List UInt8} (same : a.length = b.length) (init : UInt16) :
    crc16 init a ^^^ crc16 init b = crcBits 0 (bitDiff a b) := by
  rw [crc16_eq, crc16_eq, bitDiff, ← UInt16.xor_self, crcBits_xor]
  simp [same]

/-! ## An odd number of differences -/

def parity (x : UInt16) : Bool := (List.range 16).foldr (fun i odd => x.toBitVec.getLsbD i ^^ odd) false

theorem parity_xor (x y : UInt16) : parity (x ^^^ y) = (parity x ^^ parity y) := by
  unfold parity
  induction List.range 16 with
  | nil => rfl
  | cons i is ih =>
    rw [List.foldr_cons, List.foldr_cons, List.foldr_cons, ih, UInt16.toBitVec_xor,
      BitVec.getLsbD_xor]
    simp only [Bool.xor_assoc, Bool.xor_left_comm]

/-- The bit that leaves the register is replaced by three. -/
theorem parity_shift (x : UInt16) : parity (crc16Shift x) = parity x := by
  have bits : List.range 16 = [0, 1, 2, 3, 4, 5, 6, 7, 8, 9, 10, 11, 12, 13, 14, 15] := rfl
  have poly : (0x1021 : UInt16).toBitVec = 0x1021#16 := rfl
  simp (disch := decide) only [parity, bits, List.foldr_cons, List.foldr_nil, crc16Shift_bits, poly,
    BitVec.reduceGetLsb, Nat.reduceLT, Nat.reduceSub, decide_true, decide_false, Bool.true_and, Bool.and_true,
    Bool.and_false, Bool.xor_false]
  cases x.toBitVec.getLsbD 15 <;> simp

theorem parity_crcBits :
    parity (crcBits crc bits) = (parity crc ^^ decide (Odd (bits.count true))) := by
  induction bits generalizing crc with
  | nil => simp [crcBits]
  | cons b bits ih =>
    have first : parity (crcBit crc b) = (parity crc ^^ b) := by
      rw [crcBit, parity_shift, parity_xor]
      cases b <;> rfl
    rw [crcBits, List.foldl_cons, ← crcBits, ih, first]
    by_cases odd : Odd (bits.count true) <;> cases b <;> simp [Nat.odd_add_one, odd]

/-! ## Differences inside sixteen bits -/

theorem iterate_crc16Shift_eq_zero_iff {n : ℕ} {x : UInt16} : crc16Shift^[n] x = 0 ↔ x = 0 := by
  have zero : crc16Shift^[n] 0 = 0 := Function.iterate_fixed rfl n
  exact ⟨fun eq => crc16Shift_injective.iterate n (eq.trans zero.symm), fun eq => eq ▸ zero⟩

theorem crcBits_of_notMem {bits : List Bool} (none : true ∉ bits) (crc : UInt16) :
    crcBits crc bits = crc16Shift^[bits.length] crc := by
  induction bits generalizing crc with
  | nil => rfl
  | cons b bits ih =>
    obtain ⟨first, rest⟩ := not_or.1 (List.mem_cons.not.1 none)
    obtain rfl : b = false := by simpa using Ne.symm first
    rw [crcBits, List.foldl_cons, ← crcBits, ih rest, crcBit]
    simp [topBit]

theorem place_ne_zero {bits : List Bool} (few : bits.length ≤ 16) (one : true ∈ bits) :
    place bits ≠ 0 := by
  intro zero
  obtain ⟨i, inside, eq⟩ := List.getElem_of_mem one
  have bit := getLsbD_place bits (i := 15 - i) (by omega)
  rw [zero, show 15 - (15 - i) = i by omega, List.getD_eq_getElem _ _ inside, eq] at bit
  simp at bit

/-- The positions of the ones are inside sixteen. -/
def Window : Prop := ∃ s, ∀ i, bits[i]? = some true → s ≤ i ∧ i < s + 16

theorem crcBits_ne_zero {bits : List Bool} (one : true ∈ bits) (window : Window bits) :
    crcBits 0 bits ≠ 0 := by
  obtain ⟨s, window⟩ := window
  have before : true ∉ bits.take s := fun mem => by
    obtain ⟨i, inside, eq⟩ := List.mem_take_iff_getElem.1 mem
    have := (window i (by rw [List.getElem?_eq_getElem (by omega), eq])).1
    omega
  have after : true ∉ (bits.drop s).drop 16 := fun mem => by
    rw [List.drop_drop] at mem
    obtain ⟨i, inside, eq⟩ := List.mem_drop_iff_getElem.1 mem
    have := (window (s + 16 + i) (by rw [List.getElem?_eq_getElem (by omega), eq])).2
    omega
  have parts : bits = bits.take s ++ ((bits.drop s).take 16 ++ (bits.drop s).drop 16) := by
    rw [List.take_append_drop, List.take_append_drop]
  have inside : true ∈ (bits.drop s).take 16 := by
    rw [parts, List.mem_append, List.mem_append] at one
    exact (one.resolve_left before).resolve_right after
  have few : ((bits.drop s).take 16).length ≤ 16 := List.length_take_le _ _
  have zero : crcBits 0 (bits.take s) = 0 := by
    rw [crcBits_of_notMem before, iterate_crc16Shift_eq_zero_iff]
  rw [parts, crcBits, List.foldl_append, List.foldl_append, ← crcBits, ← crcBits, ← crcBits, zero,
    crcBits_of_notMem after, crcBits_eq_iterate few, UInt16.zero_xor, Ne,
    iterate_crc16Shift_eq_zero_iff, iterate_crc16Shift_eq_zero_iff]
  exact place_ne_zero few inside

/-! ## Detection -/

/-- The strings differ in an odd number of bits, or only inside sixteen consecutive bits. -/
def Altered (a b : List UInt8) : Prop :=
  Odd ((bitDiff a b).count true) ∨ a ≠ b ∧ Window (bitDiff a b)

theorem bitDiff_cons (x y : UInt8) (a b : List UInt8) :
    bitDiff (x :: a) (y :: b) = bitDiff [x] [y] ++ bitDiff a b := by
  have bits (x : UInt8) (a : List UInt8) : bitsOf (x :: a) = bitsOf [x] ++ bitsOf a := by simp [bitsOf]
  rw [bitDiff, bits x, bits y, List.zipWith_append (by simp), ← bitDiff, ← bitDiff]

theorem true_mem_bitDiff {a b : List UInt8} (same : a.length = b.length) (ne : a ≠ b) :
    true ∈ bitDiff a b := by
  induction a generalizing b with
  | nil => exact absurd (List.length_eq_zero_iff.1 same.symm).symm ne
  | cons x a ih =>
    obtain ⟨y, b, rfl⟩ := List.exists_cons_of_length_eq_add_one same.symm
    rw [bitDiff_cons, List.mem_append]
    by_cases first : x = y
    · exact .inr (ih (Nat.succ.inj same) fun rest => ne (by rw [first, rest]))
    · refine .inl (by_contra fun none => first (crc16Byte_injective_right 0 ?_))
      have zero := crc16_xor (a := [x]) (b := [y]) rfl 0
      rwa [crcBits_of_notMem none, iterate_crc16Shift_eq_zero_iff.2 rfl, UInt16.xor_eq_zero_iff] at zero

theorem crc16_ne_of_altered {a b : List UInt8} (same : a.length = b.length) (altered : Altered a b)
    (init : UInt16) : crc16 init a ≠ crc16 init b := by
  rw [Ne, ← UInt16.xor_eq_zero_iff, crc16_xor same]
  obtain odd | ⟨ne, window⟩ := altered
  · intro zero
    have := parity_crcBits 0 (bitDiff a b)
    rw [zero, decide_eq_true odd] at this
    exact absurd this (by decide)
  · exact crcBits_ne_zero (true_mem_bitDiff same ne) window

end NeoRuntime
