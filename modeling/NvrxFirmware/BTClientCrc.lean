import NvrxFirmware.ShiftRegisters

namespace NvrxFirmware.BTClient

/-- One pass of the loop of `Reflect`: `reflectedno` and `number`. -/
def reflectStep (s : UInt16 × UInt16) : UInt16 × UInt16 := (s.1 * 2 + s.2 % 2, s.2 / 2)

/-- `Reflect`. -/
def reflect (number : UInt16) (size : Nat) : UInt16 := (reflectStep^[size] (0, number)).1

/-- One pass of the inner loop of `Crc16A`. -/
def crcShift (crcInit : UInt32) : UInt32 :=
  if crcInit &&& 0x8000 ≠ 0 then (crcInit <<< 1) ^^^ 0x1021 else crcInit <<< 1

/-- One pass of the outer loop of `Crc16A`. -/
def crcByte (crcInit : UInt32) (byte : UInt8) : UInt32 :=
  crcShift^[8] (((reflect byte.toUInt16 8).toUInt32 <<< 8) ^^^ crcInit)

/-- `Crc16A`; `crcPtr` are the two bytes that the caller provides, if any. -/
def crc16A (dataPtr : List UInt8) (crcPtr : Option (UInt8 × UInt8)) : UInt16 × Option (UInt8 × UInt8) :=
  let tempCrc := reflect (dataPtr.foldl crcByte 0xc6c6).toUInt16 16
  (tempCrc, crcPtr.map fun _ => (tempCrc.toUInt8, (tempCrc >>> 8).toUInt8))

theorem reflectStep_fst_getLsbD (s : UInt16 × UInt16) {i : Nat} (hi : i < 16) :
    (reflectStep s).1.toBitVec.getLsbD i =
      if i = 0 then s.2.toBitVec.getLsbD 0 else s.1.toBitVec.getLsbD (i - 1) := by
  obtain ⟨x, y⟩ := s
  have hval : (reflectStep (x, y)).1.toNat = (2 ^ 1 * x.toNat + y.toNat % 2 ^ 1) % 2 ^ 16 := by
    simp [reflectStep, UInt16.toNat_add, UInt16.toNat_mul, UInt16.toNat_mod]
    omega
  show (reflectStep (x, y)).1.toNat.testBit i = if i = 0 then y.toNat.testBit 0 else x.toNat.testBit (i - 1)
  rw [hval, Nat.testBit_mod_two_pow, decide_eq_true hi, Bool.true_and,
    Nat.testBit_two_pow_mul_add _ (Nat.mod_lt _ (by decide))]
  by_cases h : i = 0
  · subst i
    simp
  · rw [if_neg h, if_neg (by omega)]

theorem reflectStep_snd_getLsbD (s : UInt16 × UInt16) (i : Nat) :
    (reflectStep s).2.toBitVec.getLsbD i = s.2.toBitVec.getLsbD (i + 1) := by
  show ((s.2 / 2).toNat).testBit i = s.2.toNat.testBit (i + 1)
  rw [UInt16.toNat_div, Nat.testBit_succ]
  rfl

theorem iterate_reflectStep_snd_getLsbD (number : UInt16) (k i : Nat) :
    (reflectStep^[k] (0, number)).2.toBitVec.getLsbD i = number.toBitVec.getLsbD (i + k) := by
  induction k generalizing i with
  | zero => rfl
  | succ k ih => rw [Function.iterate_succ_apply', reflectStep_snd_getLsbD, ih, Nat.add_right_comm, Nat.add_assoc]

/-- `Reflect` turns the lowest `size` bits around. -/
theorem reflect_getLsbD (number : UInt16) (size : Nat) {i : Nat} (hi : i < 16) :
    (reflect number size).toBitVec.getLsbD i = (decide (i < size) && number.toBitVec.getLsbD (size - 1 - i)) := by
  induction size generalizing i with
  | zero => simp [reflect]
  | succ k ih =>
    unfold reflect at ih ⊢
    rw [Function.iterate_succ_apply', reflectStep_fst_getLsbD _ hi, iterate_reflectStep_snd_getLsbD]
    by_cases h : i = 0
    · subst i
      simp
    · rw [if_neg h, ih (by omega)]
      have hlt : i - 1 < k ↔ i < k + 1 := by omega
      have hpos : k - 1 - (i - 1) = k + 1 - 1 - i := by omega
      rw [hpos, decide_eq_decide.mpr hlt]

theorem and_0x8000_ne_zero_iff (c : UInt32) : c &&& 0x8000 ≠ 0 ↔ c.toBitVec.getLsbD 15 = true := by
  have hand : (c &&& 0x8000).toBitVec = if c.toBitVec.getLsbD 15 then BitVec.twoPow 32 15 else 0#32 :=
    BitVec.and_twoPow c.toBitVec 15
  rw [ne_eq, ← UInt32.toBitVec_inj, hand]
  cases c.toBitVec.getLsbD 15 <;> decide

theorem crcShift_getLsbD (c : UInt32) {j : Nat} (hj : j < 32) :
    (crcShift c).toBitVec.getLsbD j =
      ((decide (0 < j) && c.toBitVec.getLsbD (j - 1)) ^^ (c.toBitVec.getLsbD 15 && (0x1021#32).getLsbD j)) := by
  have hshift : (c <<< 1).toBitVec = c.toBitVec <<< 1 := by
    rw [UInt32.toBitVec_shiftLeft]
    rfl
  have hlow : (c <<< 1).toBitVec.getLsbD j = (decide (0 < j) && c.toBitVec.getLsbD (j - 1)) := by
    rw [hshift, BitVec.getLsbD_shiftLeft]
    by_cases h0 : j = 0
    · simp [h0]
    · have hpos : 0 < j := by omega
      have hge : ¬ j < 1 := by omega
      simp [hj, hpos, hge]
  unfold crcShift
  split
  next h =>
    rw [and_0x8000_ne_zero_iff] at h
    rw [UInt32.toBitVec_xor, BitVec.getLsbD_xor, hlow, h, Bool.true_and]
    rfl
  next h =>
    rw [and_0x8000_ne_zero_iff, Bool.not_eq_true] at h
    rw [hlow, h, Bool.false_and, Bool.xor_false]

/-- The low 16 bits of the accumulator are the other register turned around. -/
def Mirrors (crcInit : UInt32) (r : BitVec 16) : Prop :=
  ∀ i < 16, crcInit.toBitVec.getLsbD (15 - i) = r.getLsbD i

theorem poly_mirrors {i : Nat} (hi : i < 16) : (0x1021#32).getLsbD (15 - i) = (0x8408#16).getLsbD i := by
  have hall : ∀ i : Fin 16, (0x1021#32).getLsbD (15 - i.val) = (0x8408#16).getLsbD i.val := by decide
  exact hall ⟨i, hi⟩

theorem crcShift_mirrors {c : UInt32} {r : BitVec 16} (h : Mirrors c r) :
    Mirrors (crcShift c) (shiftStep 0x8408#16 r) := by
  intro i hi
  rw [crcShift_getLsbD c (by omega), shiftStep_getLsbD, poly_mirrors hi]
  have htop : c.toBitVec.getLsbD 15 = r.getLsbD 0 := h 0 (by decide)
  rw [htop]
  by_cases hlast : i = 15
  · subst i
    rw [BitVec.getLsbD_of_ge r 16 (by decide)]
    rfl
  · have hnext : c.toBitVec.getLsbD (15 - i - 1) = r.getLsbD (i + 1) := by
      have hpos : 15 - i - 1 = 15 - (i + 1) := by omega
      rw [hpos]
      exact h (i + 1) (by omega)
    have hpos : 0 < 15 - i := by omega
    rw [hnext, decide_eq_true hpos, Bool.true_and]

theorem iterate_crcShift_mirrors {c : UInt32} {r : BitVec 16} (h : Mirrors c r) (n : Nat) :
    Mirrors (crcShift^[n] c) ((shiftStep 0x8408#16)^[n] r) := by
  induction n with
  | zero => exact h
  | succ n ih =>
    rw [Function.iterate_succ_apply', Function.iterate_succ_apply']
    exact crcShift_mirrors ih

theorem reflect_byte_mirrors (byte : UInt8) :
    Mirrors ((reflect byte.toUInt16 8).toUInt32 <<< 8) (byte.toBitVec.setWidth 16) := by
  intro i hi
  have hshift : ((reflect byte.toUInt16 8).toUInt32 <<< 8).toBitVec =
      (reflect byte.toUInt16 8).toBitVec.setWidth 32 <<< 8 := by
    rw [UInt32.toBitVec_shiftLeft]
    rfl
  rw [hshift, BitVec.getLsbD_shiftLeft, BitVec.getLsbD_setWidth, BitVec.getLsbD_setWidth]
  by_cases h : i < 8
  · have hge : ¬ 15 - i < 8 := by omega
    have hlt : 15 - i < 32 := by omega
    have hlt' : 15 - i - 8 < 8 := by omega
    have hpos : 8 - 1 - (15 - i - 8) = i := by omega
    have hroom : 15 - i - 8 < 32 := by omega
    have hwide : byte.toUInt16.toBitVec.getLsbD i = byte.toBitVec.getLsbD i := by
      show (byte.toBitVec.setWidth 16).getLsbD i = _
      rw [BitVec.getLsbD_setWidth, decide_eq_true hi, Bool.true_and]
    rw [reflect_getLsbD _ _ (by omega), hpos, hwide]
    simp [hlt, hge, hroom, hlt', hi]
  · have hlt : 15 - i < 8 := by omega
    rw [BitVec.getLsbD_of_ge byte.toBitVec i (by omega)]
    simp [hlt]

theorem crcByte_mirrors {c : UInt32} {r : BitVec 16} (h : Mirrors c r) (byte : UInt8) :
    Mirrors (crcByte c byte) ((shiftStep 0x8408#16)^[8] (r ^^^ byte.toBitVec.setWidth 16)) := by
  apply iterate_crcShift_mirrors
  intro i hi
  rw [UInt32.toBitVec_xor, BitVec.getLsbD_xor, BitVec.getLsbD_xor, reflect_byte_mirrors byte i hi, h i hi, Bool.xor_comm]

theorem foldl_crcByte_mirrors {c : UInt32} {r : BitVec 16} (h : Mirrors c r) (dataPtr : List UInt8) :
    Mirrors (dataPtr.foldl crcByte c) (crcLsbFirst 0x8408#16 r dataPtr) := by
  induction dataPtr generalizing c r with
  | nil => exact h
  | cons byte dataPtr ih => exact ih (crcByte_mirrors h byte)

theorem reflect_of_mirrors {c : UInt32} {r : BitVec 16} (h : Mirrors c r) : (reflect c.toUInt16 16).toBitVec = r := by
  apply BitVec.eq_of_getLsbD_eq
  intro i hi
  rw [reflect_getLsbD _ _ hi, decide_eq_true hi, Bool.true_and, ← h i hi]
  show (c.toBitVec.setWidth 16).getLsbD (15 - i) = _
  have hlt : 15 - i < 16 := by omega
  rw [BitVec.getLsbD_setWidth, decide_eq_true hlt, Bool.true_and]

/-- CRC-16/ISO-14443-A, the lowest bit first. -/
def crc16Iso14443A (bytes : List UInt8) : BitVec 16 := crcLsbFirst 0x8408#16 0x6363#16 bytes

theorem crc16A_toBitVec (dataPtr : List UInt8) (crcPtr : Option (UInt8 × UInt8)) :
    (crc16A dataPtr crcPtr).1.toBitVec = crc16Iso14443A dataPtr := by
  have hinit : Mirrors 0xc6c6 0x6363#16 := by
    have hall : ∀ i : Fin 16, (0xc6c6 : UInt32).toBitVec.getLsbD (15 - i.val) = (0x6363#16).getLsbD i.val := by decide
    exact fun i hi => hall ⟨i, hi⟩
  exact reflect_of_mirrors (foldl_crcByte_mirrors hinit dataPtr)

/-- `Crc16A` is the check of ISO 14443-A. -/
theorem crc16A_eq (dataPtr : List UInt8) (crcPtr : Option (UInt8 × UInt8)) :
    (crc16A dataPtr crcPtr).1 = UInt16.ofBitVec (crc16Iso14443A dataPtr) := by
  rw [← crc16A_toBitVec dataPtr crcPtr]

/-- The check of "123456789". -/
example : crc16Iso14443A [0x31, 0x32, 0x33, 0x34, 0x35, 0x36, 0x37, 0x38, 0x39] = 0xbf05#16 := by decide +kernel

end NvrxFirmware.BTClient
