import NvrxFirmware.BitWindows
import NvrxFirmware.OtpwModel
import Mathlib.Tactic.IntervalCases

namespace NvrxFirmware.OtpwGen

variable {v : Memory} {j : UInt32} {k next : Nat}

/-- The bits of some bytes, each from its highest one on. -/
def highBit (v : Memory) (p : Nat) : Bool := (v (p / 8)).toNat.testBit (7 - p % 8)

/-- The bits of some bytes, each from its lowest one on. -/
def lowBit (v : Memory) (p : Nat) : Bool := (v (p / 8)).toNat.testBit (p % 8)

theorem byte_testBit (c : UInt8) {e : Nat} (he : 8 ≤ e) : c.toNat.testBit e = false :=
  Nat.testBit_lt_two_pow (c.toNat_lt.trans_le (Nat.pow_le_pow_right (by decide) he))

theorem highBit_add (q e : Nat) : highBit v (24 * q + e) = (v (q * 3 + e / 8)).toNat.testBit (7 - e % 8) := by
  rw [highBit, show (24 * q + e) / 8 = q * 3 + e / 8 by omega, show (24 * q + e) % 8 = e % 8 by omega]

theorem base64_masks : ∀ e < 6, Nat.testBit 0x30 e = decide (4 ≤ e) ∧ Nat.testBit 0x3c e = decide (2 ≤ e) ∧
    Nat.testBit 0x3f e = true := by decide

/-- A character of the modified base-64 encoding stands for the next six bits. -/
theorem base64Index_eq (v : Memory) (i : Nat) : base64Index v i = window (highBit v) (6 * i) 6 := by
  obtain ⟨q, c, hc, rfl⟩ : ∃ q c, c < 4 ∧ i = 4 * q + c := ⟨i / 4, i % 4, by omega, by omega⟩
  have hbyte (j : Nat) : (v j).toNat < 256 := (v j).toNat_lt
  unfold base64Index
  rw [show (4 * q + c) / 4 = q by omega, show (4 * q + c) % 4 = c by omega]
  apply eq_window
  · interval_cases c
    · change (v (q * 3)).toNat >>> 2 < 2 ^ 6
      have := hbyte (q * 3)
      omega
    · refine Nat.or_lt_two_pow (Nat.and_lt_two_pow _ (by decide)) ?_
      have := hbyte (q * 3 + 1)
      omega
    · refine Nat.or_lt_two_pow (Nat.and_lt_two_pow _ (by decide)) ?_
      have := hbyte (q * 3 + 2)
      omega
    · exact Nat.and_lt_two_pow _ (by decide)
  · intro b hb
    rw [show 6 * (4 * q + c) + b = 24 * q + (6 * c + b) by omega, highBit_add]
    have hmasks := base64_masks (6 - 1 - b) (by omega)
    interval_cases c <;> interval_cases b <;>
      simp_all [Nat.testBit_shiftRight, Nat.testBit_shiftLeft, byte_testBit]

/-- The last bits of the accumulator are the last ones that have been read. -/
structure AccBits (v : Memory) (j : UInt32) (k next : Nat) : Prop where
  few : k ≤ 12
  read : k ≤ 8 * next
  bits : ∀ b < k, j.toNat.testBit b = highBit v (8 * next - 1 - b)

theorem AccBits.start (v : Memory) : AccBits v 0 0 0 :=
  ⟨Nat.zero_le _, Nat.zero_le _, fun _ hb => absurd hb (Nat.not_lt_zero _)⟩

theorem AccBits.add (h : AccBits v j k next) (hk : k < 5) :
    AccBits v (j <<< 8 ||| (v next).toUInt32) (k + 8) (next + 1) := by
  refine ⟨by omega, by have := h.read; omega, fun b hb => ?_⟩
  have hshift : (j <<< 8).toNat.testBit b = (decide (8 ≤ b) && j.toNat.testBit (b - 8)) := by
    rw [UInt32.toNat_shiftLeft]
    simp only [UInt32.reduceToNat, Nat.reduceMod, Nat.testBit_mod_two_pow, Nat.testBit_shiftLeft]
    rw [decide_eq_true (show b < 32 by omega), Bool.true_and]
  rw [UInt32.toNat_or, Nat.testBit_or, hshift, UInt8.toNat_toUInt32]
  rcases Nat.lt_or_ge b 8 with hlow | hhigh
  · rw [decide_eq_false (Nat.not_le.mpr hlow), Bool.false_and, Bool.false_or, highBit,
      show (8 * (next + 1) - 1 - b) / 8 = next by omega, show 7 - (8 * (next + 1) - 1 - b) % 8 = b by omega]
  · rw [decide_eq_true hhigh, Bool.true_and, h.bits (b - 8) (by omega), byte_testBit _ hhigh, Bool.or_false,
      show 8 * next - 1 - (b - 8) = 8 * (next + 1) - 1 - b by have := h.read; omega]

theorem AccBits.drop (h : AccBits v j k next) : AccBits v j (k - 5) next :=
  ⟨(Nat.sub_le _ _).trans h.few, (Nat.sub_le _ _).trans h.read, fun b hb => h.bits b (by omega)⟩

theorem AccBits.window (h : AccBits v j k next) (hk : 5 ≤ k) :
    ((j >>> .ofNat (k - 5)) &&& 31).toNat = window (highBit v) (8 * next - k) 5 := by
  have hfew := h.few
  have hread := h.read
  have hshift : (UInt32.ofNat (k - 5)).toNat % 32 = k - 5 := by
    rw [UInt32.toNat_ofNat', Nat.mod_mod_of_dvd _ (by decide), Nat.mod_eq_of_lt (by omega)]
  have hmask : ∀ e < 5, Nat.testBit 31 e = true := by decide
  rw [UInt32.toNat_and, UInt32.toNat_shiftRight, hshift]
  refine eq_window (Nat.and_lt_two_pow _ (by decide)) fun b hb => ?_
  rw [Nat.testBit_and, Nat.testBit_shiftRight, h.bits _ (by omega)]
  refine (Bool.and_eq_left_iff_imp.mpr fun _ => hmask (5 - 1 - b) (by omega)).trans ?_
  rw [show 8 * next - 1 - (k - 5 + (5 - 1 - b)) = 8 * next - k + b by omega]

theorem base32Indices_eq (h : AccBits v j k next) (hk : k < 8) (chars : Nat) : base32Indices v chars j k next =
    (List.range chars).map fun i => window (highBit v) (8 * next - k + 5 * i) 5 := by
  have hstep (j : UInt32) (k next : Nat) (chars : Nat) (h : AccBits v j k next) (hk : 5 ≤ k)
      (ih : base32Indices v chars j (k - 5) next =
        (List.range chars).map fun i => window (highBit v) (8 * next - (k - 5) + 5 * i) 5) :
      ((j >>> .ofNat (k - 5)) &&& 31).toNat :: base32Indices v chars j (k - 5) next =
        (List.range (chars + 1)).map fun i => window (highBit v) (8 * next - k + 5 * i) 5 := by
    have hread := h.read
    rw [ih, h.window hk, List.range_succ_eq_map, List.map_cons, List.map_map]
    refine congrArg _ (List.map_congr_left fun i _ => ?_)
    rw [Function.comp_apply, show 8 * next - (k - 5) + 5 * i = 8 * next - k + 5 * (i + 1) by omega]
  induction chars generalizing j k next with
  | zero => rfl
  | succ chars ih =>
    unfold base32Indices
    dsimp only
    by_cases hshort : k < 5
    · rw [if_pos hshort]
      dsimp only
      have hadd := h.add hshort
      have hread := h.read
      refine (hstep _ _ _ chars hadd (by omega) (ih hadd.drop (by omega))).trans ?_
      rw [show 8 * (next + 1) - (k + 8) = 8 * next - k by omega]
    · rw [if_neg hshort]
      dsimp only
      exact hstep _ _ _ chars h (by omega) (ih h.drop (by omega))

/-- The number of a word stands for the next eleven bits, with the bytes the other way round. -/
theorem wordIndex_eq (v : Memory) (i : Nat) : wordIndex v i = window (lowBit v) (11 * i) 11 := by
  have hbit (k b : Nat) : (k <<< 1) ||| ((v ((i * 11 + b) / 8)).toNat >>> ((i * 11 + b) % 8) &&& 1) =
      2 * k + (lowBit v (11 * i + b)).toNat := by
    rw [Nat.mul_comm i 11, Nat.and_one_is_mod, Nat.shiftRight_eq_div_pow, lowBit, Nat.toNat_testBit,
      ← Nat.shiftLeft_add_eq_or_of_lt (Nat.mod_lt _ (by decide)), Nat.shiftLeft_eq]
    omega
  rw [wordIndex, window, numeral, List.foldl_map]
  simp only [hbit]

end NvrxFirmware.OtpwGen
