import NvrxFirmware.Numerals

namespace NvrxFirmware

variable {bit bit' : Nat → Bool} {start width : Nat}

/-- The number that so many bits of a stream spell, the first one being the highest. -/
def window (bit : Nat → Bool) (start width : Nat) : Nat :=
  numeral 2 Bool.toNat ((List.range width).map fun b => bit (start + b))

@[simp] theorem window_zero (bit : Nat → Bool) (start : Nat) : window bit start 0 = 0 := rfl

theorem window_succ (bit : Nat → Bool) (start width : Nat) :
    window bit start (width + 1) = 2 * window bit start width + (bit (start + width)).toNat := by
  rw [window, List.range_succ, List.map_append, List.map_singleton, numeral_concat]
  rfl

theorem window_lt (bit : Nat → Bool) (start width : Nat) : window bit start width < 2 ^ width := by
  have hlength : ((List.range width).map fun b => bit (start + b)).length = width := by simp
  calc window bit start width
    _ < 2 ^ ((List.range width).map fun b => bit (start + b)).length := numeral_lt (by decide) fun c _ => c.toNat_lt
    _ = 2 ^ width := by rw [hlength]

theorem testBit_window {b : Nat} (h : b < width) : (window bit start width).testBit (width - 1 - b) = bit (start + b) := by
  induction width with
  | zero => cases h
  | succ width ih =>
    rw [window_succ]
    rcases Nat.lt_or_eq_of_le (Nat.le_of_lt_succ h) with hlt | rfl
    · obtain ⟨rest, hrest⟩ : ∃ rest, width - b = rest + 1 := ⟨width - b - 1, by omega⟩
      rw [show width + 1 - 1 - b = rest + 1 by omega, Nat.testBit_succ, ← ih hlt, show width - 1 - b = rest by omega]
      congr 1
      have hbit := (bit (start + width)).toNat_lt
      omega
    · rw [show b + 1 - 1 - b = 0 by omega, Nat.testBit_zero]
      cases bit (start + b) <;> simp

theorem window_eq_iff :
    window bit start width = window bit' start width ↔ ∀ b < width, bit (start + b) = bit' (start + b) := by
  constructor
  · intro h b hb
    calc bit (start + b)
      _ = (window bit start width).testBit (width - 1 - b) := (testBit_window hb).symm
      _ = (window bit' start width).testBit (width - 1 - b) := by rw [h]
      _ = bit' (start + b) := testBit_window hb
  · intro h
    rw [window, window]
    exact congrArg _ (List.map_congr_left fun b hb => h b (List.mem_range.mp hb))

/-- A number is a window if it has the bits of one. -/
theorem eq_window {x : Nat} (hx : x < 2 ^ width) (h : ∀ b < width, x.testBit (width - 1 - b) = bit (start + b)) :
    x = window bit start width := by
  apply Nat.eq_of_testBit_eq
  intro i
  rcases Nat.lt_or_ge i width with hi | hi
  · have hbit := h (width - 1 - i) (by omega)
    have hwindow : (window bit start width).testBit (width - 1 - (width - 1 - i)) = bit (start + (width - 1 - i)) :=
      testBit_window (by omega)
    rw [← hwindow, show width - 1 - (width - 1 - i) = i by omega] at hbit
    exact hbit
  · have hle : 2 ^ width ≤ 2 ^ i := Nat.pow_le_pow_right (by decide) hi
    rw [Nat.testBit_lt_two_pow (hx.trans_le hle), Nat.testBit_lt_two_pow ((window_lt bit start width).trans_le hle)]

/-- Streams have the same windows side by side if they have the same bits under them. -/
theorem windows_eq_iff (hwidth : 0 < width) (count : Nat) :
    (∀ i < count, window bit (width * i) width = window bit' (width * i) width) ↔ ∀ p < width * count, bit p = bit' p := by
  simp only [window_eq_iff]
  constructor
  · intro h p hp
    have hbit := h (p / width) (Nat.div_lt_of_lt_mul hp) (p % width) (Nat.mod_lt p hwidth)
    rwa [Nat.div_add_mod] at hbit
  · intro h i hi b hb
    refine h _ ?_
    calc width * i + b
      _ < width * (i + 1) := by rw [Nat.mul_succ]; omega
      _ ≤ width * count := Nat.mul_le_mul_left width hi

end NvrxFirmware
