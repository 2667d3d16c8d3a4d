import Mathlib.Data.List.Basic
import Mathlib.Data.Nat.Digits.Defs
import Mathlib.Tactic.Common

namespace NvrxFirmware

universe u

variable {α : Type u} {bytes : List UInt8} {b k n : Nat}

def padTo (n : Nat) (bytes : List UInt8) : List UInt8 := bytes ++ List.replicate (n - bytes.length) 0

theorem padTo_length (h : bytes.length ≤ n) : (padTo n bytes).length = n := by
  rw [padTo, List.length_append, List.length_replicate]
  omega

/-- The padding is not among what is read within the bytes. -/
theorem drop_take_append {xs ys : List α} (h : k + n ≤ xs.length) :
    ((xs ++ ys).drop k).take n = (xs.drop k).take n := by
  rw [List.drop_append_of_le_length (by omega), List.take_append_of_le_length (by rw [List.length_drop]; omega)]

/-- How many blocks of `b` bytes it takes to hold `n` bytes. -/
def blocksFor (b n : Nat) : Nat := (n + b - 1) / b

theorem le_mul_blocksFor (hb : 0 < b) (n : Nat) : n ≤ b * blocksFor b n := by
  have hdiv := Nat.div_add_mod (n + b - 1) b
  have hmod := Nat.mod_lt (n + b - 1) hb
  rw [blocksFor]
  omega

theorem blocksFor_mono {m : Nat} (h : m ≤ n) : blocksFor b m ≤ blocksFor b n :=
  Nat.div_le_div_right (by omega)

theorem blocksFor_add_mul (hb : 0 < b) (n k : Nat) : blocksFor b (n + b * k) = blocksFor b n + k := by
  have hcomm : n + b * k + b - 1 = n + b - 1 + b * k := by omega
  rw [blocksFor, hcomm, Nat.add_mul_div_left _ _ hb, ← blocksFor]

def padToBlocks (b : Nat) (bytes : List UInt8) : List UInt8 := padTo (b * blocksFor b bytes.length) bytes

theorem padToBlocks_length (hb : 0 < b) (bytes : List UInt8) :
    (padToBlocks b bytes).length = b * blocksFor b bytes.length := padTo_length (le_mul_blocksFor hb _)

variable {β : Type u} {f : β → List α} {xs : List β} {size : Nat}

theorem length_flatMap_of_length (hf : ∀ x ∈ xs, (f x).length = size) : (xs.flatMap f).length = size * xs.length := by
  rw [List.length_flatMap, List.map_congr_left hf, List.map_const', List.sum_replicate_nat, Nat.mul_comm]

/-- Sections of one length are dropped one by one. -/
theorem drop_flatMap_of_length (hf : ∀ x ∈ xs, (f x).length = size) (i : Nat) :
    (xs.flatMap f).drop (size * i) = (xs.drop i).flatMap f := by
  induction i generalizing xs with
  | zero => simp
  | succ i ih =>
    cases xs with
    | nil => simp
    | cons x xs =>
      obtain ⟨hx, hxs⟩ := List.forall_mem_cons.mp hf
      have hsplit : size * (i + 1) = (f x).length + size * i := by rw [hx, Nat.mul_succ, Nat.add_comm]
      rw [List.flatMap_cons, hsplit, List.drop_append, List.drop_succ_cons, ← ih hxs]
      simp

/-- A word of 32 bits, the least significant byte first. -/
def le32 (x : UInt32) : List UInt8 :=
  [.ofNat x.toNat, .ofNat (x.toNat / 256), .ofNat (x.toNat / 65536), .ofNat (x.toNat / 16777216)]

@[simp] theorem le32_length (x : UInt32) : (le32 x).length = 4 := rfl

@[simp] theorem take_le32 (x : UInt32) : (le32 x).take 4 = le32 x := rfl

theorem drop_le32 (x : UInt32) (h : 4 ≤ k) : (le32 x).drop k = [] := List.drop_of_length_le h

theorem ofDigits_le32 (x : UInt32) : Nat.ofDigits 256 ((le32 x).map UInt8.toNat) = x.toNat := by
  have hx := x.toNat_lt
  simp only [le32, List.map_cons, List.map_nil, Nat.ofDigits_cons, Nat.ofDigits_nil, UInt8.toNat_ofNat']
  omega

end NvrxFirmware
