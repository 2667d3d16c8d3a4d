import NvrxFirmware.Memories
import Mathlib.Algebra.Ring.Nat

namespace NvrxFirmware

open Memory

variable {m : Memory} {a : Nat}

/-- The sum of the half words of a little-endian machine. -/
def wordSum : List UInt8 → Nat
  | low :: high :: rest => low.toNat + 256 * high.toNat + wordSum rest
  | _ => 0

/-- The sum with its carries added in, as far as two additions do it. -/
def foldSum (sum : Nat) : Nat :=
  let sum := sum / 65536 + sum % 65536
  (sum + sum / 65536) % 65536

/-- The sum of the words in ones' complement. -/
def inetSum (hdr : Bytes 20) : UInt16 := .ofNat (65535 - foldSum (wordSum hdr.val))

theorem wordSum_load (m : Memory) (a : Nat) :
    wordSum (m.load a 20).val = ((List.range 10).map fun k => (m.load16 (a + 2 * k)).toNat).sum := by
  have hword (a : Nat) : (m.load16 a).toNat = (m a).toNat + 256 * (m (a + 1)).toNat := by
    have hlow := (m a).toNat_lt
    have hhigh := (m (a + 1)).toNat_lt
    rw [load16, UInt16.toNat_ofNat']
    omega
  simp only [hword, load, bytes, before, wordSum, List.range_succ, List.range_zero, List.nil_append, List.cons_append,
    List.map_cons, List.map_nil, List.sum_cons, List.sum_nil]

theorem wordSum_store16 (x : UInt16) (hzero : m.load16 (a + 10) = 0) :
    wordSum ((m.store16 (a + 10) x).load a 20).val = wordSum (m.load a 20).val + x.toNat := by
  have hkept (k : Nat) (hk : k ≠ 5) : (m.store16 (a + 10) x).load16 (a + 2 * k) = m.load16 (a + 2 * k) :=
    load16_store16_of_disjoint (by omega)
  have hnew : (m.store16 (a + 10) x).load16 (a + 2 * 5) = x := load16_store16 ..
  have hold : m.load16 (a + 2 * 5) = 0 := hzero
  simp only [wordSum_load, List.range_succ, List.range_zero, List.nil_append, List.cons_append, List.map_cons,
    List.map_nil, List.sum_cons, List.sum_nil]
  rw [hkept 0 (by decide), hkept 1 (by decide), hkept 2 (by decide), hkept 3 (by decide), hkept 4 (by decide), hnew, hold,
    hkept 6 (by decide), hkept 7 (by decide), hkept 8 (by decide), hkept 9 (by decide), UInt16.toNat_zero]
  omega

theorem wordSum_load_le (m : Memory) (a : Nat) : wordSum (m.load a 20).val ≤ 10 * 65535 := by
  have hlt (k : Nat) := (m.load16 (a + 2 * k)).toNat_lt
  simp only [wordSum_load, List.range_succ, List.range_zero, List.nil_append, List.cons_append, List.map_cons,
    List.map_nil, List.sum_cons, List.sum_nil]
  have h0 := hlt 0; have h1 := hlt 1; have h2 := hlt 2; have h3 := hlt 3; have h4 := hlt 4
  have h5 := hlt 5; have h6 := hlt 6; have h7 := hlt 7; have h8 := hlt 8; have h9 := hlt 9
  omega

theorem foldSum_eq {q r : Nat} (hq : q ≤ 10) (hr : r < 65536) :
    foldSum (65536 * q + r) = if q + r < 65536 then q + r else q + r - 65535 := by
  have hdiv : (65536 * q + r) / 65536 = q := by omega
  have hmod : (65536 * q + r) % 65536 = r := by omega
  rw [foldSum, hdiv, hmod]
  split <;> omega

theorem foldSum_complement {sum : Nat} (h : sum ≤ 10 * 65535) : foldSum (sum + (65535 - foldSum sum)) = 65535 := by
  obtain ⟨q, r, hr, rfl⟩ : ∃ q r, r < 65536 ∧ sum = 65536 * q + r := ⟨sum / 65536, sum % 65536, by omega, by omega⟩
  rw [foldSum_eq (q := q) (by omega) hr]
  split
  next hlow =>
    rw [show 65536 * q + r + (65535 - (q + r)) = 65536 * q + (65535 - q) by omega, foldSum_eq (by omega) (by omega)]
    split <;> omega
  next hhigh =>
    rw [show 65536 * q + r + (65535 - (q + r - 65535)) = 65536 * (q + 1) + (65534 - q) by omega,
      foldSum_eq (by omega) (by omega)]
    split <;> omega

end NvrxFirmware
