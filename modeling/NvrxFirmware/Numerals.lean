import Mathlib.Data.List.Induction
import Mathlib.Data.Nat.Digits.Defs

namespace NvrxFirmware

universe u

variable {α : Type u} {b k : Nat} {digit : α → Nat}

/-- The number that the symbols spell in base `b`, the first one being the highest. -/
def numeral (b : Nat) (digit : α → Nat) (l : List α) : Nat := l.foldl (fun v c => b * v + digit c) 0

@[simp] theorem numeral_nil : numeral b digit [] = 0 := rfl

theorem numeral_concat (l : List α) (c : α) : numeral b digit (l ++ [c]) = b * numeral b digit l + digit c := by
  simp [numeral, List.foldl_append]

theorem numeral_eq_ofDigits (l : List α) : numeral b digit l = Nat.ofDigits b (l.map digit).reverse := by
  induction l using List.reverseRecOn with
  | nil => rfl
  | append_singleton l c ih =>
    rw [numeral_concat, List.map_append, List.reverse_append, ih]
    simp [Nat.ofDigits_cons, Nat.add_comm]

theorem numeral_append (l m : List α) :
    numeral b digit (l ++ m) = numeral b digit l * b ^ m.length + numeral b digit m := by
  simp only [numeral_eq_ofDigits, List.map_append, List.reverse_append, Nat.ofDigits_append, List.length_reverse,
    List.length_map]
  rw [Nat.add_comm, Nat.mul_comm]

theorem numeral_cons (c : α) (l : List α) :
    numeral b digit (c :: l) = digit c * b ^ l.length + numeral b digit l := by
  have hone : numeral b digit [c] = digit c := by simp [numeral]
  rw [← hone, ← numeral_append]
  rfl

theorem numeral_lt (hb : 1 < b) {l : List α} (hl : ∀ c ∈ l, digit c < b) : numeral b digit l < b ^ l.length := by
  rw [numeral_eq_ofDigits]
  have hlt := Nat.ofDigits_lt_base_pow_length (l := (l.map digit).reverse) hb (by simpa using hl)
  simpa using hlt

theorem numeral_append_div (hb : 1 < b) (l : List α) {m : List α} (hm : ∀ c ∈ m, digit c < b) :
    numeral b digit (l ++ m) / b ^ m.length = numeral b digit l := by
  have hlt := numeral_lt hb hm
  have hpos : 0 < b ^ m.length := Nat.lt_of_le_of_lt (Nat.zero_le _) hlt
  rw [numeral_append, Nat.mul_comm, Nat.mul_add_div hpos, Nat.div_eq_of_lt hlt, Nat.add_zero]

theorem numeral_append_mod (hb : 1 < b) (l : List α) {m : List α} (hm : ∀ c ∈ m, digit c < b) :
    numeral b digit (l ++ m) % b ^ m.length = numeral b digit m := by
  rw [numeral_append, Nat.mul_comm, Nat.mul_add_mod, Nat.mod_eq_of_lt (numeral_lt hb hm)]

/-- The last `k` symbols. -/
def lastOf (k : Nat) (l : List α) : List α := l.drop (l.length - k)

theorem lastOf_append (k : Nat) (l : List α) {m : List α} (hm : k ≤ m.length) : lastOf k (l ++ m) = lastOf k m := by
  have hlen : (l ++ m).length - k = l.length + (m.length - k) := by
    rw [List.length_append]
    omega
  rw [lastOf, lastOf, hlen, ← List.drop_drop, List.drop_left]

theorem lastOf_append_short (l : List α) {m : List α} (hm : m.length ≤ k) :
    lastOf k (l ++ m) = lastOf (k - m.length) l ++ m := by
  have hlen : (l ++ m).length - k = l.length - (k - m.length) := by
    rw [List.length_append]
    omega
  rw [lastOf, hlen, List.drop_append_of_le_length (Nat.sub_le _ _)]
  rfl

theorem lastOf_length (l : List α) (hk : k ≤ l.length) : (lastOf k l).length = k := by
  rw [lastOf, List.length_drop, Nat.sub_sub_self hk]

theorem lastOf_of_length_le {l : List α} (hk : l.length ≤ k) : lastOf k l = l := by
  rw [lastOf, Nat.sub_eq_zero_of_le hk, List.drop_zero]

theorem take_append_lastOf (k : Nat) (l : List α) : l.take (l.length - k) ++ lastOf k l = l :=
  List.take_append_drop _ _

theorem numeral_mod_pow (hb : 1 < b) {l : List α} (hl : ∀ c ∈ l, digit c < b) :
    numeral b digit l % b ^ k = numeral b digit (lastOf k l) := by
  rcases Nat.le_total k l.length with hk | hk
  · have hlast : ∀ c ∈ lastOf k l, digit c < b := fun c hc => hl c (List.mem_of_mem_drop hc)
    have hmod := numeral_append_mod hb (l.take (l.length - k)) hlast
    rwa [take_append_lastOf, lastOf_length l hk] at hmod
  · have hlt : numeral b digit l < b ^ k :=
      Nat.lt_of_lt_of_le (numeral_lt hb hl) (Nat.pow_le_pow_right (Nat.lt_of_succ_lt hb) hk)
    rw [lastOf_of_length_le hk, Nat.mod_eq_of_lt hlt]

theorem numeral_eq_zero (hb : 1 < b) {l : List α} : numeral b digit l = 0 ↔ ∀ c ∈ l, digit c = 0 := by
  have hne : b ≠ 0 := Nat.ne_of_gt (Nat.lt_of_succ_lt hb)
  induction l using List.reverseRecOn with
  | nil => simp
  | append_singleton l c ih =>
    rw [numeral_concat, Nat.add_eq_zero_iff, Nat.mul_eq_zero, or_iff_right hne]
    simp only [List.mem_append, List.mem_singleton]
    constructor
    · rintro ⟨hl, hc⟩ d (hd | rfl)
      · exact ih.mp hl d hd
      · exact hc
    · intro h
      exact ⟨ih.mpr fun d hd => h d (.inl hd), h c (.inr rfl)⟩

/-- A numeral stays below a power of the base when nothing but zeros stands before its last `k` symbols. -/
theorem numeral_lt_pow_iff (hb : 1 < b) {l : List α} (hl : ∀ c ∈ l, digit c < b) :
    numeral b digit l < b ^ k ↔ ∀ c ∈ l.take (l.length - k), digit c = 0 := by
  have hlast : ∀ c ∈ lastOf k l, digit c < b := fun c hc => hl c (List.mem_of_mem_drop hc)
  rw [← numeral_eq_zero hb]
  rcases Nat.le_total k l.length with hk | hk
  · have hzero : b ^ k ≠ 0 := Nat.ne_of_gt (Nat.pow_pos (Nat.lt_of_succ_lt hb))
    rw [← numeral_append_div hb (l.take (l.length - k)) hlast, take_append_lastOf, lastOf_length l hk,
      Nat.div_eq_zero_iff, or_iff_right hzero]
  · have hlt := numeral_lt hb hl
    have hle : b ^ l.length ≤ b ^ k := Nat.pow_le_pow_right (Nat.lt_of_succ_lt hb) hk
    rw [Nat.sub_eq_zero_of_le hk]
    exact ⟨fun _ => rfl, fun _ => Nat.lt_of_lt_of_le hlt hle⟩

/-- The `k` lowest digits of a number. -/
def spelled (b : Nat) (symbol : Nat → α) : Nat → Nat → List α
  | 0, _ => []
  | k + 1, n => spelled b symbol k (n / b) ++ [symbol (n % b)]

variable {symbol : Nat → α}

@[simp] theorem spelled_length (k n : Nat) : (spelled b symbol k n).length = k := by
  induction k generalizing n with
  | zero => rfl
  | succ k ih => simp [spelled, ih]

theorem mem_spelled {n : Nat} {c : α} (hb : 0 < b) (hc : c ∈ spelled b symbol k n) : ∃ d, d < b ∧ c = symbol d := by
  induction k generalizing n with
  | zero => cases hc
  | succ k ih =>
    rw [spelled, List.mem_append] at hc
    rcases hc with hc | hc
    · exact ih hc
    · exact ⟨n % b, Nat.mod_lt n hb, List.mem_singleton.mp hc⟩

theorem numeral_spelled (hb : 0 < b) (hdigit : ∀ d, d < b → digit (symbol d) = d) (k n : Nat) :
    numeral b digit (spelled b symbol k n) = n % b ^ k := by
  induction k generalizing n with
  | zero => simp [spelled, Nat.mod_one]
  | succ k ih =>
    rw [spelled, numeral_concat, ih, hdigit _ (Nat.mod_lt n hb), Nat.pow_succ', Nat.mod_mul, Nat.add_comm]

end NvrxFirmware
