import NvrxFirmware.CStrings

namespace NvrxFirmware

/-- An array of characters of a fixed size that holds a string with its terminator. -/
structure CharArray (size : Nat) where
  bytes : List UInt8
  bytes_length : bytes.length = size
  terminated : 0 ∈ bytes

variable {size : Nat}

namespace CharArray

def string (a : CharArray size) : List UInt8 := cString a.bytes

def strlen (a : CharArray size) : Nat := a.string.length

def zeros (size : Nat) (h : 0 < size) : CharArray size where
  bytes := List.replicate size 0
  bytes_length := List.length_replicate
  terminated := List.mem_replicate.mpr ⟨by omega, rfl⟩

@[simp] theorem zeros_string (h : 0 < size) : (zeros size h).string = [] := by
  obtain ⟨n, rfl⟩ : ∃ n, size = n + 1 := ⟨size - 1, by omega⟩
  exact cString_append_nul (s := []) (by simp) (List.replicate n 0)

theorem strlen_lt (a : CharArray size) : a.strlen < size := by
  obtain ⟨rest, hrest⟩ := exists_eq_cString_append a.terminated
  have hlen := congrArg List.length hrest
  rw [a.bytes_length, List.length_append, List.length_cons] at hlen
  show (cString a.bytes).length < size
  omega

theorem take_strlen (a : CharArray size) : a.bytes.take a.strlen = a.string := by
  obtain ⟨rest, hrest⟩ := exists_eq_cString_append a.terminated
  have htake := congrArg (List.take a.strlen) hrest
  rwa [show a.strlen = (cString a.bytes).length from rfl, List.take_left] at htake

/-- `strncat(a, src, n)` for an `src` of at least `n` bytes, unless it writes past the end of the array. -/
def strncat (a : CharArray size) (src : List UInt8) (n : Nat) : Option (CharArray size) :=
  let text := a.string ++ cString (src.take n)
  if h : text.length < size then
    some {
      bytes := text ++ 0 :: a.bytes.drop (text.length + 1)
      bytes_length := by
        rw [List.length_append, List.length_cons, List.length_drop, a.bytes_length]
        omega
      terminated := by simp }
  else none

theorem strncat_isSome_iff (a : CharArray size) (src : List UInt8) (n : Nat) :
    (a.strncat src n).isSome = true ↔ a.strlen + (cString (src.take n)).length < size := by
  have hlen : (a.string ++ cString (src.take n)).length = a.strlen + (cString (src.take n)).length :=
    List.length_append
  rw [← hlen]
  unfold strncat
  dsimp only
  split
  next h => exact ⟨fun _ => h, fun _ => rfl⟩
  next h => exact ⟨fun hsome => (Bool.false_ne_true hsome).elim, fun hroom => absurd hroom h⟩

theorem strncat_string {a a' : CharArray size} {src : List UInt8} {n : Nat} (h : a.strncat src n = some a') :
    a'.string = a.string ++ cString (src.take n) := by
  unfold strncat at h
  dsimp only at h
  split at h
  next hroom =>
    obtain rfl := Option.some.inj h
    apply cString_append_nul
    rw [List.mem_append]
    rintro (hnul | hnul)
    · exact nul_not_mem_cString _ hnul
    · exact nul_not_mem_cString _ hnul
  next => cases h

end CharArray

theorem nul_not_mem_flatMap_cString (parts : List (List UInt8)) : 0 ∉ parts.flatMap cString := by
  intro h
  obtain ⟨part, -, hnul⟩ := List.mem_flatMap.mp h
  exact nul_not_mem_cString part hnul

/-- Strings that have room are, one behind the other, the beginning of their memory if it holds no terminator there. -/
theorem flatMap_cString_eq_take_iff {parts : List (List UInt8)} {n : Nat} (hlen : (parts.flatMap cString).length ≤ n) :
    parts.flatMap cString = parts.flatten.take n ↔ 0 ∉ parts.flatten.take n := by
  constructor
  · intro h
    rw [← h]
    exact nul_not_mem_flatMap_cString parts
  · intro hnul
    induction parts generalizing n with
    | nil => simp
    | cons part parts ih =>
      rw [List.flatten_cons, List.take_append, List.mem_append, not_or] at hnul
      rw [List.flatMap_cons, List.length_append] at hlen
      rw [List.flatMap_cons, List.flatten_cons, List.take_append]
      by_cases hend : 0 ∈ part
      · obtain ⟨rest, hrest⟩ := exists_eq_cString_append hend
        have hfull : n ≤ (cString part).length := by
          by_contra hlt
          apply hnul.1
          rw [hrest, List.take_append, List.mem_append]
          right
          obtain ⟨k, hk⟩ : ∃ k, n - (cString part).length = k + 1 := ⟨n - (cString part).length - 1, by omega⟩
          rw [hk, List.take_succ_cons]
          exact List.mem_cons_self
        have hnone : parts.flatMap cString = [] := List.eq_nil_of_length_eq_zero (by omega)
        have hpart : part.take n = cString part := by
          have htake := congrArg (List.take n) hrest
          have hstring : (cString part).take n = cString part := List.take_of_length_le (by omega)
          rwa [List.take_append_of_le_length hfull, hstring] at htake
        have hlong := length_cString_le part
        rw [hnone, hpart, show n - part.length = 0 by omega, List.take_zero]
      · rw [cString_of_noNul hend] at hlen ⊢
        rw [List.take_of_length_le (by omega), ih (by omega) hnul.2]

end NvrxFirmware
