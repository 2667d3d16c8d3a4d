import Mathlib.Data.List.TakeWhile

namespace NvrxFirmware

variable {s mem : List UInt8}

theorem forall_byte {P : UInt8 → Prop} (h : ∀ n, n < 256 → P (UInt8.ofNat n)) (c : UInt8) : P c := by
  have hc := h c.toNat c.toNat_lt
  rwa [UInt8.ofNat_toNat] at hc

/-- The characters of the string that starts where the memory does. -/
def cString (mem : List UInt8) : List UInt8 := mem.takeWhile (· ≠ 0)

/-- The memory may end before the string does. -/
def strlen (mem : List UInt8) : Option Nat := if 0 ∈ mem then some (cString mem).length else none

theorem cString_append_nul (hs : 0 ∉ s) (rest : List UInt8) : cString (s ++ 0 :: rest) = s := by
  have hpos : ∀ c ∈ s, decide (c ≠ 0) = true := by
    intro c hc
    apply decide_eq_true
    rintro rfl
    exact hs hc
  rw [cString, List.takeWhile_append_of_pos hpos]
  simp

theorem strlen_append_nul (hs : 0 ∉ s) (rest : List UInt8) : strlen (s ++ 0 :: rest) = some s.length := by
  rw [strlen, if_pos (by simp), cString_append_nul hs]

theorem nul_not_mem_cString (mem : List UInt8) : 0 ∉ cString mem := by
  intro h
  have hne := List.mem_takeWhile_imp h
  simp at hne

/-- Memory that holds the end of its string is the string, its terminator and what follows. -/
theorem exists_eq_cString_append (h : 0 ∈ mem) : ∃ rest, mem = cString mem ++ 0 :: rest := by
  induction mem with
  | nil => cases h
  | cons c mem ih =>
    by_cases hc : c = 0
    · subst hc
      exact ⟨mem, by simp [cString]⟩
    · obtain ⟨rest, hrest⟩ := ih ((List.mem_cons.mp h).resolve_left fun he => hc he.symm)
      refine ⟨rest, ?_⟩
      have hcons : cString (c :: mem) = c :: cString mem := by simp [cString, hc]
      rw [hcons, List.cons_append, ← hrest]

theorem cString_of_noNul (hs : 0 ∉ s) : cString s = s := by
  apply List.takeWhile_eq_self_iff.mpr
  intro c hc
  apply decide_eq_true
  rintro rfl
  exact hs hc

theorem cString_append_zeros (mem : List UInt8) (n : Nat) : cString (mem ++ List.replicate n 0) = cString mem := by
  by_cases hend : 0 ∈ mem
  · obtain ⟨rest, hrest⟩ := exists_eq_cString_append hend
    have hsplit : mem ++ List.replicate n 0 = cString mem ++ 0 :: (rest ++ List.replicate n 0) :=
      (congrArg (· ++ List.replicate n 0) hrest).trans (List.append_assoc _ _ _)
    rw [hsplit, cString_append_nul (nul_not_mem_cString mem)]
  · cases n with
    | zero => simp
    | succ n => rw [List.replicate_succ, cString_append_nul hend, cString_of_noNul hend]

theorem length_cString_le (mem : List UInt8) : (cString mem).length ≤ mem.length :=
  (List.takeWhile_sublist _).length_le

/-- A string survives being cut to an array of `size` characters if it holds no terminator and has room for one. -/
theorem take_cString_eq_iff {size : Nat} (hsize : 0 < size) :
    (cString mem).take (size - 1) = mem ↔ 0 ∉ mem ∧ mem.length < size := by
  constructor
  · intro h
    have hlen := congrArg List.length h
    rw [List.length_take] at hlen
    refine ⟨fun hnul => ?_, by omega⟩
    rw [← h] at hnul
    exact nul_not_mem_cString mem (List.mem_of_mem_take hnul)
  · rintro ⟨hnul, hlen⟩
    rw [cString_of_noNul hnul, List.take_of_length_le (by omega)]

/-- A string without its terminator. -/
abbrev Str := { s : List UInt8 // 0 ∉ s }

def Str.ofMemory (mem : List UInt8) : Str := ⟨cString mem, nul_not_mem_cString mem⟩

def Str.ofChars (s : List Char) : Str := Str.ofMemory (s.map fun c => UInt8.ofNat c.toNat)

/-- What `sprintf` leaves in memory that is long enough for the text. -/
def sprintf (mem text : List UInt8) : List UInt8 := text ++ 0 :: mem.drop (text.length + 1)

end NvrxFirmware
