import NvrxFirmware.Numerals
import NvrxFirmware.PppdSecretLength
import NvrxFirmware.WpaSupplicantModel

namespace NvrxFirmware.WpaSupplicant

open Pppd

variable {input ip written rest : List UInt8} {v : UInt8}

theorem store_at (written rest : List UInt8) (old v : UInt8) :
    store (written ++ old :: rest) written.length v = some (written ++ v :: rest) := by
  have hin : written.length < (written ++ old :: rest).length := by
    rw [List.length_append, List.length_cons]
    omega
  rw [store, if_pos hin, List.set_append_right _ _ (Nat.le_refl _), Nat.sub_self]
  rfl

/-- The loop fills what is left of a block that has room for exactly the remaining pairs. -/
theorem hexLoop_eq (ip written rest : List UInt8) (hlen : ip.length = 2 * rest.length) :
    hexLoop ip written.length (written ++ rest) =
      match hexPairs ip with
      | some bytes => .done (written ++ bytes)
      | none => .quit := by
  induction ip using hexPairs.induct generalizing written rest with
  | case1 =>
    obtain rfl : rest = [] := List.eq_nil_of_length_eq_zero (by simpa using hlen.symm)
    rfl
  | case2 high low ip hpair ih =>
    obtain ⟨hhigh, hlow⟩ := hpair
    cases rest with
    | nil => simp at hlen
    | cons old rest =>
      have hlen' : ip.length = 2 * rest.length := by
        simp only [List.length_cons] at hlen
        omega
      have hread : (written ++ (hex2val high <<< 4) :: rest).getD written.length 0 = hex2val high <<< 4 := by simp
      have hnext := ih (written ++ [(hex2val high <<< 4) + hex2val low]) rest hlen'
      rw [List.length_append, List.append_assoc] at hnext
      rw [hexLoop, if_pos hhigh, store_at]
      simp only [if_pos hlow, hread, store_at]
      rw [hexPairs, if_pos ⟨hhigh, hlow⟩]
      refine hnext.trans ?_
      cases hexPairs ip with
      | none => rfl
      | some bytes => simp [hex2val]
  | case3 high low ip hpair =>
    rw [hexPairs, if_neg hpair]
    cases rest with
    | nil => simp at hlen
    | cons old rest =>
      by_cases hhigh : IsXdigit high
      · have hlow : ¬IsXdigit low := fun hlow => hpair ⟨hhigh, hlow⟩
        rw [hexLoop, if_pos hhigh, store_at]
        simp only [if_neg hlow]
      · rw [hexLoop, if_neg hhigh]
  | case4 c =>
    simp only [List.length_singleton] at hlen
    omega

theorem hexFirst_eq (input s : List UInt8) (hlen : s.length = input.length / 2 + input.length % 2) :
    hexFirst input s =
      match hexOutput input with
      | some bytes => .done bytes
      | none => .quit := by
  cases input with
  | nil =>
    obtain rfl : s = [] := List.eq_nil_of_length_eq_zero (by simpa using hlen)
    rfl
  | cons first ip =>
    rw [List.length_cons] at hlen
    by_cases hodd : (ip.length + 1) % 2 = 1
    · have hne : (first :: ip).length % 2 ≠ 0 := by
        rw [List.length_cons, hodd]
        decide
      rw [hexFirst, if_pos hne, hexOutput, if_pos hodd]
      by_cases hfirst : IsXdigit first
      · cases s with
        | nil =>
          rw [List.length_nil] at hlen
          omega
        | cons old rest =>
          have hrest : ip.length = 2 * rest.length := by
            rw [List.length_cons] at hlen
            omega
          have hstore : store (old :: rest) 0 (hex2val first) = some ([hex2val first] ++ rest) :=
            store_at [] rest old (hex2val first)
          simp only [if_pos hfirst, hstore]
          refine (hexLoop_eq ip [hex2val first] rest hrest).trans ?_
          cases hexPairs ip with
          | none => rfl
          | some bytes => rfl
      · simp only [if_neg hfirst]
    · have heven : ¬(first :: ip).length % 2 ≠ 0 := by
        rw [List.length_cons]
        omega
      rw [hexFirst, if_neg heven, hexOutput, if_neg hodd]
      exact hexLoop_eq (first :: ip) [] s (by rw [List.length_cons]; omega)

theorem outputLen_toNat (hlen : input.length < 2 ^ 33 - 1) :
    (outputLen input).toNat = input.length / 2 + input.length % 2 :=
  UInt32.toNat_ofNat_of_lt' (by show _ < 2 ^ 32; omega)

theorem outputLen_toInt (hlen : input.length < 2 ^ 32 - 1) :
    (outputLen input).toInt32.toInt = ((input.length / 2 + input.length % 2 : Nat) : Int) := by
  have hnat : (outputLen input).toNat = input.length / 2 + input.length % 2 := outputLen_toNat (by omega)
  show (outputLen input).toBitVec.toInt = _
  rw [BitVec.toInt_eq_toNat_of_lt (by show 2 * (outputLen input).toNat < 2 ^ 32; omega)]
  exact congrArg Nat.cast hnat

/-- As long as the length of the output is one of 32 bits, nothing is written outside of the block. -/
theorem hexToBinary2_eq (hlen : input.length < 2 ^ 33 - 1) :
    hexToBinary2 input = some (
      match hexOutput input with
      | some bytes => ((outputLen input).toInt32.toInt, some bytes)
      | none => (-1, none)) := by
  have holen := outputLen_toNat hlen
  by_cases hempty : input = []
  · subst hempty
    rfl
  · have hpos := List.length_pos_iff.mpr hempty
    have hne : outputLen input ≠ 0 := by
      intro h
      rw [h] at holen
      have hzero : (0 : UInt32).toNat = 0 := rfl
      omega
    have hblock : (List.replicate (outputLen input).toNat (0 : UInt8)).length = input.length / 2 + input.length % 2 := by
      rw [List.length_replicate, holen]
    simp only [hexToBinary2, if_neg hne, hexFirst_eq input _ hblock]
    cases hbytes : hexOutput input with
    | none => rfl
    | some bytes =>
      have hdecoded := hexOutput_digits (digits_of_hexOutput hbytes)
      rw [hbytes, Option.some_inj] at hdecoded
      have htake : bytes.take (outputLen input).toNat = bytes := by
        rw [List.take_of_length_le]
        rw [hdecoded, decoded_length, holen]
      simp only [htake]

theorem hexToBinary2_agrees (hlen : input.length < 2 ^ 32 - 1) :
    hexToBinary2 input = some (Pppd.hexToBinary2 input) := by
  rw [hexToBinary2_eq (by omega), outputLen_toInt hlen]
  rfl

theorem pair_toNat {high low : UInt8} (hhigh : IsXdigit high) (hlow : IsXdigit low) :
    (UInt8.ofNat (16 * hexValue high + hexValue low)).toNat = 16 * hexValue high + hexValue low := by
  have hx := (hex2val_eq hhigh).1
  have hy := (hex2val_eq hlow).1
  exact UInt8.toNat_ofNat_of_lt' (by show _ < 256; omega)

theorem bytesOfPairs_value (heven : input.length % 2 = 0) (hdigits : ∀ c ∈ input, IsXdigit c) :
    numeral 256 UInt8.toNat (bytesOfPairs input) = numeral 16 hexValue input := by
  induction input using bytesOfPairs.induct with
  | case1 high low rest ih =>
    have hhigh := hdigits high List.mem_cons_self
    have hlow := hdigits low (List.mem_cons_of_mem _ List.mem_cons_self)
    have hrest : rest.length % 2 = 0 := by
      simp only [List.length_cons] at heven
      omega
    have hvalue := ih hrest fun c hc => hdigits c (List.mem_cons_of_mem _ (List.mem_cons_of_mem _ hc))
    have hpow : 256 ^ (rest.length / 2) = 16 ^ rest.length := by
      have hhalf : rest.length = 2 * (rest.length / 2) := by omega
      conv_rhs => rw [hhalf, Nat.pow_mul]
    rw [bytesOfPairs, numeral_cons, numeral_cons, numeral_cons, hvalue, pair_toNat hhigh hlow, bytesOfPairs_length, hpow,
      List.length_cons, Nat.pow_succ]
    ring
  | case2 input hshort =>
    cases input with
    | nil => rfl
    | cons c rest =>
      cases rest with
      | nil => simp at heven
      | cons c' rest => exact absurd rfl (hshort c c' rest)

theorem decoded_value (hdigits : ∀ c ∈ input, IsXdigit c) :
    numeral 256 UInt8.toNat (decoded input) = numeral 16 hexValue input := by
  rw [decoded]
  split
  next hodd =>
    have hzero : hexValue 48 = 0 := rfl
    rw [bytesOfPairs_value, numeral_cons, hzero, Nat.zero_mul, Nat.zero_add]
    · rw [List.length_cons]
      omega
    · intro c hc
      rcases List.mem_cons.mp hc with rfl | hc
      · decide
      · exact hdigits c hc
  next heven => exact bytesOfPairs_value (by omega) hdigits

/-- The digit for a number below sixteen. -/
def hexDigit (upper : Bool) (n : Nat) : UInt8 :=
  UInt8.ofNat (if n < 10 then 48 + n else if upper then 55 + n else 87 + n)

/-- Two digits for each byte. -/
def hexText (upper : Bool) (bytes : List UInt8) : List UInt8 :=
  bytes.flatMap fun b => [hexDigit upper (b.toNat / 16), hexDigit upper (b.toNat % 16)]

theorem hexDigit_value (upper : Bool) :
    ∀ n, n < 16 → IsXdigit (hexDigit upper n) ∧ hexValue (hexDigit upper n) = n := by
  cases upper <;> decide

theorem hexText_digits (upper : Bool) (bytes : List UInt8) : ∀ c ∈ hexText upper bytes, IsXdigit c := by
  intro c hc
  obtain ⟨b, -, hcb⟩ := List.mem_flatMap.mp hc
  have hb := b.toNat_lt
  simp only [List.mem_cons, List.not_mem_nil, or_false] at hcb
  rcases hcb with rfl | rfl
  · exact (hexDigit_value upper _ (by omega)).1
  · exact (hexDigit_value upper _ (Nat.mod_lt _ (by decide))).1

theorem hexText_length (upper : Bool) (bytes : List UInt8) : (hexText upper bytes).length = 2 * bytes.length := by
  induction bytes with
  | nil => rfl
  | cons b bytes ih =>
    rw [hexText, List.flatMap_cons, List.length_append, ← hexText, ih]
    simp only [List.length_cons, List.length_nil]
    omega

theorem decoded_hexText (upper : Bool) (bytes : List UInt8) : decoded (hexText upper bytes) = bytes := by
  have heven : ¬(hexText upper bytes).length % 2 = 1 := by
    rw [hexText_length]
    omega
  rw [decoded, if_neg heven]
  induction bytes with
  | nil => rfl
  | cons b bytes ih =>
    have hb := b.toNat_lt
    have hhigh := (hexDigit_value upper (b.toNat / 16) (by omega)).2
    have hlow := (hexDigit_value upper (b.toNat % 16) (Nat.mod_lt _ (by decide))).2
    have htail := ih (by rw [hexText_length]; omega)
    show UInt8.ofNat (16 * hexValue _ + hexValue _) :: bytesOfPairs (hexText upper bytes) = b :: bytes
    rw [hhigh, hlow, htail, Nat.div_add_mod, UInt8.ofNat_toNat]

/-- For strings whose output's length is an `int`, `hex_to_binary2` fails exactly on what is not
hexadecimal, decodes everything else to the bytes of the same number, and is the same function in both programs. -/
theorem hexToBinary2_exact (hlen : input.length < 2 ^ 32 - 1) :
    hexToBinary2 input = some (Pppd.hexToBinary2 input) ∧
      (Pppd.hexToBinary2 input = (-1, none) ↔ ∃ c ∈ input, ¬IsXdigit c) ∧
      ((∀ c ∈ input, IsXdigit c) → ∃ bytes,
        Pppd.hexToBinary2 input = (((input.length / 2 + input.length % 2 : Nat) : Int), some bytes) ∧
          bytes.length = input.length / 2 + input.length % 2 ∧
          numeral 256 UInt8.toNat bytes = numeral 16 hexValue input) ∧
      ∀ upper bytes, input = hexText upper bytes →
        hexToBinary2 input = some ((bytes.length : Int), some bytes) := by
  refine ⟨hexToBinary2_agrees hlen, ?_, ?_, ?_⟩
  · constructor
    · intro h
      by_contra hnone
      have hdigits : ∀ c ∈ input, IsXdigit c := by simpa using hnone
      rw [hexToBinary2_digits hdigits] at h
      cases (Prod.mk.inj h).2
    · rintro ⟨c, hc, hother⟩
      exact hexToBinary2_other fun hdigits => hother (hdigits c hc)
  · intro hdigits
    exact ⟨decoded input, hexToBinary2_digits hdigits, decoded_length input, decoded_value hdigits⟩
  · rintro upper bytes rfl
    have hhalf : (hexText upper bytes).length / 2 + (hexText upper bytes).length % 2 = bytes.length := by
      rw [hexText_length]
      omega
    rw [hexToBinary2_agrees hlen, hexToBinary2_digits (hexText_digits upper bytes), hhalf, decoded_hexText]

theorem hexToBinary2_exact_of_beef : hexToBinary2 [98, 69, 101, 102] = some (2, some [0xbe, 0xef]) := by
  have hlen : ([98, 69, 101, 102] : List UInt8).length < 2 ^ 32 - 1 := by decide
  rw [(hexToBinary2_exact hlen).1]
  decide +kernel

theorem hexToBinary2_long (hlen : input.length = 2 ^ 32) (hdigits : ∀ c ∈ input, IsXdigit c) :
    hexToBinary2 input = some (-2147483648, some (decoded input)) := by
  have hret : (outputLen input).toInt32.toInt = -2147483648 := by
    rw [outputLen, hlen]
    decide
  rw [hexToBinary2_eq (by omega), hexOutput_digits hdigits, hret]

/-- The length of the output of 2^32 digits is negative as an `int`. -/
theorem length_wraps : ¬∀ input : List UInt8, (∀ c ∈ input, IsXdigit c) → ∃ bytes,
    hexToBinary2 input = some (((input.length / 2 + input.length % 2 : Nat) : Int), some bytes) := by
  intro hall
  have hdigits : ∀ c ∈ (zeros (2 ^ 32)).val, IsXdigit c := by
    intro c hc
    rw [List.eq_of_mem_replicate hc]
    decide
  obtain ⟨bytes, hbytes⟩ := hall (zeros (2 ^ 32)).val hdigits
  rw [hexToBinary2_long (zeros_length _) hdigits, Option.some_inj, zeros_length] at hbytes
  have hlen := (Prod.mk.inj hbytes).1
  omega

end NvrxFirmware.WpaSupplicant
