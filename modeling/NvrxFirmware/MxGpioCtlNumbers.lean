import NvrxFirmware.MxGpioCtlModel
import NvrxFirmware.NumeralReading
import NvrxFirmware.PppdSecrets

namespace NvrxFirmware.MxGpioCtl

open Pppd (IsDigit IsXdigit hexValue)

variable {str : Str} {l read rest : List UInt8} {c : UInt8} {n : Nat}

/-- The greatest number of 32 bits. -/
def maxWord : Nat := 4294967295

def decValue (c : UInt8) : Nat := c.toNat - 48

theorem toupper_isDigit_iff (c : UInt8) : (48 ≤ toupper c ∧ toupper c ≤ 57) ↔ IsDigit c :=
  forall_byte (P := fun c => (48 ≤ toupper c ∧ toupper c ≤ 57) ↔ IsDigit c) (by decide +kernel) c

theorem toupper_isXdigit_iff (c : UInt8) :
    ((48 ≤ toupper c ∧ toupper c ≤ 57) ∨ 65 ≤ toupper c ∧ toupper c ≤ 70) ↔ IsXdigit c :=
  forall_byte (P := fun c => ((48 ≤ toupper c ∧ toupper c ≤ 57) ∨ 65 ≤ toupper c ∧ toupper c ≤ 70) ↔ IsXdigit c)
    (by decide +kernel) c

theorem hexDigit_value (h : IsXdigit c) :
    (if toupper c ≤ 57 then (toupper c).toUInt32 - 48 else (toupper c).toUInt32 - 65 + 10).toNat = hexValue c ∧
      hexValue c < 16 :=
  forall_byte (P := fun c => IsXdigit c →
    (if toupper c ≤ 57 then (toupper c).toUInt32 - 48 else (toupper c).toUInt32 - 65 + 10).toNat = hexValue c ∧
      hexValue c < 16) (by decide +kernel) c h

/-- What a reading returns and stores. -/
def result (r : Bool × Nat) : Int × UInt32 := (if r.1 then 0 else -1, UInt32.ofNat r.2)

theorem result_stopped (v : UInt32) : result (false, v.toNat) = (-1, v) := by
  rw [result, UInt32.ofNat_toNat]
  rfl

theorem result_read (v : UInt32) : result (true, v.toNat) = (0, v) := by
  rw [result, UInt32.ofNat_toNat]
  rfl

/-- A loop reads a numeral if it goes on with the value of what it has read, and stops where there is no room. -/
theorem loop_eq_result {b : Nat} {digit : UInt8 → Nat} {isDigit : UInt8 → Prop} [DecidablePred isDigit]
    {loop : List UInt8 → UInt32 → Int × UInt32} (hend : ∀ v, loop [] v = (0, v))
    (hgoesOn : ∀ c l v, isDigit c → b * v.toNat + digit c ≤ maxWord →
      ∃ v', loop (c :: l) v = loop l v' ∧ v'.toNat = b * v.toNat + digit c)
    (hstops : ∀ c l v, ¬(isDigit c ∧ b * v.toNat + digit c ≤ maxWord) → loop (c :: l) v = (-1, v))
    (l : List UInt8) (v : UInt32) : loop l v = result (readNumeral b maxWord digit isDigit l v.toNat) := by
  induction l generalizing v with
  | nil => exact (hend v).trans (result_read v).symm
  | cons c l ih =>
    rw [readNumeral]
    by_cases h : isDigit c ∧ b * v.toNat + digit c ≤ maxWord
    · obtain ⟨v', hloop, hvalue⟩ := hgoesOn c l v h.1 h.2
      rw [if_pos h, hloop, ih, hvalue]
    · rw [if_neg h, hstops c l v h, result_stopped]

/-- The two comparisons of `atoul` ask whether there is room for the digit. -/
theorem decimal_room_iff (hc : IsDigit c) (v : UInt32) :
    (v < 429496729 ∨ v = 429496729 ∧ c < 54) ↔ 10 * v.toNat + decValue c ≤ maxWord := by
  have hlow : 48 ≤ c.toNat := hc.1
  have hhigh : c.toNat ≤ 57 := hc.2
  rw [UInt32.lt_iff_toNat_lt, ← UInt32.toNat_inj, UInt8.lt_iff_toNat_lt, decValue, maxWord]
  show (v.toNat < 429496729 ∨ v.toNat = 429496729 ∧ c.toNat < 54) ↔ _
  omega

theorem decimal_step (hc : IsDigit c) {v : UInt32} (hroom : 10 * v.toNat + decValue c ≤ maxWord) :
    (v * 10 + c.toUInt32 - 48).toNat = 10 * v.toNat + decValue c := by
  have hlow : 48 ≤ c.toNat := hc.1
  have hhigh : c.toNat ≤ 57 := hc.2
  rw [decValue, maxWord] at hroom
  rw [UInt32.toNat_sub, UInt32.toNat_add, UInt32.toNat_mul, UInt8.toNat_toUInt32, decValue]
  show (2 ^ 32 - 48 + (v.toNat * 10 % 2 ^ 32 + c.toNat) % 2 ^ 32) % 2 ^ 32 = _
  omega

theorem atoul_eq (l : List UInt8) (v : UInt32) :
    atoul l v = result (readNumeral 10 maxWord decValue IsDigit l v.toNat) := by
  refine loop_eq_result (fun _ => rfl) ?_ ?_ l v
  · intro c l v hc hroom
    refine ⟨_, ?_, decimal_step hc hroom⟩
    rw [atoul, if_pos ((toupper_isDigit_iff c).mpr hc), if_pos ((decimal_room_iff hc v).mpr hroom)]
  · intro c l v h
    rw [atoul]
    by_cases hc : IsDigit c
    · rw [if_pos ((toupper_isDigit_iff c).mpr hc), if_neg fun hroom => h ⟨hc, (decimal_room_iff hc v).mp hroom⟩]
    · rw [if_neg fun hdigit => hc ((toupper_isDigit_iff c).mp hdigit)]

theorem hex_room_iff (hc : IsXdigit c) (v : UInt32) : v < 0x10000000 ↔ 16 * v.toNat + hexValue c ≤ maxWord := by
  have hlt := (hexDigit_value hc).2
  rw [UInt32.lt_iff_toNat_lt, maxWord]
  show v.toNat < 268435456 ↔ _
  omega

theorem hex_step {d : UInt32} (hd : d.toNat = hexValue c) {v : UInt32} (hroom : 16 * v.toNat + hexValue c ≤ maxWord) :
    ((v <<< 4) + d).toNat = 16 * v.toNat + hexValue c := by
  rw [maxWord] at hroom
  rw [UInt32.toNat_add, UInt32.toNat_shiftLeft, hd]
  show (v.toNat <<< 4 % 2 ^ 32 + hexValue c) % 2 ^ 32 = _
  rw [Nat.shiftLeft_eq]
  omega

theorem atoulx_eq (l : List UInt8) (v : UInt32) :
    atoulx l v = result (readNumeral 16 maxWord hexValue IsXdigit l v.toNat) := by
  refine loop_eq_result (fun _ => rfl) ?_ ?_ l v
  · intro c l v hc hroom
    refine ⟨_, ?_, hex_step (hexDigit_value hc).1 hroom⟩
    rw [atoulx, if_pos ((toupper_isXdigit_iff c).mpr hc), if_pos ((hex_room_iff hc v).mpr hroom)]
  · intro c l v h
    rw [atoulx]
    by_cases hc : IsXdigit c
    · rw [if_pos ((toupper_isXdigit_iff c).mpr hc), if_neg fun hroom => h ⟨hc, (hex_room_iff hc v).mp hroom⟩]
    · rw [if_neg fun hdigit => hc ((toupper_isXdigit_iff c).mp hdigit)]

/-- The string is "0x" or "0X" with the digits behind it. -/
def HexForm (s digits : List UInt8) : Prop := ∃ x, (x = 120 ∨ x = 88) ∧ s = 48 :: x :: digits

/-- The number that a string denotes: decimal digits, or at least one hexadecimal digit behind "0x" or "0X". -/
def Denotes (s : List UInt8) (n : Nat) : Prop :=
  (∀ c ∈ s, IsDigit c) ∧ n = numeral 10 decValue s ∨
    ∃ digits, HexForm s digits ∧ digits ≠ [] ∧ (∀ c ∈ digits, IsXdigit c) ∧ n = numeral 16 hexValue digits

theorem hexForm_or (s : List UInt8) : (∃ digits, HexForm s digits) ∨ ∀ digits, ¬HexForm s digits := by
  by_cases h : ∃ digits, HexForm s digits
  · exact .inl h
  · exact .inr fun digits hdigits => h ⟨digits, hdigits⟩

theorem HexForm.unique {s digits digits' : List UInt8} (h : HexForm s digits) (h' : HexForm s digits') :
    digits = digits' := by
  obtain ⟨x, -, rfl⟩ := h
  obtain ⟨x', -, heq⟩ := h'
  exact (List.cons.inj (List.cons.inj heq).2).2

theorem HexForm.not_decimal {s digits : List UInt8} (h : HexForm s digits) : ¬∀ c ∈ s, IsDigit c := by
  obtain ⟨x, hx, rfl⟩ := h
  intro hall
  have hdigit : IsDigit x := hall x (List.mem_cons_of_mem _ List.mem_cons_self)
  obtain rfl | rfl := hx
  · exact absurd hdigit (by decide)
  · exact absurd hdigit (by decide)

theorem HexForm.denotes_iff {s digits : List UInt8} (h : HexForm s digits) :
    Denotes s n ↔ digits ≠ [] ∧ (∀ c ∈ digits, IsXdigit c) ∧ n = numeral 16 hexValue digits := by
  constructor
  · rintro (⟨hall, -⟩ | ⟨digits', hform, hdenotes⟩)
    · exact absurd hall h.not_decimal
    · rwa [h.unique hform]
  · exact fun hdenotes => .inr ⟨digits, h, hdenotes⟩

theorem denotes_iff_decimal {s : List UInt8} (h : ∀ digits, ¬HexForm s digits) :
    Denotes s n ↔ (∀ c ∈ s, IsDigit c) ∧ n = numeral 10 decValue s := by
  constructor
  · rintro (hdenotes | ⟨digits, hform, -⟩)
    · exact hdenotes
    · exact absurd hform (h digits)
  · exact .inl

theorem HexForm.strToNumber_eq {digits : List UInt8} (h : HexForm str.val digits) (pulValue : UInt32) :
    strToNumber str pulValue =
      if digits = [] then (-1, pulValue) else result (readNumeral 16 maxWord hexValue IsXdigit digits 0) := by
  obtain ⟨x, hx, hstr⟩ := h
  have hcode : atoulx digits 0 = result (readNumeral 16 maxWord hexValue IsXdigit digits 0) := atoulx_eq digits 0
  rw [← hcode]
  unfold strToNumber
  rw [hstr]
  exact if_pos ⟨rfl, hx⟩

theorem strToNumber_eq_decimal (h : ∀ digits, ¬HexForm str.val digits) (pulValue : UInt32) :
    strToNumber str pulValue = result (readNumeral 10 maxWord decValue IsDigit str.val 0) := by
  have hcode : atoul str.val 0 = result (readNumeral 10 maxWord decValue IsDigit str.val 0) := atoul_eq str.val 0
  rw [← hcode]
  unfold strToNumber
  split
  next first second digits hstr =>
    apply if_neg
    rintro ⟨rfl, hsecond⟩
    exact h digits ⟨second, hsecond, hstr⟩
  next => rfl

theorem result_fst_iff (r : Bool × Nat) : (result r).1 = 0 ↔ r.1 = true := by
  obtain ⟨done, v⟩ := r
  cases done
  · show (-1 : Int) = 0 ↔ false = true
    decide
  · exact ⟨fun _ => rfl, fun _ => rfl⟩

theorem result_fst_cases (r : Bool × Nat) : (result r).1 = 0 ∨ (result r).1 = -1 := by
  unfold result
  split
  · exact .inl rfl
  · exact .inr rfl

/-- A reading from zero accepts exactly the numerals that fit in a word, with their value. -/
theorem result_readNumeral_iff {b : Nat} (hb : 0 < b) (digit : UInt8 → Nat) (isDigit : UInt8 → Prop)
    [DecidablePred isDigit] (l : List UInt8) :
    ((result (readNumeral b maxWord digit isDigit l 0)).1 = 0 ↔
      (∀ c ∈ l, isDigit c) ∧ numeral b digit l ≤ maxWord) ∧
    ((result (readNumeral b maxWord digit isDigit l 0)).1 = 0 →
      (result (readNumeral b maxWord digit isDigit l 0)).2.toNat = numeral b digit l) := by
  rw [result_fst_iff]
  refine ⟨readNumeral_fst_iff hb, fun h => ?_⟩
  obtain ⟨hdigits, hfits⟩ := (readNumeral_fst_iff hb).mp h
  have hlead : Leading b maxWord digit isDigit l l [] :=
    ⟨(List.append_nil l).symm, hdigits, hfits, fun _ hc => by cases hc⟩
  rw [hlead.readNumeral_eq hb, result, UInt32.toNat_ofNat']
  rw [maxWord] at hfits
  omega

theorem strToNumber_fst_cases (str : Str) (pulValue : UInt32) :
    (strToNumber str pulValue).1 = 0 ∨ (strToNumber str pulValue).1 = -1 := by
  obtain ⟨digits, hform⟩ | hdecimal := hexForm_or str.val
  · rw [hform.strToNumber_eq]
    split
    · exact .inr rfl
    · exact result_fst_cases _
  · rw [strToNumber_eq_decimal hdecimal]
    exact result_fst_cases _

theorem strToNumber_accepts_iff (str : Str) (pulValue : UInt32) :
    (strToNumber str pulValue).1 = 0 ↔ ∃ n, n ≤ maxWord ∧ Denotes str.val n := by
  obtain ⟨digits, hform⟩ | hdecimal := hexForm_or str.val
  · simp only [hform.denotes_iff]
    rw [hform.strToNumber_eq]
    split
    next hnone =>
      refine ⟨fun h => ?_, ?_⟩
      · cases h
      · rintro ⟨n, -, hn⟩
        exact absurd hnone hn.1
    next hsome =>
      refine (result_readNumeral_iff (by decide) hexValue IsXdigit digits).1.trans ⟨fun h => ⟨_, h.2, hsome, h.1, rfl⟩, ?_⟩
      rintro ⟨n, hn, -, hdigits, rfl⟩
      exact ⟨hdigits, hn⟩
  · simp only [denotes_iff_decimal hdecimal]
    rw [strToNumber_eq_decimal hdecimal]
    refine (result_readNumeral_iff (by decide) decValue IsDigit str.val).1.trans ⟨fun h => ⟨_, h.2, h.1, rfl⟩, ?_⟩
    rintro ⟨n, hn, hdigits, rfl⟩
    exact ⟨hdigits, hn⟩

theorem strToNumber_value {pulValue : UInt32} (hdenotes : Denotes str.val n) (haccepts : (strToNumber str pulValue).1 = 0) :
    (strToNumber str pulValue).2.toNat = n := by
  obtain ⟨digits, hform⟩ | hdecimal := hexForm_or str.val
  · obtain ⟨hsome, -, rfl⟩ := hform.denotes_iff.mp hdenotes
    rw [hform.strToNumber_eq, if_neg hsome] at haccepts ⊢
    exact (result_readNumeral_iff (by decide) hexValue IsXdigit digits).2 haccepts
  · obtain ⟨-, rfl⟩ := (denotes_iff_decimal hdecimal).mp hdenotes
    rw [strToNumber_eq_decimal hdecimal] at haccepts ⊢
    exact (result_readNumeral_iff (by decide) decValue IsDigit str.val).2 haccepts

/-- `StrToNumber` accepts exactly the strings that denote a 32-bit number, and stores that number. -/
theorem strToNumber_exact (str : Str) (pulValue : UInt32) :
    ((strToNumber str pulValue).1 = 0 ↔ ∃ n, n ≤ 4294967295 ∧ Denotes str.val n) ∧
      ((strToNumber str pulValue).1 = 0 ∨ (strToNumber str pulValue).1 = -1) ∧
      ∀ n, Denotes str.val n → (strToNumber str pulValue).1 = 0 → (strToNumber str pulValue).2.toNat = n :=
  ⟨strToNumber_accepts_iff str pulValue, strToNumber_fst_cases str pulValue,
    fun _ hdenotes haccepts => strToNumber_value hdenotes haccepts⟩

end NvrxFirmware.MxGpioCtl
