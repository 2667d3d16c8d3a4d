import NvrxFirmware.MxGpioCtlNumbers
import Mathlib.Tactic.IntervalCases

namespace NvrxFirmware.MxGpioCtl

open Pppd (IsDigit IsXdigit hexValue)

variable {d : Drivers} {str name a v : Str} {cmd value : UInt32} {n : Nat}

/-- What `StrToNumber` leaves behind: the number that the longest beginning denotes which fits in a word, and
nothing for a bare "0x". -/
def Stores (s : List UInt8) (pulValue n : Nat) : Prop :=
  HexForm s [] ∧ n = pulValue ∨
    (∃ digits read rest, HexForm s digits ∧ digits ≠ [] ∧ Leading 16 maxWord hexValue IsXdigit digits read rest ∧
      n = numeral 16 hexValue read) ∨
    (∀ digits, ¬HexForm s digits) ∧ ∃ read rest, Leading 10 maxWord decValue IsDigit s read rest ∧
      n = numeral 10 decValue read

theorem result_leading {b : Nat} {digit : UInt8 → Nat} {isDigit : UInt8 → Prop} [DecidablePred isDigit] (hb : 0 < b)
    {l read rest : List UInt8} (h : Leading b maxWord digit isDigit l read rest) :
    (result (readNumeral b maxWord digit isDigit l 0)).2.toNat = numeral b digit read := by
  have hfits := h.fits
  rw [maxWord] at hfits
  rw [h.readNumeral_eq hb, result, UInt32.toNat_ofNat']
  omega

theorem Stores.toNat_eq (pulValue : UInt32) (h : Stores str.val pulValue.toNat n) :
    (strToNumber str pulValue).2.toNat = n := by
  obtain ⟨hbare, rfl⟩ | ⟨digits, read, rest, hform, hsome, hlead, rfl⟩ | ⟨hdecimal, read, rest, hlead, rfl⟩ := h
  · rw [hbare.strToNumber_eq, if_pos rfl]
  · rw [hform.strToNumber_eq, if_neg hsome, result_leading (by decide) hlead]
  · rw [strToNumber_eq_decimal hdecimal, result_leading (by decide) hlead]

theorem stores_strToNumber (str : Str) (pulValue : UInt32) :
    Stores str.val pulValue.toNat (strToNumber str pulValue).2.toNat := by
  obtain ⟨digits, hform⟩ | hdecimal := hexForm_or str.val
  · by_cases hsome : digits = []
    · subst hsome
      left
      rw [hform.strToNumber_eq, if_pos rfl]
      exact ⟨hform, rfl⟩
    · obtain ⟨read, rest, hlead⟩ := exists_leading 16 maxWord hexValue IsXdigit digits
      right
      left
      rw [hform.strToNumber_eq, if_neg hsome, result_leading (by decide) hlead]
      exact ⟨digits, read, rest, hform, hsome, hlead, rfl⟩
  · obtain ⟨read, rest, hlead⟩ := exists_leading 10 maxWord decValue IsDigit str.val
    right
    right
    rw [strToNumber_eq_decimal hdecimal, result_leading (by decide) hlead]
    exact ⟨hdecimal, read, rest, hlead, rfl⟩

theorem gpioIoctl_eq_nil_iff (cmd value : UInt32) : gpioIoctl cmd value = [] ↔ 18 ≤ cmd.toNat := by
  unfold gpioIoctl
  generalize cmd.toNat = k
  by_cases hk : k < 18
  · interval_cases k <;> simp
  · obtain ⟨j, rfl⟩ : ∃ j, k = j + 18 := ⟨k - 18, by omega⟩
    exact ⟨fun _ => Nat.le_add_left 18 j, fun _ => rfl⟩

/-- No command reaches a driver. -/
theorem main_eq_nil_iff {argv : List Str} (hargs : arguments argv = some (cmd, value)) :
    (∀ passes, main argv d passes = []) ↔
      d.gpioOpens = false ∨ 18 < cmd.toNat ∨ cmd.toNat = 18 ∧ d.watchdogOpens = false := by
  have hcmd : cmd = 18 ↔ cmd.toNat = 18 := by rw [← UInt32.toNat_inj]; rfl
  unfold main
  rw [hargs]
  dsimp only
  cases hgpio : d.gpioOpens with
  | false => simp
  | true =>
    by_cases h18 : cmd = 18
    · have hn := hcmd.mp h18
      cases hwatchdog : d.watchdogOpens with
      | false => simp [h18]
      | true =>
        constructor
        · intro h
          have hone := h 1
          simp [h18, toggleLoop] at hone
        · rintro (h | h | ⟨-, h⟩)
          · cases h
          · omega
          · cases h
    · have hn : cmd.toNat ≠ 18 := fun h => h18 (hcmd.mpr h)
      simp only [if_true, if_neg h18, gpioIoctl_eq_nil_iff]
      constructor
      · intro h
        have hle := h 0
        right
        left
        omega
      · rintro (h | h | ⟨h, -⟩) _
        · cases h
        · omega
        · exact absurd h hn

/-- With an argument that `StrToNumber` rejects, nothing is requested from a driver. -/
def RequestsNothing (argv : List Str) (d : Drivers) : Prop :=
  (∃ name cmd, argv = [name, cmd] ∧ (strToNumber cmd 15).1 = -1) ∨
    (∃ name cmd value, argv = [name, cmd, value] ∧
      ((strToNumber cmd 15).1 = -1 ∨ (strToNumber value 0xFFFFFFFF).1 = -1)) →
  ∀ passes, main argv d passes = []

/-- With two arguments that `StrToNumber` accepts, commands 6 and 7 hand the second number over as it is. -/
def HandsOver (argv : List Str) (d : Drivers) : Prop :=
  ∀ name cmd value number, argv = [name, cmd, value] → strToNumber value 0xFFFFFFFF = (0, number) →
    ∀ passes, ∀ request ∈ main argv d passes,
      (strToNumber cmd 15 = (0, 6) → ∃ led buz, request = .gpio .clrCadence (.resp led buz) ∧
        led.toNat = number.toNat) ∧
      (strToNumber cmd 15 = (0, 7) → ∃ led buz, request = .gpio .clrCadence (.resp led buz) ∧
        buz.toNat = number.toNat)

/-- The string denotes a number of 32 bits. -/
def IsNumber (s : Str) : Prop := ∃ n, n ≤ maxWord ∧ Denotes s.val n

/-- What is left of the command reaches no driver: none opens for it, or it is none of the commands. -/
def Inert (cmd : Str) (d : Drivers) : Prop :=
  d.gpioOpens = false ∨ ∃ n, Stores cmd.val 15 n ∧ (18 < n ∨ n = 18 ∧ d.watchdogOpens = false)

/-- The arguments with which `main` does what it should. -/
def Harmless (argv : List Str) (d : Drivers) : Prop :=
  match argv with
  | [_, cmd] => ¬IsNumber cmd → Inert cmd d
  | [_, cmd, value] =>
    (¬IsNumber cmd ∨ ¬IsNumber value → Inert cmd d) ∧
      (Denotes cmd.val 6 ∨ Denotes cmd.val 7 → ∀ n, n ≤ maxWord → Denotes value.val n →
        n < 65536 ∨ d.gpioOpens = false)
  | _ => True

theorem strToNumber_rejects_iff (str : Str) (pulValue : UInt32) :
    (strToNumber str pulValue).1 = -1 ↔ ¬IsNumber str := by
  rw [IsNumber, ← strToNumber_accepts_iff str pulValue]
  obtain h | h := strToNumber_fst_cases str pulValue
  · rw [h]
    decide
  · rw [h]
    decide

theorem strToNumber_eq_iff (str : Str) (pulValue number : UInt32) :
    strToNumber str pulValue = (0, number) ↔ Denotes str.val number.toNat := by
  constructor
  · intro h
    have haccepts : (strToNumber str pulValue).1 = 0 := by rw [h]
    obtain ⟨n, -, hn⟩ := (strToNumber_accepts_iff str pulValue).mp haccepts
    have hvalue := strToNumber_value hn haccepts
    rw [h] at hvalue
    rwa [hvalue]
  · intro h
    have haccepts := (strToNumber_accepts_iff str pulValue).mpr ⟨_, Nat.le_of_lt_succ number.toNat_lt, h⟩
    exact Prod.ext haccepts (UInt32.toNat_inj.mp (strToNumber_value h haccepts))

theorem inert_iff {argv : List Str} (hargs : arguments argv = some ((strToNumber str 15).2, value)) :
    (∀ passes, main argv d passes = []) ↔ Inert str d := by
  rw [main_eq_nil_iff hargs, Inert]
  have hstores := stores_strToNumber str 15
  apply or_congr_right
  constructor
  · exact fun h => ⟨_, hstores, h⟩
  · rintro ⟨n, hn, h⟩
    rwa [Stores.toNat_eq 15 hn]

theorem main_clrCadence {argv : List Str} (hargs : arguments argv = some (cmd, value)) (hgpio : d.gpioOpens = true)
    (passes : Nat) :
    (cmd = 6 → main argv d passes = [.gpio .clrCadence (.resp value.toUInt16 respNone)]) ∧
      (cmd = 7 → main argv d passes = [.gpio .clrCadence (.resp respNone value.toUInt16)]) := by
  unfold main
  rw [hargs]
  dsimp only
  rw [if_pos hgpio]
  constructor
  · rintro rfl
    rfl
  · rintro rfl
    rfl

theorem main_of_closed {argv : List Str} (hgpio : d.gpioOpens = false) (passes : Nat) : main argv d passes = [] := by
  unfold main
  split
  next => rfl
  next => rw [hgpio]; rfl

/-- A word of 16 bits holds a number exactly if it is small enough. -/
theorem toUInt16_toNat_eq_iff (value : UInt32) : value.toUInt16.toNat = value.toNat ↔ value.toNat < 65536 := by
  rw [UInt32.toNat_toUInt16]
  omega

/-- The field of the request that takes the number hands it over as it is exactly if it is small enough. -/
theorem handedOver_iff {argv : List Str} {led buz : UInt16} (field : UInt16 → UInt16 → UInt16)
    (hmain : ∀ passes, main argv d passes = [.gpio .clrCadence (.resp led buz)])
    (hfield : field led buz = value.toUInt16) :
    (∀ passes, ∀ request ∈ main argv d passes, ∃ led buz,
      request = .gpio .clrCadence (.resp led buz) ∧ (field led buz).toNat = value.toNat) ↔ value.toNat < 65536 := by
  rw [← toUInt16_toNat_eq_iff, ← hfield]
  constructor
  · intro h
    obtain ⟨led', buz', heq, hfound⟩ := h 0 _ (hmain 0 ▸ List.mem_singleton_self _)
    cases heq
    exact hfound
  · intro h passes request hrequest
    rw [hmain passes, List.mem_singleton] at hrequest
    exact ⟨_, _, hrequest, h⟩

theorem arguments_eq {number : UInt32} (ha : strToNumber a 15 = (0, cmd))
    (hv : strToNumber v 0xFFFFFFFF = (0, number)) : arguments [name, a, v] = some (cmd, number) := by
  rw [arguments, ha, hv]

theorem handsOver_iff : HandsOver [name, a, v] d ↔
    (Denotes a.val 6 ∨ Denotes a.val 7 → ∀ n, n ≤ maxWord → Denotes v.val n → n < 65536 ∨ d.gpioOpens = false) := by
  cases hgpio : d.gpioOpens with
  | false =>
    constructor
    · exact fun _ _ _ _ _ => .inr rfl
    · rintro - name' a' v' number - - passes request hrequest
      rw [main_of_closed hgpio] at hrequest
      cases hrequest
  | true =>
    have hled {argv : List Str} {number : UInt32} (hargs : arguments argv = some (6, number)) (passes : Nat) :=
      (main_clrCadence hargs hgpio passes).1 rfl
    have hbuz {argv : List Str} {number : UInt32} (hargs : arguments argv = some (7, number)) (passes : Nat) :=
      (main_clrCadence hargs hgpio passes).2 rfl
    constructor
    · intro h hcmd n hn hv
      left
      obtain ⟨number, rfl⟩ : ∃ number : UInt32, n = number.toNat := by
        refine ⟨UInt32.ofNat n, ?_⟩
        rw [maxWord] at hn
        rw [UInt32.toNat_ofNat']
        omega
      have hnumber := (strToNumber_eq_iff v 0xFFFFFFFF number).mpr hv
      obtain h6 | h7 := hcmd
      · have hsix := (strToNumber_eq_iff a 15 6).mpr h6
        apply (handedOver_iff (fun led _ => led) (hled (arguments_eq hsix hnumber)) rfl).mp
        exact fun passes request hrequest => (h name a v number rfl hnumber passes request hrequest).1 hsix
      · have hseven := (strToNumber_eq_iff a 15 7).mpr h7
        apply (handedOver_iff (fun _ buz => buz) (hbuz (arguments_eq hseven hnumber)) rfl).mp
        exact fun passes request hrequest => (h name a v number rfl hnumber passes request hrequest).2 hseven
    · rintro h name' a' v' number heq hnumber passes request hrequest
      cases heq
      have hsmall (hcmd : Denotes a.val 6 ∨ Denotes a.val 7) : number.toNat < 65536 := by
        have hv := (strToNumber_eq_iff v 0xFFFFFFFF number).mp hnumber
        obtain hlt | hclosed := h hcmd number.toNat (Nat.le_of_lt_succ number.toNat_lt) hv
        · exact hlt
        · cases hclosed
      constructor
      · intro hsix
        have hlt := hsmall (.inl ((strToNumber_eq_iff a 15 6).mp hsix))
        exact (handedOver_iff (fun led _ => led) (hled (arguments_eq hsix hnumber)) rfl).mpr hlt passes request hrequest
      · intro hseven
        have hlt := hsmall (.inr ((strToNumber_eq_iff a 15 7).mp hseven))
        exact (handedOver_iff (fun _ buz => buz) (hbuz (arguments_eq hseven hnumber)) rfl).mpr hlt passes request
          hrequest

theorem requestsNothing_one_iff : RequestsNothing [name, a] d ↔ (¬IsNumber a → Inert a d) := by
  have hinert : (∀ passes, main [name, a] d passes = []) ↔ Inert a d := inert_iff rfl
  rw [RequestsNothing, hinert]
  constructor
  · intro h hrejects
    exact h (.inl ⟨name, a, rfl, (strToNumber_rejects_iff a 15).mpr hrejects⟩)
  · rintro h (⟨name', a', heq, hrejects⟩ | ⟨name', a', v', heq, -⟩)
    · cases heq
      exact h ((strToNumber_rejects_iff a 15).mp hrejects)
    · cases heq

theorem requestsNothing_two_iff : RequestsNothing [name, a, v] d ↔ (¬IsNumber a ∨ ¬IsNumber v → Inert a d) := by
  have hinert : (∀ passes, main [name, a, v] d passes = []) ↔ Inert a d := inert_iff rfl
  rw [RequestsNothing, hinert]
  constructor
  · intro h hrejects
    refine h (.inr ⟨name, a, v, rfl, ?_⟩)
    rwa [strToNumber_rejects_iff, strToNumber_rejects_iff]
  · rintro h (⟨name', a', heq, -⟩ | ⟨name', a', v', heq, hrejects⟩)
    · cases heq
    · cases heq
      rw [strToNumber_rejects_iff, strToNumber_rejects_iff] at hrejects
      exact h hrejects

theorem handsOver_of_length_ne {argv : List Str} (h : argv.length ≠ 3) : HandsOver argv d := by
  rintro name cmd value number rfl
  exact absurd rfl h

/-- `main` acts on well-formed arguments only, and hands the number over, exactly under this condition. -/
theorem main_harmless_iff (argv : List Str) (d : Drivers) :
    RequestsNothing argv d ∧ HandsOver argv d ↔ Harmless argv d := by
  match argv with
  | [name, cmd] =>
    rw [requestsNothing_one_iff, and_iff_left (handsOver_of_length_ne (by simp))]
    rfl
  | [name, cmd, value] =>
    rw [requestsNothing_two_iff, handsOver_iff]
    rfl
  | [] | [_] | _ :: _ :: _ :: _ :: _ =>
    refine ⟨fun _ => trivial, fun _ => ⟨?_, handsOver_of_length_ne (by simp)⟩⟩
    rintro (⟨_, _, heq, -⟩ | ⟨_, _, _, heq, -⟩)
    · cases heq
    · cases heq

/-- The drivers, open to everything that is requested. -/
def openDrivers : Drivers := ⟨true, true, fun _ => 0⟩

def sixArgv : List Str := [.ofChars [], .ofChars ['6'], .ofChars ['6', '5', '5', '3', '6']]

/-- "abc" switches the buzzer, a bare "0x" sets the pin of the first PHY, and "65536" becomes the idle response. -/
theorem malformed_arguments_act :
    main [.ofChars [], .ofChars ['a', 'b', 'c']] openDrivers 1 = [.gpio .setBuzzer (.word 0xFFFFFFFF)] ∧
    main [.ofChars [], .ofChars ['0', 'x']] openDrivers 1 = [.gpio .setClrPhy (.word 0xFFFFFFFF)] ∧
    main sixArgv openDrivers 1 = [.gpio .clrCadence (.resp 0 respNone)] ∧
    ¬RequestsNothing [.ofChars [], .ofChars ['a', 'b', 'c']] openDrivers ∧
    ¬RequestsNothing [.ofChars [], .ofChars ['0', 'x']] openDrivers ∧ ¬HandsOver sixArgv openDrivers := by
  refine ⟨by decide +kernel, by decide +kernel, by decide +kernel, fun h => ?_, fun h => ?_, fun h => ?_⟩
  · have hnil := h (.inl ⟨_, _, rfl, by decide +kernel⟩) 1
    exact absurd hnil (by decide +kernel)
  · have hnil := h (.inl ⟨_, _, rfl, by decide +kernel⟩) 1
    exact absurd hnil (by decide +kernel)
  · have hrequest : Ioctl.gpio .clrCadence (.resp 0 respNone) ∈ main sixArgv openDrivers 1 := by decide +kernel
    obtain ⟨led, buz, heq, hled⟩ := (h _ _ _ 65536 rfl (by decide +kernel) 1 _ hrequest).1 (by decide +kernel)
    cases heq
    exact absurd hled (by decide)

end NvrxFirmware.MxGpioCtl
