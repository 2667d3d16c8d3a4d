import NvrxFirmware.CadenceModel
import NvrxFirmware.Runs
import NvrxFirmware.Windows

namespace NvrxFirmware.MxGpio

inductive InputMap
  | ipdefInput
  | almin1Input
  | almin2Input
  deriving DecidableEq, Repr

def InputMap.all : List InputMap := [.ipdefInput, .almin1Input, .almin2Input]

inductive PinStatus
  | pinLow
  | pinHigh
  | pinUnknown
  deriving DecidableEq, Repr

inductive InputStatus
  | inputInactive
  | inputActive
  | inputShort
  | inputOpen
  | inputUnknown
  deriving DecidableEq, Repr

def ipDefualtPin : Nat := gpioToPin 0 11
def almIn1Pin : Nat := gpioToPin 3 18
def almIn2Pin : Nat := gpioToPin 3 19

def inputPin : InputMap → Nat
  | .ipdefInput => ipDefualtPin
  | .almin1Input => almIn1Pin
  | .almin2Input => almIn2Pin

def inputSampleMaskVal : Nat := 0x1F
def allSamplesHigh : Nat := 0x1F
def allSamplesLow : Nat := 0

/-- `sampleVal` is a `UINT16`. -/
structure InputPinActivity where
  status : PinStatus
  sampleVal : Nat
  deriving DecidableEq, Repr

structure InputState where
  inputPinActivity : InputMap → InputPinActivity
  inputPinStatus : InputMap → InputStatus

/-- The pins are read as they stand in `gpio`. -/
def getHWInputStatus (gpio : Nat → Bool) (input : InputMap) : Nat := (gpio (inputPin input)).toNat

/-- The body of the first loop of `CheckInputPinStatus`, with `statusChangedF`. -/
def samplePin (level : Nat) (activity : InputPinActivity) : InputPinActivity × Bool :=
  let activity := { activity with sampleVal := (activity.sampleVal <<< 1 ||| level &&& 1) % 2 ^ 16 }
  if activity.sampleVal &&& inputSampleMaskVal = allSamplesHigh then
    if activity.status = .pinLow ∨ activity.status = .pinUnknown then ({ activity with status := .pinHigh }, true)
    else (activity, false)
  else if activity.sampleVal &&& inputSampleMaskVal = allSamplesLow then
    if activity.status = .pinHigh ∨ activity.status = .pinUnknown then ({ activity with status := .pinLow }, true)
    else (activity, false)
  else (activity, false)

def changeInputStatus (inputMap : InputMap) (s : InputState) : InputState :=
  { s with
    inputPinStatus := Function.update s.inputPinStatus inputMap
      (if (s.inputPinActivity inputMap).status = .pinLow then .inputInactive else .inputActive) }

def sampleInput (gpio : Nat → Bool) (s : InputState) (cnt : InputMap) : InputState :=
  { s with
    inputPinActivity := Function.update s.inputPinActivity cnt
      (samplePin (getHWInputStatus gpio cnt) (s.inputPinActivity cnt)).1 }

def checkInputPinStatus (gpio : Nat → Bool) (s : InputState) : InputState :=
  let statusChangedF := fun cnt => (samplePin (getHWInputStatus gpio cnt) (s.inputPinActivity cnt)).2
  let sampled := InputMap.all.foldl (sampleInput gpio) s
  InputMap.all.foldl (fun s cnt => if statusChangedF cnt then changeInputStatus cnt s else s) sampled

/-- What `GpioModInit` leaves: it sets both states of every input, and `sampleVal` is a static's zero. -/
def inputInit : InputState where
  inputPinActivity _ := ⟨.pinUnknown, 0⟩
  inputPinStatus _ := .inputUnknown

/-- The inputs after the poll timer has fired once for each of the samples. -/
def inputRun (samples : List (Nat → Bool)) : InputState :=
  samples.foldl (fun s gpio => checkInputPinStatus gpio s) inputInit

variable {s : InputState} {gpio : Nat → Bool} {input : InputMap} {activity : InputPinActivity} {level : Bool}
  {history : List Bool}

theorem sampleInputs (gpio : Nat → Bool) (s : InputState) : InputMap.all.foldl (sampleInput gpio) s =
    { s with
      inputPinActivity := fun input => (samplePin (getHWInputStatus gpio input) (s.inputPinActivity input)).1 } := by
  simp only [InputMap.all, List.foldl_cons, List.foldl_nil, sampleInput]
  congr 1
  funext input
  cases input <;> simp [Function.update]

theorem changeInputStatus_activity (flag : Bool) (cnt : InputMap) (s : InputState) :
    (if flag then changeInputStatus cnt s else s).inputPinActivity = s.inputPinActivity := by
  cases flag <;> rfl

theorem changeInputStatus_status (flag : Bool) (cnt input : InputMap) (s : InputState) :
    (if flag then changeInputStatus cnt s else s).inputPinStatus input =
      if flag = true ∧ input = cnt then
        if (s.inputPinActivity cnt).status = .pinLow then .inputInactive else .inputActive
      else s.inputPinStatus input := by
  cases flag <;> by_cases hi : input = cnt <;> simp [changeInputStatus, hi, Function.update]

theorem checkInputPinStatus_activity (gpio : Nat → Bool) (s : InputState) (input : InputMap) :
    (checkInputPinStatus gpio s).inputPinActivity input =
      (samplePin (getHWInputStatus gpio input) (s.inputPinActivity input)).1 := by
  simp only [checkInputPinStatus, sampleInputs]
  simp only [InputMap.all, List.foldl_cons, List.foldl_nil, changeInputStatus_activity]

theorem checkInputPinStatus_status (gpio : Nat → Bool) (s : InputState) (input : InputMap) :
    (checkInputPinStatus gpio s).inputPinStatus input =
      if (samplePin (getHWInputStatus gpio input) (s.inputPinActivity input)).2 then
        if (samplePin (getHWInputStatus gpio input) (s.inputPinActivity input)).1.status = .pinLow then .inputInactive
        else .inputActive
      else s.inputPinStatus input := by
  simp only [checkInputPinStatus, sampleInputs]
  simp only [InputMap.all, List.foldl_cons, List.foldl_nil, changeInputStatus_status, changeInputStatus_activity]
  cases input <;> simp

/-- What a window says about a pin, and what is reported of it. -/
def debouncedPin : Option Bool → PinStatus
  | some true => .pinHigh
  | some false => .pinLow
  | none => .pinUnknown

def debouncedStatus : Option Bool → InputStatus
  | some true => .inputActive
  | some false => .inputInactive
  | none => .inputUnknown

/-- The window that the register shows after the samples of an input, newest first. The zeros
of the unused register stand for samples before the first. -/
def registeredWindow (history : List Bool) : Option Bool := recentWindow 5 (history ++ List.replicate 4 false)

structure Debounced (history : List Bool) (activity : InputPinActivity) (reported : InputStatus) : Prop where
  register : ∀ i < 16, activity.sampleVal.testBit i = history.getD i false
  status : activity.status = debouncedPin (registeredWindow history)
  reported : reported = debouncedStatus (registeredWindow history)

/-- The last five samples are the same; before five samples the register's zeros count too. -/
def Full (level : Bool) (history : List Bool) : Prop := ∀ i < 5, (level :: history).getD i false = level

theorem full_iff : List.replicate 5 level <+: level :: (history ++ List.replicate 4 false) ↔ Full level history := by
  rw [replicate_prefix_iff]
  apply forall_congr'
  intro i
  apply imp_congr_right
  intro hi
  cases i with
  | zero => simp
  | succ i =>
    simp only [List.getElem?_cons_succ, List.getD_eq_getElem?_getD]
    by_cases hlen : i < history.length
    · simp [List.getElem?_append_left hlen, hlen]
    · have hpad : i - history.length < 4 := by omega
      have hnone : history[i]? = none := by simpa using hlen
      rw [List.getElem?_append_right (by omega), hnone, List.getElem?_replicate, if_pos hpad]
      simp

instance : Decidable (Full level history) := decidable_of_iff _ full_iff

theorem registeredWindow_full (h : Full level history) : registeredWindow (level :: history) = some level := by
  have hwindow := full_iff.mpr h
  exact if_pos hwindow

theorem registeredWindow_mixed (h : ¬Full level history) :
    registeredWindow (level :: history) = registeredWindow history := by
  have hwindow : ¬List.replicate 5 level <+: level :: (history ++ List.replicate 4 false) := by
    rwa [full_iff]
  exact if_neg hwindow

def shifted (sampleVal : Nat) (level : Bool) : Nat := (sampleVal <<< 1 ||| level.toNat) % 2 ^ 16

theorem shifted_testBit (h : ∀ i < 16, activity.sampleVal.testBit i = history.getD i false) (level : Bool) :
    ∀ i < 16, (shifted activity.sampleVal level).testBit i = (level :: history).getD i false := by
  intro i hi
  rw [shifted, testBit_shift]
  cases i with
  | zero => rfl
  | succ i => simpa [hi] using h i (by omega)

theorem shifted_mask_iff {val : Nat} (h : ∀ i < 16, val.testBit i = (level :: history).getD i false) (b : Bool) :
    val &&& inputSampleMaskVal = (if b then 2 ^ 5 - 1 else 0) ↔ b = level ∧ Full level history := by
  rw [show inputSampleMaskVal = 2 ^ 5 - 1 from rfl, land_mask_eq_iff]
  constructor
  · intro hall
    have hfirst : level = b := (h 0 (by omega)).symm.trans (hall 0 (by omega))
    refine ⟨hfirst.symm, ?_⟩
    intro i hi
    rw [← h i (by omega), hall i hi, hfirst]
  · rintro ⟨rfl, hfull⟩ i hi
    rw [h i (by omega)]
    exact hfull i hi

/-- The register and the status that one sample leaves, by what the last five samples are. -/
theorem samplePin_cases (h : ∀ i < 16, activity.sampleVal.testBit i = history.getD i false) (level : Bool) :
    (∀ i < 16, (shifted activity.sampleVal level).testBit i = (level :: history).getD i false) ∧
      samplePin level.toNat activity =
        (if Full level history ∧ activity.status ≠ debouncedPin (some level) then
          (⟨debouncedPin (some level), shifted activity.sampleVal level⟩, true)
        else (⟨activity.status, shifted activity.sampleVal level⟩, false)) := by
  have hregister := shifted_testBit h level
  refine ⟨hregister, ?_⟩
  have hhigh : shifted activity.sampleVal level &&& inputSampleMaskVal = allSamplesHigh ↔
      true = level ∧ Full level history := shifted_mask_iff hregister true
  have hlow : shifted activity.sampleVal level &&& inputSampleMaskVal = allSamplesLow ↔
      false = level ∧ Full level history := shifted_mask_iff hregister false
  have hvalue : (activity.sampleVal <<< 1 ||| level.toNat &&& 1) % 2 ^ 16 = shifted activity.sampleVal level := by
    cases level <;> rfl
  unfold samplePin
  rw [hvalue]
  dsimp only
  by_cases hfull : Full level history
  · cases level with
    | true =>
      rw [if_pos (hhigh.mpr ⟨rfl, hfull⟩)]
      cases hs : activity.status <;> simp [hfull, debouncedPin]
    | false =>
      rw [if_neg (by rw [hhigh]; simp), if_pos (hlow.mpr ⟨rfl, hfull⟩)]
      cases hs : activity.status <;> simp [hfull, debouncedPin]
  · rw [if_neg (by rw [hhigh]; simp [hfull]), if_neg (by rw [hlow]; simp [hfull])]
    simp [hfull]

theorem samplePin_debounced {reported : InputStatus} (h : Debounced history activity reported) (level : Bool) :
    Debounced (level :: history) (samplePin level.toNat activity).1
      (if (samplePin level.toNat activity).2 then
        if (samplePin level.toNat activity).1.status = .pinLow then .inputInactive else .inputActive
      else reported) := by
  obtain ⟨hregister, hsample⟩ := samplePin_cases h.register level
  rw [hsample]
  by_cases hfull : Full level history
  · have hwindow := registeredWindow_full hfull
    by_cases hsame : activity.status = debouncedPin (some level)
    · have hold : registeredWindow history = some level := by
        have hstatus := h.status.symm.trans hsame
        cases hr : registeredWindow history with
        | none => cases level <;> simp [hr, debouncedPin] at hstatus
        | some old => cases level <;> cases old <;> simp [hr, debouncedPin] at hstatus ⊢
      rw [if_neg (by simp [hsame])]
      refine ⟨hregister, ?_, ?_⟩
      · rw [hwindow]
        exact hsame
      · rw [hwindow, ← hold]
        exact h.reported
    · rw [if_pos ⟨hfull, hsame⟩]
      refine ⟨hregister, ?_, ?_⟩
      · rw [hwindow]
      · rw [hwindow]
        cases level <;> rfl
  · have hwindow := registeredWindow_mixed hfull
    rw [if_neg (by simp [hfull])]
    exact ⟨hregister, hwindow ▸ h.status, hwindow ▸ h.reported⟩

/-- The levels that an input has been sampled at, newest first. -/
def taken (input : InputMap) (samples : List (Nat → Bool)) : List Bool :=
  (samples.map fun gpio => gpio (inputPin input)).reverse

theorem inputRun_debounced (input : InputMap) (samples : List (Nat → Bool)) :
    Debounced (taken input samples) ((inputRun samples).inputPinActivity input)
      ((inputRun samples).inputPinStatus input) := by
  refine foldl_history (f := fun s gpio => checkInputPinStatus gpio s)
    (Q := fun samples s => Debounced (taken input samples) (s.inputPinActivity input) (s.inputPinStatus input))
    ⟨?_, rfl, rfl⟩ ?_ samples
  · intro i _
    simp [inputInit, taken]
  · intro past s gpio h
    have htaken : taken input (past ++ [gpio]) = gpio (inputPin input) :: taken input past := by simp [taken]
    rw [htaken, checkInputPinStatus_activity, checkInputPinStatus_status]
    exact samplePin_debounced h (gpio (inputPin input))

/-- The reported status is that of the most recent window of five equal samples, and unknown
before there is one. -/
structure Truthful (input : InputMap) (samples : List (Nat → Bool)) (reported : InputStatus) : Prop where
  window : ∀ level, MostRecentWindow 5 level (taken input samples) → reported = debouncedStatus (some level)
  unknown : (∀ level, ¬List.replicate 5 level <:+: taken input samples) → reported = .inputUnknown

theorem truthful_iff {samples : List (Nat → Bool)} {reported : InputStatus} : Truthful input samples reported ↔
    reported = debouncedStatus (recentWindow 5 (taken input samples)) := by
  constructor
  · intro h
    cases hwindow : recentWindow 5 (taken input samples) with
    | none => exact h.unknown (recentWindow_eq_none_iff.mp hwindow)
    | some level => exact h.window level (recentWindow_eq_some_iff.mp hwindow)
  · intro h
    constructor
    · intro level hrecent
      rw [h, recentWindow_eq_some_iff.mpr hrecent]
    · intro hnone
      rw [h, recentWindow_eq_none_iff.mpr hnone]
      rfl

theorem taken_getLast? {samples : List (Nat → Bool)} :
    (taken input samples).getLast? = samples.head?.map fun gpio => gpio (inputPin input) := by
  simp [taken]

theorem taken_window_iff {samples : List (Nat → Bool)} : (∀ level, ¬List.replicate 5 level <:+: taken input samples) ↔
    ∀ level, ¬List.replicate 5 level <:+: samples.map fun gpio => gpio (inputPin input) := by
  apply forall_congr'
  intro level
  have hrev : List.replicate 5 level <:+: (samples.map fun gpio => gpio (inputPin input)).reverse ↔
      List.replicate 5 level <:+: samples.map fun gpio => gpio (inputPin input) := by
    rw [← List.reverse_infix, List.reverse_replicate, List.reverse_reverse]
  exact not_congr hrev

/-- The zeros of the unused register count as samples: a first sample that is low is reported
at once, and wrongly until five equal samples have been taken. -/
theorem debounce_iff (input : InputMap) (samples : List (Nat → Bool)) :
    Truthful input samples ((inputRun samples).inputPinStatus input) ↔
      (∀ gpio, samples.head? = some gpio → gpio (inputPin input) = true) ∨
        ∃ level, List.replicate 5 level <:+: samples.map fun gpio => gpio (inputPin input) := by
  have hreported := (inputRun_debounced input samples).reported
  rw [registeredWindow, recentWindow_padded, taken_getLast?] at hreported
  rw [truthful_iff, hreported]
  cases hwindow : recentWindow 5 (taken input samples) with
  | some level =>
    have hsome : ∃ level, List.replicate 5 level <:+: samples.map fun gpio => gpio (inputPin input) := by
      by_contra hnone
      have htaken := taken_window_iff.mpr (not_exists.mp hnone)
      rw [recentWindow_eq_none_iff.mpr htaken] at hwindow
      exact absurd hwindow (by simp)
    exact iff_of_true rfl (.inr hsome)
  | none =>
    have hnone := taken_window_iff.mp (recentWindow_eq_none_iff.mp hwindow)
    have hnone' : ¬∃ level, List.replicate 5 level <:+: samples.map fun gpio => gpio (inputPin input) :=
      not_exists.mpr hnone
    rw [or_iff_left hnone', Option.none_or]
    cases samples with
    | nil => simp
    | cons gpio later => cases hfirst : gpio (inputPin input) <;> simp [hfirst, debouncedStatus]

theorem first_low_sample_reported : ¬∀ (input : InputMap) (samples : List (Nat → Bool)),
    Truthful input samples ((inputRun samples).inputPinStatus input) := by
  intro h
  have hone := h .ipdefInput [fun _ => false]
  rw [truthful_iff] at hone
  exact absurd hone (by decide)

end NvrxFirmware.MxGpio
