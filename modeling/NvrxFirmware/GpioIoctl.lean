import NvrxFirmware.CadenceSteps
import Mathlib.Tactic.SplitIfs

namespace NvrxFirmware.MxGpio

/-- The commands of `GpioIoctl` that hand one word from user space to a setter. -/
inductive SetCommand
  | setBuzzer
  | setAlmout
  | setFanctl
  | setUsbpower
  | setStsled
  | setCadence
  deriving DecidableEq, Repr

def buzzerSet : Nat := 0
def buzzerClear : Nat := 1
def almoutSet : Nat := 0
def almoutClear : Nat := 1
def fan1On : Nat := 0
def fan2On : Nat := 1
def allfanOn : Nat := 2
def fan1Off : Nat := 3
def fan2Off : Nat := 4
def allfanOff : Nat := 5
def usb3powerOn : Nat := 0
def usb2power1On : Nat := 1
def usb2power2On : Nat := 2
def allusbpowerOn : Nat := 3
def usb3powerOff : Nat := 4
def usb2power1Off : Nat := 5
def usb2power2Off : Nat := 6
def usballpowerOff : Nat := 7
def redledOn : Nat := 0
def redledOff : Nat := 1
def greenledOn : Nat := 2
def greenledOff : Nat := 3
def orangeledOn : Nat := 4
def orangeledOff : Nat := 5

/-- The pin macros; the USB and fan controls are active low. -/
def setBuzzerPin (status : Bool) (s : DrvState) : DrvState := gpioSetValue buzzerGpioPin status s
def setGreenLedPin (status : Bool) (s : DrvState) : DrvState := gpioSetValue greenLedGpioPin status s
def setRedLedPin (status : Bool) (s : DrvState) : DrvState := gpioSetValue redLedGpioPin status s
def setUsbCtrlPin (status : Bool) (s : DrvState) : DrvState := gpioSetValue usb2Pwren0Pin (!status) s
def setAlmRelayCtrlPin (status : Bool) (s : DrvState) : DrvState := gpioSetValue almRlyCntlPin status s
def setFan1CtrlPin (status : Bool) (s : DrvState) : DrvState := gpioSetValue fanCtl1Pin (!status) s
def setFan2CtrlPin (status : Bool) (s : DrvState) : DrvState := gpioSetValue fanCtl2Pin (!status) s

def setBuzzer (state : UInt8) (s : DrvState) : Int × DrvState :=
  if state.toNat = buzzerSet then (0, setBuzzerPin true s)
  else if state.toNat = buzzerClear then (0, setBuzzerPin false s)
  else (-1, s)

def setAlarmOut (data : UInt32) (s : DrvState) : Int × DrvState :=
  if data.toNat = almoutSet then (0, setAlmRelayCtrlPin true s)
  else if data.toNat = almoutClear then (0, setAlmRelayCtrlPin false s)
  else (-1, s)

def setFanOut (data : UInt32) (s : DrvState) : Int × DrvState :=
  if data.toNat = fan1On then (0, setFan1CtrlPin true s)
  else if data.toNat = fan2On then (0, setFan2CtrlPin true s)
  else if data.toNat = allfanOn then (0, setFan2CtrlPin true (setFan1CtrlPin true s))
  else if data.toNat = fan1Off then (0, setFan1CtrlPin false s)
  else if data.toNat = fan2Off then (0, setFan2CtrlPin false s)
  else if data.toNat = allfanOff then (0, setFan2CtrlPin false (setFan1CtrlPin false s))
  else (-1, s)

/-- The cases of the two ports that the board lacks are commented out. -/
def setUSBPower (data : UInt32) (s : DrvState) : Int × DrvState :=
  if data.toNat = usb2power1On then (0, setUsbCtrlPin true s)
  else if data.toNat = allusbpowerOn then (0, setUsbCtrlPin true s)
  else if data.toNat = usb2power1Off then (0, setUsbCtrlPin false s)
  else if data.toNat = usballpowerOff then (0, setUsbCtrlPin false s)
  else (-1, s)

def setLed (state : UInt8) (s : DrvState) : Int × DrvState :=
  if state.toNat = redledOn then (0, setRedLedPin true s)
  else if state.toNat = redledOff then (0, setRedLedPin false s)
  else if state.toNat = greenledOn then (0, setGreenLedPin true s)
  else if state.toNat = greenledOff then (0, setGreenLedPin false s)
  else if state.toNat = orangeledOn then (0, setGreenLedPin true (setRedLedPin true s))
  else if state.toNat = orangeledOff then (0, setGreenLedPin false (setRedLedPin false s))
  else (-1, s)

/-- `GpioIoctl` on these commands, where `none` is a word that `copy_from_user` cannot read. The
buzzer and the LED setter take a `UINT8`. -/
def gpioSetIoctl (cmd : SetCommand) (arg : Option UInt32) (s : DrvState) : Int × DrvState :=
  match arg with
  | none => (-1, s)
  | some state =>
    match cmd with
    | .setBuzzer => setBuzzer state.toUInt8 s
    | .setAlmout => setAlarmOut state s
    | .setFanctl => setFanOut state s
    | .setUsbpower => setUSBPower state s
    | .setStsled => setLed state.toUInt8 s
    | .setCadence => ioctlSetCadence state s

/-- The values that the header enumerates for a command. -/
def enumerated : SetCommand → List Nat
  | .setBuzzer => [buzzerSet, buzzerClear]
  | .setAlmout => [almoutSet, almoutClear]
  | .setFanctl => [fan1On, fan2On, allfanOn, fan1Off, fan2Off, allfanOff]
  | .setUsbpower => [usb3powerOn, usb2power1On, usb2power2On, allusbpowerOn, usb3powerOff, usb2power1Off,
      usb2power2Off, usballpowerOff]
  | .setStsled => [redledOn, redledOff, greenledOn, greenledOff, orangeledOn, orangeledOff]
  | .setCadence => List.range nvrxRespMax

/-- The value that the command's setter receives for the word. -/
def received (cmd : SetCommand) (state : UInt32) : Nat :=
  match cmd with
  | .setBuzzer | .setStsled | .setCadence => state.toNat % 2 ^ 8
  | .setAlmout | .setFanctl | .setUsbpower => state.toNat

variable {s : DrvState} {cmd : SetCommand} {state : UInt32}

theorem gpioSetIoctl_rejects (h : received cmd state ∉ enumerated cmd) :
    gpioSetIoctl cmd (some state) s = (-1, s) := by
  cases cmd with
  | setCadence =>
    apply ioctlSetCadence_rejects
    simpa [enumerated, received, setResponse] using h
  | setBuzzer => simp_all [gpioSetIoctl, setBuzzer, enumerated, received]
  | setAlmout => simp_all [gpioSetIoctl, setAlarmOut, enumerated, received]
  | setFanctl => simp_all [gpioSetIoctl, setFanOut, enumerated, received]
  | setUsbpower => simp_all [gpioSetIoctl, setUSBPower, enumerated, received]
  | setStsled => simp_all [gpioSetIoctl, setLed, enumerated, received]

theorem setBuzzer_accepts {state : UInt8} (h : state.toNat ∈ enumerated .setBuzzer) : (setBuzzer state s).1 = 0 := by
  unfold setBuzzer
  split_ifs with hset hclear
  · rfl
  · rfl
  · simp [enumerated, hset, hclear] at h

theorem setAlarmOut_accepts (h : state.toNat ∈ enumerated .setAlmout) : (setAlarmOut state s).1 = 0 := by
  unfold setAlarmOut
  split_ifs with hset hclear
  · rfl
  · rfl
  · simp [enumerated, hset, hclear] at h

theorem setFanOut_accepts (h : state.toNat ∈ enumerated .setFanctl) : (setFanOut state s).1 = 0 := by
  simp only [enumerated, List.mem_cons, List.not_mem_nil, or_false] at h
  unfold setFanOut
  split_ifs
  any_goals rfl
  omega

theorem setLed_accepts {state : UInt8} (h : state.toNat ∈ enumerated .setStsled) : (setLed state s).1 = 0 := by
  simp only [enumerated, List.mem_cons, List.not_mem_nil, or_false] at h
  unfold setLed
  split_ifs
  any_goals rfl
  omega

/-- Of the values enumerated for the USB power only four are handled. -/
theorem gpioSetIoctl_accepts (hcmd : cmd ≠ .setUsbpower) (h : received cmd state ∈ enumerated cmd) :
    (gpioSetIoctl cmd (some state) s).1 = 0 := by
  cases cmd with
  | setUsbpower => exact absurd rfl hcmd
  | setCadence =>
    have hlt : setResponse state < nvrxRespMax := by simpa [enumerated, received, setResponse] using h
    exact congrArg Prod.fst (ioctlSetCadence_fills hlt)
  | setBuzzer => exact setBuzzer_accepts h
  | setAlmout => exact setAlarmOut_accepts h
  | setFanctl => exact setFanOut_accepts h
  | setStsled => exact setLed_accepts h

/-- A word that the header does not enumerate is rejected without effect exactly if what is left
of it in the setter's parameter is not enumerated either. -/
theorem out_of_range_rejected_iff (s : DrvState) (cmd : SetCommand) (state : UInt32)
    (h : state.toNat ∉ enumerated cmd) :
    (gpioSetIoctl cmd (some state) s).1 < 0 ∧ (gpioSetIoctl cmd (some state) s).2 = s ↔
      received cmd state ∉ enumerated cmd := by
  constructor
  · rintro ⟨hneg, _⟩ hmem
    have hcmd : cmd ≠ .setUsbpower := by
      rintro rfl
      exact h hmem
    have hzero := gpioSetIoctl_accepts (s := s) hcmd hmem
    omega
  · intro hout
    rw [gpioSetIoctl_rejects hout]
    refine ⟨?_, rfl⟩
    show (-1 : Int) < 0
    omega

theorem out_of_range_rejected_iff_of_300 :
    (gpioSetIoctl .setCadence (some 300) (gpioModInit fun _ => false)).1 < 0 ∧
        (gpioSetIoctl .setCadence (some 300) (gpioModInit fun _ => false)).2 = gpioModInit (fun _ => false) ↔
      received .setCadence 300 ∉ enumerated .setCadence :=
  out_of_range_rejected_iff (gpioModInit fun _ => false) .setCadence 300 (by decide)

theorem word_of_257_accepted : ¬∀ (s : DrvState) (cmd : SetCommand) (state : UInt32),
    state.toNat ∉ enumerated cmd →
      (gpioSetIoctl cmd (some state) s).1 < 0 ∧ (gpioSetIoctl cmd (some state) s).2 = s := by
  intro h
  have hcadence := h (gpioModInit fun _ => false) .setCadence 257 (by decide)
  exact absurd hcadence.1 (by decide)

end NvrxFirmware.MxGpio
