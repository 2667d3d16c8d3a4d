import NvrxFirmware.CadenceTables
import Mathlib.Logic.Function.Basic

namespace NvrxFirmware.MxGpio

structure BuzLedCad where
  buzLedCad : Nat
  noOfCycles : Nat
  cadPosition : Nat
  cadBits : Nat
  accessResp : Nat
  deriving DecidableEq, Repr

abbrev CadRow := BuzzerLed → BuzLedCad

def gpioToPin (bank gpio : Nat) : Nat := 32 * bank + gpio

def asmRstPin : Nat := gpioToPin 0 22
def phy0RstPin : Nat := gpioToPin 2 27
def phy1RstPin : Nat := gpioToPin 2 25
def buzzerGpioPin : Nat := gpioToPin 0 5
def almRlyCntlPin : Nat := gpioToPin 0 15
def fanCtl1Pin : Nat := gpioToPin 1 29
def fanCtl2Pin : Nat := gpioToPin 1 30
def usb2Pwren0Pin : Nat := gpioToPin 3 16
def redLedGpioPin : Nat := gpioToPin 0 23
def greenLedGpioPin : Nat := gpioToPin 0 16

def buzLedPin : BuzzerLed → Nat
  | .buzzer => buzzerGpioPin
  | .redLed => redLedGpioPin
  | .greenLed => greenLedGpioPin

/-- The driver's globals that the cadence engine reads or writes, and the pin levels (`true` is `HIGH`). -/
structure DrvState where
  buzLedCadence : Nat → CadRow
  currentPriority : Nat
  isBuzLedFillInProg : Bool
  gpio : Nat → Bool

def gpioSetValue (pin : Nat) (level : Bool) (s : DrvState) : DrvState :=
  { s with gpio := Function.update s.gpio pin level }

def DrvState.modRow (s : DrvState) (row : Nat) (f : CadRow → CadRow) : DrvState :=
  { s with buzLedCadence := Function.update s.buzLedCadence row (f (s.buzLedCadence row)) }

/-- The inner loop of `UpdateCadPriority` finds an unfinished output in the row. -/
def rowUnfinished (row : CadRow) : Bool :=
  BuzzerLed.all.any fun output => 0 < (row output).noOfCycles

def updateCadPriority (s : DrvState) : DrvState :=
  match (List.range (maxPriority + 1)).find? fun jobPriority => rowUnfinished (s.buzLedCadence jobPriority) with
  | some jobPriority => { s with currentPriority := jobPriority }
  | none => s

/-- The sync timer that `FillStructOfLedBuz` and `ClearCadence` start only ever
fires `SyncBuzLedCad`; its firing is an operation of its own below. -/
def fillStructOfLedBuz (accessResp : Nat) (output : BuzzerLed) (s : DrvState) : DrvState :=
  if accessResp < nvrxRespMax then
    let s := { s with isBuzLedFillInProg := true }
    updateCadPriority <| s.modRow (accessRespCadPriority accessResp) fun row =>
      Function.update row output
        { accessResp := accessResp
          buzLedCad := accessRespCadMap accessResp output
          noOfCycles := accessRespCadCycles accessResp output
          cadBits := accessRespCadBits accessResp output
          cadPosition := 0 }
  else s

def setLedCad (accessResp : Nat) (s : DrvState) : Int × DrvState :=
  if nvrxRespMax ≤ accessResp then (-1, s)
  else (0, fillStructOfLedBuz accessResp .greenLed (fillStructOfLedBuz accessResp .redLed s))

def setBuzzerCad (accessResp : Nat) (s : DrvState) : Int × DrvState :=
  if nvrxRespMax < accessResp then (-1, s)
  else (0, fillStructOfLedBuz accessResp .buzzer s)

/-- The `MXGPIO_SET_CADENCE` branch of `GpioIoctl`. `NVRX_RESPONSE_e` is a `UINT8`,
so the calls truncate the word copied from user space. -/
def ioctlSetCadence (state : UInt32) (s : DrvState) : Int × DrvState :=
  let (retValue, s) := setLedCad (state.toNat % 2 ^ 8) s
  if retValue < 0 then (retValue, s)
  else
    let (retValue, s) := setBuzzerCad (state.toNat % 2 ^ 8) s
    if retValue < 0 then (retValue, s) else (0, s)

/-- The pattern, bit count and position that every branch of `ClearCadence` writes. -/
def BuzLedCad.off (c : BuzLedCad) (noOfCycles : Nat) : BuzLedCad :=
  { c with buzLedCad := cadOff, cadBits := cadOffCadBits, cadPosition := 0, noOfCycles := noOfCycles }

def BuzLedCad.stop (c : BuzLedCad) : BuzLedCad := { c with noOfCycles := 0 }

/-- Loop body of the LED clears: one silent cycle for the LED, and a buzzer that
has nothing to play is stopped. -/
def silenceLed (row : CadRow) (output : BuzzerLed) : CadRow :=
  if (row .buzzer).buzLedCad = cadOff then
    Function.update (Function.update row output ((row output).off 1)) .buzzer (row .buzzer).stop
  else Function.update row output ((row output).off 1)

/-- Body of the buzzer clears: one silent cycle for the buzzer, and LEDs that
have nothing to play are stopped. -/
def silenceBuzzer (row : CadRow) : CadRow :=
  let off := Function.update row .buzzer ((row .buzzer).off 1)
  if (row .redLed).buzLedCad = cadOff ∧ (row .greenLed).buzLedCad = cadOff then
    Function.update (Function.update off .redLed (row .redLed).stop) .greenLed (row .greenLed).stop
  else off

/-- `NVRX_RESP_PRESENT`: the output is stopped without a silent cycle. -/
def cancelOutput (row : CadRow) (output : BuzzerLed) : CadRow :=
  Function.update row output ((row output).off 0)

def clearLedCadence (ledCadResp : Nat) (s : DrvState) : DrvState :=
  if ledCadResp < nvrxRespMax then
    s.modRow (accessRespCadPriority ledCadResp) fun row =>
      BuzzerLed.leds.foldl
        (fun row output => if (row output).accessResp = ledCadResp then silenceLed row output else row) row
  else if ledCadResp = nvrxRespAll then
    (List.range maxPriority).foldl (fun s acPro => s.modRow acPro (BuzzerLed.leds.foldl silenceLed)) s
  else if ledCadResp = nvrxRespPresent then
    s.modRow s.currentPriority (BuzzerLed.leds.foldl cancelOutput)
  else s

def clearBuzCadence (buzCadResp : Nat) (s : DrvState) : DrvState :=
  if buzCadResp < nvrxRespMax then
    s.modRow (accessRespCadPriority buzCadResp) fun row =>
      if (row .buzzer).accessResp = buzCadResp then silenceBuzzer row else row
  else if buzCadResp = nvrxRespAll then
    (List.range maxPriority).foldl (fun s acPro => s.modRow acPro silenceBuzzer) s
  else if buzCadResp = nvrxRespPresent then
    s.modRow s.currentPriority fun row => cancelOutput row .buzzer
  else s

def clearCadence (ledCadResp buzCadResp : Nat) (s : DrvState) : Int × DrvState :=
  let s := { s with isBuzLedFillInProg := true }
  (0, updateCadPriority (clearBuzCadence buzCadResp (clearLedCadence ledCadResp s)))

def syncBuzLedCad (s : DrvState) : DrvState := { s with isBuzLedFillInProg := false }

/-- A cadence at its end restarts, and only now counts the cycle it has played. -/
def BuzLedCad.wrap (c : BuzLedCad) : BuzLedCad :=
  if c.cadBits ≤ c.cadPosition then
    { c with
      cadPosition := 0
      noOfCycles := if c.noOfCycles ≠ infiniteCycle then c.noOfCycles - 1 else c.noOfCycles }
  else c

/-- One output in the first loop of `ProcBuzLedCad`: the cell it leaves and the level it drives, if any. -/
def playCell (c : BuzLedCad) : BuzLedCad × Option Bool :=
  if 0 < c.noOfCycles then
    let c := c.wrap
    if 0 < c.noOfCycles then
      ({ c with cadPosition := (c.cadPosition + 1) % 2 ^ 8 }, some (c.buzLedCad.testBit c.cadPosition))
    else (c, none)
  else (c, none)

def setBuzLedPinStatus (output : BuzzerLed) (status : Bool) (s : DrvState) : DrvState :=
  gpioSetValue (buzLedPin output) status s

def playOutput (s : DrvState) (output : BuzzerLed) : DrvState :=
  let played := playCell (s.buzLedCadence s.currentPriority output)
  let s := s.modRow s.currentPriority fun row => Function.update row output played.1
  match played.2 with
  | some status => setBuzLedPinStatus output status s
  | none => s

/-- The second loop of `ProcBuzLedCad`: stops at the first unfinished output,
and rewinds the finished ones before it. The flag is `IsNextCad`. -/
def rewindFinished : List BuzzerLed → CadRow → CadRow × Bool
  | [], row => (row, true)
  | output :: rest, row =>
    if 0 < (row output).noOfCycles then (row, false)
    else rewindFinished rest (Function.update row output { row output with cadPosition := 0 })

def procBuzLedCad (s : DrvState) : DrvState :=
  if s.isBuzLedFillInProg = false then
    let s := BuzzerLed.all.foldl playOutput s
    let (row, isNextCad) := rewindFinished BuzzerLed.all (s.buzLedCadence s.currentPriority)
    let s := s.modRow s.currentPriority fun _ => row
    if isNextCad then updateCadPriority s else s
  else s

def registerGPIOPin (gpio : Nat → Bool) : Nat → Bool :=
  [(almRlyCntlPin, false), (usb2Pwren0Pin, false), (greenLedGpioPin, false), (redLedGpioPin, false),
   (buzzerGpioPin, false), (asmRstPin, true), (fanCtl1Pin, true), (fanCtl2Pin, true),
   (phy0RstPin, true), (phy1RstPin, true)].foldl
    (fun gpio (pin, level) => Function.update gpio pin level) gpio

def loadedState (gpio : Nat → Bool) : DrvState where
  buzLedCadence _ _ := ⟨0, 0, 0, 0, 0⟩
  currentPriority := maxPriority
  isBuzLedFillInProg := false
  gpio := gpio

/-- `GpioModInit` as far as the cadence engine is concerned. Its loop over the cells tests
`JobPriority >= MAX_PRIORITY` from `JobPriority = 0`, so it clears nothing. -/
def gpioModInit (gpio : Nat → Bool) : DrvState :=
  let s := loadedState (registerGPIOPin gpio)
  (setBuzzerCad nvrxIdleResp (setLedCad nvrxIdleResp s).2).2

inductive CadOp
  | setCadence (state : UInt32)
  | clrCadence (ledCadResp buzCadResp : UInt16)
  | procBuzLedCad
  | syncBuzLedCad
  deriving DecidableEq, Repr

def cadStep (s : DrvState) : CadOp → DrvState
  | .setCadence state => (ioctlSetCadence state s).2
  | .clrCadence led buz => (clearCadence led.toNat buz.toNat s).2
  | .procBuzLedCad => procBuzLedCad s
  | .syncBuzLedCad => syncBuzLedCad s

def cadRun (gpio : Nat → Bool) (ops : List CadOp) : DrvState :=
  ops.foldl cadStep (gpioModInit gpio)

end NvrxFirmware.MxGpio
