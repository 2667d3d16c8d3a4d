import NvrxFirmware.CadenceStatus
import NvrxFirmware.GpioIoctl
import NvrxFirmware.ModuleResources
import NvrxFirmware.MxGpioCtlModel
import NvrxFirmware.Numerals

namespace NvrxFirmware.MxGpio

open MxGpioCtl (Request)

def inputPins : List Nat :=
  [ipDefualtPin, almIn1Pin, almIn2Pin, cardType0Pin, cardType1Pin, cardType2Pin, cardType3Pin,
   boardVer0Pin, boardVer1Pin, boardVer2Pin, boardVer3Pin]

/-- The chips whose reset lines the driver pulses. -/
inductive ResetLine
  | phy
  | phy2
  | asm
  deriving DecidableEq, Repr

def resetPin : ResetLine → Nat
  | .phy => phy0RstPin
  | .phy2 => phy1RstPin
  | .asm => asmRstPin

/-- All of the driver's state: `resetDone` is the static `is_pin_init` of the three functions. -/
structure Driver where
  drv : DrvState
  inputs : InputState
  resetDone : ResetLine → Bool

def driverInit (gpio : Nat → Bool) : Driver := ⟨gpioModInit gpio, inputInit, fun _ => false⟩

/-- What `gpio_set_value` is called with. -/
abbrev PinWrite := Nat × Bool

def DrvState.write (s : DrvState) (writes : List PinWrite) : DrvState :=
  writes.foldl (fun s w => gpioSetValue w.1 w.2 s) s

/-- The first call pulses the line, whatever it is asked for. -/
def resetWrites (line : ResetLine) (d : Driver) : List PinWrite :=
  if d.resetDone line = false then [(resetPin line, false), (resetPin line, true)] else []

def powerOnOff (line : ResetLine) (_state : UInt32) (d : Driver) : Int × Driver :=
  (0, { d with drv := d.drv.write (resetWrites line d), resetDone := Function.update d.resetDone line true })

def phyPowerOnOff : UInt32 → Driver → Int × Driver := powerOnOff .phy
def phy2PowerOnOff : UInt32 → Driver → Int × Driver := powerOnOff .phy2
def asmPowerOnOff : UInt32 → Driver → Int × Driver := powerOnOff .asm

def Driver.setDrv (d : Driver) (drv : DrvState) : Driver := { d with drv := drv }

/-- The attributes that can be written. -/
inductive Attribute
  | buzzer
  | almout
  | fanctl1
  | fanctl2
  | usb2power1
  | redled
  | greenled
  | phyrst
  | phyrst2
  | asmrst
  deriving DecidableEq, Repr

/-- The blanks of the kernel, which count the no-break space. -/
def isSpace (c : UInt8) : Bool := (9 ≤ c ∧ c ≤ 13) ∨ c = 32 ∨ c = 160

def isDigit (c : UInt8) : Bool := 48 ≤ c ∧ c ≤ 57

/-- `sscanf(buf, "%u", &value)`, where `value` is 0 before; the number wraps. -/
def sscanfU (buf : List UInt8) : UInt32 :=
  .ofNat (numeral 10 (fun c : UInt8 => c.toNat - 48) ((buf.dropWhile isSpace).takeWhile isDigit))

/-- The `_value_store` functions. All but the one of the alarm output take 1 for `ACTIVE` and the rest for `INACTIVE`. -/
def valueStore (attr : Attribute) (buf : List UInt8) (d : Driver) : Driver :=
  let value := sscanfU buf
  match attr with
  | .buzzer => d.setDrv (setBuzzerPin (value = 1) d.drv)
  | .almout => d.setDrv (gpioSetValue almRlyCntlPin (value ≠ 0) d.drv)
  | .fanctl1 => d.setDrv (setFan1CtrlPin (value = 1) d.drv)
  | .fanctl2 => d.setDrv (setFan2CtrlPin (value = 1) d.drv)
  | .usb2power1 => d.setDrv (setUsbCtrlPin (value = 1) d.drv)
  | .redled => d.setDrv (setRedLedPin (value = 1) d.drv)
  | .greenled => d.setDrv (setGreenLedPin (value = 1) d.drv)
  | .phyrst => (phyPowerOnOff value d).2
  | .phyrst2 => (phy2PowerOnOff value d).2
  | .asmrst => (asmPowerOnOff value d).2

/-- What an ioctl copies to user space. -/
inductive Answer
  | inputStatus (status : InputMap → InputStatus)
  | cadSts (row : CadRow)
  | word (value : Nat)

/-- Four pins as a number, the first one as its lowest bit. -/
def pinNumber (gpio : Nat → Bool) (pin0 pin1 pin2 pin3 : Nat) : Nat :=
  (gpio pin0).toNat ||| (gpio pin1).toNat <<< 1 ||| (gpio pin2).toNat <<< 2 ||| (gpio pin3).toNat <<< 3

/-- A command that copies its answer to user space, which fails where the address cannot be written. -/
def copyAnswer (arg : Option UInt32) (answer : Answer) (d : Driver) : Int × Option Answer × Driver :=
  if arg.isSome then (0, some answer, d) else (-1, none, d)

def setIoctl (cmd : SetCommand) (arg : Option UInt32) (d : Driver) : Int × Option Answer × Driver :=
  let (retValue, drv) := gpioSetIoctl cmd arg d.drv
  (retValue, none, d.setDrv drv)

def resetIoctl (line : ResetLine) (arg : Option UInt32) (d : Driver) : Int × Option Answer × Driver :=
  match arg with
  | none => (-1, none, d)
  | some state =>
    let (retValue, d) := powerOnOff line state d
    (retValue, none, d)

/-- `GpioIoctl`, with the word at the argument's address, `none` where that cannot be accessed. -/
def gpioIoctl (cmd : Request) (arg : Option UInt32) (d : Driver) : Int × Option Answer × Driver :=
  match cmd with
  | .setBuzzer => setIoctl .setBuzzer arg d
  | .setAlmout => setIoctl .setAlmout arg d
  | .setFanctl => setIoctl .setFanctl arg d
  | .setUsbpower => setIoctl .setUsbpower arg d
  | .setStsled => setIoctl .setStsled arg d
  | .setCadence => setIoctl .setCadence arg d
  | .clrCadence =>
    match arg with
    | none => (-1, none, d)
    | some word =>
      let (retValue, drv) := clearCadence (word.toNat % 2 ^ 16) (word.toNat / 2 ^ 16) d.drv
      (retValue, none, d.setDrv drv)
  | .getAllInput => copyAnswer arg (.inputStatus d.inputs.inputPinStatus) d
  | .getCoretempe => (-1, none, d)
  | .getCadSts => copyAnswer arg (.cadSts (d.drv.buzLedCadence d.drv.currentPriority)) d
  | .getBuzSts =>
    let sts := ioctlGetBuzSts (fun _ => arg.isSome) d.drv
    (sts.retValue, sts.state.map .word, d)
  | .getCardType =>
    copyAnswer arg (.word (pinNumber d.drv.gpio cardType0Pin cardType1Pin cardType2Pin cardType3Pin)) d
  | .getBoardVersion =>
    copyAnswer arg (.word (pinNumber d.drv.gpio boardVer0Pin boardVer1Pin boardVer2Pin boardVer3Pin)) d
  | .setClrPhy => resetIoctl .phy arg d
  | .setClrPhy2 => resetIoctl .phy2 arg d
  | .setClrAsmRst => resetIoctl .asm arg d

/-- What reaches the driver: requests from user space, its timers, and a level on an input pin. -/
inductive DriverOp
  | gpioIoctl (cmd : Request) (arg : Option UInt32)
  | valueStore (attr : Attribute) (buf : List UInt8)
  | procBuzLedCad
  | syncBuzLedCad
  | checkInputPinStatus
  | level (pin : { pin // pin ∈ inputPins }) (high : Bool)

def driverStep (d : Driver) : DriverOp → Driver
  | .gpioIoctl cmd arg => (gpioIoctl cmd arg d).2.2
  | .valueStore attr buf => valueStore attr buf d
  | .procBuzLedCad => d.setDrv (procBuzLedCad d.drv)
  | .syncBuzLedCad => d.setDrv (syncBuzLedCad d.drv)
  | .checkInputPinStatus => { d with inputs := checkInputPinStatus d.drv.gpio d.inputs }
  | .level pin high => d.setDrv (gpioSetValue pin high d.drv)

def driverRun (gpio : Nat → Bool) (ops : List DriverOp) : Driver := ops.foldl driverStep (driverInit gpio)

end NvrxFirmware.MxGpio
