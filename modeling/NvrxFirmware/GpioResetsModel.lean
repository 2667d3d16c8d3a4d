import NvrxFirmware.GpioDriverModel

namespace NvrxFirmware.MxGpio

/-- The line that a request is to reset. -/
def resetRequest : DriverOp → Option ResetLine
  | .gpioIoctl .setClrPhy (some _) => some .phy
  | .gpioIoctl .setClrPhy2 (some _) => some .phy2
  | .gpioIoctl .setClrAsmRst (some _) => some .asm
  | .valueStore .phyrst _ => some .phy
  | .valueStore .phyrst2 _ => some .phy2
  | .valueStore .asmrst _ => some .asm
  | _ => none

/-- The functions of the attributes hold a mutex during the call, `GpioIoctl` does not. -/
def locksMutex : DriverOp → Bool
  | .valueStore _ _ => true
  | _ => false

/-- What a call that has found `is_pin_init` unset does next. -/
inductive Pulse
  | drivesLow
  | drivesHigh
  | setsFlag
  deriving DecidableEq, Repr

/-- What a call does next. -/
inductive ResetPhase
  | locks
  | tests
  | pulses (pulse : Pulse)
  | leaves
  | returned
  deriving DecidableEq, Repr

/-- A call of `phy_power_on_off`, `phy2_power_on_off` or `asm_power_on_off`. -/
structure ResetCall where
  line : ResetLine
  mutex : Bool
  phase : ResetPhase
  deriving DecidableEq, Repr

/-- The driver with the calls that have been made, each of which is somewhere on its way. -/
structure Resets where
  driver : Driver
  locked : ResetLine → Bool
  calls : List ResetCall

def resetsInit (gpio : Nat → Bool) : Resets := ⟨driverInit gpio, fun _ => false, []⟩

/-- A request, or the next step of a call, which spends milliseconds between its steps. -/
inductive ResetOp
  | request (op : DriverOp)
  | advance (call : Nat)

def Resets.goTo (s : Resets) (call : Nat) (phase : ResetPhase) : Resets :=
  { s with calls := s.calls.modify call fun c => { c with phase := phase } }

def ResetCall.writes (c : ResetCall) : List PinWrite :=
  match c.phase with
  | .pulses .drivesLow => [(resetPin c.line, false)]
  | .pulses .drivesHigh => [(resetPin c.line, true)]
  | _ => []

def Resets.drive (s : Resets) (c : ResetCall) : Resets :=
  { s with driver := s.driver.setDrv (s.driver.drv.write c.writes) }

/-- The next step of the call. One that has to wait for the mutex tries again. -/
def Resets.advance (s : Resets) (call : Nat) (c : ResetCall) : Resets :=
  match c.phase with
  | .locks =>
    if s.locked c.line then s else { s.goTo call .tests with locked := Function.update s.locked c.line true }
  | .tests => s.goTo call (if s.driver.resetDone c.line = false then .pulses .drivesLow else .leaves)
  | .pulses .drivesLow => (s.drive c).goTo call (.pulses .drivesHigh)
  | .pulses .drivesHigh => (s.drive c).goTo call (.pulses .setsFlag)
  | .pulses .setsFlag =>
    { s.goTo call .leaves with
      driver := { s.driver with resetDone := Function.update s.driver.resetDone c.line true } }
  | .leaves =>
    { s.goTo call .returned with locked := if c.mutex then Function.update s.locked c.line false else s.locked }
  | .returned => s

/-- The requests for a line's reset only begin a call here; all others are done at once. -/
def resetsStep (s : Resets) : ResetOp → Resets
  | .request op =>
    match resetRequest op with
    | none => { s with driver := driverStep s.driver op }
    | some line => { s with calls := s.calls ++ [⟨line, locksMutex op, if locksMutex op then .locks else .tests⟩] }
  | .advance call =>
    match s.calls[call]? with
    | none => s
    | some c => s.advance call c

def resetsRun (gpio : Nat → Bool) (ops : List ResetOp) : Resets := ops.foldl resetsStep (resetsInit gpio)

/-- The levels that the calls drive on the line. -/
def resetLevels (line : ResetLine) (s : Resets) : ResetOp → List Bool
  | .request _ => []
  | .advance call =>
    match s.calls[call]? with
    | none => []
    | some c => if c.line = line then c.writes.map Prod.snd else []

/-- What the call is about to do on the line. -/
def pulseOn (line : ResetLine) (c : ResetCall) : Option Pulse :=
  if c.line = line then
    match c.phase with
    | .pulses pulse => some pulse
    | _ => none
  else none

/-- A call finds the flag unset while another one is pulsing the line. -/
def Overtakes (line : ResetLine) (s : Resets) : ResetOp → Prop
  | .request _ => False
  | .advance call =>
    s.driver.resetDone line = false ∧ (∃ c ∈ s.calls, (pulseOn line c).isSome) ∧
      ∃ c ∈ s.calls[call]?, c.line = line ∧ c.phase = .tests

end NvrxFirmware.MxGpio
