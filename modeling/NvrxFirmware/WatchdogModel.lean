import NvrxFirmware.Runs
import Mathlib.Logic.Function.Basic

namespace NvrxFirmware.Watchdog

def gpioToPin (bank gpio : Nat) : Nat := 32 * bank + gpio

def wdtEnPin : Nat := gpioToPin 2 1
def wdtKickPin : Nat := gpioToPin 2 2
def watchdogTimeout : Nat := 600

def ioctlWatchdogToggle : UInt32 := 0x5701

/-- The driver's globals, the pin levels and whether `wdtTimer` is pending. -/
structure WdtState where
  isSystemRunning : Bool
  wdtPinStatus : Bool
  wdtTimeOutCount : Nat
  wdtTimer : Bool
  gpio : Nat → Bool

def gpioSetValue (pin : Nat) (level : Bool) (s : WdtState) : WdtState :=
  { s with gpio := Function.update s.gpio pin level }

/-- The first half of `wdt_Tasklet`: toggle the pin and reload the timer. -/
def kickIfRunning (s : WdtState) : WdtState :=
  if s.isSystemRunning then
    if s.wdtPinStatus = false then
      gpioSetValue wdtKickPin true { s with wdtPinStatus := true, wdtTimer := true }
    else gpioSetValue wdtKickPin false { s with wdtPinStatus := false, wdtTimer := true }
  else s

/-- The second half: on expiry the system counts as hung and the count starts over. -/
def countDown (s : WdtState) : WdtState :=
  if s.wdtTimeOutCount ≠ 0 then
    if s.wdtTimeOutCount - 1 = 0 then { s with isSystemRunning := false, wdtTimeOutCount := watchdogTimeout }
    else { s with wdtTimeOutCount := s.wdtTimeOutCount - 1 }
  else s

/-- The expired timer is no longer pending when its handler runs. -/
def wdtTasklet (s : WdtState) : WdtState := countDown (kickIfRunning { s with wdtTimer := false })

def wdtInit (s : WdtState) : WdtState :=
  let s := { s with isSystemRunning := true, wdtTimeOutCount := watchdogTimeout, wdtTimer := true }
  let s := gpioSetValue wdtEnPin false s
  gpioSetValue wdtKickPin true { s with wdtPinStatus := true }

def watchdogIoctl (cmd : UInt32) (s : WdtState) : Int × WdtState :=
  if cmd = ioctlWatchdogToggle then (1, { s with wdtTimeOutCount := watchdogTimeout }) else (0, s)

def watchdogOpen (s : WdtState) : Int × WdtState := (0, wdtInit s)

def wdtClose (s : WdtState) : Int × WdtState := (0, s)

/-- `watchdog_init` on the globals of the freshly loaded module. -/
def watchdogInit (gpio : Nat → Bool) : WdtState where
  isSystemRunning := true
  wdtPinStatus := false
  wdtTimeOutCount := 0
  wdtTimer := false
  gpio := Function.update (Function.update gpio wdtEnPin true) wdtKickPin true

inductive WdtOp
  | watchdogOpen
  | watchdogIoctl (cmd : UInt32)
  | wdtClose
  | wdtTasklet
  deriving DecidableEq, Repr

def wdtStep (s : WdtState) : WdtOp → WdtState
  | .watchdogOpen => (watchdogOpen s).2
  | .watchdogIoctl cmd => (watchdogIoctl cmd s).2
  | .wdtClose => (wdtClose s).2
  | .wdtTasklet => wdtTasklet s

/-- The timer's handler runs only when the timer was pending. -/
def CanOccur (s : WdtState) (op : WdtOp) : Prop := op = .wdtTasklet → s.wdtTimer = true

instance (s : WdtState) (op : WdtOp) : Decidable (CanOccur s op) := inferInstanceAs (Decidable (_ → _))

def wdtRun (gpio : Nat → Bool) (ops : List WdtOp) : WdtState := ops.foldl wdtStep (watchdogInit gpio)

end NvrxFirmware.Watchdog
