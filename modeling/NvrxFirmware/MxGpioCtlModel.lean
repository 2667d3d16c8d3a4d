import NvrxFirmware.CStrings
import NvrxFirmware.CadenceTables

namespace NvrxFirmware.MxGpioCtl

def toupper (c : UInt8) : UInt8 := if 97 ≤ c ∧ c ≤ 122 then c - 32 else c

/-- The loop of `atoul` with the result so far: what it returns, and what it stores. -/
def atoul : List UInt8 → UInt32 → Int × UInt32
  | [], ulResult => (0, ulResult)
  | c :: str, ulResult =>
    let ch := toupper c
    if 48 ≤ ch ∧ ch ≤ 57 then
      if ulResult < 429496729 ∨ ulResult = 429496729 ∧ c < 54 then atoul str (ulResult * 10 + c.toUInt32 - 48)
      else (-1, ulResult)
    else (-1, ulResult)

/-- The loop of `atoulx` with the result so far. -/
def atoulx : List UInt8 → UInt32 → Int × UInt32
  | [], ulResult => (0, ulResult)
  | c :: str, ulResult =>
    let ch := toupper c
    if (48 ≤ ch ∧ ch ≤ 57) ∨ 65 ≤ ch ∧ ch ≤ 70 then
      if ulResult < 0x10000000 then
        atoulx str ((ulResult <<< 4) + (if ch ≤ 57 then ch.toUInt32 - 48 else ch.toUInt32 - 65 + 10))
      else (-1, ulResult)
    else (-1, ulResult)

/-- `StrToNumber`: what it returns, and `*pulValue`, which a bare "0x" leaves as it is. -/
def strToNumber (str : Str) (pulValue : UInt32) : Int × UInt32 :=
  match str.val with
  | first :: second :: digits =>
    if first = 48 ∧ (second = 120 ∨ second = 88) then
      if digits = [] then (-1, pulValue) else atoulx digits 0
    else atoul str.val 0
  | _ => atoul str.val 0

/-- The requests to the GPIO driver. -/
inductive Request
  | setBuzzer
  | setAlmout
  | setFanctl
  | setUsbpower
  | setStsled
  | setCadence
  | clrCadence
  | getAllInput
  | getCoretempe
  | getCadSts
  | getBuzSts
  | getCardType
  | getBoardVersion
  | setClrPhy
  | setClrPhy2
  | setClrAsmRst
  deriving DecidableEq, Repr

/-- What a request points to: `value`, `__buzLedResp`, or an array for the driver to fill. -/
inductive Arg
  | word (value : UInt32)
  | resp (ledCadResp buzCadResp : UInt16)
  | inputStatus
  | cadSts
  deriving DecidableEq, Repr

inductive Ioctl
  | gpio (request : Request) (arg : Arg)
  | watchdogToggle
  deriving DecidableEq, Repr

def respNone : UInt16 := UInt16.ofNat MxGpio.nvrxRespNone
def respPresent : UInt16 := UInt16.ofNat MxGpio.nvrxRespPresent

/-- The switch of `main`, but for the command that goes to the watchdog. -/
def gpioIoctl (cmd value : UInt32) : List Ioctl :=
  match cmd.toNat with
  | 0 => [.gpio .setBuzzer (.word value)]
  | 1 => [.gpio .setAlmout (.word value)]
  | 2 => [.gpio .setFanctl (.word value)]
  | 3 => [.gpio .setUsbpower (.word value)]
  | 4 => [.gpio .setStsled (.word value)]
  | 5 => [.gpio .setCadence (.word value)]
  | 6 => [.gpio .clrCadence (.resp value.toUInt16 respNone)]
  | 7 => [.gpio .clrCadence (.resp respNone value.toUInt16)]
  | 8 => [.gpio .getAllInput .inputStatus]
  | 9 => [.gpio .getCoretempe (.word value)]
  | 10 => [.gpio .getCadSts .cadSts]
  | 11 => [.gpio .getCardType (.word value)]
  | 12 => [.gpio .getBuzSts (.word value)]
  | 13 => [.gpio .clrCadence (.resp respPresent respPresent)]
  | 14 => [.gpio .getBoardVersion (.word value)]
  | 15 => [.gpio .setClrPhy (.word value)]
  | 16 => [.gpio .setClrPhy2 (.word value)]
  | 17 => [.gpio .setClrAsmRst (.word value)]
  | _ => []

/-- The drivers: whether they can be opened, and what the watchdog answers to each toggle. -/
structure Drivers where
  gpioOpens : Bool
  watchdogOpens : Bool
  toggleResult : Nat → Int

/-- That many passes of the loop that toggles the watchdog until a toggle fails. -/
def toggleLoop (result : Nat → Int) : Nat → List Ioctl
  | 0 => []
  | passes + 1 => .watchdogToggle :: if result 0 < 0 then [] else toggleLoop (fun i => result (i + 1)) passes

/-- `cmd` and `value` after the arguments have been read, where there are one or two. -/
def arguments : List Str → Option (UInt32 × UInt32)
  | [_, cmd] => some ((strToNumber cmd 15).2, 0xFFFFFFFF)
  | [_, cmd, value] => some ((strToNumber cmd 15).2, (strToNumber value 0xFFFFFFFF).2)
  | _ => none

/-- The requests that `main` makes, up to that many passes of its loop. -/
def main (argv : List Str) (d : Drivers) (passes : Nat) : List Ioctl :=
  match arguments argv with
  | none => []
  | some (cmd, value) =>
    if d.gpioOpens then
      if cmd = 18 then
        if d.watchdogOpens then toggleLoop d.toggleResult passes else []
      else gpioIoctl cmd value
    else []

end NvrxFirmware.MxGpioCtl
