import NvrxFirmware.CStrings
import NvrxFirmware.Memories
import NvrxFirmware.Runs

namespace NvrxFirmware.Rtc

open Memory

def flagPoc : UInt8 := 0x01
def flagBld : UInt8 := 0x02
def flagInt2 : UInt8 := 0x04
def flag24H : UInt8 := 0x40
def flagTest : UInt8 := 0x01
def int1ModeMask : UInt8 := 0x0F
def int1Mode32Khz : UInt8 := 0x08
def int2ModeMask : UInt8 := 0xF0
def int2ModeAlarm : UInt8 := 0x40
def int2ModeNointr : UInt8 := 0x00

/-- What the driver uses of the kernel: two decimal digits in a byte, and the bits of a byte the other way round. -/
structure ByteCodes where
  bin2bcd : Int → UInt8
  bcd2bin : UInt8 → Nat
  bitrev8 : UInt8 → UInt8
  bin2bcd_eq : ∀ n : Nat, n < 100 → bin2bcd n = .ofNat (16 * (n / 10) + n % 10)
  bcd2bin_eq : ∀ b, bcd2bin b = 10 * (b.toNat / 16) + b.toNat % 16
  bitrev8_bitrev8 : ∀ b, bitrev8 (bitrev8 b) = b
  bitrev8_zero : bitrev8 0 = 0

/-- The registers of the chip that hold what the driver writes. -/
structure Chip where
  status1 : UInt8
  status2 : UInt8
  time1 : Bytes 7
  int2Reg1 : Bytes 3

/-- What the driver is told of the chip: reading STATUS1 clears flags of it only, a reset keeps the 24H bit that is
written with it, and of the hour the digits are kept. Its AM/PM bit is kept in the 12-hour mode only; in the other one
it follows the digits. -/
structure Hardware extends ByteCodes where
  afterRead : UInt8 → UInt8
  afterReset : Chip → Chip
  keepHour : Bool → UInt8 → UInt8
  afterRead_24H : ∀ b, afterRead b &&& flag24H = b &&& flag24H
  afterReset_24H : ∀ c, (afterReset c).status1 &&& flag24H = flag24H
  keepHour_digits : ∀ mode24 b, keepHour mode24 b &&& 0x3f = b &&& 0x3f
  keepHour_mode12 : ∀ b, keepHour false b &&& 0x40 = b &&& 0x40
  keepHour_mode24 : ∀ b, bcd2bin (b &&& 0x3f) < 12 → keepHour true b &&& 0x40 = 0

/-- A chip that clears its flags when they are read and forgets all but its hour mode in a reset. -/
def seiko : Hardware where
  bin2bcd n := .ofNat (16 * (n.toNat / 10) + n.toNat % 10)
  bcd2bin b := 10 * (b.toNat / 16) + b.toNat % 16
  bitrev8 b := ⟨b.toBitVec.reverse⟩
  bin2bcd_eq n _ := rfl
  bcd2bin_eq _ := rfl
  bitrev8_bitrev8 b := by simp
  bitrev8_zero := rfl
  afterRead b := b &&& 0xf0
  afterReset _ := ⟨flag24H, 0, ⟨[0, 0, 0, 0, 0, 0, 0], rfl⟩, ⟨[0, 0, 0], rfl⟩⟩
  keepHour mode24 b := if mode24 then (b &&& 0x3f) ||| (if b &&& 0x3f < 0x12 then 0 else 0x40) else b
  afterRead_24H b := by rw [UInt8.and_assoc]; rfl
  afterReset_24H _ := rfl
  keepHour_digits mode24 := by
    cases mode24
    · exact fun b => rfl
    · exact forall_byte (by decide +kernel)
  keepHour_mode12 b := rfl
  keepHour_mode24 := forall_byte (by decide +kernel)

/-- The chip with the one field of `struct s35390a` that is not a handle. -/
structure Device where
  chip : Chip
  twentyfourhour : Bool

/-- `struct rtc_time`, what the driver uses of it. -/
structure RtcTime where
  tmSec : Int
  tmMin : Int
  tmHour : Int
  tmMday : Int
  tmMon : Int
  tmYear : Int
  tmWday : Int
  deriving DecidableEq, Repr

structure RtcWkalrm where
  enabled : Bool
  time : RtcTime
  deriving DecidableEq, Repr

def eio : Int := -5
def einval : Int := -22

variable (hw : Hardware)

/-- The chip counts the hours of a whole day. -/
def Chip.mode24 (c : Chip) : Bool := c.status1 &&& flag24H ≠ 0

/-- STATUS1 once it has been read. -/
def Chip.readStatus1 (c : Chip) : Chip := { c with status1 := hw.afterRead c.status1 }

/-- The register for the time of the alarm is not accessible while the alarm is disabled. -/
def Chip.setInt2Reg1 (c : Chip) (buf : Bytes 3) : Chip :=
  if hw.bitrev8 c.status2 &&& int2ModeMask = int2ModeAlarm then { c with int2Reg1 := buf } else c

/-- `s35390a_read_status`, where `ok` says whether the transfer succeeds. -/
def readStatus (ok : Bool) (c : Chip) : Int × Chip :=
  if ok then (if c.status1 &&& (flagPoc ||| flagBld) ≠ 0 then 1 else 0, c.readStatus1 hw) else (eio, c)

/-- The loop of `s35390a_init` with the resets that are left; `ok` is of the two transfers of each round. -/
def initRounds : Nat → (Nat → Bool × Bool) → Chip → Int × Chip
  | left, ok, c =>
    if (ok 0).1 = false then (eio, c)
    else if (ok 0).2 = false then (eio, hw.afterReset c)
    else
      let buf := (hw.afterReset c).status1
      let c := (hw.afterReset c).readStatus1 hw
      if buf &&& (flagPoc ||| flagBld) ≠ 0 then
        match left with
        | 0 => (eio, c)
        | left + 1 => initRounds left (fun k => ok (k + 1)) c
      else (1, c)

def init (ok : Nat → Bool × Bool) (c : Chip) : Int × Chip := initRounds hw 5 ok c

def hr2reg (twentyfourhour : Bool) (hour : Int) : UInt8 :=
  if twentyfourhour then hw.bin2bcd hour
  else if hour < 12 then hw.bin2bcd hour
  else 0x40 ||| hw.bin2bcd (hour - 12)

def reg2hr (twentyfourhour : Bool) (reg : UInt8) : Nat :=
  if twentyfourhour then hw.bcd2bin (reg &&& 0x3f)
  else hw.bcd2bin (reg &&& 0x3f) + (if reg &&& 0x40 ≠ 0 then 12 else 0)

def reversed {n : Nat} (buf : Bytes n) : Bytes n := ⟨buf.val.map hw.bitrev8, by rw [List.length_map, buf.property]⟩

/-- The time as TIME1 keeps it. -/
def keptTime (mode24 : Bool) (buf : Bytes 7) : Bytes 7 :=
  ⟨buf.val.set 4 (hw.keepHour mode24 (buf.val.getD 4 0)), by rw [List.length_set, buf.property]⟩

def Chip.setTime1 (c : Chip) (buf : Bytes 7) : Chip :=
  { c with time1 := reversed hw (keptTime hw c.mode24 (reversed hw buf)) }

def timeBytes (twentyfourhour : Bool) (tm : RtcTime) : Bytes 7 :=
  ⟨[hw.bin2bcd (tm.tmYear - 100), hw.bin2bcd (tm.tmMon + 1), hw.bin2bcd tm.tmMday, hw.bin2bcd tm.tmWday,
    hr2reg hw twentyfourhour tm.tmHour, hw.bin2bcd tm.tmMin, hw.bin2bcd tm.tmSec], rfl⟩

/-- `s35390a_rtc_set_time`. The result of a reset is not looked at. -/
def setTime (tm : RtcTime) (okStatus : Bool) (okInit : Nat → Bool × Bool) (okTime : Bool) (d : Device) : Int × Device :=
  let (ret, chip) := readStatus hw okStatus d.chip
  let chip := if ret = 1 then (init hw okInit chip).2 else chip
  if okTime then
    (0, { d with chip := chip.setTime1 hw (reversed hw (timeBytes hw d.twentyfourhour tm)) })
  else (eio, { d with chip })

def timeOfBytes (twentyfourhour : Bool) (buf : Bytes 7) : RtcTime where
  tmSec := hw.bcd2bin (buf.val.getD 6 0)
  tmMin := hw.bcd2bin (buf.val.getD 5 0)
  tmHour := reg2hr hw twentyfourhour (buf.val.getD 4 0)
  tmWday := hw.bcd2bin (buf.val.getD 3 0)
  tmMday := hw.bcd2bin (buf.val.getD 2 0)
  tmMon := (hw.bcd2bin (buf.val.getD 1 0) : Int) - 1
  tmYear := (hw.bcd2bin (buf.val.getD 0 0) : Int) + 100

/-- `s35390a_rtc_read_time`: the result, the time if it has been read, and the device. -/
def readTime (okStatus okTime : Bool) (d : Device) : Int × Option RtcTime × Device :=
  let (ret, chip) := readStatus hw okStatus d.chip
  if ret = 1 then (einval, none, { d with chip })
  else if okTime then (0, some (timeOfBytes hw d.twentyfourhour (reversed hw chip.time1)), { d with chip })
  else (eio, none, { d with chip })

def alarmBytes (twentyfourhour : Bool) (time : RtcTime) : Bytes 3 :=
  let wday := if time.tmWday ≠ -1 then hw.bin2bcd time.tmWday ||| 0x80 else 0
  let hours := hr2reg hw twentyfourhour time.tmHour ||| 0x80
  let hours := if 12 ≤ time.tmHour then hours ||| 0x40 else hours
  ⟨[wday, hours, hw.bin2bcd time.tmMin ||| 0x80], rfl⟩

def alarmMode (enabled : Bool) : UInt8 := if enabled then int2ModeAlarm else int2ModeNointr

/-- `s35390a_rtc_set_alarm`, with its four transfers. -/
def setAlarm (alm : RtcWkalrm) (ok : Nat → Bool) (d : Device) : Int × Device :=
  if ok 0 = false then (eio, d)
  else
    let chip := { d.chip with status2 := 0 }
    if ok 1 = false then (eio, { d with chip })
    else
      let chip := chip.readStatus1 hw
      if ok 2 = false then (eio, { d with chip })
      else
        let chip := { chip with status2 := hw.bitrev8 (alarmMode alm.enabled) }
        if ok 3 = false then (eio, { d with chip })
        else (0, { d with chip := chip.setInt2Reg1 hw (reversed hw (alarmBytes hw d.twentyfourhour alm.time)) })

/-- A field of the alarm, which is only set if the byte has the flag that it counts. -/
def matched (byte : UInt8) (decode : UInt8 → Nat) (old : Int) : Int :=
  if byte &&& 0x80 ≠ 0 then decode (byte &&& 0x7f) else old

/-- `s35390a_rtc_read_alarm`, with what the caller has in the structure. -/
def readAlarm (okStatus okTime : Bool) (alm : RtcWkalrm) (d : Device) : Int × RtcWkalrm :=
  if okStatus = false then (eio, alm)
  else if hw.bitrev8 d.chip.status2 &&& int2ModeMask ≠ int2ModeAlarm then (0, { alm with enabled := false })
  else if okTime = false then (eio, { alm with enabled := true })
  else
    let buf := reversed hw d.chip.int2Reg1
    (0, { enabled := true, time := { alm.time with
      tmWday := matched (buf.val.getD 0 0) hw.bcd2bin alm.time.tmWday
      tmHour := matched (buf.val.getD 1 0) (reg2hr hw d.twentyfourhour) alm.time.tmHour
      tmMin := matched (buf.val.getD 2 0) hw.bcd2bin alm.time.tmMin
      tmSec := 0 } })

/-- `s35390a_set_freq_int1`, whose result `s35390a_probe` does not look at. -/
def setFreqInt1 (okRead okWrite : Bool) (c : Chip) : Chip :=
  if okRead && okWrite then
    { c with status2 := hw.bitrev8 ((hw.bitrev8 c.status2 &&& ~~~int1ModeMask) ||| int1Mode32Khz) }
  else c

/-- `s35390a_disable_test_mode` -/
def disableTestMode (okRead okWrite : Bool) (c : Chip) : Int × Chip :=
  if okRead = false then (eio, c)
  else if c.status2 &&& flagTest = 0 then (0, c)
  else if okWrite then (0, { c with status2 := c.status2 &&& ~~~flagTest })
  else (eio, c)

/-- `s35390a_probe` from the reading of the status on, if it succeeds. -/
def probe (ok : Nat → Bool) (c : Chip) : Option Device :=
  let (ret, chip) := readStatus hw (ok 0) c
  if ret < 0 then none
  else
    let twentyfourhour := decide (c.status1 &&& flag24H ≠ 0)
    let (err, chip) :=
      if c.status1 &&& flagInt2 ≠ 0 then
        if ok 1 then (0, { chip with status2 := 0 }) else (eio, chip)
      else disableTestMode (ok 1) (ok 2) chip
    if err < 0 then none else some ⟨setFreqInt1 hw (ok 3) (ok 4) chip, twentyfourhour⟩

/-- The calls of the driver, with the transfers that succeed, and what the chip does by itself: it goes on
to another time and raises flags. -/
inductive RtcOp
  | setTime (tm : RtcTime) (okStatus : Bool) (okInit : Nat → Bool × Bool) (okTime : Bool)
  | readTime (okStatus okTime : Bool)
  | setAlarm (alm : RtcWkalrm) (ok : Nat → Bool)
  | readAlarm (okStatus okTime : Bool) (alm : RtcWkalrm)
  | vlRead (okStatus : Bool)
  | vlClr (okInit : Nat → Bool × Bool)
  | chip (flags : UInt8) (time1 : Bytes 7)

def rtcStep (d : Device) : RtcOp → Device
  | .setTime tm okStatus okInit okTime => (setTime hw tm okStatus okInit okTime d).2
  | .readTime okStatus okTime => (readTime hw okStatus okTime d).2.2
  | .setAlarm alm ok => (setAlarm hw alm ok d).2
  | .readAlarm _ _ _ => d
  | .vlRead okStatus => { d with chip := (readStatus hw okStatus d.chip).2 }
  | .vlClr okInit => { d with chip := (init hw okInit d.chip).2 }
  | .chip flags time1 => { d with chip := { d.chip with status1 := d.chip.status1 ||| flags &&& ~~~flag24H, time1 } }

end NvrxFirmware.Rtc
