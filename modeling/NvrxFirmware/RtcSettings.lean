import NvrxFirmware.RtcModel

namespace NvrxFirmware.Rtc

open Memory

variable {hw : Hardware} {c : Chip} {d : Device} {op : RtcOp} {ops : List RtcOp} {twentyfourhour : Bool} {n : Nat}

theorem bcd2bin_bin2bcd (codes : ByteCodes) {x : Int} (h0 : 0 ≤ x) (h : x < 100) :
    (codes.bcd2bin (codes.bin2bcd x) : Int) = x := by
  lift x to Nat using h0
  have hlt : 16 * (x / 10) + x % 10 < 2 ^ 8 := by omega
  rw [codes.bin2bcd_eq x (by omega), codes.bcd2bin_eq, UInt8.toNat_ofNat', Nat.mod_eq_of_lt hlt]
  omega

/-- In both modes an hour is read as it was written, also with the flags of an alarm around it. -/
theorem reg2hr_hr2reg {x : Int} (h0 : 0 ≤ x) (h : x < 24) :
    (reg2hr hw twentyfourhour (hr2reg hw twentyfourhour x) : Int) = x ∧
      (reg2hr hw twentyfourhour ((if 12 ≤ x then hr2reg hw twentyfourhour x ||| 0x80 ||| 0x40
        else hr2reg hw twentyfourhour x ||| 0x80) &&& 0x7f) : Int) = x ∧
      (if 12 ≤ x then hr2reg hw twentyfourhour x ||| 0x80 ||| 0x40
        else hr2reg hw twentyfourhour x ||| 0x80) &&& 0x80 ≠ 0 := by
  lift x to Nat using h0
  have hlt : x < 24 := by omega
  by_cases hafternoon : 12 ≤ x
  · obtain ⟨y, rfl⟩ := Nat.exists_eq_add_of_le hafternoon
    have hint : (12 : Int) ≤ ((12 + y : Nat) : Int) := by omega
    have hsub : ((12 + y : Nat) : Int) - 12 = (y : Int) := by omega
    have hmorning : ¬((12 + y : Nat) : Int) < 12 := by omega
    cases twentyfourhour <;>
      simp only [reg2hr, hr2reg, if_pos hint, if_neg hmorning, hsub, hw.bin2bcd_eq (12 + y) (by omega),
        hw.bin2bcd_eq y (by omega), hw.bcd2bin_eq, if_true, Bool.false_eq_true, if_false] <;>
      (have hy : y < 12 := by omega
       clear hint hsub hmorning hlt hafternoon h
       revert y
       decide)
  · have hint : ¬(12 : Int) ≤ (x : Int) := by omega
    have hmorning : (x : Int) < 12 := by omega
    cases twentyfourhour <;>
      simp only [reg2hr, hr2reg, if_neg hint, if_pos hmorning, hw.bin2bcd_eq x (by omega), hw.bcd2bin_eq, if_true,
        Bool.false_eq_true, if_false] <;>
      (have hx : x < 12 := by omega
       clear hint hmorning hlt hafternoon h
       revert x
       decide)

theorem bin2bcd_flagged (codes : ByteCodes) {x : Int} (h0 : 0 ≤ x) (h : x < 60) :
    (codes.bcd2bin ((codes.bin2bcd x ||| 0x80) &&& 0x7f) : Int) = x ∧ (codes.bin2bcd x ||| 0x80) &&& 0x80 ≠ 0 := by
  lift x to Nat using h0
  have hlt : x < 60 := by omega
  rw [codes.bin2bcd_eq x (by omega), codes.bcd2bin_eq]
  clear h
  revert x
  decide +kernel

/-- What the chip has been set to: its clock output, and the alarm with the fields that count. -/
structure Settings where
  clockOut : Bool
  alarmOn : Bool
  wday : Option Int
  hour : Option Int
  min : Option Int
  deriving DecidableEq

/-- A field of the alarm, if it counts. -/
def field (byte : UInt8) (decode : UInt8 → Nat) : Option Int :=
  if byte &&& 0x80 ≠ 0 then some (decode (byte &&& 0x7f)) else none

variable (hw) in
def Chip.settings (twentyfourhour : Bool) (c : Chip) : Settings where
  clockOut := hw.bitrev8 c.status2 &&& int1ModeMask = int1Mode32Khz
  alarmOn := hw.bitrev8 c.status2 &&& int2ModeMask = int2ModeAlarm
  wday := field ((reversed hw c.int2Reg1).val.getD 0 0) hw.bcd2bin
  hour := field ((reversed hw c.int2Reg1).val.getD 1 0) (reg2hr hw twentyfourhour)
  min := field ((reversed hw c.int2Reg1).val.getD 2 0) hw.bcd2bin

variable (hw) in
def Device.settings (d : Device) : Settings := d.chip.settings hw d.twentyfourhour

/-- What a reader of the alarm is told, whose structure has these values before. -/
def Settings.report (s : Settings) (alm : RtcWkalrm) : RtcWkalrm :=
  if s.alarmOn then
    { enabled := true
      time := { alm.time with
        tmWday := s.wday.getD alm.time.tmWday
        tmHour := s.hour.getD alm.time.tmHour
        tmMin := s.min.getD alm.time.tmMin
        tmSec := 0 } }
  else { alm with enabled := false }

/-- What a call asks for, as far as its transfers get: setting an alarm first disables the one there is, and the
new one is enabled before its time is written. -/
def Settings.ask (s : Settings) : RtcOp → Settings
  | .setAlarm alm ok =>
    if ok 0 = false then s
    else if ok 1 = false ∨ ok 2 = false then { s with clockOut := false, alarmOn := false }
    else if ok 3 = false ∨ alm.enabled = false then { s with clockOut := false, alarmOn := alm.enabled }
    else
      { clockOut := false
        alarmOn := true
        wday := if alm.time.tmWday = -1 then none else some alm.time.tmWday
        hour := some alm.time.tmHour
        min := some alm.time.tmMin }
  | _ => s

/-- The time of an alarm, on one day of the week or on all of them. -/
structure RtcTime.AlarmTime (time : RtcTime) : Prop where
  wday : time.tmWday = -1 ∨ 0 ≤ time.tmWday ∧ time.tmWday < 7
  hour : 0 ≤ time.tmHour ∧ time.tmHour < 24
  min : 0 ≤ time.tmMin ∧ time.tmMin < 60

/-- The call makes the driver reset the chip. -/
def Resets (d : Device) : RtcOp → Prop
  | .setTime _ okStatus okInit _ =>
    okStatus = true ∧ d.chip.status1 &&& (flagPoc ||| flagBld) ≠ 0 ∧ (okInit 0).1 = true
  | .vlClr okInit => (okInit 0).1 = true
  | _ => False

def Asks : RtcOp → Prop
  | .setAlarm alm _ => alm.time.AlarmTime
  | _ => True

theorem matched_eq (byte : UInt8) (decode : UInt8 → Nat) (old : Int) :
    matched byte decode old = (field byte decode).getD old := by
  unfold matched field
  split <;> rfl

theorem readAlarm_report (alm : RtcWkalrm) (d : Device) :
    readAlarm hw true true alm d = (0, (d.settings hw).report alm) := by
  unfold readAlarm Settings.report Device.settings Chip.settings
  dsimp only
  by_cases hon : hw.bitrev8 d.chip.status2 &&& int2ModeMask = int2ModeAlarm
  · rw [if_neg (by decide), if_neg (not_not_intro hon), if_neg (by decide), if_pos (decide_eq_true hon)]
    simp only [matched_eq]
  · rw [if_neg (by decide), if_pos hon, if_neg (by simpa using hon)]

theorem reversed_reversed {k : Nat} (codes : Bytes k) : reversed hw (reversed hw codes) = codes := by
  apply Subtype.ext
  have hid : (hw.bitrev8 ∘ hw.bitrev8) = id := funext hw.bitrev8_bitrev8
  simp [reversed, hid]

/-- Registers other than STATUS1 and the time. -/
def Chip.SameSettings (c c' : Chip) : Prop := c'.status2 = c.status2 ∧ c'.int2Reg1 = c.int2Reg1

theorem Chip.SameSettings.settings {c c' : Chip} (h : c.SameSettings c') (twentyfourhour : Bool) :
    c'.settings hw twentyfourhour = c.settings hw twentyfourhour := by
  rw [Chip.settings, Chip.settings, h.1, h.2]

theorem readStatus_same (ok : Bool) (c : Chip) : c.SameSettings (readStatus hw ok c).2 := by
  unfold readStatus
  split <;> exact ⟨rfl, rfl⟩

theorem init_of_not (okInit : Nat → Bool × Bool) (h : ¬(okInit 0).1 = true) (c : Chip) : init hw okInit c = (eio, c) := by
  unfold init initRounds
  rw [if_pos (by simpa using h)]

/-- Without a reset, setting the time only reads the status first. -/
theorem setTime_of_not_resets {tm : RtcTime} {okStatus okTime : Bool} {okInit : Nat → Bool × Bool}
    (h : ¬Resets d (.setTime tm okStatus okInit okTime)) : setTime hw tm okStatus okInit okTime d =
      if okTime then (0, { d with chip :=
        (readStatus hw okStatus d.chip).2.setTime1 hw (reversed hw (timeBytes hw d.twentyfourhour tm)) })
      else (eio, { d with chip := (readStatus hw okStatus d.chip).2 }) := by
  have hchip : (if (readStatus hw okStatus d.chip).1 = 1 then (init hw okInit (readStatus hw okStatus d.chip).2).2
      else (readStatus hw okStatus d.chip).2) = (readStatus hw okStatus d.chip).2 := by
    split
    next hret =>
      have hflagged : okStatus = true ∧ d.chip.status1 &&& (flagPoc ||| flagBld) ≠ 0 := by
        unfold readStatus at hret
        split at hret
        next hok =>
          refine ⟨hok, fun hclear => ?_⟩
          rw [if_neg (not_not_intro hclear)] at hret
          cases hret
        next => cases hret
      rw [init_of_not okInit fun hinit => h ⟨hflagged.1, hflagged.2, hinit⟩]
    next => rfl
  unfold setTime
  dsimp only
  rw [hchip]

theorem setTime_same {tm : RtcTime} {okStatus okTime : Bool} {okInit : Nat → Bool × Bool}
    (h : ¬Resets d (.setTime tm okStatus okInit okTime)) :
    d.chip.SameSettings (setTime hw tm okStatus okInit okTime d).2.chip := by
  have hstatus := @readStatus_same hw okStatus d.chip
  rw [setTime_of_not_resets h]
  split <;> exact hstatus

theorem settings_status2 (c : Chip) (b : UInt8) (twentyfourhour : Bool) :
    Chip.settings hw twentyfourhour { c with status2 := hw.bitrev8 b } =
      { c.settings hw twentyfourhour with
        clockOut := b &&& int1ModeMask = int1Mode32Khz
        alarmOn := b &&& int2ModeMask = int2ModeAlarm } := by
  rw [Chip.settings, Chip.settings, hw.bitrev8_bitrev8]

theorem settings_disabled (c : Chip) (twentyfourhour : Bool) : Chip.settings hw twentyfourhour { c with status2 := 0 } =
    { c.settings hw twentyfourhour with clockOut := false, alarmOn := false } := by
  have hzero := @settings_status2 hw c 0 twentyfourhour
  rwa [hw.bitrev8_zero] at hzero

theorem settings_mode (c : Chip) (enabled twentyfourhour : Bool) :
    Chip.settings hw twentyfourhour { c with status2 := hw.bitrev8 (alarmMode enabled) } =
      { c.settings hw twentyfourhour with clockOut := false, alarmOn := enabled } := by
  rw [settings_status2]
  cases enabled <;> rfl

/-- The bytes of an alarm stand for its time. -/
theorem settings_alarmBytes (c : Chip) {time : RtcTime} (h : time.AlarmTime) (twentyfourhour : Bool) :
    Chip.settings hw twentyfourhour { c with int2Reg1 := reversed hw (alarmBytes hw twentyfourhour time) } =
      { c.settings hw twentyfourhour with
        wday := if time.tmWday = -1 then none else some time.tmWday
        hour := some time.tmHour
        min := some time.tmMin } := by
  obtain ⟨hwday, ⟨hhour0, hhour⟩, hmin0, hmin⟩ := h
  obtain ⟨hminute, hminFlag⟩ := bin2bcd_flagged hw.toByteCodes hmin0 hmin
  obtain ⟨-, hhours, hhourFlag⟩ := @reg2hr_hr2reg hw twentyfourhour _ hhour0 hhour
  have hday : field (if time.tmWday ≠ -1 then hw.bin2bcd time.tmWday ||| 0x80 else 0) hw.bcd2bin =
      if time.tmWday = -1 then none else some time.tmWday := by
    by_cases hall : time.tmWday = -1
    · rw [if_neg (not_not_intro hall), if_pos hall]
      rfl
    · obtain ⟨hwday0, hwday⟩ := hwday.resolve_left hall
      obtain ⟨hbyte, hflag⟩ := bin2bcd_flagged hw.toByteCodes hwday0 (by omega)
      rw [if_pos hall, if_neg hall, field, if_pos hflag, hbyte]
  rw [Chip.settings, Chip.settings, reversed_reversed]
  simp only [alarmBytes, List.getD_cons_zero, List.getD_cons_succ, hday]
  rw [field, if_pos hhourFlag, hhours, field, if_pos hminFlag, hminute]

theorem setAlarm_settings {alm : RtcWkalrm} (h : alm.time.AlarmTime) (ok : Nat → Bool) (d : Device) :
    (setAlarm hw alm ok d).2.settings hw = (d.settings hw).ask (.setAlarm alm ok) := by
  unfold setAlarm Settings.ask
  dsimp only
  by_cases hok0 : ok 0 = false
  · rw [if_pos hok0, if_pos hok0]
  rw [if_neg hok0, if_neg hok0]
  by_cases hok1 : ok 1 = false
  · rw [if_pos hok1, if_pos (.inl hok1)]
    exact settings_disabled _ _
  rw [if_neg hok1]
  by_cases hok2 : ok 2 = false
  · rw [if_pos hok2, if_pos (.inr hok2)]
    exact settings_disabled _ _
  rw [if_neg hok2, if_neg (not_or.mpr ⟨hok1, hok2⟩)]
  have hmode := @settings_mode hw (Chip.readStatus1 hw { d.chip with status2 := 0 }) alm.enabled d.twentyfourhour
  by_cases hok3 : ok 3 = false
  · rw [if_pos hok3, if_pos (.inl hok3)]
    exact hmode
  rw [if_neg hok3]
  cases henabled : alm.enabled with
  | false =>
    rw [henabled] at hmode
    rw [if_pos (.inr rfl), Chip.setInt2Reg1, if_neg (by rw [hw.bitrev8_bitrev8]; decide)]
    exact hmode
  | true =>
    rw [henabled] at hmode
    rw [if_neg (by simp [hok3]), Chip.setInt2Reg1, if_pos (by rw [hw.bitrev8_bitrev8]; decide)]
    refine (settings_alarmBytes _ h d.twentyfourhour).trans ?_
    rw [hmode]

theorem rtcStep_settings (hresets : ¬Resets d op) (hasks : Asks op) :
    (rtcStep hw d op).settings hw = (d.settings hw).ask op := by
  cases op with
  | setTime tm okStatus okInit okTime =>
    have hmode : (setTime hw tm okStatus okInit okTime d).2.twentyfourhour = d.twentyfourhour := by
      unfold setTime
      dsimp only
      split <;> rfl
    rw [rtcStep, Device.settings, hmode]
    exact (setTime_same hresets).settings d.twentyfourhour
  | readTime okStatus okTime =>
    have hsame : d.chip.SameSettings (readTime hw okStatus okTime d).2.2.chip ∧
        (readTime hw okStatus okTime d).2.2.twentyfourhour = d.twentyfourhour := by
      have hstatus := @readStatus_same hw okStatus d.chip
      unfold readTime
      dsimp only
      split
      · exact ⟨hstatus, rfl⟩
      · split <;> exact ⟨hstatus, rfl⟩
    rw [rtcStep, Device.settings, hsame.2]
    exact hsame.1.settings d.twentyfourhour
  | setAlarm alm ok => exact setAlarm_settings hasks ok d
  | readAlarm okStatus okTime alm => rfl
  | vlRead okStatus => exact (readStatus_same okStatus d.chip).settings d.twentyfourhour
  | vlClr okInit =>
    rw [rtcStep, init_of_not okInit hresets]
    rfl
  | chip flags time1 => rfl

/-- The call takes the chip's clock output away, if it gets that far. -/
def silences : RtcOp → Bool
  | .setAlarm _ ok => ok 0
  | _ => false

theorem ask_clockOut (s : Settings) (op : RtcOp) : (s.ask op).clockOut = (s.clockOut && !silences op) := by
  cases op with
  | setAlarm alm ok =>
    unfold Settings.ask silences
    dsimp only
    cases hok : ok 0 with
    | false => simp
    | true =>
      rw [if_neg (by decide)]
      split_ifs <;> simp
  | _ => simp [Settings.ask, silences]

/-- Whichever transfers fail, a reader of the alarm is told how far the calls have got that set one, in either hour
mode, as long as the chip is not reset. Its clock output does not outlive the first of these calls that gets anywhere. -/
theorem alarm_reads_back (hw : Hardware) (d : Device) (ops : List RtcOp)
    (kept : Along (rtcStep hw) (fun d op => ¬Resets d op ∧ Asks op) d ops) (alm : RtcWkalrm) :
    readAlarm hw true true alm (ops.foldl (rtcStep hw) d) = (0, (ops.foldl Settings.ask (d.settings hw)).report alm) ∧
      ((ops.foldl (rtcStep hw) d).settings hw).clockOut = ((d.settings hw).clockOut && ops.all fun op => !silences op) := by
  have hsettings : (ops.foldl (rtcStep hw) d).settings hw = ops.foldl Settings.ask (d.settings hw) := by
    induction ops generalizing d with
    | nil => rfl
    | cons op ops ih =>
      obtain ⟨⟨hresets, hasks⟩, hrest⟩ := kept
      rw [List.foldl_cons, ih _ hrest, List.foldl_cons, rtcStep_settings hresets hasks]
  have hclock (s : Settings) : (ops.foldl Settings.ask s).clockOut = (s.clockOut && ops.all fun op => !silences op) := by
    clear kept hsettings
    induction ops generalizing s with
    | nil => simp
    | cons op ops ih => rw [List.foldl_cons, ih, ask_clockOut, List.all_cons, Bool.and_assoc]
  rw [readAlarm_report, hsettings]
  exact ⟨rfl, hclock _⟩

theorem alarm_reads_back_of_sunday :
    readAlarm seiko true true ⟨false, ⟨1, 2, 3, 4, 5, 6, -1⟩⟩ (rtcStep seiko
      ⟨⟨0, 0x12, ⟨[0, 0, 0, 0, 0, 0, 0], rfl⟩, ⟨[0, 0, 0], rfl⟩⟩, false⟩
      (.setAlarm ⟨true, ⟨0, 45, 17, 0, 0, 0, 0⟩⟩ fun _ => true)) = (0, ⟨true, ⟨0, 45, 17, 4, 5, 6, 0⟩⟩) :=
  (alarm_reads_back seiko ⟨⟨0, 0x12, ⟨[0, 0, 0, 0, 0, 0, 0], rfl⟩, ⟨[0, 0, 0], rfl⟩⟩, false⟩
    [.setAlarm ⟨true, ⟨0, 45, 17, 0, 0, 0, 0⟩⟩ fun _ => true]
    ⟨⟨id, ⟨.inr (by decide), by decide, by decide⟩⟩, trivial⟩ ⟨false, ⟨1, 2, 3, 4, 5, 6, -1⟩⟩).1

end NvrxFirmware.Rtc
