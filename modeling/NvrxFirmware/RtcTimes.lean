import NvrxFirmware.RtcSettings

namespace NvrxFirmware.Rtc

open Memory

variable {hw : Hardware} {c : Chip} {d : Device} {op : RtcOp} {ops : List RtcOp} {tm : RtcTime} {twentyfourhour : Bool}

/-- A time of the century that the chip can hold. -/
structure RtcTime.Valid (tm : RtcTime) : Prop where
  sec : 0 ≤ tm.tmSec ∧ tm.tmSec < 60
  min : 0 ≤ tm.tmMin ∧ tm.tmMin < 60
  hour : 0 ≤ tm.tmHour ∧ tm.tmHour < 24
  mday : 1 ≤ tm.tmMday ∧ tm.tmMday < 32
  mon : 0 ≤ tm.tmMon ∧ tm.tmMon < 12
  year : 100 ≤ tm.tmYear ∧ tm.tmYear < 200
  wday : 0 ≤ tm.tmWday ∧ tm.tmWday < 7

def fivePm : RtcTime := ⟨0, 0, 17, 24, 5, 124, 1⟩

theorem fivePm_valid : fivePm.Valid := by constructor <;> decide

theorem timeOfBytes_timeBytes (h : tm.Valid) (twentyfourhour : Bool) :
    timeOfBytes hw twentyfourhour (timeBytes hw twentyfourhour tm) = tm := by
  obtain ⟨⟨hsec0, hsec⟩, ⟨hmin0, hmin⟩, ⟨hhour0, hhour⟩, ⟨hmday0, hmday⟩, ⟨hmon0, hmon⟩, ⟨hyear0, hyear⟩, hwday0, hwday⟩ := h
  have hcode {x : Int} (h0 : 0 ≤ x) (hx : x < 100) : (hw.bcd2bin (hw.bin2bcd x) : Int) = x :=
    bcd2bin_bin2bcd hw.toByteCodes h0 hx
  cases tm
  simp only [timeOfBytes, timeBytes, List.getD_cons_zero, List.getD_cons_succ, RtcTime.mk.injEq]
  dsimp only at *
  refine ⟨hcode hsec0 (by omega), hcode hmin0 (by omega), (reg2hr_hr2reg hhour0 hhour).1,
    hcode (by omega) (by omega), ?_, ?_, hcode hwday0 (by omega)⟩
  · rw [hcode (by omega) (by omega)]
    omega
  · rw [hcode (by omega) (by omega)]
    omega

/-- Only the hour depends on the modes that it is written, kept and read in. -/
theorem timeOfBytes_modes (h : tm.Valid) (written mode24 read : Bool) :
    timeOfBytes hw read (keptTime hw mode24 (timeBytes hw written tm)) =
      { tm with tmHour := reg2hr hw read (hw.keepHour mode24 (hr2reg hw written tm.tmHour)) } := by
  have hsame := @timeOfBytes_timeBytes hw tm h written
  calc timeOfBytes hw read (keptTime hw mode24 (timeBytes hw written tm))
    _ = { timeOfBytes hw written (timeBytes hw written tm) with
          tmHour := reg2hr hw read (hw.keepHour mode24 (hr2reg hw written tm.tmHour)) } := rfl
    _ = { tm with tmHour := reg2hr hw read (hw.keepHour mode24 (hr2reg hw written tm.tmHour)) } := by rw [hsame]

/-- The digits that a driver in the 12-hour mode writes are those of the hour on a dial. -/
theorem hr2reg_digits {x : Int} (h0 : 0 ≤ x) (h : x < 24) :
    hw.bcd2bin (hr2reg hw false x &&& 0x3f) < 12 ∧
      (hw.bcd2bin (hr2reg hw false x &&& 0x3f) : Int) = if x < 12 then x else x - 12 := by
  have hcode {y : Nat} (hy : y < 12) :
      hw.bcd2bin (hw.bin2bcd y &&& 0x3f) = y ∧ hw.bcd2bin ((0x40 ||| hw.bin2bcd y) &&& 0x3f) = y := by
    rw [hw.bin2bcd_eq y (by omega), hw.bcd2bin_eq, hw.bcd2bin_eq]
    revert y
    decide
  unfold hr2reg
  rw [if_neg (by decide)]
  split
  next hmorning =>
    lift x to Nat using h0
    obtain ⟨hdigits, -⟩ := hcode (show x < 12 by omega)
    rw [hdigits]
    exact ⟨by omega, rfl⟩
  next hafternoon =>
    obtain ⟨y, hy⟩ := Int.eq_ofNat_of_zero_le (show 0 ≤ x - 12 by omega)
    obtain ⟨-, hdigits⟩ := hcode (show y < 12 by omega)
    rw [hy, hdigits]
    exact ⟨by omega, rfl⟩

theorem reg2hr_keepHour_true (mode24 : Bool) (reg : UInt8) :
    reg2hr hw true (hw.keepHour mode24 reg) = reg2hr hw true reg := by
  simp only [reg2hr, if_true, hw.keepHour_digits]

/-- The hour that a driver in one mode reads of what it has written is the right one, unless it has written
an afternoon hour in the 12-hour mode and the chip was in the other one. -/
theorem reg2hr_keepHour (written mode24 : Bool) {x : Int} (h0 : 0 ≤ x) (h : x < 24) :
    (reg2hr hw written (hw.keepHour mode24 (hr2reg hw written x)) : Int) =
      if written = false ∧ mode24 = true ∧ 12 ≤ x then x - 12 else x := by
  obtain ⟨hsame, -⟩ := @reg2hr_hr2reg hw written x h0 h
  cases written with
  | true =>
    rw [if_neg (by simp), reg2hr_keepHour_true]
    exact hsame
  | false =>
    cases mode24 with
    | false =>
      rw [if_neg (by simp)]
      simp only [reg2hr, hw.keepHour_digits, hw.keepHour_mode12]
      exact hsame
    | true =>
      obtain ⟨hlt, hdigits⟩ := @hr2reg_digits hw x h0 h
      have hread : reg2hr hw false (hw.keepHour true (hr2reg hw false x)) = hw.bcd2bin (hr2reg hw false x &&& 0x3f) := by
        simp only [reg2hr, Bool.false_eq_true, if_false, hw.keepHour_digits, hw.keepHour_mode24 _ hlt, ne_eq,
          not_true_eq_false, Nat.add_zero]
      rw [hread, hdigits]
      by_cases hmorning : x < 12
      · rw [if_pos hmorning, if_neg (by omega)]
      · rw [if_neg hmorning, if_pos ⟨rfl, rfl, by omega⟩]

/-- Nothing takes the time that has been set from the chip, not even its passing. -/
def KeepsTime (d : Device) (op : RtcOp) : Prop :=
  ¬Resets d op ∧
    match op with
    | .setTime _ _ _ okTime => okTime = false
    | .chip _ time1 => time1 = d.chip.time1
    | _ => True

/-- What `readStatus` and `init` leave as it is. -/
theorem readStatus_time1 (ok : Bool) (c : Chip) : (readStatus hw ok c).2.time1 = c.time1 := by
  unfold readStatus
  split <;> rfl

theorem rtcStep_twentyfourhour (d : Device) (op : RtcOp) : (rtcStep hw d op).twentyfourhour = d.twentyfourhour := by
  cases op with
  | setTime tm okStatus okInit okTime =>
    unfold rtcStep setTime
    dsimp only
    split <;> rfl
  | readTime okStatus okTime =>
    unfold rtcStep readTime
    dsimp only
    split
    · rfl
    · split <;> rfl
  | setAlarm alm ok =>
    unfold rtcStep setAlarm
    dsimp only
    split_ifs <;> rfl
  | _ => rfl

theorem setAlarm_rest (alm : RtcWkalrm) (ok : Nat → Bool) (d : Device) :
    (setAlarm hw alm ok d).2.chip.time1 = d.chip.time1 ∧
      (setAlarm hw alm ok d).2.chip.status1 &&& flag24H = d.chip.status1 &&& flag24H := by
  have hread := hw.afterRead_24H d.chip.status1
  unfold setAlarm Chip.setInt2Reg1
  dsimp only
  split_ifs <;> first | exact ⟨rfl, rfl⟩ | exact ⟨rfl, hread⟩

theorem rtcStep_keepsTime (h : KeepsTime d op) : (rtcStep hw d op).chip.time1 = d.chip.time1 := by
  obtain ⟨hresets, hkeeps⟩ := h
  cases op with
  | setTime tm okStatus okInit okTime =>
    have hfails : okTime = false := hkeeps
    rw [rtcStep, setTime_of_not_resets hresets, hfails]
    exact readStatus_time1 okStatus d.chip
  | readTime okStatus okTime =>
    unfold rtcStep readTime
    dsimp only
    split
    · exact readStatus_time1 okStatus d.chip
    · split <;> exact readStatus_time1 okStatus d.chip
  | setAlarm alm ok => exact (setAlarm_rest alm ok d).1
  | readAlarm okStatus okTime alm => rfl
  | vlRead okStatus => exact readStatus_time1 okStatus d.chip
  | vlClr okInit =>
    rw [rtcStep, init_of_not okInit hresets]
  | chip flags time1 => exact hkeeps

def Chip.Mode24 (c : Chip) : Prop := c.status1 &&& flag24H ≠ 0

theorem mode24_iff : c.mode24 = true ↔ c.Mode24 := decide_eq_true_iff

theorem readStatus1_mode24 : (c.readStatus1 hw).Mode24 ↔ c.Mode24 := by
  rw [Chip.Mode24, Chip.Mode24, Chip.readStatus1, hw.afterRead_24H]

theorem readStatus_mode24 (ok : Bool) (c : Chip) : (readStatus hw ok c).2.Mode24 ↔ c.Mode24 := by
  unfold readStatus
  split
  · exact readStatus1_mode24
  · exact Iff.rfl

theorem afterReset_mode24 (c : Chip) : (hw.afterReset c).Mode24 := by
  rw [Chip.Mode24, hw.afterReset_24H]
  decide

/-- A reset puts the chip into the 24-hour mode, and no later one takes it out of that. -/
theorem initRounds_mode24 (left : Nat) (ok : Nat → Bool × Bool) (h : (ok 0).1 = true ∨ c.Mode24) :
    (initRounds hw left ok c).2.Mode24 := by
  induction left generalizing ok c with
  | zero =>
    unfold initRounds
    dsimp only
    split_ifs with hok hread hflag
    · exact h.resolve_left (by simp [hok])
    · exact afterReset_mode24 c
    · exact readStatus1_mode24.mpr (afterReset_mode24 c)
    · exact readStatus1_mode24.mpr (afterReset_mode24 c)
  | succ left ih =>
    unfold initRounds
    dsimp only
    split_ifs with hok hread hflag
    · exact h.resolve_left (by simp [hok])
    · exact afterReset_mode24 c
    · exact ih _ (.inr (readStatus1_mode24.mpr (afterReset_mode24 c)))
    · exact readStatus1_mode24.mpr (afterReset_mode24 c)

theorem raise_mode24 (flags status1 : UInt8) : (status1 ||| flags &&& ~~~flag24H) &&& flag24H = status1 &&& flag24H := by
  generalize flag24H = mask
  apply UInt8.toBitVec_inj.mp
  ext i
  simp only [UInt8.toBitVec_and, UInt8.toBitVec_or, UInt8.toBitVec_not, BitVec.getElem_and, BitVec.getElem_or,
    BitVec.getElem_not]
  grind

theorem rtcStep_mode24 (d : Device) (op : RtcOp) : (rtcStep hw d op).chip.Mode24 ↔ d.chip.Mode24 ∨ Resets d op := by
  cases op with
  | setTime tm okStatus okInit okTime =>
    by_cases hresets : Resets d (.setTime tm okStatus okInit okTime)
    · obtain ⟨hok, hflag, hinit⟩ := hresets
      have hret : (readStatus hw okStatus d.chip).1 = 1 := by
        rw [readStatus, if_pos hok, if_pos hflag]
      have hmode := @initRounds_mode24 hw (readStatus hw okStatus d.chip).2 5 okInit (.inl hinit)
      refine iff_of_true ?_ (.inr ⟨hok, hflag, hinit⟩)
      unfold rtcStep setTime
      dsimp only
      rw [if_pos hret]
      split <;> exact hmode
    · have hstatus := @readStatus_mode24 hw okStatus d.chip
      rw [or_iff_left hresets, rtcStep, setTime_of_not_resets hresets]
      split <;> exact hstatus
  | readTime okStatus okTime =>
    have hstatus := @readStatus_mode24 hw okStatus d.chip
    rw [or_iff_left (show ¬Resets d (.readTime okStatus okTime) from id)]
    unfold rtcStep readTime
    dsimp only
    split
    · exact hstatus
    · split <;> exact hstatus
  | setAlarm alm ok =>
    rw [or_iff_left (show ¬Resets d (.setAlarm alm ok) from id), rtcStep, Chip.Mode24, (setAlarm_rest alm ok d).2]
    rfl
  | readAlarm okStatus okTime alm => exact (or_iff_left id).symm
  | vlRead okStatus =>
    rw [or_iff_left (show ¬Resets d (.vlRead okStatus) from id)]
    exact readStatus_mode24 okStatus d.chip
  | vlClr okInit =>
    by_cases hresets : (okInit 0).1 = true
    · exact iff_of_true (initRounds_mode24 5 okInit (.inl hresets)) (.inr hresets)
    · rw [or_iff_left (show ¬Resets d (.vlClr okInit) from hresets), rtcStep, init_of_not okInit hresets]
  | chip flags time1 =>
    rw [or_iff_left (show ¬Resets d (.chip flags time1) from id), rtcStep, Chip.Mode24, raise_mode24]
    rfl

/-- The chip never leaves the 24-hour mode, and the driver that resets it does not notice that it has got there. -/
theorem run_modes (d : Device) (ops : List RtcOp) :
    ((ops.foldl (rtcStep hw) d).chip.Mode24 ↔
      d.chip.Mode24 ∨ ¬Along (rtcStep hw) (fun d op => ¬Resets d op) d ops) ∧
      (ops.foldl (rtcStep hw) d).twentyfourhour = d.twentyfourhour := by
  induction ops generalizing d with
  | nil => simp [Along]
  | cons op ops ih =>
    obtain ⟨hmode, hhours⟩ := ih (rtcStep hw d op)
    refine ⟨?_, hhours.trans (rtcStep_twentyfourhour d op)⟩
    rw [List.foldl_cons, hmode, rtcStep_mode24, Along, not_and_or, not_not, or_assoc]

theorem readStatus_ne_one {ok : Bool} (hclear : ¬(ok = true ∧ c.status1 &&& (flagPoc ||| flagBld) ≠ 0)) :
    (readStatus hw ok c).1 ≠ 1 := by
  unfold readStatus
  split
  next hok =>
    rw [if_neg fun hflag => hclear ⟨hok, hflag⟩]
    exact Int.zero_ne_one
  next =>
    change eio ≠ 1
    decide

/-- What TIME1 holds after a time has been set. -/
theorem setTime_time1 (tm : RtcTime) (okStatus : Bool) (okInit : Nat → Bool × Bool) (d : Device) :
    (setTime hw tm okStatus okInit true d).2.chip.time1 = reversed hw (keptTime hw
      (setTime hw tm okStatus okInit true d).2.chip.mode24 (timeBytes hw d.twentyfourhour tm)) := by
  change reversed hw (keptTime hw _ (reversed hw (reversed hw (timeBytes hw d.twentyfourhour tm)))) = _
  rw [reversed_reversed]
  rfl

theorem setTime_kept (tm : RtcTime) (okStatus : Bool) (okInit : Nat → Bool × Bool) (d : Device) {later : List RtcOp}
    (kept : Along (rtcStep hw) KeepsTime (setTime hw tm okStatus okInit true d).2 later) :
    (later.foldl (rtcStep hw) (setTime hw tm okStatus okInit true d).2).chip.time1 =
      (setTime hw tm okStatus okInit true d).2.chip.time1 :=
  kept.invariant (P := fun e => e.chip.time1 = (setTime hw tm okStatus okInit true d).2.chip.time1) rfl
    fun _ _ h hop => (rtcStep_keepsTime hop).trans h

/-- The driver writes an afternoon hour in the 12-hour mode to a chip that is in the 24-hour mode, or that it puts
there in the same call. -/
def LosesAfternoon (d : Device) (tm : RtcTime) (okStatus : Bool) (okInit : Nat → Bool × Bool) : Prop :=
  d.twentyfourhour = false ∧ (d.chip.Mode24 ∨ Resets d (.setTime tm okStatus okInit true)) ∧ 12 ≤ tm.tmHour

/-- The time that has been set is read back, in either hour mode and whatever else is called, but twelve hours early
where the afternoon is lost, and unless the chip has raised a flag by then: then the reading fails if the flag can be
read, and gives the time if not. -/
theorem time_reads_back (hw : Hardware) (d : Device) (tm : RtcTime) (valid : tm.Valid) (okStatus : Bool)
    (okInit : Nat → Bool × Bool) (later : List RtcOp)
    (kept : Along (rtcStep hw) KeepsTime (setTime hw tm okStatus okInit true d).2 later) (okFlag : Bool) :
    let e := later.foldl (rtcStep hw) (setTime hw tm okStatus okInit true d).2
    let read := readTime hw okFlag true e
    (setTime hw tm okStatus okInit true d).1 = 0 ∧
      (okFlag = true ∧ e.chip.status1 &&& (flagPoc ||| flagBld) ≠ 0 → read.1 = einval ∧ read.2.1 = none) ∧
      (¬(okFlag = true ∧ e.chip.status1 &&& (flagPoc ||| flagBld) ≠ 0) → read.1 = 0 ∧
        (¬LosesAfternoon d tm okStatus okInit → read.2.1 = some tm) ∧
        (LosesAfternoon d tm okStatus okInit → read.2.1 = some { tm with tmHour := tm.tmHour - 12 })) := by
  obtain ⟨hhour0, hhour⟩ := valid.hour
  have htime1 := (setTime_kept tm okStatus okInit d kept).trans (setTime_time1 tm okStatus okInit d)
  have hmode : (later.foldl (rtcStep hw) (setTime hw tm okStatus okInit true d).2).twentyfourhour = d.twentyfourhour :=
    (run_modes _ later).2.trans (rtcStep_twentyfourhour d (.setTime tm okStatus okInit true))
  have hchip : (setTime hw tm okStatus okInit true d).2.chip.Mode24 ↔
      d.chip.Mode24 ∨ Resets d (.setTime tm okStatus okInit true) := rtcStep_mode24 d (.setTime tm okStatus okInit true)
  intro e read
  change e.chip.time1 = _ at htime1
  change e.twentyfourhour = _ at hmode
  have hlost : LosesAfternoon d tm okStatus okInit ↔ d.twentyfourhour = false ∧
      (setTime hw tm okStatus okInit true d).2.chip.mode24 = true ∧ 12 ≤ tm.tmHour := by
    rw [LosesAfternoon, ← hchip, mode24_iff]
  have hread (hclear : ¬(okFlag = true ∧ e.chip.status1 &&& (flagPoc ||| flagBld) ≠ 0)) :
      read.1 = 0 ∧ read.2.1 = some { tm with tmHour :=
        if d.twentyfourhour = false ∧ (setTime hw tm okStatus okInit true d).2.chip.mode24 = true ∧ 12 ≤ tm.tmHour
        then tm.tmHour - 12 else tm.tmHour } := by
    have hstatus : (readStatus hw okFlag e.chip).1 ≠ 1 := readStatus_ne_one hclear
    change (readTime hw okFlag true e).1 = 0 ∧ (readTime hw okFlag true e).2.1 = _
    unfold readTime
    dsimp only
    rw [if_neg hstatus, if_pos rfl, readStatus_time1, htime1, hmode, reversed_reversed, timeOfBytes_modes valid,
      reg2hr_keepHour _ _ hhour0 hhour]
    exact ⟨rfl, rfl⟩
  refine ⟨rfl, fun ⟨hok, hflag⟩ => ?_, fun hclear => ⟨(hread hclear).1, fun hkept => ?_, fun hearly => ?_⟩⟩
  · change (readTime hw okFlag true e).1 = einval ∧ (readTime hw okFlag true e).2.1 = none
    simp [readTime, readStatus, hok, hflag]
  · rw [(hread hclear).2, if_neg (mt hlost.mpr hkept)]
  · rw [(hread hclear).2, if_pos (hlost.mp hearly)]

/-- Five in the afternoon is read back from a chip in the 12-hour mode, and as five in the morning after a reset. -/
theorem time_reads_back_of_fivePm :
    (readTime seiko true true (rtcStep seiko (setTime seiko fivePm true (fun _ => (true, true)) true
      ⟨⟨0, 0, ⟨[0, 0, 0, 0, 0, 0, 0], rfl⟩, ⟨[0, 0, 0], rfl⟩⟩, false⟩).2
      (.setAlarm ⟨true, fivePm⟩ fun _ => true))).2.1 = some fivePm ∧
    (readTime seiko true true (setTime seiko fivePm true (fun _ => (true, true)) true
      ⟨⟨flagBld, 0, ⟨[0, 0, 0, 0, 0, 0, 0], rfl⟩, ⟨[0, 0, 0], rfl⟩⟩, false⟩).2).2.1 = some { fivePm with tmHour := 5 } := by
  constructor
  · refine ((time_reads_back seiko ⟨⟨0, 0, ⟨[0, 0, 0, 0, 0, 0, 0], rfl⟩, ⟨[0, 0, 0], rfl⟩⟩, false⟩ fivePm fivePm_valid true
      (fun _ => (true, true)) [.setAlarm ⟨true, fivePm⟩ fun _ => true] ⟨⟨id, trivial⟩, trivial⟩ true).2.2 (by decide)).2.1 ?_
    rintro ⟨-, hmode | ⟨-, hflag, -⟩, -⟩
    · exact hmode rfl
    · exact hflag rfl
  · exact ((time_reads_back seiko ⟨⟨flagBld, 0, ⟨[0, 0, 0, 0, 0, 0, 0], rfl⟩, ⟨[0, 0, 0], rfl⟩⟩, false⟩ fivePm
      fivePm_valid true (fun _ => (true, true)) [] trivial true).2.2 (by decide)).2.2 ⟨rfl, .inr ⟨rfl, by decide, rfl⟩, by decide⟩

theorem setFreqInt1_rest (okRead okWrite : Bool) (c : Chip) :
    (setFreqInt1 hw okRead okWrite c).time1 = c.time1 ∧ (setFreqInt1 hw okRead okWrite c).status1 = c.status1 := by
  unfold setFreqInt1
  split <;> exact ⟨rfl, rfl⟩

theorem disableTestMode_rest (okRead okWrite : Bool) (c : Chip) :
    (disableTestMode okRead okWrite c).2.time1 = c.time1 ∧ (disableTestMode okRead okWrite c).2.status1 = c.status1 := by
  unfold disableTestMode
  split_ifs <;> exact ⟨rfl, rfl⟩

/-- A chip that the driver accepts is in the hour mode that the driver takes it to be in. -/
theorem probe_modes {ok : Nat → Bool} (h : probe hw ok c = some d) :
    (d.twentyfourhour = true ↔ c.Mode24) ∧ (d.chip.Mode24 ↔ c.Mode24) ∧ d.chip.time1 = c.time1 := by
  have hdone {chip : Chip} (hd : some (Device.mk (setFreqInt1 hw (ok 3) (ok 4) chip) (decide (c.status1 &&& flag24H ≠ 0))) =
        some d) (hrest : chip.time1 = (readStatus hw (ok 0) c).2.time1 ∧ chip.status1 = (readStatus hw (ok 0) c).2.status1) :
      (d.twentyfourhour = true ↔ c.Mode24) ∧ (d.chip.Mode24 ↔ c.Mode24) ∧ d.chip.time1 = c.time1 := by
    obtain rfl := Option.some.inj hd
    obtain ⟨hfreqTime, hfreqStatus⟩ := @setFreqInt1_rest hw (ok 3) (ok 4) chip
    refine ⟨decide_eq_true_iff, ?_, (hfreqTime.trans hrest.1).trans (readStatus_time1 (ok 0) c)⟩
    change (setFreqInt1 hw (ok 3) (ok 4) chip).status1 &&& flag24H ≠ 0 ↔ c.Mode24
    rw [hfreqStatus, hrest.2]
    exact readStatus_mode24 (ok 0) c
  unfold probe at h
  dsimp only at h
  by_cases hread : (readStatus hw (ok 0) c).1 < 0
  · rw [if_pos hread] at h
    cases h
  · rw [if_neg hread] at h
    by_cases hint2 : c.status1 &&& flagInt2 ≠ 0
    · rw [if_pos hint2] at h
      cases hdisable : ok 1 with
      | true =>
        rw [hdisable] at h
        exact hdone h ⟨rfl, rfl⟩
      | false =>
        rw [hdisable] at h
        cases h
    · rw [if_neg hint2] at h
      split_ifs at h
      exact hdone h (disableTestMode_rest (ok 1) (ok 2) _)

/-- An afternoon hour is a morning hour to a driver that has noticed the chip's new mode. -/
theorem reg2hr_of_modes_differ (mode24 : Bool) {x : Int} (h0 : 0 ≤ x) (h : x < 24) :
    (reg2hr hw true (hw.keepHour mode24 (hr2reg hw false x)) : Int) = if x < 12 then x else x - 12 := by
  rw [reg2hr_keepHour_true]
  exact (@hr2reg_digits hw x h0 h).2

/-- A time that has been set survives a restart of the driver, unless it is in the afternoon and the chip, found in the
12-hour mode, has been reset before or by the setting: then it is twelve hours early. -/
theorem time_after_restart (hw : Hardware) (c : Chip) (ok : Nat → Bool) (d : Device) (found : probe hw ok c = some d)
    (ops : List RtcOp) (tm : RtcTime) (valid : tm.Valid) (okStatus : Bool) (okInit : Nat → Bool × Bool)
    (later : List RtcOp) :
    let setting := ops ++ [.setTime tm okStatus okInit true]
    let Kept := tm.tmHour < 12 ∨ d.twentyfourhour = true ∨ Along (rtcStep hw) (fun d op => ¬Resets d op) d setting
    Along (rtcStep hw) KeepsTime (setting.foldl (rtcStep hw) d) later → ∀ (okAgain : Nat → Bool) (e : Device),
      probe hw okAgain ((setting ++ later).foldl (rtcStep hw) d).chip = some e →
      e.chip.status1 &&& (flagPoc ||| flagBld) = 0 →
      (Kept → (readTime hw true true e).2.1 = some tm) ∧
        (¬Kept → (readTime hw true true e).2.1 = some { tm with tmHour := tm.tmHour - 12 }) := by
  intro setting Kept kept okAgain e again clear
  obtain ⟨hfound, hchip, -⟩ := probe_modes found
  obtain ⟨hagain, -, htime⟩ := probe_modes again
  obtain ⟨hset, hset24⟩ := @run_modes hw d setting
  obtain ⟨hlater, -⟩ := @run_modes hw (setting.foldl (rtcStep hw) d) later
  have hkept : Along (rtcStep hw) (fun d op => ¬Resets d op) (setting.foldl (rtcStep hw) d) later :=
    kept.mono (P := fun _ => True) trivial (fun _ _ _ _ => trivial) fun _ _ _ h => h.1
  rw [List.foldl_append, hlater, hset, hchip, ← hfound, or_iff_left (not_not_intro hkept)] at hagain
  have hbytes : e.chip.time1 = reversed hw (keptTime hw
      (setting.foldl (rtcStep hw) d).chip.mode24 (timeBytes hw d.twentyfourhour tm)) := by
    have hset : setting.foldl (rtcStep hw) d = (setTime hw tm okStatus okInit true (ops.foldl (rtcStep hw) d)).2 := by
      rw [List.foldl_append]
      rfl
    rw [hset] at kept ⊢
    rw [htime, List.foldl_append, hset, setTime_kept _ _ _ _ kept, setTime_time1, (@run_modes hw d ops).2]
  have hread : (readTime hw true true e).2.1 =
      some { tm with tmHour := reg2hr hw e.twentyfourhour (hw.keepHour
        (setting.foldl (rtcStep hw) d).chip.mode24 (hr2reg hw d.twentyfourhour tm.tmHour)) } := by
    have hstatus : (readStatus hw true e.chip).1 ≠ 1 := readStatus_ne_one fun hflag => hflag.2 clear
    unfold readTime
    dsimp only
    rw [if_neg hstatus, if_pos rfl, readStatus_time1, hbytes, reversed_reversed, timeOfBytes_modes valid]
  rw [hread]
  obtain ⟨hhour0, hhour⟩ := valid.hour
  by_cases hsame : e.twentyfourhour = d.twentyfourhour
  · have hkeeps : Kept := by
      cases hfirst : d.twentyfourhour with
      | true => exact .inr (.inl hfirst)
      | false =>
        refine .inr (.inr (not_not.mp fun hresets => ?_))
        rw [hagain.mpr (.inr hresets), hfirst] at hsame
        cases hsame
    -- a driver that still takes the chip to be in the 12-hour mode is right
    have hmode : ¬(d.twentyfourhour = false ∧ (setting.foldl (rtcStep hw) d).chip.mode24 = true ∧ 12 ≤ tm.tmHour) := by
      rintro ⟨hfirst, hmode24, -⟩
      have hlast := hagain.mpr ((hset.mp (mode24_iff.mp hmode24)).imp (fun h => hfound.mpr (hchip.mp h)) id)
      rw [hsame, hfirst] at hlast
      cases hlast
    rw [hsame, reg2hr_keepHour _ _ hhour0 hhour, if_neg hmode]
    exact ⟨fun _ => rfl, fun hnot => absurd hkeeps hnot⟩
  · obtain ⟨hlast, hfirst⟩ : e.twentyfourhour = true ∧ d.twentyfourhour = false := by
      cases hfirst : d.twentyfourhour with
      | true => exact absurd ((hagain.mpr (.inl hfirst)).trans hfirst.symm) hsame
      | false => exact ⟨by simpa [hfirst] using hsame, rfl⟩
    have hresets : ¬Along (rtcStep hw) (fun d op => ¬Resets d op) d setting :=
      (hagain.mp hlast).resolve_left (by simp [hfirst])
    have hkeeps : Kept ↔ tm.tmHour < 12 := by simp [Kept, hfirst, hresets]
    rw [hlast, hfirst, reg2hr_of_modes_differ _ hhour0 hhour, hkeeps]
    refine ⟨fun hmorning => by rw [if_pos hmorning], fun hafternoon => by rw [if_neg hafternoon]⟩

theorem time_after_restart_of_reset :
    (readTime seiko true true ⟨⟨flag24H, 0x10, reversed seiko (keptTime seiko true (timeBytes seiko false fivePm)),
      ⟨[0, 0, 0], rfl⟩⟩, true⟩).2.1 =
      some { fivePm with tmHour := 5 } :=
  (time_after_restart seiko ⟨0, 0, ⟨[0, 0, 0, 0, 0, 0, 0], rfl⟩, ⟨[0, 0, 0], rfl⟩⟩ (fun _ => true)
    ⟨⟨0, 0x10, ⟨[0, 0, 0, 0, 0, 0, 0], rfl⟩, ⟨[0, 0, 0], rfl⟩⟩, false⟩ rfl [.vlClr fun _ => (true, true)] fivePm
    fivePm_valid true (fun _ => (true, true)) [] trivial (fun _ => true)
    ⟨⟨flag24H, 0x10, reversed seiko (keptTime seiko true (timeBytes seiko false fivePm)), ⟨[0, 0, 0], rfl⟩⟩, true⟩ rfl rfl).2
    (by rintro (hmorning | hmode | ⟨hresets, -⟩)
        · exact absurd hmorning (by decide)
        · cases hmode
        · exact hresets rfl)

end NvrxFirmware.Rtc
