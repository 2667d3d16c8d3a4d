import NvrxFirmware.CadenceClears
import NvrxFirmware.GpioDriverModel
import NvrxFirmware.Runs

namespace NvrxFirmware.MxGpio

open MxGpioCtl (Request)

variable {s t : DrvState} {d : Driver} {g : Nat → Bool} {op : DriverOp} {pin : Nat}

/-- A state of the cadence engine with other levels on the pins. -/
def DrvState.withPins (s : DrvState) (g : Nat → Bool) : DrvState := { s with gpio := g }

/-- The states agree in all but the pins. -/
def SameEngine (s t : DrvState) : Prop := ∃ g, t = s.withPins g

theorem SameEngine.refl (s : DrvState) : SameEngine s s := ⟨s.gpio, rfl⟩

theorem SameEngine.trans {u : DrvState} (h : SameEngine s t) (h' : SameEngine t u) : SameEngine s u := by
  obtain ⟨g, rfl⟩ := h
  obtain ⟨g', rfl⟩ := h'
  exact ⟨g', rfl⟩

theorem gpioSetValue_sameEngine (pin : Nat) (level : Bool) (s : DrvState) : SameEngine s (gpioSetValue pin level s) :=
  ⟨_, rfl⟩

theorem updateCadPriority_withPins (s : DrvState) (g : Nat → Bool) :
    updateCadPriority (s.withPins g) = (updateCadPriority s).withPins g := by
  unfold updateCadPriority DrvState.withPins
  dsimp only
  split <;> rfl

theorem fillStructOfLedBuz_withPins (resp : Nat) (o : BuzzerLed) (s : DrvState) (g : Nat → Bool) :
    fillStructOfLedBuz resp o (s.withPins g) = (fillStructOfLedBuz resp o s).withPins g := by
  by_cases h : resp < nvrxRespMax
  · rw [fillStructOfLedBuz_of_lt h, fillStructOfLedBuz_of_lt h, ← updateCadPriority_withPins]
    rfl
  · rw [fillStructOfLedBuz, fillStructOfLedBuz, if_neg h, if_neg h]

theorem ioctlSetCadence_withPins (state : UInt32) (s : DrvState) (g : Nat → Bool) :
    (ioctlSetCadence state (s.withPins g)).2 = (ioctlSetCadence state s).2.withPins g := by
  by_cases h : setResponse state < nvrxRespMax
  · simp only [ioctlSetCadence_fills h, fillStructOfLedBuz_withPins]
  · rw [ioctlSetCadence_rejects h, ioctlSetCadence_rejects h]

theorem foldl_modRow_withPins (f : CadRow → CadRow) (rows : List Nat) (s : DrvState) (g : Nat → Bool) :
    rows.foldl (fun s row => s.modRow row f) (s.withPins g) = (rows.foldl (fun s row => s.modRow row f) s).withPins g := by
  induction rows generalizing s with
  | nil => rfl
  | cons row rows ih => exact ih (s.modRow row f)

theorem clearRows_withPins (one all present : CadRow → CadRow) (resp : Nat) (s : DrvState) (g : Nat → Bool) :
    clearRows one all present resp (s.withPins g) = (clearRows one all present resp s).withPins g := by
  unfold clearRows
  split_ifs
  · rfl
  · exact foldl_modRow_withPins _ _ s g
  · rfl
  · rfl

theorem clearCadence_withPins (led buz : Nat) (s : DrvState) (g : Nat → Bool) :
    (clearCadence led buz (s.withPins g)).2 = (clearCadence led buz s).2.withPins g := by
  unfold clearCadence
  dsimp only
  rw [← updateCadPriority_withPins, clearBuzCadence_eq, ← clearRows_withPins, clearLedCadence_eq, ← clearRows_withPins]
  rfl

theorem playOutput_withPins (s : DrvState) (g : Nat → Bool) (o : BuzzerLed) :
    SameEngine (playOutput s o) (playOutput (s.withPins g) o) := by
  unfold playOutput
  dsimp only [DrvState.withPins]
  cases (playCell (s.buzLedCadence s.currentPriority o)).2 with
  | none => exact ⟨g, rfl⟩
  | some status => exact ⟨_, rfl⟩

theorem foldl_playOutput_withPins (os : List BuzzerLed) (s : DrvState) (g : Nat → Bool) :
    SameEngine (os.foldl playOutput s) (os.foldl playOutput (s.withPins g)) := by
  induction os generalizing s g with
  | nil => exact ⟨g, rfl⟩
  | cons o os ih =>
    obtain ⟨g', hplayed⟩ := playOutput_withPins s g o
    rw [List.foldl_cons, List.foldl_cons, hplayed]
    exact ih (playOutput s o) g'

/-- A tick that is not blocked, as one choice after the two loops. -/
theorem procBuzLedCad_of_runs (h : s.isBuzLedFillInProg = false) : procBuzLedCad s =
    if (rewindFinished BuzzerLed.all ((BuzzerLed.all.foldl playOutput s).buzLedCadence
        (BuzzerLed.all.foldl playOutput s).currentPriority)).2 = true then updateCadPriority (playedState s)
    else playedState s := by
  rw [procBuzLedCad, if_pos h]
  rfl

theorem procBuzLedCad_withPins (s : DrvState) (g : Nat → Bool) :
    SameEngine (procBuzLedCad s) (procBuzLedCad (s.withPins g)) := by
  cases hfill : s.isBuzLedFillInProg with
  | true =>
    rw [procBuzLedCad_blocked hfill, procBuzLedCad_blocked (s := s.withPins g) hfill]
    exact ⟨g, rfl⟩
  | false =>
    obtain ⟨g', hplayed⟩ := foldl_playOutput_withPins BuzzerLed.all s g
    have hstate : playedState (s.withPins g) = (playedState s).withPins g' := by
      rw [playedState, hplayed]
      rfl
    have hflag (t : DrvState) : (rewindFinished BuzzerLed.all ((t.withPins g').buzLedCadence
        (t.withPins g').currentPriority)).2 = (rewindFinished BuzzerLed.all (t.buzLedCadence t.currentPriority)).2 := rfl
    rw [procBuzLedCad_of_runs hfill, procBuzLedCad_of_runs (s := s.withPins g) hfill, hplayed, hstate, hflag]
    split_ifs
    · exact ⟨g', updateCadPriority_withPins (playedState s) g'⟩
    · exact ⟨g', rfl⟩

/-- What the engine does depends on no pin. -/
theorem SameEngine.cadStep (h : SameEngine s t) (op : CadOp) : SameEngine (cadStep s op) (cadStep t op) := by
  obtain ⟨g, rfl⟩ := h
  cases op with
  | setCadence state => exact ⟨g, ioctlSetCadence_withPins state s g⟩
  | clrCadence led buz => exact ⟨g, clearCadence_withPins led.toNat buz.toNat s g⟩
  | procBuzLedCad => exact procBuzLedCad_withPins s g
  | syncBuzLedCad => exact ⟨g, rfl⟩

theorem SameEngine.tickLevel (h : SameEngine s t) (o : BuzzerLed) : tickLevel t o = tickLevel s o := by
  obtain ⟨g, rfl⟩ := h
  rfl

theorem write_sameEngine (writes : List PinWrite) (s : DrvState) : SameEngine s (s.write writes) := by
  induction writes generalizing s with
  | nil => exact .refl s
  | cons w writes ih => exact (gpioSetValue_sameEngine w.1 w.2 s).trans (ih _)

/-- The pins that the setters set. -/
def setterPins : List Nat :=
  [buzzerGpioPin, almRlyCntlPin, fanCtl1Pin, fanCtl2Pin, usb2Pwren0Pin, redLedGpioPin, greenLedGpioPin]

/-- The function only sets pins, and always the same ones to the same levels. -/
def WritesOnly (f : DrvState → Int × DrvState) : Prop :=
  ∃ writes : List PinWrite, (∀ w ∈ writes, w.1 ∈ setterPins) ∧ ∀ s, (f s).2 = s.write writes

theorem WritesOnly.keep (r : Int) : WritesOnly fun s => (r, s) := ⟨[], nofun, fun _ => rfl⟩

theorem WritesOnly.set {pin : Nat} (hpin : pin ∈ setterPins) (level : Bool) (r : Int) :
    WritesOnly fun s => (r, gpioSetValue pin level s) :=
  ⟨[(pin, level)], by simpa using hpin, fun _ => rfl⟩

theorem WritesOnly.set_set {pin pin' : Nat} (hpin : pin ∈ setterPins) (hpin' : pin' ∈ setterPins) (level level' : Bool)
    (r : Int) : WritesOnly fun s => (r, gpioSetValue pin' level' (gpioSetValue pin level s)) :=
  ⟨[(pin, level), (pin', level')], by simpa using ⟨hpin, hpin'⟩, fun _ => rfl⟩

theorem WritesOnly.ite {f f' : DrvState → Int × DrvState} (c : Prop) [Decidable c] (h : WritesOnly f)
    (h' : WritesOnly f') : WritesOnly fun s => if c then f s else f' s := by
  by_cases hc : c
  · simpa only [hc, if_true] using h
  · simpa only [hc, if_false] using h'

/-- The setters other than that of the cadence only set pins. -/
theorem gpioSetIoctl_writesOnly {cmd : SetCommand} (hcmd : cmd ≠ .setCadence) (arg : Option UInt32) :
    WritesOnly (gpioSetIoctl cmd arg) := by
  cases arg with
  | none => exact .keep (-1)
  | some state =>
    cases cmd with
    | setCadence => exact absurd rfl hcmd
    | setBuzzer =>
      change WritesOnly fun s => setBuzzer state.toUInt8 s
      unfold setBuzzer
      repeat' apply WritesOnly.ite
      all_goals first | exact .set (by decide) _ _ | exact .keep _
    | setAlmout =>
      change WritesOnly fun s => setAlarmOut state s
      unfold setAlarmOut
      repeat' apply WritesOnly.ite
      all_goals first | exact .set (by decide) _ _ | exact .keep _
    | setFanctl =>
      change WritesOnly fun s => setFanOut state s
      unfold setFanOut
      repeat' apply WritesOnly.ite
      all_goals first | exact .set_set (by decide) (by decide) _ _ _ | exact .set (by decide) _ _ | exact .keep _
    | setUsbpower =>
      change WritesOnly fun s => setUSBPower state s
      unfold setUSBPower
      repeat' apply WritesOnly.ite
      all_goals first | exact .set (by decide) _ _ | exact .keep _
    | setStsled =>
      change WritesOnly fun s => setLed state.toUInt8 s
      unfold setLed
      repeat' apply WritesOnly.ite
      all_goals first | exact .set_set (by decide) (by decide) _ _ _ | exact .set (by decide) _ _ | exact .keep _

/-- The operation as one of the cadence engine, where it is one. -/
def cadenceOp : DriverOp → Option CadOp
  | .gpioIoctl .setCadence (some state) => some (.setCadence state)
  | .gpioIoctl .clrCadence (some word) =>
    some (.clrCadence (.ofNat (word.toNat % 2 ^ 16)) (.ofNat (word.toNat / 2 ^ 16)))
  | .procBuzLedCad => some .procBuzLedCad
  | .syncBuzLedCad => some .syncBuzLedCad
  | _ => none

def cadenceOps (ops : List DriverOp) : List CadOp := ops.filterMap cadenceOp

theorem driverStep_cadence {c : CadOp} (h : cadenceOp op = some c) : (driverStep d op).drv = cadStep d.drv c := by
  unfold cadenceOp at h
  split at h
  · obtain rfl := Option.some.inj h
    rfl
  next word =>
    obtain rfl := Option.some.inj h
    have hword := word.toNat_lt
    have hled : (UInt16.ofNat (word.toNat % 2 ^ 16)).toNat = word.toNat % 2 ^ 16 :=
      UInt16.toNat_ofNat_of_lt' (Nat.mod_lt _ (by decide))
    have hbuz : (UInt16.ofNat (word.toNat / 2 ^ 16)).toNat = word.toNat / 2 ^ 16 :=
      UInt16.toNat_ofNat_of_lt' (by rw [UInt16.size]; omega)
    rw [cadStep, hled, hbuz]
    rfl
  · obtain rfl := Option.some.inj h
    rfl
  · obtain rfl := Option.some.inj h
    rfl
  · cases h

theorem valueStore_sameEngine (attr : Attribute) (buf : List UInt8) (d : Driver) :
    SameEngine d.drv (valueStore attr buf d).drv := by
  cases attr with
  | phyrst | phyrst2 | asmrst => exact write_sameEngine _ d.drv
  | _ => exact ⟨_, rfl⟩

theorem setIoctl_sameEngine {cmd : SetCommand} (hcmd : cmd ≠ .setCadence) (arg : Option UInt32) (d : Driver) :
    SameEngine d.drv (setIoctl cmd arg d).2.2.drv := by
  obtain ⟨writes, -, hwrites⟩ := gpioSetIoctl_writesOnly hcmd arg
  have hsame := write_sameEngine writes d.drv
  rw [← hwrites] at hsame
  exact hsame

theorem resetIoctl_sameEngine (line : ResetLine) (arg : Option UInt32) (d : Driver) :
    SameEngine d.drv (resetIoctl line arg d).2.2.drv := by
  cases arg with
  | none => exact .refl d.drv
  | some state => exact write_sameEngine _ d.drv

theorem copyAnswer_driver (arg : Option UInt32) (answer : Answer) (d : Driver) : (copyAnswer arg answer d).2.2 = d := by
  unfold copyAnswer
  split <;> rfl

theorem driverStep_other (h : cadenceOp op = none) : SameEngine d.drv (driverStep d op).drv := by
  cases op with
  | gpioIoctl cmd arg =>
    cases cmd with
    | setCadence | clrCadence =>
      cases arg with
      | none => exact .refl d.drv
      | some word => cases h
    | setBuzzer | setAlmout | setFanctl | setUsbpower | setStsled => exact setIoctl_sameEngine (by decide) arg d
    | setClrPhy | setClrPhy2 | setClrAsmRst => exact resetIoctl_sameEngine _ arg d
    | getCoretempe | getBuzSts => exact .refl d.drv
    | getAllInput | getCadSts | getCardType | getBoardVersion =>
      rw [driverStep, gpioIoctl, copyAnswer_driver]
      exact .refl d.drv
  | valueStore attr buf => exact valueStore_sameEngine attr buf d
  | procBuzLedCad | syncBuzLedCad => cases h
  | checkInputPinStatus => exact .refl d.drv
  | level pin high => exact gpioSetValue_sameEngine pin high d.drv

theorem driverInit_drv (gpio : Nat → Bool) : (driverInit gpio).drv = gpioModInit gpio := by
  rw [driverInit]

/-- In any run the engine is where its own requests alone take it. -/
theorem driverRun_sameEngine (gpio : Nat → Bool) (ops : List DriverOp) :
    SameEngine (cadRun gpio (cadenceOps ops)) (driverRun gpio ops).drv := by
  have hstart : SameEngine (cadRun gpio (cadenceOps [])) (driverInit gpio).drv := by
    rw [driverInit_drv, cadRun, cadenceOps, List.filterMap_nil, List.foldl_nil]
    exact .refl _
  refine foldl_history (f := driverStep) (s := driverInit gpio)
    (Q := fun history d => SameEngine (cadRun gpio (cadenceOps history)) d.drv) hstart (fun history d op hengine => ?_) ops
  rw [cadenceOps, List.filterMap_append, ← cadenceOps]
  cases hop : cadenceOp op with
  | none =>
    rw [List.filterMap_cons_none hop, List.filterMap_nil, List.append_nil]
    exact hengine.trans (driverStep_other hop)
  | some c =>
    rw [List.filterMap_cons_some hop, List.filterMap_nil, cadRun, List.foldl_append, ← cadRun, driverStep_cadence hop]
    exact hengine.cadStep c

/-- Neither the buzzer nor an LED. -/
def Outside (pin : Nat) : Prop := ∀ o, pin ≠ buzLedPin o

instance : DecidablePred Outside := fun pin =>
  decidable_of_iff (∀ o ∈ BuzzerLed.all, pin ≠ buzLedPin o) ⟨fun h o => h o (mem_all o), fun h o _ => h o⟩

/-- The states agree in all that is not the engine's. -/
structure SameOutside (d e : Driver) : Prop where
  pins : ∀ pin, Outside pin → e.drv.gpio pin = d.drv.gpio pin
  inputs : e.inputs = d.inputs
  resets : e.resetDone = d.resetDone

theorem SameOutside.refl (d : Driver) : SameOutside d d := ⟨fun _ _ => rfl, rfl, rfl⟩

theorem playOutput_outside (hpin : Outside pin) (s : DrvState) (o : BuzzerLed) : (playOutput s o).gpio pin = s.gpio pin := by
  rw [playOutput_gpio, Function.update_of_ne (hpin o)]

theorem procBuzLedCad_outside (hpin : Outside pin) (s : DrvState) : (procBuzLedCad s).gpio pin = s.gpio pin := by
  have hplayed : (playedState s).gpio pin = s.gpio pin := by
    rw [playedState]
    simp only [modRow_gpio, BuzzerLed.all, List.foldl_cons, List.foldl_nil, playOutput_outside hpin]
  cases hfill : s.isBuzLedFillInProg with
  | true => rw [procBuzLedCad_blocked hfill]
  | false =>
    rw [procBuzLedCad_of_runs hfill]
    split
    · rw [updateCadPriority_gpio, hplayed]
    · exact hplayed

theorem cadStep_outside (hpin : Outside pin) (s : DrvState) (c : CadOp) : (cadStep s c).gpio pin = s.gpio pin := by
  cases c with
  | setCadence state => exact congrFun (ioctlSetCadence_gpio state s) pin
  | clrCadence led buz => exact congrFun (clearCadence_gpio led.toNat buz.toNat s) pin
  | procBuzLedCad => exact procBuzLedCad_outside hpin s
  | syncBuzLedCad => rfl

theorem driverStep_cadence_outside {c : CadOp} (h : cadenceOp op = some c) : SameOutside d (driverStep d op) := by
  refine ⟨fun pin hpin => ?_, ?_, ?_⟩
  · rw [driverStep_cadence h, cadStep_outside hpin]
  all_goals
    unfold cadenceOp at h
    split at h <;> first | rfl | cases h

def SamePins (s t : DrvState) : Prop := ∀ pin, Outside pin → t.gpio pin = s.gpio pin

theorem SamePins.set (h : SamePins s t) (pin : Nat) (level : Bool) :
    SamePins (gpioSetValue pin level s) (gpioSetValue pin level t) := by
  intro other hother
  by_cases hpin : other = pin
  · subst hpin
    simp [gpioSetValue]
  · simp [gpioSetValue, hpin, h other hother]

theorem SamePins.write (h : SamePins s t) (writes : List PinWrite) : SamePins (s.write writes) (t.write writes) := by
  induction writes generalizing s t with
  | nil => exact h
  | cons w writes ih => exact ih (h.set w.1 w.2)

theorem checkInputPinStatus_congr {g g' : Nat → Bool} (h : ∀ input, g' (inputPin input) = g (inputPin input))
    (s : InputState) : checkInputPinStatus g' s = checkInputPinStatus g s := by
  have hlevel (input : InputMap) : getHWInputStatus g' input = getHWInputStatus g input := by
    rw [getHWInputStatus, h, getHWInputStatus]
  have hsample : sampleInput g' = sampleInput g := by
    funext s cnt
    rw [sampleInput, hlevel, sampleInput]
  simp only [checkInputPinStatus, hlevel, hsample]

theorem inputPin_outside (input : InputMap) : Outside (inputPin input) := by
  cases input <;> decide

theorem SameOutside.powerOnOff {e : Driver} (h : SameOutside d e) (line : ResetLine) (state : UInt32) :
    SameOutside (powerOnOff line state d).2 (powerOnOff line state e).2 := by
  have hwrites : resetWrites line e = resetWrites line d := by rw [resetWrites, h.resets, resetWrites]
  refine ⟨?_, h.inputs, ?_⟩
  · rw [MxGpio.powerOnOff, hwrites]
    exact SamePins.write h.pins _
  · rw [MxGpio.powerOnOff, h.resets]
    rfl

theorem SameOutside.setDrv {e : Driver} (h : SameOutside d e) (hpins : SamePins s t) :
    SameOutside (d.setDrv s) (e.setDrv t) := ⟨hpins, h.inputs, h.resets⟩

theorem SameOutside.valueStore {e : Driver} (h : SameOutside d e) (attr : Attribute) (buf : List UInt8) :
    SameOutside (valueStore attr buf d) (valueStore attr buf e) := by
  cases attr with
  | phyrst | phyrst2 | asmrst => exact h.powerOnOff _ _
  | _ => exact h.setDrv (SamePins.set h.pins _ _)

theorem SameOutside.resetIoctl {e : Driver} (h : SameOutside d e) (line : ResetLine) (arg : Option UInt32) :
    SameOutside (resetIoctl line arg d).2.2 (resetIoctl line arg e).2.2 := by
  cases arg with
  | none => exact h
  | some state => exact h.powerOnOff line state

theorem SameOutside.setIoctl {e : Driver} (h : SameOutside d e) {cmd : SetCommand} (hcmd : cmd ≠ .setCadence)
    (arg : Option UInt32) : SameOutside (setIoctl cmd arg d).2.2 (setIoctl cmd arg e).2.2 := by
  obtain ⟨writes, -, hwrites⟩ := gpioSetIoctl_writesOnly hcmd arg
  have hpins := SamePins.write h.pins writes
  rw [← hwrites, ← hwrites] at hpins
  exact h.setDrv hpins

/-- What is not for the engine does the same whatever the engine's pins are. -/
theorem SameOutside.driverStep {e : Driver} (h : SameOutside d e) (hop : cadenceOp op = none) :
    SameOutside (driverStep d op) (driverStep e op) := by
  cases op with
  | gpioIoctl cmd arg =>
    cases cmd with
    | setCadence | clrCadence =>
      cases arg with
      | none => exact h
      | some word => cases hop
    | setBuzzer | setAlmout | setFanctl | setUsbpower | setStsled => exact h.setIoctl (by decide) arg
    | setClrPhy | setClrPhy2 | setClrAsmRst => exact h.resetIoctl _ arg
    | getCoretempe | getBuzSts => exact h
    | getAllInput | getCadSts | getCardType | getBoardVersion =>
      rw [MxGpio.driverStep, MxGpio.driverStep, gpioIoctl, gpioIoctl, copyAnswer_driver, copyAnswer_driver]
      exact h
  | valueStore attr buf => exact h.valueStore attr buf
  | procBuzLedCad | syncBuzLedCad => cases hop
  | checkInputPinStatus =>
    refine ⟨h.pins, ?_, h.resets⟩
    rw [MxGpio.driverStep, MxGpio.driverStep, h.inputs,
      checkInputPinStatus_congr fun input => h.pins _ (inputPin_outside input)]
  | level pin high => exact h.setDrv (SamePins.set h.pins pin high)

/-- In any run all else is where the requests that are not for the engine take it. -/
theorem driverRun_sameOutside (gpio : Nat → Bool) (ops : List DriverOp) :
    SameOutside (driverRun gpio (ops.filter fun op => cadenceOp op = none)) (driverRun gpio ops) := by
  refine foldl_history (f := driverStep) (s := driverInit gpio)
    (Q := fun history d => SameOutside (driverRun gpio (history.filter fun op => cadenceOp op = none)) d)
    (.refl _) (fun history d op hsame => ?_) ops
  rw [List.filter_append]
  cases hop : cadenceOp op with
  | none =>
    rw [List.filter_cons_of_pos (by simp [hop]), List.filter_nil, driverRun, List.foldl_append, ← driverRun]
    exact hsame.driverStep hop
  | some c =>
    rw [List.filter_cons_of_neg (by simp [hop]), List.filter_nil, List.append_nil]
    have hnext := driverStep_cadence_outside (d := d) hop
    exact ⟨fun pin hpin => (hnext.pins pin hpin).trans (hsame.pins pin hpin), hnext.inputs.trans hsame.inputs,
      hnext.resets.trans hsame.resets⟩

/-- The driver is made of parts that do not disturb each other: the engine is where the requests for it alone take it,
everything else is where the other requests take it, and whatever these have done to the buzzer and the LEDs, after a
tick an output that is being played shows the level of its cadence. -/
theorem driver_parts_independent (gpio : Nat → Bool) (ops : List DriverOp) :
    SameEngine (cadRun gpio (cadenceOps ops)) (driverRun gpio ops).drv ∧
      SameOutside (driverRun gpio (ops.filter fun op => cadenceOp op = none)) (driverRun gpio ops) ∧
      ∀ o, (driverRun gpio (ops ++ [.procBuzLedCad])).drv.gpio (buzLedPin o) =
        (tickLevel (cadRun gpio (cadenceOps ops)) o).getD ((driverRun gpio ops).drv.gpio (buzLedPin o)) := by
  refine ⟨driverRun_sameEngine gpio ops, driverRun_sameOutside gpio ops, fun o => ?_⟩
  have htick := procBuzLedCad_gpio (s := (driverRun gpio ops).drv) o
  rw [(driverRun_sameEngine gpio ops).tickLevel] at htick
  rw [driverRun, List.foldl_append, ← driverRun]
  exact htick

end NvrxFirmware.MxGpio
