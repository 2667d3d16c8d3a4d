import NvrxFirmware.GpioDriver
import NvrxFirmware.GpioResetsModel

namespace NvrxFirmware.MxGpio

variable {d : Driver} {op : DriverOp} {pin : Nat} {line : ResetLine}

theorem gpioSetValue_resetPin {line : ResetLine} (hpin : resetPin line ≠ pin) (level : Bool) (s : DrvState) :
    (gpioSetValue pin level s).gpio (resetPin line) = s.gpio (resetPin line) := Function.update_of_ne hpin _ _

/-- The driver has not touched the line. -/
def Untouched (line : ResetLine) (d e : Driver) : Prop :=
  e.drv.gpio (resetPin line) = d.drv.gpio (resetPin line) ∧ e.resetDone line = d.resetDone line

theorem powerOnOff_untouched {line other : ResetLine} (h : other ≠ line) (state : UInt32) (d : Driver) :
    Untouched line d (powerOnOff other state d).2 := by
  have hpin : resetPin line ≠ resetPin other := by
    revert h
    cases line <;> cases other <;> decide
  refine ⟨?_, Function.update_of_ne (Ne.symm h) _ _⟩
  rw [powerOnOff, resetWrites]
  split
  · exact (gpioSetValue_resetPin hpin _ _).trans (gpioSetValue_resetPin hpin _ _)
  · rfl

theorem write_resetPin (line : ResetLine) (writes : List PinWrite) (hpins : ∀ w ∈ writes, w.1 ∈ setterPins)
    (s : DrvState) : (s.write writes).gpio (resetPin line) = s.gpio (resetPin line) := by
  induction writes generalizing s with
  | nil => rfl
  | cons w writes ih =>
    obtain ⟨hw, hrest⟩ := List.forall_mem_cons.mp hpins
    have hpin : resetPin line ≠ w.1 := by
      intro heq
      rw [← heq] at hw
      revert hw
      cases line <;> decide
    exact (ih hrest _).trans (gpioSetValue_resetPin hpin w.2 s)

theorem setIoctl_untouched {cmd : SetCommand} (hcmd : cmd ≠ .setCadence) (line : ResetLine) (arg : Option UInt32)
    (d : Driver) : Untouched line d (setIoctl cmd arg d).2.2 := by
  obtain ⟨writes, hpins, hwrites⟩ := gpioSetIoctl_writesOnly hcmd arg
  have hpin := write_resetPin line writes hpins d.drv
  rw [← hwrites] at hpin
  exact ⟨hpin, rfl⟩

/-- What reaches the driver without being for the line leaves it alone. -/
theorem driverStep_reset_other {line : ResetLine} (hop : resetRequest op ≠ some line) :
    Untouched line d (driverStep d op) := by
  cases hcadence : cadenceOp op with
  | some c =>
    have houtside := driverStep_cadence_outside (d := d) hcadence
    exact ⟨houtside.pins _ (by cases line <;> decide), congrFun houtside.resets line⟩
  | none =>
    cases op with
    | gpioIoctl cmd arg =>
      cases cmd with
      | setCadence | clrCadence =>
        cases arg with
        | none => exact ⟨rfl, rfl⟩
        | some word => cases hcadence
      | setBuzzer | setAlmout | setFanctl | setUsbpower | setStsled => exact setIoctl_untouched (by decide) line arg d
      | setClrPhy | setClrPhy2 | setClrAsmRst =>
        cases arg with
        | none => exact ⟨rfl, rfl⟩
        | some state => exact powerOnOff_untouched (fun h => hop (congrArg some h)) state d
      | getCoretempe | getBuzSts => exact ⟨rfl, rfl⟩
      | getAllInput | getCadSts | getCardType | getBoardVersion =>
        rw [driverStep, gpioIoctl, copyAnswer_driver]
        exact ⟨rfl, rfl⟩
    | valueStore attr buf =>
      cases attr with
      | phyrst | phyrst2 | asmrst => exact powerOnOff_untouched (fun h => hop (congrArg some h)) _ d
      | _ => exact ⟨gpioSetValue_resetPin (by cases line <;> decide) _ _, rfl⟩
    | procBuzLedCad | syncBuzLedCad => cases hcadence
    | checkInputPinStatus => exact ⟨rfl, rfl⟩
    | level pin high =>
      refine ⟨gpioSetValue_resetPin (fun hpin => ?_) _ _, rfl⟩
      have hmem := pin.property
      rw [← hpin] at hmem
      revert hmem
      cases line <;> decide

theorem driverStep_reset {line : ResetLine} (hop : resetRequest op = some line) :
    driverStep d op = (powerOnOff line 0 d).2 := by
  unfold resetRequest at hop
  split at hop
  all_goals first | (obtain rfl := Option.some.inj hop; rfl) | cases hop

theorem gpioModInit_gpio (gpio : Nat → Bool) : (gpioModInit gpio).gpio = registerGPIOPin gpio := by
  simp only [gpioModInit, setBuzzerCad, setLedCad]
  split_ifs <;> simp only [fillStructOfLedBuz_gpio, loadedState]

theorem driverInit_resetPin (gpio : Nat → Bool) (line : ResetLine) :
    (driverInit gpio).drv.gpio (resetPin line) = true := by
  rw [driverInit, gpioModInit_gpio]
  cases line <;> rfl

/-- What there is to one line: its level, its flag, and the calls that are pulsing it. -/
@[ext]
structure LineState where
  high : Bool
  done : Bool
  pulse : Nat → Option Pulse

/-- What can happen to a line, the levels driven on it, and whether a call overtakes another. -/
inductive LineStep : LineState → List Bool → Bool → LineState → Prop
  | keeps (l : LineState) : LineStep l [] false l
  | begins (l : LineState) (call : Nat) (hdone : l.done = false) (alone : ∀ other, l.pulse other = none) :
    LineStep l [] false { l with pulse := Function.update l.pulse call (some .drivesLow) }
  | overtakes (l : LineState) (call other : Nat) (hdone : l.done = false) (hcall : l.pulse call = none)
    (hother : l.pulse other ≠ none) :
    LineStep l [] true { l with pulse := Function.update l.pulse call (some .drivesLow) }
  | lowers (l : LineState) (call : Nat) (hcall : l.pulse call = some .drivesLow) :
    LineStep l [false] false ⟨false, l.done, Function.update l.pulse call (some .drivesHigh)⟩
  | raises (l : LineState) (call : Nat) (hcall : l.pulse call = some .drivesHigh) :
    LineStep l [true] false ⟨true, l.done, Function.update l.pulse call (some .setsFlag)⟩
  | setsFlag (l : LineState) (call : Nat) (hcall : l.pulse call = some .setsFlag) :
    LineStep l [] false ⟨l.high, true, Function.update l.pulse call none⟩

theorem pulse_kept {pulse : Nat → Option Pulse} {call other : Nat} {p : Pulse} (hcall : pulse call ≠ some p)
    (hother : pulse other = some p) (v : Option Pulse) : Function.update pulse call v other = some p := by
  have hne : other ≠ call := by
    rintro rfl
    exact hcall hother
  rw [Function.update_of_ne hne]
  exact hother

/-- The line is low during a pulse only. -/
def LineState.LowHeld (l : LineState) : Prop := l.high = false → ∃ call, l.pulse call = some .drivesHigh

theorem LineStep.lowHeld {l l' : LineState} {levels : List Bool} {overtaken : Bool} (h : LineStep l levels overtaken l')
    (hlow : l.LowHeld) : l'.LowHeld := by
  intro hhigh
  cases h with
  | keeps => exact hlow hhigh
  | begins call hdone alone =>
    obtain ⟨holder, hholder⟩ := hlow hhigh
    rw [alone holder] at hholder
    cases hholder
  | overtakes call other hdone hcall hother =>
    obtain ⟨holder, hholder⟩ := hlow hhigh
    exact ⟨holder, pulse_kept (by rw [hcall]; decide) hholder _⟩
  | lowers call hcall => exact ⟨call, Function.update_self _ _ _⟩
  | raises call hcall => cases hhigh
  | setsFlag call hcall =>
    obtain ⟨holder, hholder⟩ := hlow hhigh
    exact ⟨holder, pulse_kept (by rw [hcall]; decide) hholder _⟩

/-- The levels that the one call has driven before it does this. -/
def Pulse.driven : Pulse → List Bool
  | .drivesLow => []
  | .drivesHigh => [false]
  | .setsFlag => [false, true]

/-- One call at most has pulsed the line so far. -/
def PulsedOnce (levels : List Bool) (l : LineState) : Prop :=
  (∀ call, l.pulse call = none) ∧ levels = (if l.done then [false, true] else []) ∨
    ∃ call pulse, l.pulse = Function.update (fun _ => none) call (some pulse) ∧ l.done = false ∧ levels = pulse.driven

/-- Two calls have driven the line low, or are to do so. -/
def PulsedTwice (levels : List Bool) (l : LineState) : Prop :=
  2 ≤ levels.count false ∨ (1 ≤ levels.count false ∧ ∃ call, l.pulse call = some .drivesLow) ∨
    ∃ call other, call ≠ other ∧ l.pulse call = some .drivesLow ∧ l.pulse other = some .drivesLow

theorem PulsedOnce.levels_of_quiet {levels : List Bool} {l : LineState} (h : PulsedOnce levels l)
    (quiet : ∀ call, l.pulse call = none) : levels = if l.done then [false, true] else [] := by
  obtain ⟨-, hlevels⟩ | ⟨call, pulse, hpulse, -⟩ := h
  · exact hlevels
  · have hcall := quiet call
    rw [hpulse, Function.update_self] at hcall
    cases hcall

theorem PulsedTwice.lows_of_quiet {levels : List Bool} {l : LineState} (h : PulsedTwice levels l)
    (quiet : ∀ call, l.pulse call = none) : 2 ≤ levels.count false := by
  obtain htwo | ⟨-, call, hcall⟩ | ⟨call, -, -, hcall, -⟩ := h
  · exact htwo
  · rw [quiet call] at hcall
    cases hcall
  · rw [quiet call] at hcall
    cases hcall

theorem PulsedOnce.next {levels made : List Bool} {l l' : LineState} (h : PulsedOnce levels l)
    (hstep : LineStep l made false l') : PulsedOnce (levels ++ made) l' := by
  have howner {call : Nat} {pulse : Pulse} (hcall : l.pulse call = some pulse) :
      l.pulse = Function.update (fun _ => none) call (some pulse) ∧ l.done = false ∧ levels = pulse.driven := by
    obtain ⟨hnone, -⟩ | ⟨owner, p, hpulse, hdone, hlevels⟩ := h
    · rw [hnone call] at hcall
      cases hcall
    · by_cases hne : call = owner
      · subst hne
        rw [hpulse, Function.update_self] at hcall
        obtain rfl := Option.some.inj hcall
        exact ⟨hpulse, hdone, hlevels⟩
      · rw [hpulse, Function.update_of_ne hne] at hcall
        cases hcall
  cases hstep with
  | keeps =>
    rw [List.append_nil]
    exact h
  | begins call hdone alone =>
    obtain ⟨-, hlevels⟩ | ⟨owner, p, hpulse, -⟩ := h
    · rw [hdone, if_neg Bool.false_ne_true] at hlevels
      refine .inr ⟨call, .drivesLow, ?_, hdone, by rw [hlevels]; rfl⟩
      rw [show l.pulse = fun _ => none from funext alone]
    · have howned := alone owner
      rw [hpulse, Function.update_self] at howned
      cases howned
  | lowers call hcall =>
    obtain ⟨hpulse, hdone, hlevels⟩ := howner hcall
    exact .inr ⟨call, .drivesHigh, by rw [hpulse, Function.update_idem], hdone, by rw [hlevels]; rfl⟩
  | raises call hcall =>
    obtain ⟨hpulse, hdone, hlevels⟩ := howner hcall
    exact .inr ⟨call, .setsFlag, by rw [hpulse, Function.update_idem], hdone, by rw [hlevels]; rfl⟩
  | setsFlag call hcall =>
    obtain ⟨hpulse, -, hlevels⟩ := howner hcall
    refine .inl ⟨fun other => ?_, by rw [hlevels]; rfl⟩
    rw [hpulse, Function.update_idem, Function.update_eq_self]

theorem PulsedOnce.overtaken {levels made : List Bool} {l l' : LineState} (h : PulsedOnce levels l)
    (hstep : LineStep l made true l') : PulsedTwice (levels ++ made) l' := by
  cases hstep with
  | overtakes call other hdone hcall hother =>
    rw [List.append_nil]
    obtain ⟨hnone, -⟩ | ⟨owner, p, hpulse, -, hlevels⟩ := h
    · exact absurd (hnone other) hother
    · have howned : l.pulse owner = some p := by rw [hpulse, Function.update_self]
      have hne : owner ≠ call := by
        rintro rfl
        rw [hcall] at howned
        cases howned
      cases p with
      | drivesLow =>
        exact .inr (.inr ⟨call, owner, hne.symm, Function.update_self _ _ _,
          (Function.update_of_ne hne _ _).trans howned⟩)
      | drivesHigh | setsFlag =>
        exact .inr (.inl ⟨by rw [hlevels]; decide, call, Function.update_self _ _ _⟩)

theorem PulsedTwice.next {levels made : List Bool} {l l' : LineState} {overtaken : Bool} (h : PulsedTwice levels l)
    (hstep : LineStep l made overtaken l') : PulsedTwice (levels ++ made) l' := by
  -- Who is to drive the line low stays so until it does.
  have hadd (call other : Nat) (hother : l.pulse other = some .drivesLow) :
      Function.update l.pulse call (some .drivesLow) other = some .drivesLow := by
    by_cases hne : other = call
    · rw [hne, Function.update_self]
    · rw [Function.update_of_ne hne]
      exact hother
  have hsame (hlows : levels.count false = (levels ++ made).count false)
      (hlow : ∀ call, l.pulse call = some .drivesLow → l'.pulse call = some .drivesLow) :
      PulsedTwice (levels ++ made) l' := by
    rw [PulsedTwice, ← hlows]
    obtain htwice | ⟨honce, call, hcall⟩ | ⟨call, other, hne, hcall, hother⟩ := h
    · exact .inl htwice
    · exact .inr (.inl ⟨honce, call, hlow call hcall⟩)
    · exact .inr (.inr ⟨call, other, hne, hlow call hcall, hlow other hother⟩)
  cases hstep with
  | keeps => exact hsame (by simp) fun _ hlow => hlow
  | begins call | overtakes call => exact hsame (by simp) fun other hlow => hadd call other hlow
  | raises call hcall | setsFlag call hcall =>
    exact hsame (by simp) fun other hlow => pulse_kept (by rw [hcall]; decide) hlow _
  | lowers call hcall =>
    have hlows : (levels ++ [false]).count false = levels.count false + 1 := by simp
    rw [PulsedTwice, hlows]
    obtain htwice | ⟨honce, -⟩ | ⟨first, second, hne, hfirst, hsecond⟩ := h
    · exact .inl (by omega)
    · exact .inl (by omega)
    · refine .inr (.inl ⟨by omega, ?_⟩)
      by_cases hcase : first = call
      · exact ⟨second, (Function.update_of_ne (hcase ▸ hne.symm) _ _).trans hsecond⟩
      · exact ⟨first, (Function.update_of_ne hcase _ _).trans hfirst⟩

/-- What is read off the calls by their numbers. -/
def Resets.view {β : Type} (g : ResetCall → Option β) (s : Resets) : Nat → Option β := fun call => s.calls[call]?.bind g

theorem view_goTo {β : Type} {g : ResetCall → Option β} {s t : Resets} {call : Nat} {c : ResetCall}
    (h : s.calls[call]? = some c) (hcalls : t.calls = s.calls) (phase : ResetPhase) :
    (t.goTo call phase).view g = Function.update (s.view g) call (g { c with phase := phase }) := by
  funext other
  rw [Resets.view, Resets.goTo, hcalls]
  by_cases hother : other = call
  · subst hother
    simp [h]
  · rw [Function.update_of_ne hother]
    simp [Resets.view, Ne.symm hother]

theorem view_call {β : Type} {g : ResetCall → Option β} {s : Resets} {call : Nat} {c : ResetCall}
    (h : s.calls[call]? = some c) : s.view g call = g c := by
  rw [Resets.view, h, Option.bind_some]

theorem view_goTo_keeps {β : Type} {g : ResetCall → Option β} {s t : Resets} {call : Nat} {c : ResetCall}
    (h : s.calls[call]? = some c) (hcalls : t.calls = s.calls) {phase : ResetPhase}
    (hkeep : g { c with phase := phase } = g c) : (t.goTo call phase).view g = s.view g := by
  rw [view_goTo h hcalls, hkeep]
  exact Function.update_eq_self_iff.mpr (view_call h).symm

/-- A new call shows only if it does so from the start. -/
theorem view_concat {β : Type} {g : ResetCall → Option β} {s t : Resets} {c : ResetCall}
    (hcalls : t.calls = s.calls ++ [c]) (hc : g c = none) : t.view g = s.view g := by
  funext call
  rw [Resets.view, Resets.view, hcalls, List.getElem?_append]
  split
  · rfl
  next hlt =>
    rw [List.getElem?_eq_none (Nat.not_lt.mp hlt)]
    cases call - s.calls.length <;> simp [hc]

def lineState (line : ResetLine) (s : Resets) : LineState :=
  ⟨s.driver.drv.gpio (resetPin line), s.driver.resetDone line, s.view (pulseOn line)⟩

theorem pulseOn_other {c : ResetCall} (h : c.line ≠ line) : pulseOn line c = none := if_neg h

theorem resetPin_injective : Function.Injective resetPin := by
  intro line other h
  cases line <;> cases other <;> first | rfl | exact absurd h (by decide)

theorem ResetCall.write_other {c : ResetCall} (h : c.line ≠ line) (s : DrvState) :
    (s.write c.writes).gpio (resetPin line) = s.gpio (resetPin line) := by
  have hpin : resetPin line ≠ resetPin c.line := fun heq => h (resetPin_injective heq).symm
  unfold ResetCall.writes
  split
  · exact gpioSetValue_resetPin hpin _ s
  · exact gpioSetValue_resetPin hpin _ s
  · rfl

/-- A call for another line leaves this one alone. -/
theorem lineState_advance_other {s : Resets} {call : Nat} {c : ResetCall} (h : s.calls[call]? = some c)
    (hline : c.line ≠ line) : lineState line (s.advance call c) = lineState line s := by
  have hpulse {t : Resets} (ht : t.calls = s.calls) (phase : ResetPhase) :
      (lineState line (t.goTo call phase)).pulse = (lineState line s).pulse :=
    view_goTo_keeps h ht ((pulseOn_other (c := { c with phase := phase }) hline).trans (pulseOn_other hline).symm)
  have hpin := c.write_other hline s.driver.drv
  unfold Resets.advance
  split
  · split
    · rfl
    · exact LineState.ext rfl rfl (hpulse rfl _)
  · exact LineState.ext rfl rfl (hpulse rfl _)
  · exact LineState.ext hpin rfl (hpulse (t := s.drive c) rfl _)
  · exact LineState.ext hpin rfl (hpulse (t := s.drive c) rfl _)
  · exact LineState.ext rfl (Function.update_of_ne hline.symm _ _) (hpulse rfl _)
  · exact LineState.ext rfl rfl (hpulse rfl _)
  · rfl

theorem pulseOn_of_pulses {c : ResetCall} (hline : c.line = line) {pulse : Pulse} (hphase : c.phase = .pulses pulse) :
    pulseOn line c = some pulse := by
  rw [pulseOn, if_pos hline, hphase]

theorem pulseOn_eq_some {c : ResetCall} {pulse : Pulse} (h : pulseOn line c = some pulse) :
    c.line = line ∧ c.phase = .pulses pulse := by
  unfold pulseOn at h
  split at h
  next hline =>
    split at h
    next hphase => exact ⟨hline, hphase.trans (congrArg _ (Option.some.inj h))⟩
    · cases h
  · cases h

theorem pulseOn_of_not_pulses {c : ResetCall} (hphase : ∀ pulse, c.phase ≠ .pulses pulse) : pulseOn line c = none := by
  unfold pulseOn
  split
  · split
    · exact absurd ‹_› (hphase _)
    · rfl
  · rfl

theorem writes_of_not_pulses {c : ResetCall} (hphase : ∀ pulse, c.phase ≠ .pulses pulse) : c.writes = [] := by
  unfold ResetCall.writes
  split <;> first | exact absurd ‹_› (hphase _) | rfl

/-- A call that neither tests the flag nor pulses the line leaves it alone. -/
theorem advance_passes {s : Resets} {call : Nat} {c : ResetCall} (h : s.calls[call]? = some c)
    (hphase : ∀ pulse, c.phase ≠ .pulses pulse) (htests : c.phase ≠ .tests) :
    lineState line (s.advance call c) = lineState line s := by
  have hpulse {phase : ResetPhase} (hphase' : ∀ pulse, phase ≠ .pulses pulse) :
      (lineState line (s.goTo call phase)).pulse = (lineState line s).pulse :=
    view_goTo_keeps h rfl
      ((pulseOn_of_not_pulses (c := { c with phase := phase }) hphase').trans (pulseOn_of_not_pulses hphase).symm)
  unfold Resets.advance
  split
  · split
    · rfl
    · exact LineState.ext rfl rfl (hpulse nofun)
  next hcase => exact absurd hcase htests
  next hcase => exact absurd hcase (hphase _)
  next hcase => exact absurd hcase (hphase _)
  next hcase => exact absurd hcase (hphase _)
  · exact LineState.ext rfl rfl (hpulse nofun)
  · rfl

theorem advance_pulses {s : Resets} {call : Nat} {c : ResetCall} (h : s.calls[call]? = some c)
    (hline : c.line = line) {pulse : Pulse} (hphase : c.phase = .pulses pulse) :
    LineStep (lineState line s) (c.writes.map Prod.snd) false (lineState line (s.advance call c)) := by
  have hcall := (view_call h).trans (pulseOn_of_pulses hline hphase)
  subst hline
  have hpulse {t : Resets} (ht : t.calls = s.calls) {phase : ResetPhase} {next : Option Pulse}
      (hnext : pulseOn c.line { c with phase := phase } = next) :
      (lineState c.line (t.goTo call phase)).pulse = Function.update (lineState c.line s).pulse call next := by
    rw [← hnext]
    exact view_goTo h ht phase
  cases pulse with
  | drivesLow =>
    have hwrites : c.writes = [(resetPin c.line, false)] := by rw [ResetCall.writes, hphase]
    have hhigh : (s.driver.drv.write c.writes).gpio (resetPin c.line) = false := by
      rw [hwrites]
      exact Function.update_self _ _ _
    have hnext : lineState c.line (s.advance call c) = ⟨false, (lineState c.line s).done,
        Function.update (lineState c.line s).pulse call (some .drivesHigh)⟩ := by
      rw [Resets.advance, hphase]
      exact LineState.ext hhigh rfl (hpulse (t := s.drive c) rfl (pulseOn_of_pulses rfl rfl))
    rw [hwrites, hnext]
    exact .lowers _ call hcall
  | drivesHigh =>
    have hwrites : c.writes = [(resetPin c.line, true)] := by rw [ResetCall.writes, hphase]
    have hhigh : (s.driver.drv.write c.writes).gpio (resetPin c.line) = true := by
      rw [hwrites]
      exact Function.update_self _ _ _
    have hnext : lineState c.line (s.advance call c) = ⟨true, (lineState c.line s).done,
        Function.update (lineState c.line s).pulse call (some .setsFlag)⟩ := by
      rw [Resets.advance, hphase]
      exact LineState.ext hhigh rfl (hpulse (t := s.drive c) rfl (pulseOn_of_pulses rfl rfl))
    rw [hwrites, hnext]
    exact .raises _ call hcall
  | setsFlag =>
    have hwrites : c.writes = [] := by rw [ResetCall.writes, hphase]
    have hnext : lineState c.line (s.advance call c) = ⟨(lineState c.line s).high, true,
        Function.update (lineState c.line s).pulse call none⟩ := by
      rw [Resets.advance, hphase]
      exact LineState.ext rfl (Function.update_self _ _ _) (hpulse rfl (pulseOn_of_not_pulses nofun))
    rw [hwrites, hnext]
    exact .setsFlag _ call hcall

theorem pulse_isSome_iff {s : Resets} :
    (∃ c ∈ s.calls, (pulseOn line c).isSome) ↔ ∃ call, (lineState line s).pulse call ≠ none := by
  constructor
  · rintro ⟨c, hc, hpulse⟩
    obtain ⟨call, hcall⟩ := List.mem_iff_getElem?.mp hc
    refine ⟨call, ?_⟩
    rw [show (lineState line s).pulse call = pulseOn line c from view_call hcall]
    exact Option.isSome_iff_ne_none.mp hpulse
  · rintro ⟨call, hcall⟩
    obtain ⟨pulse, hpulse⟩ := Option.ne_none_iff_exists'.mp hcall
    obtain ⟨c, hc, hon⟩ := Option.bind_eq_some_iff.mp hpulse
    exact ⟨c, List.mem_of_getElem? hc, by rw [hon]; rfl⟩

/-- What a call does to its own line. -/
theorem advance_line {s : Resets} {call : Nat} {c : ResetCall} (h : s.calls[call]? = some c)
    (hline : c.line = line) : ∃ overtaken, (overtaken = true ↔ Overtakes line s (.advance call)) ∧
      LineStep (lineState line s) (c.writes.map Prod.snd) overtaken (lineState line (s.advance call c)) := by
  have hnot (hphase : c.phase ≠ .tests) : (false = true ↔ Overtakes line s (.advance call)) := by
    refine ⟨nofun, fun hover => ?_⟩
    obtain ⟨-, -, other, hother, -, htests⟩ := hover
    rw [h] at hother
    obtain rfl := Option.some.inj hother
    exact absurd htests hphase
  by_cases htests : c.phase = .tests
  · have hquiet (pulse : Pulse) : c.phase ≠ .pulses pulse := by rw [htests]; nofun
    have hnone : (lineState line s).pulse call = none := (view_call h).trans (pulseOn_of_not_pulses hquiet)
    have hover : Overtakes line s (.advance call) ↔
        s.driver.resetDone line = false ∧ ∃ other, (lineState line s).pulse other ≠ none := by
      rw [Overtakes, h, pulse_isSome_iff]
      simp [hline, htests]
    rw [writes_of_not_pulses hquiet, hover]
    cases hdone : s.driver.resetDone line with
    | true =>
      refine ⟨false, by simp, ?_⟩
      have hnext : lineState line (s.advance call c) = lineState line s := by
        rw [Resets.advance, htests, hline, hdone]
        exact LineState.ext rfl rfl (view_goTo_keeps h rfl
          ((pulseOn_of_not_pulses (c := { c with phase := .leaves }) nofun).trans (pulseOn_of_not_pulses hquiet).symm))
      rw [hnext]
      exact .keeps _
    | false =>
      have hnext : lineState line (s.advance call c) = { lineState line s with
          pulse := Function.update (lineState line s).pulse call (some .drivesLow) } := by
        rw [Resets.advance, htests, hline, hdone]
        refine LineState.ext rfl rfl ((view_goTo h rfl _).trans ?_)
        rw [← pulseOn_of_pulses (c := { c with phase := .pulses .drivesLow }) hline rfl]
        rfl
      rw [hnext]
      by_cases hother : ∃ other, (lineState line s).pulse other ≠ none
      · obtain ⟨other, hpulse⟩ := hother
        exact ⟨true, by simpa using ⟨other, hpulse⟩, .overtakes _ call other hdone hnone hpulse⟩
      · refine ⟨false, by simpa using hother, .begins _ call hdone ?_⟩
        simpa using hother
  · refine ⟨false, hnot htests, ?_⟩
    cases hphase : c.phase with
    | pulses pulse => exact advance_pulses h hline hphase
    | tests => exact absurd hphase htests
    | locks | leaves | returned =>
      have hquiet (pulse : Pulse) : c.phase ≠ .pulses pulse := by rw [hphase]; nofun
      rw [writes_of_not_pulses hquiet, advance_passes h hquiet htests]
      exact .keeps _

/-- Whatever happens, one line sees one of its steps. -/
theorem resetsStep_line (line : ResetLine) (s : Resets) (op : ResetOp) :
    ∃ overtaken, (overtaken = true ↔ Overtakes line s op) ∧
    LineStep (lineState line s) (resetLevels line s op) overtaken (lineState line (resetsStep s op)) := by
  cases op with
  | request op =>
    refine ⟨false, ⟨nofun, False.elim⟩, ?_⟩
    have hnext : lineState line (resetsStep s (.request op)) = lineState line s := by
      rw [resetsStep]
      cases hop : resetRequest op with
      | none =>
        have hother : resetRequest op ≠ some line := by rw [hop]; nofun
        obtain ⟨hpin, hdone⟩ := driverStep_reset_other (d := s.driver) hother
        exact LineState.ext hpin hdone rfl
      | some other =>
        refine LineState.ext rfl rfl (view_concat rfl (pulseOn_of_not_pulses fun pulse => ?_))
        dsimp only
        split <;> nofun
    rw [hnext]
    exact .keeps _
  | advance call =>
    rw [resetLevels, resetsStep]
    cases hcall : s.calls[call]? with
    | none =>
      refine ⟨false, ⟨nofun, ?_⟩, .keeps _⟩
      rintro ⟨-, -, c, hc, -⟩
      rw [hcall] at hc
      cases hc
    | some c =>
      dsimp only
      by_cases hline : c.line = line
      · rw [if_pos hline]
        exact advance_line hcall hline
      · rw [if_neg hline, lineState_advance_other hcall hline]
        refine ⟨false, ⟨nofun, ?_⟩, .keeps _⟩
        rintro ⟨-, -, other, hother, hon, -⟩
        rw [hcall] at hother
        obtain rfl := Option.some.inj hother
        exact absurd hon hline

/-- In any run either no call has overtaken another and one at most has pulsed the line, or two have done so. -/
theorem resetsRun_pulses (gpio : Nat → Bool) (ops : List ResetOp) (line : ResetLine) :
    Along resetsStep (fun s op => ¬ Overtakes line s op) (resetsInit gpio) ops ∧
        PulsedOnce (outputs resetsStep (resetLevels line) (resetsInit gpio) ops) (lineState line (resetsRun gpio ops)) ∨
      ¬ Along resetsStep (fun s op => ¬ Overtakes line s op) (resetsInit gpio) ops ∧
        PulsedTwice (outputs resetsStep (resetLevels line) (resetsInit gpio) ops) (lineState line (resetsRun gpio ops)) := by
  induction ops using List.reverseRecOn with
  | nil => exact .inl ⟨trivial, .inl ⟨fun _ => rfl, rfl⟩⟩
  | append_singleton ops op ih =>
    obtain ⟨overtaken, hover, hstep⟩ := resetsStep_line line (resetsRun gpio ops) op
    rw [Along.concat_iff, outputs_concat, resetsRun, List.foldl_append, ← resetsRun, List.foldl_cons, List.foldl_nil]
    obtain ⟨along, honce⟩ | ⟨hnot, htwice⟩ := ih
    · cases overtaken with
      | false => exact .inl ⟨⟨along, fun h => Bool.false_ne_true (hover.mpr h)⟩, honce.next hstep⟩
      | true => exact .inr ⟨fun h => h.2 (hover.mp rfl), honce.overtaken hstep⟩
    · exact .inr ⟨fun h => hnot h.1, htwice.next hstep⟩

theorem resetsRun_lowHeld (gpio : Nat → Bool) (ops : List ResetOp) (line : ResetLine) :
    (lineState line (resetsRun gpio ops)).LowHeld := by
  refine foldl_history (f := resetsStep) (s := resetsInit gpio) (Q := fun _ s => (lineState line s).LowHeld)
    (fun hlow => ?_) (fun _ s op hlow => ?_) ops
  · dsimp only [lineState, resetsInit] at hlow
    rw [driverInit_resetPin] at hlow
    cases hlow
  · obtain ⟨overtaken, -, hstep⟩ := resetsStep_line line s op
    exact hstep.lowHeld hlow

end NvrxFirmware.MxGpio
