import NvrxFirmware.CadenceClears

namespace NvrxFirmware.MxGpio

variable {s t : DrvState} {c c' : BuzLedCad} {q led buz : Nat}

/-- The test of `MXGPIO_GET_BUZ_STS` on a buzzer cell: unfinished, not silent, and started. -/
def buzSounding (c : BuzLedCad) : Bool :=
  0 < c.noOfCycles ∧ c.buzLedCad ≠ cadOff ∧ c.buzLedCad ≠ idleCad ∧ c.cadPosition ≠ 0

/-- What the ioctl returns, and the word it has last copied to user space. -/
structure BuzSts where
  retValue : Int
  state : Option Nat
  deriving DecidableEq, Repr

/-- The scan of `MXGPIO_GET_BUZ_STS`. It copies `State` out at every row, and `copies`
says at which of them `copy_to_user` succeeds. -/
def scanBuzSts (s : DrvState) (copies : Nat → Bool) : List Nat → BuzSts → BuzSts
  | [], sts => sts
  | index :: rest, sts =>
    let state := if buzSounding (s.buzLedCadence index .buzzer) then 1 else 0
    let sts := if copies index then ⟨0, some state⟩ else sts
    if state = 1 then sts else scanBuzSts s copies rest sts

def ioctlGetBuzSts (copies : Nat → Bool) (s : DrvState) : BuzSts :=
  scanBuzSts s copies (List.range maxPriority) ⟨-1, none⟩

/-- The buzzer is reported to be on only if the row being played sounds it. -/
def BuzStsTruthful (s : DrvState) : Prop :=
  ∀ copies, (ioctlGetBuzSts copies s).state = some 1 → buzSounding (s.buzLedCadence s.currentPriority .buzzer) = true

theorem scanBuzSts_on {copies : Nat → Bool} {rows : List Nat} {sts : BuzSts}
    (h : (scanBuzSts s copies rows sts).state = some 1) :
    sts.state = some 1 ∨ ∃ q ∈ rows, buzSounding (s.buzLedCadence q .buzzer) = true := by
  induction rows generalizing sts with
  | nil => exact .inl h
  | cons index rest ih =>
    by_cases hon : buzSounding (s.buzLedCadence index .buzzer) = true
    · exact .inr ⟨index, List.mem_cons_self, hon⟩
    · simp only [scanBuzSts, hon] at h
      rcases ih h with hsts | ⟨q, hq, hsound⟩
      · split at hsts
        · simp at hsts
        · exact .inl hsts
      · exact .inr ⟨q, List.mem_cons_of_mem index hq, hsound⟩

theorem scanBuzSts_reports {rows : List Nat} {sts : BuzSts}
    (h : ∃ q ∈ rows, buzSounding (s.buzLedCadence q .buzzer) = true) :
    (scanBuzSts s (fun _ => true) rows sts).state = some 1 := by
  induction rows generalizing sts with
  | nil => simp at h
  | cons index rest ih =>
    by_cases hon : buzSounding (s.buzLedCadence index .buzzer) = true
    · simp [scanBuzSts, hon]
    · obtain ⟨q, hq, hsound⟩ := h
      have hrest : q ∈ rest := by
        rcases List.mem_cons.mp hq with rfl | hrest
        · exact absurd hsound hon
        · exact hrest
      simpa [scanBuzSts, hon] using ih ⟨q, hrest, hsound⟩

theorem buzStsTruthful_iff : BuzStsTruthful s ↔
    ((∃ q < maxPriority, buzSounding (s.buzLedCadence q .buzzer) = true) →
      buzSounding (s.buzLedCadence s.currentPriority .buzzer) = true) := by
  constructor
  · rintro h ⟨q, hq, hsound⟩
    exact h (fun _ => true) (scanBuzSts_reports ⟨q, List.mem_range.mpr hq, hsound⟩)
  · intro h copies hon
    rcases scanBuzSts_on hon with hsts | ⟨q, hq, hsound⟩
    · simp at hsts
    · exact h ⟨q, List.mem_range.mp hq, hsound⟩

theorem buzSounding_iff : buzSounding c = true ↔ 0 < c.noOfCycles ∧ c.buzLedCad ≠ 0 ∧ c.cadPosition ≠ 0 := by
  simp [buzSounding, cadOff, idleCad]

@[simp] theorem buzSounding_off {n : Nat} : buzSounding (c.off n) = false := by
  simp [buzSounding]

@[simp] theorem buzSounding_stop : buzSounding c.stop = false := by
  simp [buzSounding, BuzLedCad.stop]

theorem setCadence_sounding (state : UInt32) : buzSounding ((ioctlSetCadence state s).2.buzLedCadence q .buzzer) = true ↔
    ¬(setResponse state < nvrxRespMax ∧ q = accessRespCadPriority (setResponse state)) ∧
      buzSounding (s.buzLedCadence q .buzzer) = true := by
  rw [ioctlSetCadence_row]
  split
  next hset =>
    have hfresh : buzSounding (loadedCell (setResponse state) .buzzer) = false := by
      simp [buzSounding, loadedCell]
    simp [hset, hfresh]
  next hset => simp [hset]

/-- Only a clear that leaves the buzzer's cell alone leaves it sounding: the LED half stops a
buzzer that is silent. -/
theorem clearCadence_sounding
    (same : ∀ o o', (s.buzLedCadence q o).accessResp = (s.buzLedCadence q o').accessResp) :
    buzSounding ((clearCadence led buz s).2.buzLedCadence q .buzzer) = true ↔
      clearMode buz s q = .keep ∧ buzSounding (s.buzLedCadence q .buzzer) = true := by
  rw [clearCadence_mode same]
  cases hbuz : clearMode buz s q with
  | silence => simp [buzModeRow, silenceBuzzer_row]
  | cancel => simp [buzModeRow, cancelBuzzer_row]
  | keep =>
    cases hled : clearMode led s q with
    | keep => simp [buzModeRow, ledModeRow]
    | cancel => simp [buzModeRow, ledModeRow, cancelLeds_row]
    | silence =>
      simp only [buzModeRow, ledModeRow, silenceLeds_row, if_true, true_and]
      split
      next hoff => simp [buzSounding_iff, BuzLedCad.stop, hoff, cadOff]
      next => rfl

/-- A finished row stays finished under a clear that silences nothing in it. -/
theorem clearCadence_finished
    (same : ∀ o o', (s.buzLedCadence q o).accessResp = (s.buzLedCadence q o').accessResp)
    (finished : ∀ o, (s.buzLedCadence q o).noOfCycles = 0)
    (hled : clearMode led s q ≠ .silence) (hbuz : clearMode buz s q ≠ .silence) (o : BuzzerLed) :
    ((clearCadence led buz s).2.buzLedCadence q o).noOfCycles = 0 := by
  rw [clearCadence_mode same]
  have hcancel (c : BuzLedCad) : (c.off 0).noOfCycles = 0 := rfl
  have hbuzzer (r : CadRow) (h : ∀ o, (r o).noOfCycles = 0) : (buzModeRow (clearMode buz s q) r o).noOfCycles = 0 := by
    cases hm : clearMode buz s q with
    | keep => exact h o
    | silence => exact absurd hm hbuz
    | cancel =>
      simp only [buzModeRow, cancelBuzzer_row]
      split
      · exact hcancel _
      · exact h o
  apply hbuzzer
  intro o'
  cases hm : clearMode led s q with
  | keep => exact finished o'
  | silence => exact absurd hm hled
  | cancel =>
    simp only [ledModeRow, cancelLeds_row]
    split
    · exact finished .buzzer
    · exact hcancel _

theorem clearCadence_restarts
    (same : ∀ o o', (s.buzLedCadence q o).accessResp = (s.buzLedCadence q o').accessResp)
    (hit : clearMode led s q = .silence ∨ clearMode buz s q = .silence) :
    ∃ o, 0 < ((clearCadence led buz s).2.buzLedCadence q o).noOfCycles := by
  rw [clearCadence_mode same]
  cases hbuz : clearMode buz s q with
  | silence =>
    refine ⟨.buzzer, ?_⟩
    simp [buzModeRow, silenceBuzzer_row, BuzLedCad.off]
  | keep =>
    have hled : clearMode led s q = .silence := by simpa [hbuz] using hit
    refine ⟨.redLed, ?_⟩
    simp [buzModeRow, hled, ledModeRow, silenceLeds_row, BuzLedCad.off]
  | cancel =>
    have hled : clearMode led s q = .silence := by simpa [hbuz] using hit
    refine ⟨.redLed, ?_⟩
    simp [buzModeRow, hled, ledModeRow, silenceLeds_row, cancelBuzzer_row, BuzLedCad.off]

/-- The step does not suspend a buzzer cadence that is being played and has started: it neither
SETs a response of a higher priority nor restarts the finished row of one for a silent cycle. -/
def KeepsSounding (s : DrvState) : CadOp → Prop
  | .setCadence state =>
    setResponse state < nvrxRespMax → accessRespCadPriority (setResponse state) < s.currentPriority →
      buzSounding (s.buzLedCadence s.currentPriority .buzzer) = false
  | .clrCadence led buz =>
    buzSounding (s.buzLedCadence s.currentPriority .buzzer) = true →
      clearMode buz.toNat s s.currentPriority = .keep →
        ∀ q < s.currentPriority, clearMode led.toNat s q ≠ .silence ∧ clearMode buz.toNat s q ≠ .silence
  | _ => True

/-- No buzzer cadence is suspended in the middle. -/
structure SoundsAlone (s : DrvState) : Prop where
  row : ∃ history, ∀ p, RowWellFormed history p (s.buzLedCadence p)
  selected : PrioritySelected s
  current : ∀ q < maxPriority, buzSounding (s.buzLedCadence q .buzzer) = true → q = s.currentPriority

theorem PrioritySelected.current_le (h : PrioritySelected s) (hq : q ∈ unfinishedRows s) : s.currentPriority ≤ q := by
  have hleast := h.least ⟨q, hq⟩
  exact hleast.2 hq

theorem sounding_unfinished (hq : q ≤ maxPriority) (h : buzSounding (s.buzLedCadence q .buzzer) = true) :
    q ∈ unfinishedRows s := by
  have hcycles := (buzSounding_iff.mp h).1
  exact ⟨hq, .buzzer, hcycles⟩

theorem SoundsAlone.truthful (h : SoundsAlone s) : BuzStsTruthful s := by
  rw [buzStsTruthful_iff]
  rintro ⟨q, hq, hsound⟩
  have hcurrent := h.current q hq hsound
  rwa [hcurrent] at hsound

/-- The row sounding after the step is the one that is played then, unless the step has given
cycles to a row before it. -/
theorem current_of_step (selected : PrioritySelected t)
    (old : ∀ q < maxPriority, buzSounding (t.buzLedCadence q .buzzer) = true → q = s.currentPriority)
    (below : buzSounding (t.buzLedCadence s.currentPriority .buzzer) = true →
      ∀ p < s.currentPriority, p ∉ unfinishedRows t) :
    ∀ q < maxPriority, buzSounding (t.buzLedCadence q .buzzer) = true → q = t.currentPriority := by
  intro q hq hsound
  obtain rfl := old q hq hsound
  have hmem := sounding_unfinished (Nat.le_of_lt hq) hsound
  have hleast := selected.least ⟨_, hmem⟩
  have hle := hleast.2 hmem
  by_contra hne
  exact below hsound t.currentPriority (by omega) hleast.1

/-- A row given cycles before the sounding one takes its place, and the status is wrong. -/
theorem not_truthful_of_step (selected : PrioritySelected t) {p : Nat} (hcp : s.currentPriority < maxPriority)
    (old : ∀ q < maxPriority, buzSounding (t.buzLedCadence q .buzzer) = true → q = s.currentPriority)
    (hsound : buzSounding (t.buzLedCadence s.currentPriority .buzzer) = true)
    (hp : p < s.currentPriority) (hmem : p ∈ unfinishedRows t) : ¬BuzStsTruthful t := by
  intro htruthful
  have hle := selected.current_le hmem
  have hcurrent := buzStsTruthful_iff.mp htruthful ⟨s.currentPriority, hcp, hsound⟩
  have hsame := old t.currentPriority (by omega) hcurrent
  omega

theorem SoundsAlone.idle_quiet (h : SoundsAlone s)
    (hsound : buzSounding (s.buzLedCadence s.currentPriority .buzzer) = true) :
    s.currentPriority < maxPriority := by
  obtain ⟨history, row⟩ := h.row
  have hbound := h.selected.bound
  have hpattern := (buzSounding_iff.mp hsound).2.1
  by_contra hidle
  have hmax : s.currentPriority = maxPriority := by omega
  have hcell := (row s.currentPriority).cells .buzzer
  exact hpattern (hcell.idle_silent hmax)

section setCadence

variable {state : UInt32} (h : SoundsAlone s)
include h

theorem SoundsAlone.setCadence_old (q : Nat) (hq : q < maxPriority)
    (hsound : buzSounding ((cadStep s (.setCadence state)).buzLedCadence q .buzzer) = true) :
    q = s.currentPriority :=
  h.current q hq ((setCadence_sounding state).mp hsound).2

theorem SoundsAlone.setCadence (keeps : KeepsSounding s (.setCadence state)) :
    SoundsAlone (cadStep s (.setCadence state)) := by
  obtain ⟨history, row⟩ := h.row
  have hselected := cadStep_selected (.setCadence state) h.selected
  refine ⟨⟨_, cadStep_rowWellFormed _ row⟩, hselected, current_of_step hselected h.setCadence_old ?_⟩
  intro hsound p hp hmem
  have hold := ((setCadence_sounding state).mp hsound).2
  obtain ⟨hmax, o, ho⟩ := hmem
  simp only [cadStep, ioctlSetCadence_row] at ho
  split at ho
  next hset =>
    have hquiet := keeps hset.1 (by omega)
    exact Bool.false_ne_true (hquiet.symm.trans hold)
  next =>
    have hle := h.selected.current_le ⟨hmax, o, ho⟩
    omega

theorem SoundsAlone.setCadence_needed (htruthful : BuzStsTruthful (cadStep s (.setCadence state))) :
    KeepsSounding s (.setCadence state) := by
  intro hlt hprio
  by_contra hloud
  have hsound : buzSounding (s.buzLedCadence s.currentPriority .buzzer) = true := by simpa using hloud
  have hselected := cadStep_selected (.setCadence state) h.selected
  have hcp := h.idle_quiet hsound
  have hstill : buzSounding ((cadStep s (.setCadence state)).buzLedCadence s.currentPriority .buzzer) = true := by
    apply (setCadence_sounding state).mpr
    refine ⟨?_, hsound⟩
    rintro ⟨_, heq⟩
    omega
  refine not_truthful_of_step hselected hcp h.setCadence_old hstill hprio ?_ htruthful
  refine ⟨by omega, .buzzer, ?_⟩
  simp only [cadStep, ioctlSetCadence_row, hlt, true_and, if_true]
  exact (tableEntry hlt .buzzer).cycles_pos

end setCadence

section clrCadence

variable {led buz : UInt16} (h : SoundsAlone s)
include h

theorem SoundsAlone.clrCadence_sounding (q : Nat) :
    buzSounding ((cadStep s (.clrCadence led buz)).buzLedCadence q .buzzer) = true ↔
      clearMode buz.toNat s q = .keep ∧ buzSounding (s.buzLedCadence q .buzzer) = true := by
  obtain ⟨history, row⟩ := h.row
  exact MxGpio.clearCadence_sounding (row q).same_resp

theorem SoundsAlone.clrCadence_old (q : Nat) (hq : q < maxPriority)
    (hsound : buzSounding ((cadStep s (.clrCadence led buz)).buzLedCadence q .buzzer) = true) :
    q = s.currentPriority :=
  h.current q hq ((h.clrCadence_sounding q).mp hsound).2

theorem SoundsAlone.clrCadence (keeps : KeepsSounding s (.clrCadence led buz)) :
    SoundsAlone (cadStep s (.clrCadence led buz)) := by
  obtain ⟨history, row⟩ := h.row
  have hselected := cadStep_selected (.clrCadence led buz) h.selected
  refine ⟨⟨_, cadStep_rowWellFormed _ row⟩, hselected, current_of_step hselected h.clrCadence_old ?_⟩
  intro hsound p hp hmem
  obtain ⟨hkeep, hold⟩ := (h.clrCadence_sounding _).mp hsound
  obtain ⟨hled, hbuz⟩ := keeps hold hkeep p hp
  have hfinished : ∀ o, (s.buzLedCadence p o).noOfCycles = 0 := by
    intro o
    by_contra hpos
    have hle := h.selected.current_le ⟨hmem.1, o, Nat.pos_of_ne_zero hpos⟩
    omega
  obtain ⟨_, o, ho⟩ := hmem
  have hzero := clearCadence_finished (row p).same_resp hfinished hled hbuz o
  exact Nat.ne_of_gt ho hzero

theorem SoundsAlone.clrCadence_needed (htruthful : BuzStsTruthful (cadStep s (.clrCadence led buz))) :
    KeepsSounding s (.clrCadence led buz) := by
  intro hsound hkeep q hq
  by_contra hrestart
  have hselected := cadStep_selected (.clrCadence led buz) h.selected
  have hcp := h.idle_quiet hsound
  have hstill : buzSounding ((cadStep s (.clrCadence led buz)).buzLedCadence s.currentPriority .buzzer) = true :=
    (h.clrCadence_sounding _).mpr ⟨hkeep, hsound⟩
  refine not_truthful_of_step hselected hcp h.clrCadence_old hstill hq ?_ htruthful
  obtain ⟨history, row⟩ := h.row
  refine ⟨by omega, clearCadence_restarts (row q).same_resp ?_⟩
  by_contra hnone
  rw [not_or] at hnone
  exact hrestart hnone

end clrCadence

theorem SoundsAlone.procBuzLedCad (h : SoundsAlone s) : SoundsAlone (cadStep s .procBuzLedCad) := by
  obtain ⟨history, row⟩ := h.row
  have hselected := cadStep_selected .procBuzLedCad h.selected
  have hother (q : Nat) (hq : q ≠ s.currentPriority) :
      (cadStep s .procBuzLedCad).buzLedCadence q = s.buzLedCadence q := procBuzLedCad_row_ne hq
  refine ⟨⟨_, cadStep_rowWellFormed _ row⟩, hselected, current_of_step (s := s) hselected ?_ ?_⟩
  · intro q hq hsound
    by_contra hne
    rw [hother q hne] at hsound
    exact hne (h.current q hq hsound)
  · intro _ p hp hmem
    obtain ⟨hmax, o, ho⟩ := hmem
    rw [hother p (by omega)] at ho
    have hle := h.selected.current_le ⟨hmax, o, ho⟩
    omega

theorem gpioModInit_soundsAlone (gpio : Nat → Bool) : SoundsAlone (gpioModInit gpio) := by
  refine ⟨⟨[], gpioModInit_rowWellFormed gpio⟩, cadRun_selected gpio [], ?_⟩
  intro q hq hsound
  rw [gpioModInit_row, if_neg (by omega)] at hsound
  exact absurd hsound (by decide)

/-- `MXGPIO_GET_BUZ_STS` tells the truth in every state of a run exactly if no step suspends a
buzzer cadence in the middle: what the scan reads survives preemption. -/
theorem buzzer_status_truthful_iff (gpio : Nat → Bool) (ops : List CadOp) :
    (∀ past, past <+: ops → BuzStsTruthful (cadRun gpio past)) ↔
      Along cadStep KeepsSounding (gpioModInit gpio) ops := by
  symm
  apply Along.iff_always (P := SoundsAlone)
  · exact gpioModInit_soundsAlone gpio
  · intro t h
    exact h.truthful
  · intro t op h keeps
    cases op with
    | setCadence state => exact h.setCadence keeps
    | clrCadence led buz => exact h.clrCadence keeps
    | procBuzLedCad => exact h.procBuzLedCad
    | syncBuzLedCad => exact ⟨h.row, ⟨h.selected.bound, h.selected.least⟩, h.current⟩
  · intro t op h htruthful
    cases op with
    | setCadence state => exact h.setCadence_needed htruthful
    | clrCadence led buz => exact h.clrCadence_needed htruthful
    | procBuzLedCad => trivial
    | syncBuzLedCad => trivial

theorem suspended_buzzer_reported_on : ¬∀ ops : List CadOp, BuzStsTruthful (cadRun (fun _ => false) ops) := by
  intro h
  have hrun := h [.setCadence 10, .syncBuzLedCad, .procBuzLedCad, .setCadence 8, .syncBuzLedCad, .procBuzLedCad]
  exact absurd (hrun (fun _ => true) (by decide +kernel)) (by decide +kernel)

end NvrxFirmware.MxGpio
