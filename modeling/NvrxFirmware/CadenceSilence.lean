import NvrxFirmware.CadenceInvariant

namespace NvrxFirmware.MxGpio

variable {s : DrvState} {c c' : BuzLedCad} {r : CadRow} {p q led buz : Nat} {o : BuzzerLed}

/-- The next unblocked tick that plays the cell drives its output. -/
def Pending (c : BuzLedCad) : Prop := 0 < c.noOfCycles ∧ ¬(c.noOfCycles = 1 ∧ c.cadBits ≤ c.cadPosition)

instance (c : BuzLedCad) : Decidable (Pending c) := inferInstanceAs (Decidable (_ ∧ _))

def AllFinished (s : DrvState) : Prop := ∀ p ≤ maxPriority, ∀ o, (s.buzLedCadence p o).noOfCycles = 0

instance (s : DrvState) : Decidable (AllFinished s) :=
  inferInstanceAs (Decidable (∀ p ≤ maxPriority, ∀ o, (s.buzLedCadence p o).noOfCycles = 0))

/-- Every output that is on has a cell that will still drive it. -/
def HighPending (s : DrvState) : Prop :=
  ∀ o, s.gpio (buzLedPin o) = true → ∃ q ≤ maxPriority, Pending (s.buzLedCadence q o)

theorem HighPending.low (h : HighPending s) (hfin : AllFinished s) (o : BuzzerLed) :
    s.gpio (buzLedPin o) = false := by
  cases hpin : s.gpio (buzLedPin o) with
  | false => rfl
  | true =>
    obtain ⟨q, hq, hpos, _⟩ := h o hpin
    exact absurd (hfin q hq o) (Nat.ne_of_gt hpos)

/-- What one field of a clear does to a row. -/
inductive ClearMode
  | keep
  | silence
  | cancel
  deriving DecidableEq

/-- The cells of a row share their response, so the buzzer's stands for all three. -/
def clearMode (resp : Nat) (s : DrvState) (q : Nat) : ClearMode :=
  if resp < nvrxRespMax then
    if q = accessRespCadPriority resp ∧ (s.buzLedCadence q .buzzer).accessResp = resp then .silence else .keep
  else if resp = nvrxRespAll then
    if q < maxPriority then .silence else .keep
  else if resp = nvrxRespPresent then
    if q = s.currentPriority then .cancel else .keep
  else .keep

/-- The clear leaves the row's cell for this output with something to drive: a silent cycle
of its own, or what it had, unless the other field stops it as silent already. -/
def KeepsDriving (s : DrvState) (led buz q : Nat) (o : BuzzerLed) : Prop :=
  if o = .buzzer then
    clearMode buz s q = .silence ∨
      clearMode buz s q = .keep ∧ Pending (s.buzLedCadence q .buzzer) ∧
        ¬(clearMode led s q = .silence ∧ (s.buzLedCadence q .buzzer).buzLedCad = cadOff)
  else
    clearMode led s q = .silence ∧ clearMode buz s q ≠ .silence ∨
      clearMode led s q = .keep ∧ Pending (s.buzLedCadence q o) ∧
        ¬(clearMode buz s q = .silence ∧ (s.buzLedCadence q .redLed).buzLedCad = cadOff ∧
          (s.buzLedCadence q .greenLed).buzLedCad = cadOff)

instance (s : DrvState) (led buz q : Nat) (o : BuzzerLed) : Decidable (KeepsDriving s led buz q o) :=
  inferInstanceAs (Decidable (if o = .buzzer then _ ∨ _ else _ ∨ _))

/-- The clear cuts off no output that is on: another cell, or its own silent cycle, will still drive it. -/
def ClearSafe (s : DrvState) (led buz : Nat) : Prop :=
  ∀ o, s.gpio (buzLedPin o) = true → ∃ q ≤ maxPriority, KeepsDriving s led buz q o

instance (s : DrvState) (led buz : Nat) : Decidable (ClearSafe s led buz) :=
  inferInstanceAs (Decidable (∀ o, s.gpio (buzLedPin o) = true → ∃ q ≤ maxPriority, KeepsDriving s led buz q o))

def StepSafe (s : DrvState) : CadOp → Prop
  | .clrCadence led buz => ClearSafe s led.toNat buz.toNat
  | _ => True

instance (s : DrvState) : DecidablePred (StepSafe s)
  | .clrCadence _ _ => inferInstanceAs (Decidable (ClearSafe _ _ _))
  | .setCadence _ | .procBuzLedCad | .syncBuzLedCad => .isTrue trivial

def ledModeRow (m : ClearMode) (r : CadRow) : CadRow :=
  match m with
  | .keep => r
  | .silence => BuzzerLed.leds.foldl silenceLed r
  | .cancel => BuzzerLed.leds.foldl cancelOutput r

def buzModeRow (m : ClearMode) (r : CadRow) : CadRow :=
  match m with
  | .keep => r
  | .silence => silenceBuzzer r
  | .cancel => cancelOutput r .buzzer

theorem ledCleared_mode (same : ∀ o o', (s.buzLedCadence q o).accessResp = (s.buzLedCadence q o').accessResp) :
    ledCleared led s.currentPriority q (s.buzLedCadence q) = ledModeRow (clearMode led s q) (s.buzLedCadence q) := by
  unfold ledCleared clearMode
  split
  next hlt =>
    by_cases hit : q = accessRespCadPriority led ∧ (s.buzLedCadence q .buzzer).accessResp = led
    · have hred : (s.buzLedCadence q .redLed).accessResp = led := (same _ _).trans hit.2
      have hgreen : (silenceLed (s.buzLedCadence q) .redLed .greenLed).accessResp = led := by
        rw [(silenceLed_cleared (by decide) _).accessResp]
        exact (same _ _).trans hit.2
      rw [if_pos hit.1, if_pos hit]
      simp only [ledModeRow, BuzzerLed.leds, List.foldl_cons, List.foldl_nil, hred, hgreen, if_true]
    · rw [if_neg hit]
      split
      next hq =>
        have hother (l : BuzzerLed) : (s.buzLedCadence q l).accessResp ≠ led := by
          intro h
          exact hit ⟨hq, (same _ _).trans h⟩
        simp only [ledModeRow, BuzzerLed.leds, List.foldl_cons, List.foldl_nil, hother, if_false]
      next => rfl
  next hlt =>
    split
    · split <;> rfl
    · split
      · split <;> rfl
      · rfl

theorem buzCleared_mode (h : (r .buzzer).accessResp = (s.buzLedCadence q .buzzer).accessResp) :
    buzCleared buz s.currentPriority q r = buzModeRow (clearMode buz s q) r := by
  unfold buzCleared clearMode
  rw [h]
  split
  · by_cases hit : q = accessRespCadPriority buz ∧ (s.buzLedCadence q .buzzer).accessResp = buz
    · rw [if_pos hit.1, if_pos hit.2, if_pos hit]
      rfl
    · rw [if_neg hit]
      split
      next hq =>
        have hother : ¬(s.buzLedCadence q .buzzer).accessResp = buz := by
          intro hr
          exact hit ⟨hq, hr⟩
        exact if_neg hother
      next => rfl
  · split
    · split <;> rfl
    · split
      · split <;> rfl
      · rfl

theorem clearCadence_mode (same : ∀ o o', (s.buzLedCadence q o).accessResp = (s.buzLedCadence q o').accessResp) :
    (clearCadence led buz s).2.buzLedCadence q =
      buzModeRow (clearMode buz s q) (ledModeRow (clearMode led s q) (s.buzLedCadence q)) := by
  have hresp := (ledCleared_cleared led s.currentPriority q (s.buzLedCadence q) .buzzer).accessResp
  rw [clearCadence_row, buzCleared_mode hresp, ledCleared_mode same]

theorem silenceLeds_row (o : BuzzerLed) : BuzzerLed.leds.foldl silenceLed r o =
    if o = .buzzer then if (r .buzzer).buzLedCad = cadOff then (r .buzzer).stop else r .buzzer
    else (r o).off 1 := by
  by_cases h : (r .buzzer).buzLedCad = cadOff
  · cases o <;> simp [BuzzerLed.leds, silenceLed, h, Function.update, BuzLedCad.stop]
  · cases o <;> simp [BuzzerLed.leds, silenceLed, h, Function.update]

theorem cancelLeds_row (o : BuzzerLed) : BuzzerLed.leds.foldl cancelOutput r o =
    if o = .buzzer then r .buzzer else (r o).off 0 := by
  cases o <;> simp [BuzzerLed.leds, cancelOutput, Function.update]

theorem silenceBuzzer_row (o : BuzzerLed) : silenceBuzzer r o =
    if o = .buzzer then (r .buzzer).off 1
    else if (r .redLed).buzLedCad = cadOff ∧ (r .greenLed).buzLedCad = cadOff then (r o).stop else r o := by
  unfold silenceBuzzer
  cases o <;> split <;> simp [Function.update]

theorem cancelBuzzer_row (o : BuzzerLed) :
    cancelOutput r .buzzer o = if o = .buzzer then (r .buzzer).off 0 else r o := by
  cases o <;> simp [cancelOutput, Function.update]

@[simp] theorem off_buzLedCad {n : Nat} : (c.off n).buzLedCad = cadOff := rfl

@[simp] theorem pending_off_one : Pending (c.off 1) := by
  simp [Pending, BuzLedCad.off, cadOffCadBits]

@[simp] theorem not_pending_off_zero : ¬Pending (c.off 0) := by
  simp [Pending, BuzLedCad.off]

@[simp] theorem not_pending_stop : ¬Pending c.stop := by
  simp [Pending, BuzLedCad.stop]

theorem pending_ite_stop {a : Prop} [Decidable a] : Pending (if a then c.stop else c) ↔ Pending c ∧ ¬a := by
  split <;> simp [*]

theorem clearCadence_pending_iff
    (same : ∀ o o', (s.buzLedCadence q o).accessResp = (s.buzLedCadence q o').accessResp) :
    Pending ((clearCadence led buz s).2.buzLedCadence q o) ↔ KeepsDriving s led buz q o := by
  rw [clearCadence_mode same]
  cases hled : clearMode led s q <;> cases hbuz : clearMode buz s q <;> cases o <;>
    simp [KeepsDriving, hled, hbuz, ledModeRow, buzModeRow, silenceLeds_row, cancelLeds_row, silenceBuzzer_row,
      cancelBuzzer_row, pending_ite_stop]

theorem clearCadence_highPending {history : List CadOp}
    (row : ∀ p, RowWellFormed history p (s.buzLedCadence p)) (safe : ClearSafe s led buz) :
    HighPending (clearCadence led buz s).2 := by
  intro o hpin
  rw [clearCadence_gpio] at hpin
  obtain ⟨q, hq, hkeep⟩ := safe o hpin
  exact ⟨q, hq, (clearCadence_pending_iff (row q).same_resp).mpr hkeep⟩

theorem ioctlSetCadence_highPending (state : UInt32) (h : HighPending s) :
    HighPending (ioctlSetCadence state s).2 := by
  intro o hpin
  rw [ioctlSetCadence_gpio] at hpin
  obtain ⟨q, hq, hpend⟩ := h o hpin
  refine ⟨q, hq, ?_⟩
  rw [ioctlSetCadence_row]
  split
  next hset =>
    have entry := tableEntry hset.1 o
    refine ⟨entry.cycles_pos, ?_⟩
    intro hlast
    have hbits : accessRespCadBits (setResponse state) o ≤ 0 := hlast.2
    have hpos := entry.bits_pos
    omega
  next => exact hpend

theorem Played.drove {level : Bool} (h : Played c c' (some level)) (hc : CellWellFormed p o c) :
    0 < c'.noOfCycles ∧ 0 < c'.cadPosition ∧ level = c'.buzLedCad.testBit (c'.cadPosition - 1) := by
  cases h with
  | restarted n _ hpos _ => exact ⟨hpos, Nat.one_pos, rfl⟩
  | continued hcycles hlt =>
    have hbits := hc.bits_le
    have hnext : (c.cadPosition + 1) % 2 ^ 8 = c.cadPosition + 1 := Nat.mod_eq_of_lt (by omega)
    refine ⟨hcycles, ?_, ?_⟩
    · simp only [hnext]
      omega
    · simp only [hnext, Nat.add_sub_cancel]

/-- The last bit of a last cycle is low, so after driving high there is a bit left. -/
theorem Played.pending_of_high (h : Played c c' (some true)) (hc : CellWellFormed p o c) : Pending c' := by
  obtain ⟨hcycles, hpos, hlevel⟩ := h.drove hc
  have hc' := h.wellFormed hc
  refine ⟨hcycles, ?_⟩
  intro hdone
  obtain ⟨hone, hend⟩ := hdone
  have hat : c'.cadPosition = c'.cadBits := Nat.le_antisymm hc'.position_le hend
  have hlow := hc'.last_low (by simp [hone, infiniteCycle]) hcycles
  rw [hat, hlow] at hlevel
  exact absurd hlevel (by decide)

theorem Played.not_pending (h : Played c c' none) : ¬Pending c := by
  cases h with
  | finished hz =>
    intro hp
    exact absurd hz (Nat.ne_of_gt hp.1)
  | ended hend hone =>
    intro hp
    exact hp.2 ⟨hone, hend⟩

theorem Rewound.pending (h : Rewound c c') (hp : Pending c) : Pending c' := by
  rcases h with rfl | ⟨hz, _⟩
  · exact hp
  · exact absurd hz (Nat.ne_of_gt hp.1)

theorem procBuzLedCad_highPending {history : List CadOp}
    (row : ∀ p, RowWellFormed history p (s.buzLedCadence p)) (hcp : s.currentPriority ≤ maxPriority)
    (h : HighPending s) : HighPending (procBuzLedCad s) := by
  cases hfill : s.isBuzLedFillInProg with
  | true => rwa [procBuzLedCad_blocked hfill]
  | false =>
    intro o hpin
    obtain ⟨c, hplayed, hrewound⟩ := procBuzLedCad_cell s o hfill
    rw [procBuzLedCad_gpio] at hpin
    cases hlevel : tickLevel s o with
    | none =>
      rw [hlevel] at hplayed hpin
      obtain ⟨q, hq, hpend⟩ := h o hpin
      have hne : q ≠ s.currentPriority := by
        intro he
        rw [he] at hpend
        exact hplayed.not_pending hpend
      rw [← procBuzLedCad_row_ne hne] at hpend
      exact ⟨q, hq, hpend⟩
    | some level =>
      rw [hlevel] at hplayed hpin
      obtain rfl : level = true := hpin
      have hcell := (row s.currentPriority).cells o
      have hpend := hrewound.pending (hplayed.pending_of_high hcell)
      exact ⟨s.currentPriority, hcp, hpend⟩

theorem gpioModInit_low (gpio : Nat → Bool) (o : BuzzerLed) : (gpioModInit gpio).gpio (buzLedPin o) = false := by
  rw [gpioModInit_eq, ioctlSetCadence_gpio]
  cases o <;> rfl

theorem cadRun_highPending (gpio : Nat → Bool) (ops : List CadOp)
    (safe : Along cadStep StepSafe (gpioModInit gpio) ops) : HighPending (cadRun gpio ops) := by
  apply safe.invariant
  · intro o hpin
    rw [gpioModInit_low] at hpin
    exact absurd hpin Bool.false_ne_true
  · intro past op h hsafe
    have row := cadRun_rowWellFormed gpio past
    cases op with
    | setCadence state => exact ioctlSetCadence_highPending state h
    | clrCadence led buz => exact clearCadence_highPending row hsafe
    | procBuzLedCad => exact procBuzLedCad_highPending row (cadRun_selected gpio past).bound h
    | syncBuzLedCad => exact h

/-- An output is left on only by a clear that cuts it off. -/
theorem outputs_low_when_finished (gpio : Nat → Bool) (ops : List CadOp)
    (safe : Along cadStep StepSafe (gpioModInit gpio) ops) (finished : AllFinished (cadRun gpio ops))
    (o : BuzzerLed) : (cadRun gpio ops).gpio (buzLedPin o) = false := by
  have pending := cadRun_highPending gpio ops safe
  exact pending.low finished o

theorem outputs_low_when_finished_after_clears :
    (cadRun (fun _ => false) [.setCadence 1, .syncBuzLedCad, .procBuzLedCad, .clrCadence 1 1, .syncBuzLedCad,
      .procBuzLedCad, .procBuzLedCad, .procBuzLedCad, .clrCadence 0 0, .syncBuzLedCad, .procBuzLedCad,
      .procBuzLedCad]).gpio (buzLedPin .redLed) = false :=
  outputs_low_when_finished _ _ (by decide +kernel) (by decide +kernel) .redLed

/-- `NVRX_RESP_PRESENT` on both fields. -/
def clrPresent : CadOp := .clrCadence 19 19

theorem clrPresent_row : (cadStep s clrPresent).buzLedCadence q o =
    if q = s.currentPriority then (s.buzLedCadence q o).off 0 else s.buzLedCadence q o := by
  have hmode : (cadStep s clrPresent).buzLedCadence q = buzCleared nvrxRespPresent s.currentPriority q
      (ledCleared nvrxRespPresent s.currentPriority q (s.buzLedCadence q)) := clearCadence_row 19 19 s q
  rw [hmode]
  have hsingle : ¬nvrxRespPresent < nvrxRespMax := by decide
  have hall : nvrxRespPresent ≠ nvrxRespAll := by decide
  simp only [buzCleared, ledCleared, hsingle, hall, if_false, if_true]
  split
  · rw [cancelBuzzer_row, cancelLeds_row, cancelLeds_row]
    cases o <;> rfl
  · rfl

/-- Each such clear finishes one more row, and none touches a pin. -/
theorem clrPresents_finish (n : Nat) (h : PrioritySelected s) :
    let t := (List.replicate n clrPresent).foldl cadStep s
    PrioritySelected t ∧ t.gpio = s.gpio ∧ ∀ q < n, q ≤ maxPriority → ∀ o, (t.buzLedCadence q o).noOfCycles = 0 := by
  induction n with
  | zero =>
    refine ⟨h, rfl, ?_⟩
    intro q hq
    exact absurd hq (Nat.not_lt_zero q)
  | succ n ih =>
    obtain ⟨hsel, hgpio, hfin⟩ := ih
    rw [List.replicate_succ', List.foldl_append]
    refine ⟨clearCadence_selected 19 19 hsel, (clearCadence_gpio 19 19 _).trans hgpio, ?_⟩
    intro q hq hmax o
    simp only [List.foldl_cons, List.foldl_nil, clrPresent_row]
    split
    · rfl
    next hne =>
      by_contra hpos
      have hmem : q ∈ unfinishedRows ((List.replicate n clrPresent).foldl cadStep s) :=
        ⟨hmax, o, Nat.pos_of_ne_zero hpos⟩
      have hleast := hsel.least ⟨q, hmem⟩
      have hle := hleast.2 hmem
      obtain ⟨hcp, o', hunfin⟩ := hleast.1
      exact absurd (hfin _ (by omega) hcp o') (Nat.ne_of_gt hunfin)

/-- The condition leaves out no harmless clear: whatever cuts off an output that is
on can be followed by nine clears that leave the output on and nothing to play. -/
theorem cut_off_output_stays_on (gpio : Nat → Bool) (before : List CadOp) (led buz : UInt16)
    (cut : ¬ClearSafe (cadRun gpio before) led.toNat buz.toNat) :
    AllFinished (cadRun gpio (before ++ .clrCadence led buz :: List.replicate 9 clrPresent)) ∧
      ∃ o, (cadRun gpio (before ++ .clrCadence led buz :: List.replicate 9 clrPresent)).gpio (buzLedPin o) = true := by
  have hsel := clearCadence_selected led.toNat buz.toNat (cadRun_selected gpio before)
  obtain ⟨_, hgpio, hfin⟩ := clrPresents_finish 9 hsel
  have hrun : cadRun gpio (before ++ .clrCadence led buz :: List.replicate 9 clrPresent) =
      (List.replicate 9 clrPresent).foldl cadStep (clearCadence led.toNat buz.toNat (cadRun gpio before)).2 := by
    simp [cadRun, List.foldl_append, cadStep]
  rw [hrun, hgpio, clearCadence_gpio]
  constructor
  · intro q hq
    exact hfin q (Nat.lt_succ_of_le hq) hq
  · by_contra hlow
    apply cut
    intro o hpin
    exact absurd ⟨o, hpin⟩ hlow

theorem present_clears_leave_output_on : ∃ ops : List CadOp,
    AllFinished (cadRun (fun _ => false) ops) ∧ (cadRun (fun _ => false) ops).gpio (buzLedPin .buzzer) = true :=
  ⟨[clrPresent, .setCadence 1, .syncBuzLedCad, .procBuzLedCad, clrPresent], by decide +kernel⟩

end NvrxFirmware.MxGpio
