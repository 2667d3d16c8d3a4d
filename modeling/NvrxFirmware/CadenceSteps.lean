import NvrxFirmware.CadenceModel

namespace NvrxFirmware.MxGpio

variable {s : DrvState} {row q : Nat} {f : CadRow → CadRow} {output : BuzzerLed} {resp : Nat}

@[simp] theorem modRow_currentPriority : (s.modRow row f).currentPriority = s.currentPriority := rfl
@[simp] theorem modRow_gpio : (s.modRow row f).gpio = s.gpio := rfl

theorem modRow_row : (s.modRow row f).buzLedCadence q =
    if q = row then f (s.buzLedCadence q) else s.buzLedCadence q := by
  by_cases h : q = row
  · simp [DrvState.modRow, h]
  · simp [DrvState.modRow, h]

theorem rowUnfinished_iff {r : CadRow} : rowUnfinished r = true ↔ ∃ o, 0 < (r o).noOfCycles := by
  constructor
  · intro h
    obtain ⟨o, _, ho⟩ := List.any_eq_true.mp h
    exact ⟨o, by simpa using ho⟩
  · rintro ⟨o, ho⟩
    exact List.any_eq_true.mpr ⟨o, by cases o <;> decide, by simpa using ho⟩

@[simp] theorem updateCadPriority_row : (updateCadPriority s).buzLedCadence = s.buzLedCadence := by
  unfold updateCadPriority
  split <;> rfl

@[simp] theorem updateCadPriority_gpio : (updateCadPriority s).gpio = s.gpio := by
  unfold updateCadPriority
  split <;> rfl

/-- `FillStructOfLedBuz` and the ioctl around it, for a response of the tables. -/
def loadedCell (resp : Nat) (output : BuzzerLed) : BuzLedCad where
  accessResp := resp
  buzLedCad := accessRespCadMap resp output
  noOfCycles := accessRespCadCycles resp output
  cadBits := accessRespCadBits resp output
  cadPosition := 0

theorem fillStructOfLedBuz_of_lt (h : resp < nvrxRespMax) :
    fillStructOfLedBuz resp output s = updateCadPriority
      (({ s with isBuzLedFillInProg := true } : DrvState).modRow (accessRespCadPriority resp)
        fun r => Function.update r output (loadedCell resp output)) := by
  simp only [fillStructOfLedBuz, if_pos h]
  rfl

/-- The response that `MXGPIO_SET_CADENCE` installs for a word from user space. -/
def setResponse (state : UInt32) : Nat := state.toNat % 2 ^ 8

theorem ioctlSetCadence_rejects {state : UInt32} (h : ¬setResponse state < nvrxRespMax) :
    ioctlSetCadence state s = (-1, s) := by
  have hled : setLedCad (state.toNat % 2 ^ 8) s = (-1, s) := if_pos (Nat.le_of_not_lt h)
  rw [ioctlSetCadence, hled]
  rfl

theorem ioctlSetCadence_fills {state : UInt32} (h : setResponse state < nvrxRespMax) :
    ioctlSetCadence state s = (0, fillStructOfLedBuz (setResponse state) .buzzer
      (fillStructOfLedBuz (setResponse state) .greenLed
        (fillStructOfLedBuz (setResponse state) .redLed s))) := by
  have hled : setLedCad (state.toNat % 2 ^ 8) s = (0, fillStructOfLedBuz (setResponse state) .greenLed
      (fillStructOfLedBuz (setResponse state) .redLed s)) := if_neg (Nat.not_le_of_lt h)
  have hbuz (t : DrvState) : setBuzzerCad (state.toNat % 2 ^ 8) t =
      (0, fillStructOfLedBuz (setResponse state) .buzzer t) := if_neg (Nat.not_lt_of_gt h)
  rw [ioctlSetCadence, hled]
  dsimp only
  rw [hbuz]
  rfl

theorem fillAll_row (h : resp < nvrxRespMax) :
    (fillStructOfLedBuz resp .buzzer (fillStructOfLedBuz resp .greenLed
      (fillStructOfLedBuz resp .redLed s))).buzLedCadence q =
      if q = accessRespCadPriority resp then loadedCell resp else s.buzLedCadence q := by
  simp only [fillStructOfLedBuz_of_lt h, updateCadPriority_row, modRow_row]
  split
  · funext o
    cases o <;> simp [Function.update]
  · rfl

theorem fillStructOfLedBuz_gpio : (fillStructOfLedBuz resp output s).gpio = s.gpio := by
  unfold fillStructOfLedBuz
  split <;> simp

theorem ioctlSetCadence_row (state : UInt32) (s : DrvState) (q : Nat) :
    (ioctlSetCadence state s).2.buzLedCadence q =
      if setResponse state < nvrxRespMax ∧ q = accessRespCadPriority (setResponse state) then
        loadedCell (setResponse state)
      else s.buzLedCadence q := by
  by_cases h : setResponse state < nvrxRespMax
  · simp only [ioctlSetCadence_fills h, fillAll_row h, h, true_and]
  · simp [ioctlSetCadence_rejects h, h]

theorem ioctlSetCadence_gpio (state : UInt32) (s : DrvState) :
    (ioctlSetCadence state s).2.gpio = s.gpio := by
  by_cases h : setResponse state < nvrxRespMax
  · simp [ioctlSetCadence_fills h, fillStructOfLedBuz_gpio]
  · simp [ioctlSetCadence_rejects h]

/-- The row that the LED half of `ClearCadence` leaves, given the row it finds. -/
def ledCleared (ledCadResp currentPriority q : Nat) (r : CadRow) : CadRow :=
  if ledCadResp < nvrxRespMax then
    if q = accessRespCadPriority ledCadResp then
      BuzzerLed.leds.foldl
        (fun r output => if (r output).accessResp = ledCadResp then silenceLed r output else r) r
    else r
  else if ledCadResp = nvrxRespAll then
    if q < maxPriority then BuzzerLed.leds.foldl silenceLed r else r
  else if ledCadResp = nvrxRespPresent then
    if q = currentPriority then BuzzerLed.leds.foldl cancelOutput r else r
  else r

def buzCleared (buzCadResp currentPriority q : Nat) (r : CadRow) : CadRow :=
  if buzCadResp < nvrxRespMax then
    if q = accessRespCadPriority buzCadResp then
      if (r .buzzer).accessResp = buzCadResp then silenceBuzzer r else r
    else r
  else if buzCadResp = nvrxRespAll then
    if q < maxPriority then silenceBuzzer r else r
  else if buzCadResp = nvrxRespPresent then
    if q = currentPriority then cancelOutput r .buzzer else r
  else r

theorem foldl_modRow (n : Nat) (s : DrvState) (f : CadRow → CadRow) :
    let t := (List.range n).foldl (fun s acPro => s.modRow acPro f) s
    (∀ q, t.buzLedCadence q = if q < n then f (s.buzLedCadence q) else s.buzLedCadence q) ∧
      t.currentPriority = s.currentPriority ∧ t.isBuzLedFillInProg = s.isBuzLedFillInProg ∧ t.gpio = s.gpio := by
  induction n with
  | zero => simp
  | succ n ih =>
    obtain ⟨hrow, hcp, hfill, hgpio⟩ := ih
    simp only [List.range_succ, List.foldl_append, List.foldl_cons, List.foldl_nil]
    refine ⟨?_, hcp, hfill, hgpio⟩
    intro q
    rw [modRow_row, hrow]
    by_cases hq : q = n
    · simp [hq]
    · simp [hq, show q < n + 1 ↔ q < n by omega]

/-- Either half of `ClearCadence`, with what it makes of the row of its response, of all rows and of the one that is
being played. -/
def clearRows (one all present : CadRow → CadRow) (resp : Nat) (s : DrvState) : DrvState :=
  if resp < nvrxRespMax then s.modRow (accessRespCadPriority resp) one
  else if resp = nvrxRespAll then (List.range maxPriority).foldl (fun s acPro => s.modRow acPro all) s
  else if resp = nvrxRespPresent then s.modRow s.currentPriority present
  else s

theorem clearLedCadence_eq (led : Nat) : clearLedCadence led = clearRows
    (fun row => BuzzerLed.leds.foldl
      (fun row output => if (row output).accessResp = led then silenceLed row output else row) row)
    (BuzzerLed.leds.foldl silenceLed) (BuzzerLed.leds.foldl cancelOutput) led := rfl

theorem clearBuzCadence_eq (buz : Nat) : clearBuzCadence buz = clearRows
    (fun row => if (row .buzzer).accessResp = buz then silenceBuzzer row else row) silenceBuzzer
    (fun row => cancelOutput row .buzzer) buz := rfl

theorem clearRows_row (one all present : CadRow → CadRow) (resp : Nat) (s : DrvState) (q : Nat) :
    (clearRows one all present resp s).buzLedCadence q =
      if resp < nvrxRespMax then
        if q = accessRespCadPriority resp then one (s.buzLedCadence q) else s.buzLedCadence q
      else if resp = nvrxRespAll then if q < maxPriority then all (s.buzLedCadence q) else s.buzLedCadence q
      else if resp = nvrxRespPresent then
        if q = s.currentPriority then present (s.buzLedCadence q) else s.buzLedCadence q
      else s.buzLedCadence q := by
  unfold clearRows
  split
  · rw [modRow_row]
  · split
    · exact (foldl_modRow maxPriority s _).1 q
    · split
      · rw [modRow_row]
      · rfl

theorem clearRows_rest (one all present : CadRow → CadRow) (resp : Nat) (s : DrvState) :
    (clearRows one all present resp s).currentPriority = s.currentPriority ∧
      (clearRows one all present resp s).isBuzLedFillInProg = s.isBuzLedFillInProg ∧
      (clearRows one all present resp s).gpio = s.gpio := by
  unfold clearRows
  split
  · exact ⟨rfl, rfl, rfl⟩
  · split
    · exact (foldl_modRow maxPriority s _).2
    · split <;> exact ⟨rfl, rfl, rfl⟩

theorem clearHalves_currentPriority (led buz : Nat) (s : DrvState) :
    (clearBuzCadence buz (clearLedCadence led s)).currentPriority = s.currentPriority := by
  rw [clearBuzCadence_eq, (clearRows_rest _ _ _ _ _).1, clearLedCadence_eq, (clearRows_rest _ _ _ _ _).1]

theorem clearCadence_row (led buz : Nat) (s : DrvState) (q : Nat) :
    (clearCadence led buz s).2.buzLedCadence q =
      buzCleared buz s.currentPriority q (ledCleared led s.currentPriority q (s.buzLedCadence q)) := by
  have hled := clearRows_rest (fun row => BuzzerLed.leds.foldl
    (fun row output => if (row output).accessResp = led then silenceLed row output else row) row)
    (BuzzerLed.leds.foldl silenceLed) (BuzzerLed.leds.foldl cancelOutput) led { s with isBuzLedFillInProg := true }
  rw [clearCadence, updateCadPriority_row, clearBuzCadence_eq, clearRows_row, clearLedCadence_eq, clearRows_row, hled.1]
  rfl

theorem clearCadence_gpio (led buz : Nat) (s : DrvState) : (clearCadence led buz s).2.gpio = s.gpio := by
  rw [clearCadence, updateCadPriority_gpio, clearBuzCadence_eq, (clearRows_rest _ _ _ _ _).2.2, clearLedCadence_eq,
    (clearRows_rest _ _ _ _ _).2.2]

/-- Everything `ClearCadence` can do to a cell: leave it, stop it if it is silent
already, or give it the silent pattern for one cycle or for none. -/
inductive Cleared (c : BuzLedCad) : BuzLedCad → Prop
  | kept : Cleared c c
  | stopped (h : c.buzLedCad = cadOff) : Cleared c c.stop
  | silenced (n : Nat) (h : n ≤ 1) : Cleared c (c.off n)

theorem Cleared.trans {a b c : BuzLedCad} (h : Cleared a b) (h' : Cleared b c) : Cleared a c := by
  cases h' with
  | kept => exact h
  | stopped hb =>
    cases h with
    | kept => exact .stopped hb
    | stopped ha => exact .stopped ha
    | silenced n _ => exact .silenced 0 (by omega)
  | silenced n hn =>
    cases h with
    | kept => exact .silenced n hn
    | stopped _ => exact .silenced n hn
    | silenced _ _ => exact .silenced n hn

theorem silenceLed_cleared {r : CadRow} {led : BuzzerLed} (h : led ≠ .buzzer) (o : BuzzerLed) :
    Cleared (r o) (silenceLed r led o) := by
  unfold silenceLed
  by_cases ho : o = led
  · subst ho
    split <;> simp only [Function.update_self, Function.update_of_ne h] <;> exact .silenced 1 le_rfl
  · by_cases hb : o = .buzzer
    · subst hb
      split
      next hoff =>
        rw [Function.update_self]
        exact .stopped hoff
      next =>
        rw [Function.update_of_ne ho]
        exact .kept
    · split <;> simp only [Function.update_of_ne ho, Function.update_of_ne hb] <;> exact .kept

theorem silenceBuzzer_cleared {r : CadRow} (o : BuzzerLed) : Cleared (r o) (silenceBuzzer r o) := by
  unfold silenceBuzzer
  cases o with
  | buzzer => split <;> exact .silenced 1 le_rfl
  | redLed =>
    split
    next hoff => exact .stopped hoff.1
    next => exact .kept
  | greenLed =>
    split
    next hoff => exact .stopped hoff.2
    next => exact .kept

theorem cancelOutput_cleared {r : CadRow} {led : BuzzerLed} (o : BuzzerLed) :
    Cleared (r o) (cancelOutput r led o) := by
  unfold cancelOutput
  by_cases ho : o = led
  · subst ho
    rw [Function.update_self]
    exact .silenced 0 (by omega)
  · rw [Function.update_of_ne ho]
    exact .kept

theorem ledCleared_cleared (led cp q : Nat) (r : CadRow) (o : BuzzerLed) :
    Cleared (r o) (ledCleared led cp q r o) := by
  have red : BuzzerLed.redLed ≠ .buzzer := by decide
  have green : BuzzerLed.greenLed ≠ .buzzer := by decide
  unfold ledCleared BuzzerLed.leds
  simp only [List.foldl_cons, List.foldl_nil]
  have guarded (r : CadRow) (l : BuzzerLed) (hl : l ≠ .buzzer) :
      Cleared (r o) ((if (r l).accessResp = led then silenceLed r l else r) o) := by
    split
    · exact silenceLed_cleared hl o
    · exact .kept
  split
  · split
    · exact (guarded r _ red).trans (guarded _ _ green)
    · exact .kept
  · split
    · split
      · exact (silenceLed_cleared red o).trans (silenceLed_cleared green o)
      · exact .kept
    · split
      · split
        · exact (cancelOutput_cleared o).trans (cancelOutput_cleared o)
        · exact .kept
      · exact .kept

theorem buzCleared_cleared (buz cp q : Nat) (r : CadRow) (o : BuzzerLed) :
    Cleared (r o) (buzCleared buz cp q r o) := by
  unfold buzCleared
  split
  · split
    · split
      · exact silenceBuzzer_cleared o
      · exact .kept
    · exact .kept
  · split
    · split
      · exact silenceBuzzer_cleared o
      · exact .kept
    · split
      · split
        · exact cancelOutput_cleared o
        · exact .kept
      · exact .kept

theorem clearCadence_cleared (led buz : Nat) (s : DrvState) (q : Nat) (o : BuzzerLed) :
    Cleared (s.buzLedCadence q o) ((clearCadence led buz s).2.buzLedCadence q o) := by
  rw [clearCadence_row]
  exact (ledCleared_cleared led _ q _ o).trans (buzCleared_cleared buz _ q _ o)

end NvrxFirmware.MxGpio
