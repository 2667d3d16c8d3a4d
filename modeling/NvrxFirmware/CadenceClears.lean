import NvrxFirmware.CadenceSilence

namespace NvrxFirmware.MxGpio

variable {s t : DrvState} {c c' : BuzLedCad} {q led buz resp : Nat} {o : BuzzerLed}

/-- A response of the tables, or `NVRX_RESP_NONE`. -/
def SingleOrNone (resp : Nat) : Prop := resp < nvrxRespMax ∨ resp = nvrxRespNone

instance (resp : Nat) : Decidable (SingleOrNone resp) := inferInstanceAs (Decidable (_ ∨ _))

theorem clearMode_single (h : SingleOrNone resp) : clearMode resp s q =
    if resp < nvrxRespMax ∧ q = accessRespCadPriority resp ∧ (s.buzLedCadence q .buzzer).accessResp = resp then
      .silence
    else .keep := by
  unfold clearMode
  rcases h with hlt | rfl
  · simp only [hlt, if_true, true_and]
  · rfl

theorem clearCadence_kept (same : ∀ o o', (s.buzLedCadence q o).accessResp = (s.buzLedCadence q o').accessResp)
    (hled : clearMode led s q = .keep) (hbuz : clearMode buz s q = .keep) :
    (clearCadence led buz s).2.buzLedCadence q = s.buzLedCadence q := by
  rw [clearCadence_mode same, hled, hbuz]
  rfl

theorem PrioritySelected.congr (h : PrioritySelected s) (rows : t.buzLedCadence = s.buzLedCadence)
    (current : t.currentPriority = s.currentPriority) : PrioritySelected t := by
  have hrows : unfinishedRows t = unfinishedRows s := by simp only [unfinishedRows, rows]
  constructor
  · rw [current]
    exact h.bound
  · intro hsome
    rw [hrows] at hsome ⊢
    rw [current]
    exact h.least hsome

theorem updateCadPriority_of_selected (h : PrioritySelected s) : updateCadPriority s = s := by
  cases hf : (List.range (maxPriority + 1)).find? (fun j => rowUnfinished (s.buzLedCadence j)) with
  | none => simp [updateCadPriority, hf]
  | some p =>
    obtain ⟨he, hleast⟩ := updateCadPriority_some hf
    have hcurrent : p = s.currentPriority := hleast.unique (h.least ⟨p, hleast.1⟩)
    rw [he, hcurrent]

theorem clearCadence_currentPriority_of_rows (h : PrioritySelected s)
    (rows : (clearCadence led buz s).2.buzLedCadence = s.buzLedCadence) :
    (clearCadence led buz s).2.currentPriority = s.currentPriority := by
  let u := clearBuzCadence buz (clearLedCadence led { s with isBuzLedFillInProg := true })
  have hclear : (clearCadence led buz s).2 = updateCadPriority u := rfl
  have hcurrent : u.currentPriority = s.currentPriority := by
    rw [clearHalves_currentPriority]
  rw [hclear, updateCadPriority_row] at rows
  rw [hclear, updateCadPriority_of_selected (h.congr rows hcurrent), hcurrent]

/-- What a clear of single responses leaves alone. `replaced` is the case in which neither
response is the one its row carries. -/
structure ClearFrame (led buz : Nat) (s t : DrvState) : Prop where
  other_rows : ∀ q, (∀ resp, resp = led ∨ resp = buz → resp < nvrxRespMax → q ≠ accessRespCadPriority resp) →
    t.buzLedCadence q = s.buzLedCadence q
  other_responses : ∀ q o, (s.buzLedCadence q o).accessResp ≠ led → (s.buzLedCadence q o).accessResp ≠ buz →
    t.buzLedCadence q = s.buzLedCadence q
  accessResp : ∀ q o, (t.buzLedCadence q o).accessResp = (s.buzLedCadence q o).accessResp
  replaced : (∀ resp, resp = led ∨ resp = buz → resp < nvrxRespMax →
      ∃ o, (s.buzLedCadence (accessRespCadPriority resp) o).accessResp ≠ resp) →
    t.buzLedCadence = s.buzLedCadence ∧ t.currentPriority = s.currentPriority ∧ t.gpio = s.gpio

theorem clear_touches_own_responses (gpio : Nat → Bool) (ops : List CadOp) (led buz : UInt16)
    (hled : SingleOrNone led.toNat) (hbuz : SingleOrNone buz.toNat) :
    ClearFrame led.toNat buz.toNat (cadRun gpio ops) (cadStep (cadRun gpio ops) (.clrCadence led buz)) := by
  have same (q : Nat) := (cadRun_rowWellFormed gpio ops q).same_resp
  have kept (q : Nat) (h : ∀ resp, resp = led.toNat ∨ resp = buz.toNat → resp < nvrxRespMax →
      q = accessRespCadPriority resp → ((cadRun gpio ops).buzLedCadence q .buzzer).accessResp ≠ resp) :
      (cadStep (cadRun gpio ops) (.clrCadence led buz)).buzLedCadence q = (cadRun gpio ops).buzLedCadence q := by
    apply clearCadence_kept (same q)
    · rw [clearMode_single hled, if_neg]
      rintro ⟨hlt, hq, hr⟩
      exact h led.toNat (.inl rfl) hlt hq hr
    · rw [clearMode_single hbuz, if_neg]
      rintro ⟨hlt, hq, hr⟩
      exact h buz.toNat (.inr rfl) hlt hq hr
  constructor
  · intro q hq
    apply kept q
    intro resp hresp hlt he
    exact absurd he (hq resp hresp hlt)
  · intro q o hne hne'
    apply kept q
    intro resp hresp _ _ hr
    rw [same q .buzzer o] at hr
    rcases hresp with rfl | rfl
    · exact hne hr
    · exact hne' hr
  · intro q o
    exact (clearCadence_cleared led.toNat buz.toNat (cadRun gpio ops) q o).accessResp
  · intro hreplaced
    have rows : (cadStep (cadRun gpio ops) (.clrCadence led buz)).buzLedCadence =
        (cadRun gpio ops).buzLedCadence := by
      funext q
      apply kept q
      intro resp hresp hlt he hr
      obtain ⟨o, ho⟩ := hreplaced resp hresp hlt
      rw [← he, same q o .buzzer] at ho
      exact ho hr
    have current := clearCadence_currentPriority_of_rows (cadRun_selected gpio ops) rows
    exact ⟨rows, current, clearCadence_gpio _ _ _⟩

theorem clear_touches_own_responses_replaced :
    ClearFrame 2 20 (cadRun (fun _ => false) [.setCadence 2, .setCadence 3])
      (cadStep (cadRun (fun _ => false) [.setCadence 2, .setCadence 3]) (.clrCadence 2 20)) :=
  clear_touches_own_responses (fun _ => false) [.setCadence 2, .setCadence 3] 2 20 (by decide) (by decide)

/-- `NVRX_RESP_ALL` on both fields. -/
def clrAll : CadOp := .clrCadence 18 18

/-- No row that can be played has a bit to drive an output high with. -/
def AllSilent (s : DrvState) : Prop := ∀ p ≤ maxPriority, ∀ o, (s.buzLedCadence p o).buzLedCad = 0

theorem wrap_buzLedCad (c : BuzLedCad) : c.wrap.buzLedCad = c.buzLedCad := by
  unfold BuzLedCad.wrap
  split <;> rfl

theorem wrap_unfinished (h : 0 < c.noOfCycles) : 0 < c.wrap.noOfCycles ↔ Pending c := by
  have hinf : infiniteCycle = 255 := rfl
  unfold BuzLedCad.wrap Pending
  split
  next hend =>
    dsimp only
    split <;> omega
  next hend => omega

theorem playCell_level (c : BuzLedCad) :
    (playCell c).2 = if Pending c then some (c.buzLedCad.testBit (testedBit c)) else none := by
  unfold playCell
  split
  next hpos =>
    have hpend := wrap_unfinished hpos
    dsimp only
    by_cases hmore : 0 < c.wrap.noOfCycles
    · rw [if_pos hmore, if_pos (hpend.mp hmore), wrap_buzLedCad]
      rfl
    · have hstop : ¬Pending c := by
        intro h
        exact hmore (hpend.mpr h)
      rw [if_neg hmore, if_neg hstop]
  next hpos =>
    have hstop : ¬Pending c := by
      intro h
      exact hpos h.1
    rw [if_neg hstop]

theorem Cleared.silent (h : Cleared c c') (hc : c.buzLedCad = 0) : c'.buzLedCad = 0 := by
  cases h with
  | kept => exact hc
  | stopped _ => exact hc
  | silenced _ _ => rfl

theorem AllSilent.step (h : AllSilent s) {op : CadOp} (hop : ∀ state, op ≠ .setCadence state) :
    AllSilent (cadStep s op) := by
  intro p hp o
  cases op with
  | setCadence state => exact absurd rfl (hop state)
  | clrCadence led buz => exact (clearCadence_cleared led.toNat buz.toNat s p o).silent (h p hp o)
  | procBuzLedCad =>
    simp only [cadStep]
    cases hfill : s.isBuzLedFillInProg with
    | true =>
      rw [procBuzLedCad_blocked hfill]
      exact h p hp o
    | false =>
      by_cases hcurrent : p = s.currentPriority
      · subst hcurrent
        obtain ⟨c, hplayed, hrewound⟩ := procBuzLedCad_cell s o hfill
        rw [hrewound.cadence.1, hplayed.cadence.1]
        exact h s.currentPriority hp o
      · rw [procBuzLedCad_row_ne hcurrent]
        exact h p hp o
  | syncBuzLedCad => exact h p hp o

theorem AllSilent.tickLevel_ne (h : AllSilent s) (bound : s.currentPriority ≤ maxPriority) (o : BuzzerLed) :
    tickLevel s o ≠ some true := by
  have hpattern := h s.currentPriority bound o
  unfold tickLevel
  rw [playCell_level, hpattern]
  split
  · simp
  · split <;> simp

/-- Both halves of a clear on one row. The buzzer half finds both LEDs silent already and takes
back the cycle that the LED half has just given them. -/
theorem silenceAll_row (r : CadRow) (o : BuzzerLed) :
    silenceBuzzer (BuzzerLed.leds.foldl silenceLed r) o = (r o).off (if o = .buzzer then 1 else 0) := by
  have hleds : (BuzzerLed.leds.foldl silenceLed r .redLed).buzLedCad = cadOff ∧
      (BuzzerLed.leds.foldl silenceLed r .greenLed).buzLedCad = cadOff := by
    simp [silenceLeds_row]
  rw [silenceBuzzer_row, if_pos hleds]
  cases o with
  | buzzer =>
    rw [if_pos rfl, silenceLeds_row, if_pos rfl, if_pos rfl]
    split <;> rfl
  | redLed => simp [silenceLeds_row, BuzLedCad.off, BuzLedCad.stop]
  | greenLed => simp [silenceLeds_row, BuzLedCad.off, BuzLedCad.stop]

theorem clearMode_all (h : q < maxPriority) : clearMode nvrxRespAll s q = .silence := by
  unfold clearMode
  rw [if_neg (by decide), if_pos rfl, if_pos h]

theorem clearCadence_silences (same : ∀ o o', (s.buzLedCadence q o).accessResp = (s.buzLedCadence q o').accessResp)
    (hit : clearMode resp s q = .silence) (o : BuzzerLed) : (clearCadence resp resp s).2.buzLedCadence q o =
      (s.buzLedCadence q o).off (if o = .buzzer then 1 else 0) := by
  rw [clearCadence_mode same, hit]
  exact silenceAll_row _ o

theorem clrAll_allSilent (gpio : Nat → Bool) (ops : List CadOp) :
    AllSilent (cadStep (cadRun gpio ops) clrAll) := by
  have row := cadRun_rowWellFormed gpio ops
  intro p hp o
  by_cases hidle : p = maxPriority
  · have hcell := (row p).cells o
    have hold := hcell.idle_silent hidle
    exact (clearCadence_cleared nvrxRespAll nvrxRespAll (cadRun gpio ops) p o).silent hold
  · have hit : clearMode nvrxRespAll (cadRun gpio ops) p = .silence := clearMode_all (by omega)
    have hcell := clearCadence_silences (row p).same_resp hit o
    have hstep : cadStep (cadRun gpio ops) clrAll = (clearCadence nvrxRespAll nvrxRespAll (cadRun gpio ops)).2 := rfl
    rw [hstep, hcell]
    rfl

/-- The level that the operation drives on the output, if it drives one. -/
def drivenLevel (o : BuzzerLed) (s : DrvState) : CadOp → List Bool
  | .procBuzLedCad => (tickLevel s o).toList
  | _ => []

theorem cadStep_gpio (s : DrvState) (op : CadOp) (o : BuzzerLed) :
    (cadStep s op).gpio (buzLedPin o) = ((drivenLevel o s op).head?).getD (s.gpio (buzLedPin o)) := by
  cases op with
  | setCadence state =>
    have hgpio := ioctlSetCadence_gpio state s
    exact congrFun hgpio (buzLedPin o)
  | clrCadence led buz =>
    have hgpio := clearCadence_gpio led.toNat buz.toNat s
    exact congrFun hgpio (buzLedPin o)
  | procBuzLedCad =>
    have htick := procBuzLedCad_gpio (s := s) o
    cases hlevel : tickLevel s o with
    | none => simpa [cadStep, drivenLevel, hlevel] using htick
    | some level => simpa [cadStep, drivenLevel, hlevel] using htick
  | syncBuzLedCad => rfl

/-- Since the clear of everything the output has been driven high by nothing, and `on` is how it was then. -/
structure SilentSince (o : BuzzerLed) (on : Bool) (driven : List Bool) (t : DrvState) : Prop where
  silent : AllSilent t
  selected : PrioritySelected t
  low : true ∉ driven
  pin : t.gpio (buzLedPin o) = true → on = true

theorem AllSilent.drivenLevel_low (h : AllSilent s) (selected : PrioritySelected s) (o : BuzzerLed) (op : CadOp) :
    true ∉ drivenLevel o s op := by
  cases op with
  | procBuzLedCad =>
    have hne := h.tickLevel_ne selected.bound o
    simpa [drivenLevel] using hne
  | setCadence state => simp [drivenLevel]
  | clrCadence led buz => simp [drivenLevel]
  | syncBuzLedCad => simp [drivenLevel]

theorem SilentSince.step {o : BuzzerLed} {on : Bool} {driven : List Bool} (h : SilentSince o on driven s) {op : CadOp}
    (unset : ∀ state, op ≠ .setCadence state) :
    SilentSince o on (driven ++ drivenLevel o s op) (cadStep s op) := by
  have hlevel := h.silent.drivenLevel_low h.selected o op
  refine ⟨h.silent.step unset, cadStep_selected op h.selected, ?_, ?_⟩
  · simp [h.low, hlevel]
  · intro hon
    apply h.pin
    rw [cadStep_gpio] at hon
    cases hdriven : drivenLevel o s op with
    | nil => simpa [hdriven] using hon
    | cons level rest =>
      rw [hdriven] at hon hlevel
      have hhigh : level = true := by simpa using hon
      simp [hhigh] at hlevel

/-- From a clear of everything on, no tick drives an output high, and an output is on only if it
was on before, as long as no response is SET. -/
theorem clear_all_is_final (gpio : Nat → Bool) (ops after : List CadOp)
    (unset : ∀ state, CadOp.setCadence state ∉ after) (o : BuzzerLed) :
    true ∉ outputs cadStep (drivenLevel o) (cadRun gpio (ops ++ [clrAll])) after ∧
      ((cadRun gpio (ops ++ clrAll :: after)).gpio (buzLedPin o) = true →
        (cadRun gpio ops).gpio (buzLedPin o) = true) := by
  have hclear : cadRun gpio (ops ++ [clrAll]) = cadStep (cadRun gpio ops) clrAll := by
    simp [cadRun, List.foldl_append]
  have hrun : cadRun gpio (ops ++ clrAll :: after) = after.foldl cadStep (cadStep (cadRun gpio ops) clrAll) := by
    simp [cadRun, List.foldl_append]
  have hpin : (cadStep (cadRun gpio ops) clrAll).gpio = (cadRun gpio ops).gpio := clearCadence_gpio _ _ _
  have hselected : PrioritySelected (cadStep (cadRun gpio ops) clrAll) :=
    clearCadence_selected _ _ (cadRun_selected gpio ops)
  have hstart : SilentSince o ((cadRun gpio ops).gpio (buzLedPin o)) [] (cadStep (cadRun gpio ops) clrAll) :=
    ⟨clrAll_allSilent gpio ops, hselected, List.not_mem_nil, fun hon => hpin ▸ hon⟩
  have hfinal : SilentSince o ((cadRun gpio ops).gpio (buzLedPin o))
      (outputs cadStep (drivenLevel o) (cadStep (cadRun gpio ops) clrAll) after)
      (after.foldl cadStep (cadStep (cadRun gpio ops) clrAll)) := by
    apply outputs_invariant hstart
    intro driven t h op hop
    apply h.step
    rintro state rfl
    exact unset state hop
  rw [hclear, hrun]
  exact ⟨hfinal.low, hfinal.pin⟩

theorem clear_all_is_final_resumed :
    true ∉ outputs cadStep (drivenLevel .redLed) (cadRun (fun _ => false) ([.setCadence 1] ++ [clrAll]))
      [.syncBuzLedCad, .procBuzLedCad, .clrCadence 0 1, .syncBuzLedCad, .procBuzLedCad] ∧
      ((cadRun (fun _ => false) ([.setCadence 1] ++ clrAll ::
        [.syncBuzLedCad, .procBuzLedCad, .clrCadence 0 1, .syncBuzLedCad, .procBuzLedCad])).gpio
          (buzLedPin .redLed) = true →
        (cadRun (fun _ => false) [.setCadence 1]).gpio (buzLedPin .redLed) = true) :=
  clear_all_is_final (fun _ => false) [.setCadence 1]
    [.syncBuzLedCad, .procBuzLedCad, .clrCadence 0 1, .syncBuzLedCad, .procBuzLedCad] (by simp) .redLed

end NvrxFirmware.MxGpio
