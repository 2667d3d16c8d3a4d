import NvrxFirmware.CadenceClears

namespace NvrxFirmware.MxGpio

variable {s t : DrvState} {c c' : BuzLedCad} {q led buz resp : Nat} {o : BuzzerLed}

/-- The clear of the response being played, or of every response. -/
def SilencingClear (s : DrvState) (resp : Nat) : Prop :=
  resp = nvrxRespAll ∨ resp < nvrxRespMax ∧ accessRespCadPriority resp = s.currentPriority ∧
    ∀ o, (s.buzLedCadence s.currentPriority o).accessResp = resp

instance (s : DrvState) (resp : Nat) : Decidable (SilencingClear s resp) :=
  inferInstanceAs (Decidable (_ ∨ _ ∧ _ ∧ _))

/-- The operations that can come before the next tick that runs, other than a SET. -/
def Waits (s : DrvState) : CadOp → Prop
  | .setCadence _ => False
  | .procBuzLedCad => s.isBuzLedFillInProg = true
  | _ => True

instance (s : DrvState) : DecidablePred (Waits s)
  | .setCadence _ => .isFalse id
  | .procBuzLedCad => inferInstanceAs (Decidable (_ = true))
  | .clrCadence _ _ | .syncBuzLedCad => .isTrue trivial

/-- Every output that `s` has on is off in `t`. -/
def Silenced (s t : DrvState) : Prop :=
  ∀ o, s.gpio (buzLedPin o) = true → t.gpio (buzLedPin o) = false

instance (s t : DrvState) : Decidable (Silenced s t) :=
  inferInstanceAs (Decidable (∀ o, s.gpio (buzLedPin o) = true → t.gpio (buzLedPin o) = false))

def LedsOff (s : DrvState) : Prop := ∀ o ∈ BuzzerLed.leds, s.gpio (buzLedPin o) = false

/-- The next tick that plays the cell drives its output low. -/
def PlaysLow (c : BuzLedCad) : Prop := Pending c ∧ c.buzLedCad.testBit (testedBit c) = false

instance (c : BuzLedCad) : Decidable (PlaysLow c) := inferInstanceAs (Decidable (_ ∧ _))

theorem playCell_low_iff : (playCell c).2 = some false ↔ PlaysLow c := by
  rw [playCell_level, PlaysLow]
  split
  next hpend => simp [hpend]
  next hpend => simp [hpend]

theorem silenced_iff_playsLow (runs : t.isBuzLedFillInProg = false) (pins : t.gpio = s.gpio) :
    Silenced s (procBuzLedCad t) ↔
      ∀ o, s.gpio (buzLedPin o) = true → PlaysLow (t.buzLedCadence t.currentPriority o) := by
  apply forall_congr'
  intro o
  apply imp_congr_right
  intro hon
  have hlevel : tickLevel t o = (playCell (t.buzLedCadence t.currentPriority o)).2 := by simp [tickLevel, runs]
  rw [procBuzLedCad_gpio, pins, hon, hlevel, ← playCell_low_iff]
  cases (playCell (t.buzLedCadence t.currentPriority o)).2 with
  | none => simp
  | some level => simp

theorem waits_table {between : List CadOp} (waits : Along cadStep Waits s between)
    (unclear : ∀ led buz, CadOp.clrCadence led buz ∉ between) :
    (between.foldl cadStep s).buzLedCadence = s.buzLedCadence ∧
      (between.foldl cadStep s).currentPriority = s.currentPriority := by
  induction between generalizing s with
  | nil => exact ⟨rfl, rfl⟩
  | cons op between ih =>
    obtain ⟨hop, hrest⟩ := waits
    have hnext := ih hrest (fun led buz h => unclear led buz (List.mem_cons_of_mem op h))
    rw [List.foldl_cons, hnext.1, hnext.2]
    cases op with
    | setCadence state => exact hop.elim
    | clrCadence led buz => exact absurd List.mem_cons_self (unclear led buz)
    | procBuzLedCad =>
      have hblocked : cadStep s .procBuzLedCad = s := procBuzLedCad_blocked hop
      rw [hblocked]
      exact ⟨rfl, rfl⟩
    | syncBuzLedCad => exact ⟨rfl, rfl⟩

theorem clearMode_playing (hlt : resp < nvrxRespMax) (hprio : accessRespCadPriority resp = s.currentPriority)
    (hresp : (s.buzLedCadence s.currentPriority .buzzer).accessResp = resp) :
    clearMode resp s s.currentPriority = .silence := by
  rw [clearMode_single (.inl hlt), if_pos ⟨hlt, hprio.symm, hresp⟩]

/-- The row that is played after the clear has been silenced by it. -/
theorem silencingClear_current {history : List CadOp} (row : ∀ p, RowWellFormed history p (s.buzLedCadence p))
    (selected : PrioritySelected s) (h : SilencingClear s resp) :
    clearMode resp s (clearCadence resp resp s).2.currentPriority = .silence := by
  have hselected := clearCadence_selected resp resp selected
  have unfinished (q : Nat) (hq : q ≤ maxPriority) (hit : clearMode resp s q = .silence) :
      q ∈ unfinishedRows (clearCadence resp resp s).2 := by
    refine ⟨hq, .buzzer, ?_⟩
    rw [clearCadence_silences (row q).same_resp hit]
    exact Nat.one_pos
  rcases h with rfl | ⟨hlt, hprio, hresp⟩
  · have hzero : 0 ∈ unfinishedRows (clearCadence nvrxRespAll nvrxRespAll s).2 :=
      unfinished 0 (by decide) (clearMode_all (by decide))
    have hleast := hselected.least ⟨0, hzero⟩
    have hle := hleast.2 hzero
    exact clearMode_all (Nat.lt_of_le_of_lt hle (by decide))
  · have hit := clearMode_playing hlt hprio (hresp .buzzer)
    have hcurrent := unfinished s.currentPriority selected.bound hit
    have hleast := hselected.least ⟨_, hcurrent⟩
    by_contra hmiss
    have hkeep : clearMode resp s (clearCadence resp resp s).2.currentPriority = .keep := by
      rw [clearMode_single (.inl hlt)] at hmiss ⊢
      exact if_neg fun hc => hmiss (if_pos hc)
    have hrow := clearCadence_kept (row (clearCadence resp resp s).2.currentPriority).same_resp hkeep hkeep
    have hold : (clearCadence resp resp s).2.currentPriority ∈ unfinishedRows s := by
      obtain ⟨hmax, o, ho⟩ := hleast.1
      exact ⟨hmax, o, by rwa [hrow] at ho⟩
    have hlow := (selected.least ⟨_, hold⟩).2 hold
    have heq := Nat.le_antisymm (hleast.2 hcurrent) hlow
    rw [heq] at hmiss
    exact hmiss hit

theorem playsLow_off (c : BuzLedCad) (o : BuzzerLed) :
    PlaysLow (c.off (if o = .buzzer then 1 else 0)) ↔ o = .buzzer := by
  split
  next ho => simp [PlaysLow, ho, cadOff]
  next ho => simp [PlaysLow, ho]

theorem forall_leds_iff {P : BuzzerLed → Prop} : (∀ o ∈ BuzzerLed.leds, P o) ↔ ∀ o, o ≠ .buzzer → P o := by
  constructor
  · intro h o ho
    apply h o
    cases o with
    | buzzer => exact absurd rfl ho
    | redLed => decide
    | greenLed => decide
  · intro h o ho
    apply h o
    rintro rfl
    exact absurd ho (by decide)

/-- The state of the tick that follows the clear, after what comes between them. -/
def afterClear (s : DrvState) (resp : UInt16) (between : List CadOp) : DrvState :=
  between.foldl cadStep (cadStep s (.clrCadence resp resp))

/-- What the clears since some state have made of a cell. -/
inductive Mark
  | kept
  | stopped
  | silent
  deriving DecidableEq

/-- The cell has the silent pattern, by a clear or already in that state. -/
def Mark.Off (m : Mark) (c : BuzLedCad) : Prop := m = .kept → c.buzLedCad = cadOff

def Mark.Unfinished (m : Mark) (c : BuzLedCad) : Prop := m = .silent ∨ m = .kept ∧ 0 < c.noOfCycles

/-- The cell will drive its output low, by its silent cycle or by what it had to play in that state. -/
def Mark.Low (m : Mark) (c : BuzLedCad) : Prop := m = .silent ∨ m = .kept ∧ PlaysLow c

instance (m : Mark) (c : BuzLedCad) : Decidable (m.Off c) := inferInstanceAs (Decidable (_ → _))

instance (m : Mark) (c : BuzLedCad) : Decidable (m.Unfinished c) := inferInstanceAs (Decidable (_ ∨ _ ∧ _))

instance (m : Mark) (c : BuzLedCad) : Decidable (m.Low c) := inferInstanceAs (Decidable (_ ∨ _ ∧ _))

/-- The marks of the cells, and the row in play. -/
structure Marks where
  row : Nat → BuzzerLed → Mark
  current : Nat

/-- A field for the LEDs: both get a silent cycle, and a buzzer that is off is stopped. -/
def ledMarks (mode : ClearMode) (r : CadRow) (m : BuzzerLed → Mark) (o : BuzzerLed) : Mark :=
  match mode with
  | .keep => m o
  | .silence => if o = .buzzer then if (m .buzzer).Off (r .buzzer) then .stopped else m .buzzer else .silent
  | .cancel => if o = .buzzer then m .buzzer else .stopped

/-- A field for the buzzer: it gets a silent cycle, and LEDs that are both off are stopped. -/
def buzMarks (mode : ClearMode) (r : CadRow) (m : BuzzerLed → Mark) (o : BuzzerLed) : Mark :=
  match mode with
  | .keep => m o
  | .silence =>
    if o = .buzzer then .silent
    else if (m .redLed).Off (r .redLed) ∧ (m .greenLed).Off (r .greenLed) then .stopped else m o
  | .cancel => if o = .buzzer then .stopped else m o

/-- The first row with something left to play, if there is one. -/
def nextRow (s : DrvState) (row : Nat → BuzzerLed → Mark) (current : Nat) : Nat :=
  ((List.range (maxPriority + 1)).find? fun q => decide (∃ o, (row q o).Unfinished (s.buzLedCadence q o))).getD current

/-- What a clear adds to the marks, by its fields and the responses that the rows carry in `s`. -/
def Marks.step (s : DrvState) (m : Marks) : CadOp → Marks
  | .clrCadence led buz =>
    let inPlay := { s with currentPriority := m.current }
    let row := fun q => buzMarks (clearMode buz.toNat inPlay q) (s.buzLedCadence q)
      (ledMarks (clearMode led.toNat inPlay q) (s.buzLedCadence q) (m.row q))
    ⟨row, nextRow s row m.current⟩
  | _ => m

/-- The marks that the clears of these operations make, from `s` on. -/
def marksAfter (s : DrvState) (ops : List CadOp) : Marks :=
  ops.foldl (Marks.step s) ⟨fun _ _ => .kept, s.currentPriority⟩

/-- What a mark says of the cell that `c` has become. -/
def MarkedCell (m : Mark) (c c' : BuzLedCad) : Prop :=
  match m with
  | .kept => c' = c
  | .stopped => c'.buzLedCad = cadOff ∧ c'.noOfCycles = 0
  | .silent => c'.buzLedCad = cadOff ∧ c'.noOfCycles = 1 ∧ c'.cadBits = cadOffCadBits ∧ c'.cadPosition = 0

variable {m : Mark} {ms : Marks}

theorem MarkedCell.off_iff (h : MarkedCell m c c') : c'.buzLedCad = cadOff ↔ m.Off c := by
  cases m with
  | kept =>
    obtain rfl : c' = c := h
    simp [Mark.Off]
  | stopped => simp [Mark.Off, h.1]
  | silent => simp [Mark.Off, h.1]

theorem MarkedCell.unfinished_iff (h : MarkedCell m c c') : 0 < c'.noOfCycles ↔ m.Unfinished c := by
  cases m with
  | kept =>
    obtain rfl : c' = c := h
    simp [Mark.Unfinished]
  | stopped => simp [Mark.Unfinished, h.2]
  | silent => simp [Mark.Unfinished, h.2.1]

theorem MarkedCell.low_iff (h : MarkedCell m c c') : PlaysLow c' ↔ m.Low c := by
  cases m with
  | kept =>
    obtain rfl : c' = c := h
    simp [Mark.Low]
  | stopped => simp [Mark.Low, PlaysLow, Pending, h.2]
  | silent =>
    obtain ⟨hoff, hcycles, hbits, hposition⟩ := h
    simp [Mark.Low, PlaysLow, Pending, hoff, hcycles, hbits, hposition, cadOff, cadOffCadBits]

theorem ledMarks_marked {r r' : CadRow} {marks : BuzzerLed → Mark} (h : ∀ o, MarkedCell (marks o) (r o) (r' o))
    (mode : ClearMode) (o : BuzzerLed) : MarkedCell (ledMarks mode r marks o) (r o) (ledModeRow mode r' o) := by
  cases mode with
  | keep => exact h o
  | silence =>
    rw [ledModeRow, silenceLeds_row, ledMarks]
    by_cases ho : o = .buzzer
    · subst ho
      rw [if_pos rfl, if_pos rfl]
      by_cases hoff : (r' .buzzer).buzLedCad = cadOff
      · rw [if_pos hoff, if_pos ((h .buzzer).off_iff.mp hoff)]
        exact ⟨hoff, rfl⟩
      · rw [if_neg hoff, if_neg fun hm => hoff ((h .buzzer).off_iff.mpr hm)]
        exact h .buzzer
    · rw [if_neg ho, if_neg ho]
      exact ⟨rfl, rfl, rfl, rfl⟩
  | cancel =>
    rw [ledModeRow, cancelLeds_row, ledMarks]
    split
    next ho =>
      subst ho
      exact h .buzzer
    next => exact ⟨rfl, rfl⟩

theorem buzMarks_marked {r r' : CadRow} {marks : BuzzerLed → Mark} (h : ∀ o, MarkedCell (marks o) (r o) (r' o))
    (mode : ClearMode) (o : BuzzerLed) : MarkedCell (buzMarks mode r marks o) (r o) (buzModeRow mode r' o) := by
  cases mode with
  | keep => exact h o
  | silence =>
    rw [buzModeRow, silenceBuzzer_row, buzMarks]
    by_cases ho : o = .buzzer
    · subst ho
      rw [if_pos rfl, if_pos rfl]
      exact ⟨rfl, rfl, rfl, rfl⟩
    · have hboth := and_congr (h .redLed).off_iff (h .greenLed).off_iff
      rw [if_neg ho, if_neg ho]
      by_cases hoff : (r' .redLed).buzLedCad = cadOff ∧ (r' .greenLed).buzLedCad = cadOff
      · have hled : (r' o).buzLedCad = cadOff := by
          cases o with
          | buzzer => exact absurd rfl ho
          | redLed => exact hoff.1
          | greenLed => exact hoff.2
        rw [if_pos hoff, if_pos (hboth.mp hoff)]
        exact ⟨hled, rfl⟩
      · rw [if_neg hoff, if_neg fun hm => hoff (hboth.mpr hm)]
        exact h o
  | cancel =>
    rw [buzModeRow, cancelBuzzer_row, buzMarks]
    split
    next ho =>
      subst ho
      exact ⟨rfl, rfl⟩
    next => exact h o

/-- The marks say what has become of the cells of `s` in `t`, which row is in play there, and that nothing else has
changed. -/
structure Reflects (s : DrvState) (ms : Marks) (t : DrvState) : Prop where
  cells : ∀ q o, MarkedCell (ms.row q o) (s.buzLedCadence q o) (t.buzLedCadence q o)
  responses : ∀ q o, (t.buzLedCadence q o).accessResp = (s.buzLedCadence q o).accessResp
  current : t.currentPriority = ms.current
  pins : t.gpio = s.gpio

theorem Reflects.start (s : DrvState) : Reflects s ⟨fun _ _ => .kept, s.currentPriority⟩ s :=
  ⟨fun _ _ => rfl, fun _ _ => rfl, rfl, rfl⟩

theorem Reflects.clearMode (h : Reflects s ms t) (resp q : Nat) :
    clearMode resp t q = clearMode resp { s with currentPriority := ms.current } q := by
  unfold MxGpio.clearMode
  rw [h.responses, h.current]

theorem Reflects.rowUnfinished (h : Reflects s ms t) (q : Nat) :
    rowUnfinished (t.buzLedCadence q) = decide (∃ o, (ms.row q o).Unfinished (s.buzLedCadence q o)) := by
  rw [Bool.eq_iff_iff, rowUnfinished_iff, decide_eq_true_iff]
  exact exists_congr fun o => (h.cells q o).unfinished_iff

theorem updateCadPriority_currentPriority (s : DrvState) : (updateCadPriority s).currentPriority =
    ((List.range (maxPriority + 1)).find? fun q => rowUnfinished (s.buzLedCadence q)).getD s.currentPriority := by
  unfold updateCadPriority
  split
  next q hfound => rw [hfound, Option.getD_some]
  next hnone => rw [hnone, Option.getD_none]

theorem Reflects.clear (h : Reflects s ms t) (led buz : UInt16)
    (same : ∀ q o o', (s.buzLedCadence q o).accessResp = (s.buzLedCadence q o').accessResp) :
    Reflects s (ms.step s (.clrCadence led buz)) (cadStep t (.clrCadence led buz)) := by
  have hrow (q : Nat) : (cadStep t (.clrCadence led buz)).buzLedCadence q =
      buzModeRow (MxGpio.clearMode buz.toNat { s with currentPriority := ms.current } q)
        (ledModeRow (MxGpio.clearMode led.toNat { s with currentPriority := ms.current } q) (t.buzLedCadence q)) := by
    have hsame : ∀ o o', (t.buzLedCadence q o).accessResp = (t.buzLedCadence q o').accessResp := fun o o' => by
      rw [h.responses, h.responses, same q o o']
    rw [← h.clearMode, ← h.clearMode]
    exact clearCadence_mode hsame
  have hcells (q : Nat) (o : BuzzerLed) : MarkedCell ((ms.step s (.clrCadence led buz)).row q o) (s.buzLedCadence q o)
      ((cadStep t (.clrCadence led buz)).buzLedCadence q o) := by
    rw [hrow]
    exact buzMarks_marked (ledMarks_marked (h.cells q) _) _ o
  have hresponses (q : Nat) (o : BuzzerLed) : ((cadStep t (.clrCadence led buz)).buzLedCadence q o).accessResp =
      (s.buzLedCadence q o).accessResp :=
    (clearCadence_cleared led.toNat buz.toNat t q o).accessResp.trans (h.responses q o)
  have hmarked : Reflects s ⟨(ms.step s (.clrCadence led buz)).row, (cadStep t (.clrCadence led buz)).currentPriority⟩
      (cadStep t (.clrCadence led buz)) := ⟨hcells, hresponses, rfl, (clearCadence_gpio _ _ _).trans h.pins⟩
  refine ⟨hcells, hresponses, ?_, hmarked.pins⟩
  have hkept :
      (clearBuzCadence buz.toNat (clearLedCadence led.toNat { t with isBuzLedFillInProg := true })).currentPriority =
      ms.current := by
    rw [clearHalves_currentPriority]
    exact h.current
  have hfind : (fun q => MxGpio.rowUnfinished ((clearBuzCadence buz.toNat
      (clearLedCadence led.toNat { t with isBuzLedFillInProg := true })).buzLedCadence q)) =
      fun q => decide (∃ o, ((ms.step s (.clrCadence led buz)).row q o).Unfinished (s.buzLedCadence q o)) := by
    funext q
    rw [← hmarked.rowUnfinished q]
    exact congrArg MxGpio.rowUnfinished (congrFun updateCadPriority_row.symm q)
  calc (cadStep t (.clrCadence led buz)).currentPriority
    _ = (updateCadPriority (clearBuzCadence buz.toNat
        (clearLedCadence led.toNat { t with isBuzLedFillInProg := true }))).currentPriority := rfl
    _ = (ms.step s (.clrCadence led buz)).current := by
      rw [updateCadPriority_currentPriority, hfind, hkept]
      rfl

theorem Reflects.step (h : Reflects s ms t) (op : CadOp) (waits : Waits t op)
    (same : ∀ q o o', (s.buzLedCadence q o).accessResp = (s.buzLedCadence q o').accessResp) :
    Reflects s (ms.step s op) (cadStep t op) := by
  cases op with
  | setCadence state => exact waits.elim
  | clrCadence led buz => exact h.clear led buz same
  | procBuzLedCad =>
    have hblocked : cadStep t .procBuzLedCad = t := procBuzLedCad_blocked waits
    rw [hblocked]
    exact h
  | syncBuzLedCad => exact ⟨h.cells, h.responses, h.current, h.pins⟩

/-- Whatever clears come before the tick, the marks say what it finds. -/
theorem waits_reflects {between : List CadOp} (waits : Along cadStep Waits t between) (h : Reflects s ms t)
    (same : ∀ q o o', (s.buzLedCadence q o).accessResp = (s.buzLedCadence q o').accessResp) :
    Reflects s (between.foldl (Marks.step s) ms) (between.foldl cadStep t) := by
  induction between generalizing ms t with
  | nil => exact h
  | cons op between ih => exact ih waits.2 (h.step op waits.1 same)

/-- The buzzer half takes back the silent cycle that the LED half has scheduled, so the tick
turns off everything exactly when no LED is on. If further clears come before the tick, the marks
that they and the first one make, by their fields and the state before, decide. -/
theorem clear_silences_iff (gpio : Nat → Bool) (ops : List CadOp) (resp : UInt16)
    (playing : SilencingClear (cadRun gpio ops) resp.toNat) (between : List CadOp)
    (waits : Along cadStep Waits (cadStep (cadRun gpio ops) (.clrCadence resp resp)) between)
    (runs : (afterClear (cadRun gpio ops) resp between).isBuzLedFillInProg = false) :
    ((∀ led buz, CadOp.clrCadence led buz ∉ between) →
      (Silenced (cadRun gpio ops) (procBuzLedCad (afterClear (cadRun gpio ops) resp between)) ↔
        LedsOff (cadRun gpio ops))) ∧
      (Silenced (cadRun gpio ops) (procBuzLedCad (afterClear (cadRun gpio ops) resp between)) ↔
        ∀ o, (cadRun gpio ops).gpio (buzLedPin o) = true →
          let marks := marksAfter (cadRun gpio ops) (.clrCadence resp resp :: between)
          (marks.row marks.current o).Low ((cadRun gpio ops).buzLedCadence marks.current o)) := by
  have row := cadRun_rowWellFormed gpio ops
  have hreflects : Reflects (cadRun gpio ops) (marksAfter (cadRun gpio ops) (.clrCadence resp resp :: between))
      (afterClear (cadRun gpio ops) resp between) := by
    have hfirst := (Reflects.start (cadRun gpio ops)).clear resp resp fun q => (row q).same_resp
    have hlast := waits_reflects waits hfirst fun q => (row q).same_resp
    exact hlast
  have next := silenced_iff_playsLow runs hreflects.pins
  constructor
  · intro unclear
    obtain ⟨hrows, hcurrent⟩ := waits_table waits unclear
    have hit := silencingClear_current row (cadRun_selected gpio ops) playing
    have hcell (o : BuzzerLed) : PlaysLow ((afterClear (cadRun gpio ops) resp between).buzLedCadence
        (afterClear (cadRun gpio ops) resp between).currentPriority o) ↔ o = .buzzer := by
      have hsilent := clearCadence_silences (row _).same_resp hit o
      rw [afterClear, hrows, hcurrent]
      exact (congrArg PlaysLow hsilent).to_iff.trans (playsLow_off _ o)
    rw [next, LedsOff, forall_leds_iff]
    constructor
    · intro hlow o ho
      by_contra hon
      exact ho ((hcell o).mp (hlow o (by simpa using hon)))
    · intro hoff o hon
      rw [hcell]
      by_contra ho
      exact absurd (hoff o ho) (by simp [hon])
  · rw [next, hreflects.current]
    exact forall_congr' fun o => imp_congr_right fun _ => (hreflects.cells _ o).low_iff

/-- Cleared again on the LED field alone, the row that has silenced the buzzer drives the LEDs low instead of it. -/
theorem clear_silences_iff_of_buzzer :
    let s := cadRun (fun _ => false) [.setCadence 10, .syncBuzLedCad, .procBuzLedCad, .procBuzLedCad]
    let between : List CadOp := [.clrCadence 10 20, .syncBuzLedCad]
    ¬Silenced s (procBuzLedCad (afterClear s 10 between)) := by
  intro s between hsilenced
  have hmarks := (clear_silences_iff (fun _ => false) [.setCadence 10, .syncBuzLedCad, .procBuzLedCad, .procBuzLedCad] 10
    (by decide +kernel) between (by decide +kernel) (by decide +kernel)).2.mp hsilenced .buzzer (by decide +kernel)
  exact absurd hmarks (by decide +kernel)

theorem led_stays_on_after_clear : ¬∀ (ops : List CadOp) (resp : UInt16),
    SilencingClear (cadRun (fun _ => false) ops) resp.toNat →
      Silenced (cadRun (fun _ => false) ops)
        (procBuzLedCad (afterClear (cadRun (fun _ => false) ops) resp [.syncBuzLedCad])) := by
  intro h
  have hred := h [.setCadence 1, .syncBuzLedCad, .procBuzLedCad] 1 (by decide +kernel)
  exact absurd (hred .redLed (by decide +kernel)) (by decide +kernel)

end NvrxFirmware.MxGpio
