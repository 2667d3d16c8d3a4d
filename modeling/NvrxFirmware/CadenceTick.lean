import NvrxFirmware.CadenceSteps

namespace NvrxFirmware.MxGpio

variable {s : DrvState} {q : Nat} {output : BuzzerLed}

/-- The four things a tick can do with one cell of the current row. -/
inductive Played (c : BuzLedCad) : BuzLedCad → Option Bool → Prop
  | finished : c.noOfCycles = 0 → Played c c none
  | ended : c.cadBits ≤ c.cadPosition → c.noOfCycles = 1 →
      Played c { c with cadPosition := 0, noOfCycles := 0 } none
  | restarted (n : Nat) : c.cadBits ≤ c.cadPosition → 0 < n →
      (c.noOfCycles = infiniteCycle ∧ n = infiniteCycle ∨
        c.noOfCycles ≠ infiniteCycle ∧ c.noOfCycles = n + 1) →
      Played c { c with cadPosition := 1, noOfCycles := n } (some (c.buzLedCad.testBit 0))
  | continued : 0 < c.noOfCycles → c.cadPosition < c.cadBits →
      Played c { c with cadPosition := (c.cadPosition + 1) % 2 ^ 8 } (some (c.buzLedCad.testBit c.cadPosition))

theorem playCell_played (c : BuzLedCad) : Played c (playCell c).1 (playCell c).2 := by
  unfold playCell
  split
  next hpos =>
    dsimp only
    by_cases hwrap : c.cadBits ≤ c.cadPosition
    · by_cases hinf : c.noOfCycles = infiniteCycle
      · have hw : c.wrap = { c with cadPosition := 0 } := by simp [BuzLedCad.wrap, hwrap, hinf]
        rw [hw, if_pos hpos]
        exact .restarted c.noOfCycles hwrap hpos (.inl ⟨hinf, hinf⟩)
      · have hw : c.wrap = { c with cadPosition := 0, noOfCycles := c.noOfCycles - 1 } := by
          simp [BuzLedCad.wrap, hwrap, hinf]
        by_cases hlast : c.noOfCycles = 1
        · rw [hw, if_neg (by simp [hlast])]
          simpa [hlast] using Played.ended hwrap hlast
        · have hmore : 0 < c.noOfCycles - 1 := by omega
          rw [hw, if_pos hmore]
          exact .restarted (c.noOfCycles - 1) hwrap hmore (.inr ⟨hinf, by omega⟩)
    · have hw : c.wrap = c := by simp [BuzLedCad.wrap, hwrap]
      rw [hw, if_pos hpos]
      exact .continued hpos (Nat.lt_of_not_le hwrap)
  next hpos => exact .finished (by omega)

@[simp] theorem playOutput_currentPriority : (playOutput s output).currentPriority = s.currentPriority := by
  dsimp only [playOutput]
  split <;> rfl

@[simp] theorem playOutput_fillInProg : (playOutput s output).isBuzLedFillInProg = s.isBuzLedFillInProg := by
  dsimp only [playOutput]
  split <;> rfl

theorem playOutput_row : (playOutput s output).buzLedCadence q =
    if q = s.currentPriority then
      Function.update (s.buzLedCadence q) output (playCell (s.buzLedCadence q output)).1
    else s.buzLedCadence q := by
  have h : (playOutput s output).buzLedCadence = (s.modRow s.currentPriority fun row =>
      Function.update row output (playCell (s.buzLedCadence s.currentPriority output)).1).buzLedCadence := by
    dsimp only [playOutput]
    split <;> rfl
  rw [h, modRow_row]
  split
  next hq => rw [hq]
  next => rfl

theorem playOutput_gpio : (playOutput s output).gpio = Function.update s.gpio (buzLedPin output)
    ((playCell (s.buzLedCadence s.currentPriority output)).2.getD (s.gpio (buzLedPin output))) := by
  dsimp only [playOutput]
  cases (playCell (s.buzLedCadence s.currentPriority output)).2 with
  | none => exact (Function.update_eq_self _ _).symm
  | some status => rfl

/-- The level that a tick in this state drives on the output. -/
def tickLevel (s : DrvState) (output : BuzzerLed) : Option Bool :=
  if s.isBuzLedFillInProg then none else (playCell (s.buzLedCadence s.currentPriority output)).2

theorem playAll_row : (BuzzerLed.all.foldl playOutput s).buzLedCadence q =
    if q = s.currentPriority then fun o => (playCell (s.buzLedCadence q o)).1 else s.buzLedCadence q := by
  simp only [BuzzerLed.all, List.foldl_cons, List.foldl_nil, playOutput_row, playOutput_currentPriority]
  split
  · funext o
    cases o <;> rfl
  · rfl

theorem playAll_rest : (BuzzerLed.all.foldl playOutput s).currentPriority = s.currentPriority ∧
    (BuzzerLed.all.foldl playOutput s).isBuzLedFillInProg = s.isBuzLedFillInProg := by
  simp [BuzzerLed.all]

theorem playAll_gpio (o : BuzzerLed) : (BuzzerLed.all.foldl playOutput s).gpio (buzLedPin o) =
    (playCell (s.buzLedCadence s.currentPriority o)).2.getD (s.gpio (buzLedPin o)) := by
  simp only [BuzzerLed.all, List.foldl_cons, List.foldl_nil, playOutput_gpio, playOutput_row,
    playOutput_currentPriority, if_true]
  cases o <;> rfl

def Rewound (c c' : BuzLedCad) : Prop :=
  c' = c ∨ c.noOfCycles = 0 ∧ c' = { c with cadPosition := 0 }

theorem Rewound.noOfCycles {c c' : BuzLedCad} (h : Rewound c c') : c'.noOfCycles = c.noOfCycles := by
  rcases h with rfl | ⟨_, rfl⟩ <;> rfl

theorem Rewound.trans {a b c : BuzLedCad} (h : Rewound a b) (h' : Rewound b c) : Rewound a c := by
  rcases h' with rfl | ⟨hz, hc⟩
  · exact h
  · have hcycles : a.noOfCycles = 0 := h.noOfCycles.symm.trans hz
    rcases h with hb | ⟨_, hb⟩
    · exact .inr ⟨hcycles, by rw [hc, hb]⟩
    · exact .inr ⟨hcycles, by rw [hc, hb]⟩

theorem rewindFinished_rewound (os : List BuzzerLed) (r : CadRow) (o : BuzzerLed) :
    Rewound (r o) ((rewindFinished os r).1 o) := by
  induction os generalizing r with
  | nil => exact .inl rfl
  | cons x os ih =>
    unfold rewindFinished
    split
    · exact .inl rfl
    next hfin =>
      have hstep : Rewound (r o) (Function.update r x { r x with cadPosition := 0 } o) := by
        by_cases ho : o = x
        · subst ho
          rw [Function.update_self]
          exact .inr ⟨by omega, rfl⟩
        · rw [Function.update_of_ne ho]
          exact .inl rfl
      have hrest := ih (Function.update r x { r x with cadPosition := 0 })
      exact hstep.trans hrest

theorem rewindFinished_next (os : List BuzzerLed) (r : CadRow) :
    (rewindFinished os r).2 = true ↔ ∀ o ∈ os, (r o).noOfCycles = 0 := by
  induction os generalizing r with
  | nil => simp [rewindFinished]
  | cons x os ih =>
    unfold rewindFinished
    split
    next h =>
      simp only [Bool.false_eq_true, List.mem_cons, forall_eq_or_imp, false_iff]
      omega
    next h =>
      rw [ih, List.forall_mem_cons]
      have keep (o : BuzzerLed) :
          (Function.update r x { r x with cadPosition := 0 } o).noOfCycles = (r o).noOfCycles := by
        by_cases ho : o = x
        · subst ho
          simp
        · rw [Function.update_of_ne ho]
      simp only [keep]
      constructor
      · intro hall
        exact ⟨by omega, hall⟩
      · intro hall
        exact hall.2

theorem mem_all (o : BuzzerLed) : o ∈ BuzzerLed.all := by
  cases o <;> decide

theorem procBuzLedCad_blocked (h : s.isBuzLedFillInProg = true) : procBuzLedCad s = s := by
  simp [procBuzLedCad, h]

/-- The state after the two loops of an unblocked tick, before the next priority is chosen. -/
def playedState (s : DrvState) : DrvState :=
  let t := BuzzerLed.all.foldl playOutput s
  t.modRow t.currentPriority fun _ => (rewindFinished BuzzerLed.all (t.buzLedCadence t.currentPriority)).1

theorem procBuzLedCad_cases (h : s.isBuzLedFillInProg = false) :
    (procBuzLedCad s = playedState s ∧ ∃ o, 0 < ((playedState s).buzLedCadence s.currentPriority o).noOfCycles) ∨
      (procBuzLedCad s = updateCadPriority (playedState s) ∧
        ∀ o, ((playedState s).buzLedCadence s.currentPriority o).noOfCycles = 0) := by
  have hrow (o : BuzzerLed) : ((playedState s).buzLedCadence s.currentPriority o).noOfCycles =
      ((BuzzerLed.all.foldl playOutput s).buzLedCadence s.currentPriority o).noOfCycles := by
    simp only [playedState, modRow_row, playAll_rest, if_true]
    exact (rewindFinished_rewound _ _ o).noOfCycles
  have hnext := rewindFinished_next BuzzerLed.all
    ((BuzzerLed.all.foldl playOutput s).buzLedCadence s.currentPriority)
  unfold procBuzLedCad
  simp only [h, if_true, playAll_rest]
  cases hflag : (rewindFinished BuzzerLed.all
      ((BuzzerLed.all.foldl playOutput s).buzLedCadence s.currentPriority)).2 with
  | true =>
    right
    have hfinished := hnext.mp hflag
    constructor
    · simp [playedState, playAll_rest]
    · intro o
      rw [hrow]
      exact hfinished o (mem_all o)
  | false =>
    left
    constructor
    · simp [playedState, playAll_rest]
    · by_contra hnone
      push Not at hnone
      have hfinished : (rewindFinished BuzzerLed.all
          ((BuzzerLed.all.foldl playOutput s).buzLedCadence s.currentPriority)).2 = true := by
        apply hnext.mpr
        intro o _
        rw [← hrow]
        exact Nat.le_zero.mp (hnone o)
      simp [hflag] at hfinished

@[simp] theorem playedState_currentPriority : (playedState s).currentPriority = s.currentPriority := by
  simp [playedState, playAll_rest]

theorem playedState_row_ne (h : q ≠ s.currentPriority) :
    (playedState s).buzLedCadence q = s.buzLedCadence q := by
  simp [playedState, modRow_row, playAll_rest, playAll_row, h]

theorem playedState_rewound (o : BuzzerLed) :
    Rewound (playCell (s.buzLedCadence s.currentPriority o)).1
      ((playedState s).buzLedCadence s.currentPriority o) := by
  have h := rewindFinished_rewound BuzzerLed.all
    ((BuzzerLed.all.foldl playOutput s).buzLedCadence s.currentPriority) o
  simpa [playedState, modRow_row, playAll_rest, playAll_row] using h

theorem procBuzLedCad_row (h : s.isBuzLedFillInProg = false) :
    (procBuzLedCad s).buzLedCadence = (playedState s).buzLedCadence := by
  rcases procBuzLedCad_cases h with ⟨he, _⟩ | ⟨he, _⟩ <;> simp [he]

theorem procBuzLedCad_row_ne (h : q ≠ s.currentPriority) :
    (procBuzLedCad s).buzLedCadence q = s.buzLedCadence q := by
  cases hfill : s.isBuzLedFillInProg with
  | true => rw [procBuzLedCad_blocked hfill]
  | false => rw [procBuzLedCad_row hfill, playedState_row_ne h]

theorem procBuzLedCad_gpio (o : BuzzerLed) :
    (procBuzLedCad s).gpio (buzLedPin o) = (tickLevel s o).getD (s.gpio (buzLedPin o)) := by
  cases hfill : s.isBuzLedFillInProg with
  | true => simp [procBuzLedCad_blocked hfill, tickLevel, hfill]
  | false =>
    rcases procBuzLedCad_cases hfill with ⟨he, _⟩ | ⟨he, _⟩ <;>
      simp [he, playedState, playAll_gpio, tickLevel, hfill]

end NvrxFirmware.MxGpio
