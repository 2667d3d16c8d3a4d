import NvrxFirmware.CadencePriority

namespace NvrxFirmware.MxGpio

variable {s : DrvState} {c c' : BuzLedCad} {p : Nat} {o : BuzzerLed}

theorem Cleared.accessResp (h : Cleared c c') : c'.accessResp = c.accessResp := by
  cases h <;> rfl

/-- A tick moves the position and counts cycles; the cadence itself stays. -/
theorem Played.cadence {level : Option Bool} (h : Played c c' level) :
    c'.buzLedCad = c.buzLedCad ∧ c'.cadBits = c.cadBits ∧ c'.accessResp = c.accessResp := by
  cases h <;> exact ⟨rfl, rfl, rfl⟩

theorem Rewound.cadence (h : Rewound c c') :
    c'.buzLedCad = c.buzLedCad ∧ c'.cadBits = c.cadBits ∧ c'.accessResp = c.accessResp := by
  rcases h with rfl | ⟨_, rfl⟩ <;> exact ⟨rfl, rfl, rfl⟩

structure CellWellFormed (p : Nat) (o : BuzzerLed) (c : BuzLedCad) : Prop where
  position_le : c.cadPosition ≤ c.cadBits
  bits_le : c.cadBits ≤ 15
  bits_pos : 0 < c.noOfCycles → 0 < c.cadBits
  cadence : (c.buzLedCad = accessRespCadMap c.accessResp o ∧ c.cadBits = accessRespCadBits c.accessResp o) ∨
    (c.buzLedCad = cadOff ∧ c.cadBits = cadOffCadBits) ∨ (c.buzLedCad = 0 ∧ c.cadBits = 0)
  idle_silent : p = maxPriority → c.buzLedCad = 0
  resp_lt : c.accessResp < nvrxRespMax
  last_low : c.noOfCycles ≠ infiniteCycle → 0 < c.noOfCycles → c.buzLedCad.testBit (c.cadBits - 1) = false

/-- A cell with no cycles left need not meet the conditions on what it would play. -/
theorem CellWellFormed.of_finished (hz : c.noOfCycles = 0) (position_le : c.cadPosition ≤ c.cadBits)
    (bits_le : c.cadBits ≤ 15)
    (cadence : (c.buzLedCad = accessRespCadMap c.accessResp o ∧ c.cadBits = accessRespCadBits c.accessResp o) ∨
      (c.buzLedCad = cadOff ∧ c.cadBits = cadOffCadBits) ∨ (c.buzLedCad = 0 ∧ c.cadBits = 0))
    (idle_silent : p = maxPriority → c.buzLedCad = 0) (resp_lt : c.accessResp < nvrxRespMax) :
    CellWellFormed p o c := by
  have hnone : ¬0 < c.noOfCycles := by omega
  refine ⟨position_le, bits_le, ?_, cadence, idle_silent, resp_lt, ?_⟩
  · intro hpos
    exact absurd hpos hnone
  · intro _ hpos
    exact absurd hpos hnone

theorem loadedCell_wellFormed {resp : Nat} (h : resp < nvrxRespMax) (o : BuzzerLed) :
    CellWellFormed (accessRespCadPriority resp) o (loadedCell resp o) where
  position_le := Nat.zero_le _
  bits_le := (tableEntry h o).bits_le
  bits_pos _ := (tableEntry h o).bits_pos
  cadence := .inl ⟨rfl, rfl⟩
  idle_silent hp := by
    rw [eq_idle_of_priority h hp]
    exact idle_silent o
  resp_lt := h
  last_low hf _ := (tableEntry h o).last_low hf

theorem Cleared.wellFormed (h : Cleared c c') (hc : CellWellFormed p o c) : CellWellFormed p o c' := by
  cases h with
  | kept => exact hc
  | stopped hoff => exact .of_finished rfl hc.position_le hc.bits_le hc.cadence hc.idle_silent hc.resp_lt
  | silenced n hn =>
    have hbits : (c.off n).cadBits = 1 := rfl
    refine ⟨Nat.zero_le _, ?_, ?_, .inr (.inl ⟨rfl, rfl⟩), fun _ => rfl, hc.resp_lt, ?_⟩
    · omega
    · intro _
      omega
    · intro _ _
      exact Nat.zero_testBit _

theorem Played.wellFormed {level : Option Bool} (h : Played c c' level) (hc : CellWellFormed p o c) :
    CellWellFormed p o c' := by
  have bits_le := hc.bits_le
  cases h with
  | finished _ => exact hc
  | ended _ _ => exact .of_finished rfl (Nat.zero_le _) hc.bits_le hc.cadence hc.idle_silent hc.resp_lt
  | restarted n _ hpos hn =>
    have hold : 0 < c.noOfCycles := by omega
    have hbits : 0 < c.cadBits := hc.bits_pos hold
    refine ⟨hbits, hc.bits_le, fun _ => hbits, hc.cadence, hc.idle_silent, hc.resp_lt, ?_⟩
    intro hf _
    rcases hn with ⟨_, hinf⟩ | ⟨hne, _⟩
    · exact absurd hinf hf
    · exact hc.last_low hne hold
  | continued hcycles hlt =>
    have hwrap : (c.cadPosition + 1) % 2 ^ 8 = c.cadPosition + 1 := Nat.mod_eq_of_lt (by omega)
    refine ⟨?_, hc.bits_le, hc.bits_pos, hc.cadence, hc.idle_silent, hc.resp_lt, hc.last_low⟩
    simp only [hwrap]
    omega

theorem Rewound.wellFormed (h : Rewound c c') (hc : CellWellFormed p o c) : CellWellFormed p o c' := by
  rcases h with rfl | ⟨_, rfl⟩
  · exact hc
  · exact ⟨Nat.zero_le _, hc.bits_le, hc.bits_pos, hc.cadence, hc.idle_silent, hc.resp_lt, hc.last_low⟩

/-- The response played in row `p` has been SET: row 8 by `GpioModInit`, any other row in the history. -/
def EverSet (history : List CadOp) (p : Nat) : Prop :=
  p = maxPriority ∨ ∃ state, CadOp.setCadence state ∈ history ∧
    setResponse state < nvrxRespMax ∧ accessRespCadPriority (setResponse state) = p

structure RowWellFormed (history : List CadOp) (p : Nat) (row : CadRow) : Prop where
  cells : ∀ o, CellWellFormed p o (row o)
  same_resp : ∀ o o', (row o).accessResp = (row o').accessResp
  priority : EverSet history p → ∀ o, accessRespCadPriority (row o).accessResp = p

theorem RowWellFormed.of_cells {history : List CadOp} {op : CadOp} {row row' : CadRow}
    (h : RowWellFormed history p row) (cells : ∀ o, CellWellFormed p o (row' o))
    (resp : ∀ o, (row' o).accessResp = (row o).accessResp)
    (earlier : EverSet (history ++ [op]) p → EverSet history p) : RowWellFormed (history ++ [op]) p row' := by
  constructor
  · exact cells
  · intro o o'
    rw [resp, resp, h.same_resp o o']
  · intro hset o
    rw [resp, h.priority (earlier hset) o]

theorem EverSet.of_append {history : List CadOp} {op : CadOp} (h : EverSet (history ++ [op]) p)
    (hop : ∀ state, op = .setCadence state → setResponse state < nvrxRespMax →
      accessRespCadPriority (setResponse state) ≠ p) : EverSet history p := by
  rcases h with h | ⟨state, hmem, hlt, hp⟩
  · exact .inl h
  · rcases List.mem_append.mp hmem with hmem | hmem
    · exact .inr ⟨state, hmem, hlt, hp⟩
    · have he : CadOp.setCadence state = op := List.mem_singleton.mp hmem
      exact absurd hp (hop state he.symm hlt)

theorem loadedCell_rowWellFormed (history : List CadOp) {resp : Nat} (h : resp < nvrxRespMax) :
    RowWellFormed history (accessRespCadPriority resp) (loadedCell resp) :=
  ⟨loadedCell_wellFormed h, fun _ _ => rfl, fun _ _ => rfl⟩

theorem procBuzLedCad_cell (s : DrvState) (o : BuzzerLed) (hfill : s.isBuzLedFillInProg = false) :
    ∃ c, Played (s.buzLedCadence s.currentPriority o) c (tickLevel s o) ∧
      Rewound c ((procBuzLedCad s).buzLedCadence s.currentPriority o) := by
  refine ⟨(playCell (s.buzLedCadence s.currentPriority o)).1, ?_, ?_⟩
  · simpa [tickLevel, hfill] using playCell_played (s.buzLedCadence s.currentPriority o)
  · rw [procBuzLedCad_row hfill]
    exact playedState_rewound o

theorem cadStep_rowWellFormed {history : List CadOp} (op : CadOp)
    (h : ∀ p, RowWellFormed history p (s.buzLedCadence p)) (p : Nat) :
    RowWellFormed (history ++ [op]) p ((cadStep s op).buzLedCadence p) := by
  have unset (hop : ∀ state, op ≠ .setCadence state) (hset : EverSet (history ++ [op]) p) :
      EverSet history p := hset.of_append (fun state he => absurd he (hop state))
  cases op with
  | setCadence state =>
    simp only [cadStep, ioctlSetCadence_row]
    split
    next hset =>
      rw [hset.2]
      exact loadedCell_rowWellFormed _ hset.1
    next hset =>
      apply (h p).of_cells (h p).cells (fun _ => rfl)
      intro hp
      apply hp.of_append
      intro state' he hlt hpr
      obtain rfl : state = state' := by simpa using he
      exact hset ⟨hlt, hpr.symm⟩
  | clrCadence led buz =>
    have hc := clearCadence_cleared led.toNat buz.toNat s p
    apply (h p).of_cells
    · intro o
      exact (hc o).wellFormed ((h p).cells o)
    · intro o
      exact (hc o).accessResp
    · exact unset (by simp)
  | procBuzLedCad =>
    simp only [cadStep]
    by_cases hp : p = s.currentPriority
    · cases hfill : s.isBuzLedFillInProg with
      | true =>
        rw [procBuzLedCad_blocked hfill]
        exact (h p).of_cells (h p).cells (fun _ => rfl) (unset (by simp))
      | false =>
        subst hp
        apply (h s.currentPriority).of_cells
        · intro o
          obtain ⟨c, hplayed, hrewound⟩ := procBuzLedCad_cell s o hfill
          have hcell := hplayed.wellFormed ((h s.currentPriority).cells o)
          exact hrewound.wellFormed hcell
        · intro o
          obtain ⟨c, hplayed, hrewound⟩ := procBuzLedCad_cell s o hfill
          obtain ⟨_, _, hresp⟩ := hplayed.cadence
          obtain ⟨_, _, hresp'⟩ := hrewound.cadence
          exact hresp'.trans hresp
        · exact unset (by simp)
    · rw [procBuzLedCad_row_ne hp]
      exact (h p).of_cells (h p).cells (fun _ => rfl) (unset (by simp))
  | syncBuzLedCad => exact (h p).of_cells (h p).cells (fun _ => rfl) (unset (by simp))

theorem gpioModInit_row (gpio : Nat → Bool) (p : Nat) : (gpioModInit gpio).buzLedCadence p =
    if p = maxPriority then loadedCell nvrxIdleResp else fun _ => ⟨0, 0, 0, 0, 0⟩ := by
  have hidle : setResponse 0 = nvrxIdleResp := rfl
  have hprio : accessRespCadPriority nvrxIdleResp = maxPriority := rfl
  simp [gpioModInit_eq, ioctlSetCadence_row, hidle, hprio, loadedState, show nvrxIdleResp < nvrxRespMax by decide]

theorem gpioModInit_rowWellFormed (gpio : Nat → Bool) (p : Nat) :
    RowWellFormed [] p ((gpioModInit gpio).buzLedCadence p) := by
  rw [gpioModInit_row]
  split
  next hp =>
    rw [hp]
    exact loadedCell_rowWellFormed [] (show nvrxIdleResp < nvrxRespMax by decide)
  next hp =>
    have hresp : 0 < nvrxRespMax := by decide
    have hcell : ∀ o, CellWellFormed p o ⟨0, 0, 0, 0, 0⟩ := by
      intro o
      exact .of_finished rfl le_rfl (Nat.zero_le 15) (.inr (.inr ⟨rfl, rfl⟩)) (fun _ => rfl) hresp
    refine ⟨hcell, fun _ _ => rfl, ?_⟩
    intro hset
    rcases hset with hmax | ⟨_, hmem, _⟩
    · exact absurd hmax hp
    · simp at hmem

theorem cadRun_rowWellFormed (gpio : Nat → Bool) (ops : List CadOp) (p : Nat) :
    RowWellFormed ops p ((cadRun gpio ops).buzLedCadence p) :=
  foldl_history (f := cadStep) (Q := fun history s => ∀ p, RowWellFormed history p (s.buzLedCadence p))
    (gpioModInit_rowWellFormed gpio) (fun _ _ op h => cadStep_rowWellFormed op h) ops p

/-- The index of the pattern bit that a tick tests, if it tests one: the position after the wrap-around. -/
def testedBit (c : BuzLedCad) : Nat := c.wrap.cadPosition

theorem CellWellFormed.testedBit_lt (h : CellWellFormed p o c) : testedBit c < 15 := by
  have := h.bits_le
  unfold testedBit BuzLedCad.wrap
  split
  · exact Nat.zero_lt_succ _
  · omega

structure TableWellFormed (history : List CadOp) (s : DrvState) : Prop where
  position : ∀ p ≤ maxPriority, ∀ o, (s.buzLedCadence p o).cadPosition ≤ (s.buzLedCadence p o).cadBits ∧
    (s.buzLedCadence p o).cadBits ≤ 15
  tested : ∀ p ≤ maxPriority, ∀ o, 0 < (s.buzLedCadence p o).noOfCycles →
    1 ≤ (s.buzLedCadence p o).cadBits ∧ testedBit (s.buzLedCadence p o) < 15 ∧
      2 ^ testedBit (s.buzLedCadence p o) < cadDontCare
  same_resp : ∀ p ≤ maxPriority, ∃ r, (∀ o, (s.buzLedCadence p o).accessResp = r) ∧
    (EverSet history p → accessRespCadPriority r = p)
  cadence : ∀ p ≤ maxPriority, ∀ o, ((s.buzLedCadence p o).buzLedCad, (s.buzLedCadence p o).cadBits) ∈
    [(accessRespCadMap (s.buzLedCadence p o).accessResp o, accessRespCadBits (s.buzLedCadence p o).accessResp o),
      (cadOff, cadOffCadBits), (0, 0)]
  idle_row : ∀ o, (s.buzLedCadence maxPriority o).buzLedCad = 0

theorem cadence_table_wellFormed (gpio : Nat → Bool) (ops : List CadOp) :
    TableWellFormed ops (cadRun gpio ops) := by
  have inv := cadRun_rowWellFormed gpio ops
  constructor
  · intro p _ o
    have hcell := (inv p).cells o
    exact ⟨hcell.position_le, hcell.bits_le⟩
  · intro p _ o hc
    have hcell := (inv p).cells o
    have hbit : testedBit ((cadRun gpio ops).buzLedCadence p o) < 15 := hcell.testedBit_lt
    have hmask : 2 ^ testedBit ((cadRun gpio ops).buzLedCadence p o) < 2 ^ 15 := Nat.pow_lt_pow_right (by decide) hbit
    exact ⟨hcell.bits_pos hc, hbit, hmask⟩
  · intro p _
    refine ⟨_, fun o => (inv p).same_resp o .buzzer, ?_⟩
    intro hset
    exact (inv p).priority hset .buzzer
  · intro p _ o
    have hcell := (inv p).cells o
    simpa using hcell.cadence
  · intro o
    have hcell := (inv maxPriority).cells o
    exact hcell.idle_silent rfl

end NvrxFirmware.MxGpio
