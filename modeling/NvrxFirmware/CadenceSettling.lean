import NvrxFirmware.CadenceClears
import NvrxFirmware.Runs
import Mathlib.Algebra.Order.BigOperators.Group.Finset

namespace NvrxFirmware.MxGpio

variable {s t : DrvState} {c c' : BuzLedCad} {p g : Nat} {o : BuzzerLed} {op : CadOp}

/-- The ticks that play a cell with finitely many cycles, up to the one that finds it finished. -/
def cellLeft (c : BuzLedCad) : Nat :=
  if c.noOfCycles = 0 then 0 else c.noOfCycles * c.cadBits - c.cadPosition + 1

def rowLeft (r : CadRow) : Nat := BuzzerLed.all.foldr (fun o left => max (cellLeft (r o)) left) 0

/-- The longest finite response takes 120 ticks, and one more finds it finished. -/
def ticksPerRow : Nat := 121

structure CellBounded (c : BuzLedCad) : Prop where
  cycles_le : c.noOfCycles ≤ infiniteCycle
  left_le : c.noOfCycles ≠ infiniteCycle → cellLeft c ≤ ticksPerRow

theorem cellLeft_eq_zero_iff : cellLeft c = 0 ↔ c.noOfCycles = 0 := by
  unfold cellLeft
  split <;> simp_all

theorem cellLeft_le_rowLeft (r : CadRow) (o : BuzzerLed) : cellLeft (r o) ≤ rowLeft r := by
  simp only [rowLeft, BuzzerLed.all, List.foldr_cons, List.foldr_nil]
  cases o <;> omega

theorem rowLeft_le {r : CadRow} {n : Nat} (h : ∀ o, cellLeft (r o) ≤ n) : rowLeft r ≤ n := by
  have hbuzzer := h .buzzer
  have hred := h .redLed
  have hgreen := h .greenLed
  simp only [rowLeft, BuzzerLed.all, List.foldr_cons, List.foldr_nil]
  omega

theorem rowLeft_eq_zero_iff {r : CadRow} : rowLeft r = 0 ↔ ∀ o, (r o).noOfCycles = 0 := by
  constructor
  · intro h o
    have hle := cellLeft_le_rowLeft r o
    exact cellLeft_eq_zero_iff.mp (by omega)
  · intro h
    exact Nat.le_zero.mp (rowLeft_le fun o => (cellLeft_eq_zero_iff.mpr (h o)).le)

theorem loadedCell_bounded {resp : Nat} (h : resp < nvrxRespMax) (o : BuzzerLed) : CellBounded (loadedCell resp o) := by
  have checked : ∀ r < nvrxRespMax, ∀ o : BuzzerLed, accessRespCadCycles r o ≠ infiniteCycle →
      accessRespCadCycles r o * accessRespCadBits r o ≤ 120 := by decide
  have entry := tableEntry h o
  refine ⟨entry.cycles_le, fun hfinite => ?_⟩
  have hle := checked resp h o hfinite
  unfold cellLeft
  split
  · exact Nat.zero_le _
  · change accessRespCadCycles resp o * accessRespCadBits resp o - 0 + 1 ≤ 121
    omega

theorem Cleared.bounded (h : Cleared c c') (hc : CellBounded c) : CellBounded c' := by
  cases h with
  | kept => exact hc
  | stopped _ => exact ⟨Nat.zero_le _, fun _ => by simp [cellLeft, BuzLedCad.stop]⟩
  | silenced n hn =>
    refine ⟨by change n ≤ 255; omega, fun _ => ?_⟩
    unfold cellLeft
    split
    · exact Nat.zero_le _
    · change n * 1 - 0 + 1 ≤ 121
      omega

/-- A tick that plays a finite cell brings it one tick nearer to its end. -/
theorem Played.left {level : Option Bool} (h : Played c c' level) (hc : CellWellFormed p o c)
    (hfinite : c.noOfCycles ≠ infiniteCycle) : cellLeft c' = cellLeft c - 1 ∧ c'.noOfCycles ≤ c.noOfCycles := by
  have hposition := hc.position_le
  have hbits := hc.bits_le
  cases h with
  | finished hz => exact ⟨by simp [cellLeft, hz], le_rfl⟩
  | ended hwrap hone =>
    refine ⟨?_, Nat.zero_le _⟩
    rw [cellLeft, cellLeft, if_pos rfl, if_neg (by omega), hone]
    omega
  | restarted n hwrap hpos hn =>
    have hcycles : c.noOfCycles = n + 1 := by omega
    have hat : c.cadPosition = c.cadBits := by omega
    have hmul : c.cadBits ≤ n * c.cadBits := Nat.le_mul_of_pos_left _ hpos
    have hpositive := hc.bits_pos (by omega)
    refine ⟨?_, by dsimp only; omega⟩
    rw [cellLeft, cellLeft, if_neg (by dsimp only; omega), if_neg (by omega), hcycles, hat, Nat.succ_mul]
    dsimp only
    omega
  | continued hcycles hlt =>
    have hmul : c.cadBits ≤ c.noOfCycles * c.cadBits := Nat.le_mul_of_pos_left _ hcycles
    have hnext : (c.cadPosition + 1) % 2 ^ 8 = c.cadPosition + 1 := Nat.mod_eq_of_lt (by omega)
    refine ⟨?_, le_rfl⟩
    rw [cellLeft, cellLeft, if_neg (by dsimp only; omega), if_neg (by omega), hnext]
    dsimp only
    omega

theorem Played.endless {level : Option Bool} (h : Played c c' level) (hc : c.noOfCycles = infiniteCycle) :
    c'.noOfCycles = infiniteCycle := by
  have hpos : c.noOfCycles ≠ 0 ∧ c.noOfCycles ≠ 1 := by
    rw [hc]
    decide
  cases h with
  | finished hz => exact absurd hz hpos.1
  | ended _ hone => exact absurd hone hpos.2
  | restarted n _ _ hn => exact (hn.resolve_right fun h => h.1 hc).2
  | continued _ _ => exact hc

theorem Rewound.left (h : Rewound c c') : cellLeft c' = cellLeft c := by
  rcases h with rfl | ⟨hz, rfl⟩
  · rfl
  · rw [cellLeft, cellLeft, if_pos hz, if_pos hz]

theorem Played.bounded {level : Option Bool} (h : Played c c' level) (hc : CellWellFormed p o c) (hb : CellBounded c) :
    CellBounded c' := by
  by_cases hfinite : c.noOfCycles = infiniteCycle
  · have hendless := h.endless hfinite
    exact ⟨hendless.le, fun hne => absurd hendless hne⟩
  · obtain ⟨hleft, hcycles⟩ := h.left hc hfinite
    have hle := hb.left_le hfinite
    exact ⟨hcycles.trans hb.cycles_le, fun _ => by omega⟩

theorem Rewound.bounded (h : Rewound c c') (hb : CellBounded c) : CellBounded c' :=
  ⟨h.noOfCycles ▸ hb.cycles_le, fun hne => h.left ▸ hb.left_le (h.noOfCycles ▸ hne)⟩

/-- What a tick does to a cell, where it does something. -/
theorem procBuzLedCad_cells (s : DrvState) (p : Nat) (o : BuzzerLed) :
    (procBuzLedCad s).buzLedCadence p o = s.buzLedCadence p o ∨
      p = s.currentPriority ∧ ∃ c, Played (s.buzLedCadence p o) c (tickLevel s o) ∧
        Rewound c ((procBuzLedCad s).buzLedCadence p o) := by
  by_cases hp : p = s.currentPriority
  · cases hfill : s.isBuzLedFillInProg with
    | true => exact .inl (by rw [procBuzLedCad_blocked hfill])
    | false =>
      subst hp
      exact .inr ⟨rfl, procBuzLedCad_cell s o hfill⟩
  · exact .inl (by rw [procBuzLedCad_row_ne hp])

theorem cadStep_bounded (wellFormed : ∀ p o, CellWellFormed p o (s.buzLedCadence p o))
    (h : ∀ p o, CellBounded (s.buzLedCadence p o)) (op : CadOp) (p : Nat) (o : BuzzerLed) :
    CellBounded ((cadStep s op).buzLedCadence p o) := by
  cases op with
  | setCadence state =>
    rw [cadStep, ioctlSetCadence_row]
    split
    next hset => exact loadedCell_bounded hset.1 o
    next => exact h p o
  | clrCadence led buz => exact (clearCadence_cleared _ _ s p o).bounded (h p o)
  | procBuzLedCad =>
    rcases procBuzLedCad_cells s p o with hsame | ⟨-, c, hplayed, hrewound⟩
    · exact hsame ▸ h p o
    · exact hrewound.bounded (hplayed.bounded (wellFormed p o) (h p o))
  | syncBuzLedCad => exact h p o

theorem cadRun_bounded (gpio : Nat → Bool) (ops : List CadOp) (p : Nat) (o : BuzzerLed) :
    CellBounded ((cadRun gpio ops).buzLedCadence p o) := by
  refine (foldl_history (f := cadStep) (s := gpioModInit gpio) (Q := fun history s =>
    (∀ p, RowWellFormed history p (s.buzLedCadence p)) ∧ ∀ p o, CellBounded (s.buzLedCadence p o)) ?_ ?_ ops).2 p o
  · refine ⟨gpioModInit_rowWellFormed gpio, fun p o => ?_⟩
    rw [gpioModInit_row]
    split
    · exact loadedCell_bounded (by decide) o
    · exact ⟨Nat.zero_le _, fun _ => Nat.zero_le _⟩
  · rintro history s op ⟨hrows, hbounded⟩
    exact ⟨cadStep_rowWellFormed op hrows, cadStep_bounded (fun p o => (hrows p).cells o) hbounded op⟩

/-- The engine is left alone: only its own timers fire. -/
def LeftAlone (op : CadOp) : Prop := op = .procBuzLedCad ∨ op = .syncBuzLedCad

instance : DecidablePred LeftAlone := fun op => inferInstanceAs (Decidable (op = _ ∨ op = _))

def endlessRows (s : DrvState) : Set Nat := {p | p ≤ maxPriority ∧ ∃ o, (s.buzLedCadence p o).noOfCycles = infiniteCycle}

/-- The rows before `g` are finite, and row `g` is not unless it is past the last one. -/
structure Settling (start : DrvState) (g : Nat) (s : DrvState) : Prop where
  runs : s.isBuzLedFillInProg = false
  selected : PrioritySelected s
  cells : ∀ p o, CellWellFormed p o (s.buzLedCadence p o)
  bounded : ∀ p o, CellBounded (s.buzLedCadence p o)
  bound : g ≤ maxPriority + 1
  finite : ∀ p < g, ∀ o, (s.buzLedCadence p o).noOfCycles ≠ infiniteCycle
  endless : g ≤ maxPriority → ∃ o, (s.buzLedCadence g o).noOfCycles = infiniteCycle
  later : ∀ p, g < p → s.buzLedCadence p = start.buzLedCadence p

def ticksLeft (g : Nat) (s : DrvState) : Nat := ∑ p ∈ Finset.range g, rowLeft (s.buzLedCadence p)

def Settled (g : Nat) (s : DrvState) : Prop := ∀ p < g, ∀ o, (s.buzLedCadence p o).noOfCycles = 0

theorem settled_iff : Settled g s ↔ ticksLeft g s = 0 := by
  rw [ticksLeft, Finset.sum_eq_zero_iff]
  simp only [Finset.mem_range, rowLeft_eq_zero_iff]
  rfl

theorem ticksLeft_le (h : ∀ p o, CellBounded (s.buzLedCadence p o))
    (finite : ∀ p < g, ∀ o, (s.buzLedCadence p o).noOfCycles ≠ infiniteCycle) : ticksLeft g s ≤ g * ticksPerRow := by
  have hsum : ticksLeft g s ≤ (Finset.range g).card • ticksPerRow := Finset.sum_le_card_nsmul _ _ _ fun p hp =>
    rowLeft_le fun o => (h p o).left_le (finite p (Finset.mem_range.mp hp) o)
  rw [Finset.card_range] at hsum
  exact hsum

variable {start : DrvState}

theorem Settling.unfinished (h : Settling start g s) (hg : g ≤ maxPriority) : g ∈ unfinishedRows s := by
  obtain ⟨o, ho⟩ := h.endless hg
  refine ⟨hg, o, ?_⟩
  rw [ho]
  decide

/-- The row being played is not after `g`. -/
theorem Settling.current_le (h : Settling start g s) : s.currentPriority ≤ g := by
  by_cases hg : g ≤ maxPriority
  · exact (h.selected.least ⟨g, h.unfinished hg⟩).2 (h.unfinished hg)
  · have hbound := h.selected.bound
    omega

theorem Settling.current_eq (h : Settling start g s) (hg : g ≤ maxPriority) (hsettled : Settled g s) :
    s.currentPriority = g := by
  have hleast := h.selected.least ⟨g, h.unfinished hg⟩
  obtain ⟨-, o, ho⟩ := hleast.1
  by_contra hne
  have hlt : s.currentPriority < g := Nat.lt_of_le_of_ne h.current_le hne
  exact absurd (hsettled _ hlt o) (Nat.ne_of_gt ho)

theorem Settling.current_lt (h : Settling start g s) (hsettled : ¬Settled g s) : s.currentPriority < g := by
  simp only [Settled, not_forall] at hsettled
  obtain ⟨p, hp, o, ho⟩ := hsettled
  have hbound := h.bound
  have hrow : p ∈ unfinishedRows s := ⟨by omega, o, Nat.pos_of_ne_zero ho⟩
  exact Nat.lt_of_le_of_lt ((h.selected.least ⟨p, hrow⟩).2 hrow) hp

theorem procBuzLedCad_runs : (procBuzLedCad s).isBuzLedFillInProg = s.isBuzLedFillInProg := by
  cases hfill : s.isBuzLedFillInProg with
  | true => rw [procBuzLedCad_blocked hfill, hfill]
  | false =>
    have hplayed : (playedState s).isBuzLedFillInProg = false := by simp [playedState, DrvState.modRow, playAll_rest, hfill]
    rcases procBuzLedCad_cases hfill with ⟨he, -⟩ | ⟨he, -⟩
    · rw [he, hplayed]
    · rw [he, updateCadPriority]
      split <;> exact hplayed

theorem Settling.step (h : Settling start g s) (hop : LeftAlone op) : Settling start g (cadStep s op) := by
  rcases hop with rfl | rfl
  · have hcell := procBuzLedCad_cells s
    refine ⟨procBuzLedCad_runs.trans h.runs, procBuzLedCad_selected h.selected, fun p o => ?_,
      cadStep_bounded h.cells h.bounded .procBuzLedCad, h.bound, fun p hp o => ?_, fun hg => ?_, fun p hp => ?_⟩
    · rcases hcell p o with hsame | ⟨-, c, hplayed, hrewound⟩
      · exact hsame ▸ h.cells p o
      · exact hrewound.wellFormed (hplayed.wellFormed (h.cells p o))
    · rcases hcell p o with hsame | ⟨-, c, hplayed, hrewound⟩
      · exact hsame ▸ h.finite p hp o
      · have hle := (hplayed.left (h.cells p o) (h.finite p hp o)).2
        have hmax := (h.bounded p o).cycles_le
        have hne := h.finite p hp o
        rw [cadStep, hrewound.noOfCycles]
        omega
    · obtain ⟨o, ho⟩ := h.endless hg
      refine ⟨o, ?_⟩
      rcases hcell g o with hsame | ⟨-, c, hplayed, hrewound⟩
      · exact hsame ▸ ho
      · exact hrewound.noOfCycles.trans (hplayed.endless ho)
    · have hne : p ≠ s.currentPriority := Nat.ne_of_gt (Nat.lt_of_le_of_lt h.current_le hp)
      rw [cadStep, procBuzLedCad_row_ne hne, h.later p hp]
  · exact ⟨rfl, ⟨h.selected.bound, h.selected.least⟩, h.cells, h.bounded, h.bound, h.finite, h.endless, h.later⟩

theorem Settling.rowLeft_step (h : Settling start g s) (hp : p < g) :
    rowLeft ((procBuzLedCad s).buzLedCadence p) ≤ rowLeft (s.buzLedCadence p) -
      (if p = s.currentPriority then 1 else 0) := by
  split
  next hcurrent =>
    refine rowLeft_le fun o => ?_
    subst hcurrent
    obtain ⟨c, hplayed, hrewound⟩ := procBuzLedCad_cell s o h.runs
    have hleft := (hplayed.left (h.cells s.currentPriority o) (h.finite _ hp o)).1
    have hle := cellLeft_le_rowLeft (s.buzLedCadence s.currentPriority) o
    rw [hrewound.left, hleft]
    omega
  next hother => rw [procBuzLedCad_row_ne hother, Nat.sub_zero]

/-- A tick lowers the rank of a state that has not settled. -/
theorem Settling.sinks (h : Settling start g s) (hsettled : ¬Settled g s) (hop : LeftAlone op) :
    ticksLeft g (cadStep s op) + (if (op = .procBuzLedCad : Bool) then 1 else 0) ≤ ticksLeft g s := by
  rcases hop with rfl | rfl
  · have hcurrent := h.current_lt hsettled
    have hpos : 0 < rowLeft (s.buzLedCadence s.currentPriority) := by
      rw [Nat.pos_iff_ne_zero, ne_eq, rowLeft_eq_zero_iff, not_forall]
      have hrow : (unfinishedRows s).Nonempty := by
        simp only [Settled, not_forall] at hsettled
        obtain ⟨p, hp, o, ho⟩ := hsettled
        have hbound := h.bound
        exact ⟨p, by omega, o, Nat.pos_of_ne_zero ho⟩
      obtain ⟨-, o, ho⟩ := (h.selected.least hrow).1
      exact ⟨o, Nat.ne_of_gt ho⟩
    have hlt : ticksLeft g (procBuzLedCad s) < ticksLeft g s := by
      refine Finset.sum_lt_sum (fun p hp => (h.rowLeft_step (Finset.mem_range.mp hp)).trans (Nat.sub_le _ _))
        ⟨s.currentPriority, Finset.mem_range.mpr hcurrent, ?_⟩
      have hle := h.rowLeft_step hcurrent
      rw [if_pos rfl] at hle
      omega
    exact hlt
  · exact le_rfl

theorem Settling.stays (h : Settling start g s) (hsettled : Settled g s) (hop : LeftAlone op) :
    Settled g (cadStep s op) := by
  rcases hop with rfl | rfl
  · rw [settled_iff] at hsettled ⊢
    have hle : ticksLeft g (procBuzLedCad s) ≤ ticksLeft g s :=
      Finset.sum_le_sum fun p hp => (h.rowLeft_step (Finset.mem_range.mp hp)).trans (Nat.sub_le _ _)
    exact Nat.le_zero.mp (hsettled ▸ hle)
  · exact hsettled

theorem cadRun_settling (gpio : Nat → Bool) (ops : List CadOp) (bound : g ≤ maxPriority + 1)
    (finite : ∀ p < g, ∀ o, ((cadRun gpio ops).buzLedCadence p o).noOfCycles ≠ infiniteCycle)
    (endless : g ≤ maxPriority → ∃ o, ((cadRun gpio ops).buzLedCadence g o).noOfCycles = infiniteCycle) :
    Settling (cadRun gpio ops) g (syncBuzLedCad (cadRun gpio ops)) :=
  ⟨rfl, ⟨(cadRun_selected gpio ops).bound, (cadRun_selected gpio ops).least⟩,
    fun p o => (cadRun_rowWellFormed gpio ops p).cells o, cadRun_bounded gpio ops, bound, finite, endless, fun _ _ => rfl⟩

theorem Settling.run (h : Settling start g s) {after : List CadOp} (alone : ∀ op ∈ after, LeftAlone op)
    (long : (maxPriority + 1) * ticksPerRow ≤ after.count .procBuzLedCad) :
    Settling start g (after.foldl cadStep s) ∧ Settled g (after.foldl cadStep s) := by
  have hlong : ticksLeft g s ≤ after.count .procBuzLedCad := by
    have hle := ticksLeft_le h.bounded h.finite
    have hrows := Nat.mul_le_mul_right ticksPerRow h.bound
    omega
  have hstep : ∀ t, Settling start g t → ∀ op ∈ after, Settling start g (cadStep t op) :=
    fun t ht op hop => ht.step (alone op hop)
  refine ⟨List.foldlRecOn after cadStep h hstep, ?_⟩
  exact reached_of_rank (m := ticksLeft g) (w := fun op : CadOp => op == .procBuzLedCad) h hstep
    (fun t ht hs op hop => by simpa using ht.sinks hs (alone op hop)) (fun t ht hs op hop => ht.stays hs (alone op hop))
    (fun t _ hzero => settled_iff.mpr hzero) hlong

/-- Left alone after its last command, the engine plays every finite row before the first endless one to its end, at
most 121 ticks for each. From then on it plays the endless row, and the rows after that have not been touched. Without
an endless row everything gets finished. -/
theorem cadence_settles (gpio : Nat → Bool) (ops after : List CadOp) (alone : ∀ op ∈ after, LeftAlone op)
    (long : (maxPriority + 1) * ticksPerRow ≤ after.count .procBuzLedCad) :
    (∀ g, IsLeast (endlessRows (cadRun gpio ops)) g →
        (cadRun gpio (ops ++ .syncBuzLedCad :: after)).currentPriority = g ∧
          (∀ p < g, ∀ o, ((cadRun gpio (ops ++ .syncBuzLedCad :: after)).buzLedCadence p o).noOfCycles = 0) ∧
          ∀ p, g < p → (cadRun gpio (ops ++ .syncBuzLedCad :: after)).buzLedCadence p = (cadRun gpio ops).buzLedCadence p) ∧
      (endlessRows (cadRun gpio ops) = ∅ → AllFinished (cadRun gpio (ops ++ .syncBuzLedCad :: after))) := by
  have hrun : cadRun gpio (ops ++ .syncBuzLedCad :: after) = after.foldl cadStep (syncBuzLedCad (cadRun gpio ops)) := by
    simp [cadRun, List.foldl_append, cadStep]
  rw [hrun]
  constructor
  · intro g hleast
    obtain ⟨⟨hg, hendless⟩, hlower⟩ := hleast
    have hsettling := cadRun_settling (g := g) gpio ops (by omega)
      (fun p hp o ho => absurd (hlower ⟨by omega, o, ho⟩) (Nat.not_le_of_gt hp)) fun _ => hendless
    obtain ⟨hend, hsettled⟩ := hsettling.run alone long
    exact ⟨hend.current_eq hg hsettled, hsettled, hend.later⟩
  · intro hnone
    have hsettling := cadRun_settling (g := maxPriority + 1) gpio ops le_rfl
      (fun p hp o ho => (Set.eq_empty_iff_forall_notMem.mp hnone p) ⟨by omega, o, ho⟩) fun h => absurd h (by decide)
    obtain ⟨-, hsettled⟩ := hsettling.run alone long
    intro p hp o
    exact hsettled p (by omega) o

theorem cadence_settles_on_connection :
    let ops : List CadOp := [.setCadence 2, .setCadence 1]
    let after := List.replicate 1089 CadOp.procBuzLedCad
    (cadRun (fun _ => false) (ops ++ .syncBuzLedCad :: after)).currentPriority = 6 := by
  intro ops after
  have hfinite : ∀ p < 6, ∀ o, ((cadRun (fun _ => false) ops).buzLedCadence p o).noOfCycles ≠ infiniteCycle := by
    decide +kernel
  have hleast : IsLeast (endlessRows (cadRun (fun _ => false) ops)) 6 :=
    ⟨⟨by decide, .greenLed, by decide +kernel⟩, fun p ⟨_, o, ho⟩ => Nat.le_of_not_lt fun hlt => hfinite p hlt o ho⟩
  exact ((cadence_settles (fun _ => false) ops after (fun op hop => .inl (List.eq_of_mem_replicate hop))
    (by rw [List.count_replicate_self]; decide)).1 6 hleast).1

/-- The levels of an endless cadence: its pattern again and again, from the position it has got to. -/
def endlessLevels (c : BuzLedCad) (n : Nat) : List Bool :=
  (List.range n).map fun k => c.buzLedCad.testBit ((c.cadPosition + k) % c.cadBits)

theorem endlessLevels_succ (c : BuzLedCad) (n : Nat) :
    endlessLevels c (n + 1) = endlessLevels c n ++ [c.buzLedCad.testBit ((c.cadPosition + n) % c.cadBits)] := by
  simp [endlessLevels, List.range_succ]

/-- The cell `c` after `n` ticks that play it. -/
structure EndlessAfter (c : BuzLedCad) (n : Nat) (c' : BuzLedCad) : Prop where
  cycles : c'.noOfCycles = infiniteCycle
  pattern : c'.buzLedCad = c.buzLedCad
  bits : c'.cadBits = c.cadBits
  position : c'.cadPosition % c.cadBits = (c.cadPosition + n) % c.cadBits

theorem Played.repeats {level : Option Bool} {n : Nat} {d : BuzLedCad} (h : Played c c' level) (hc : CellWellFormed p o c)
    (hafter : EndlessAfter d n c) :
    level = some (d.buzLedCad.testBit ((d.cadPosition + n) % d.cadBits)) ∧ EndlessAfter d (n + 1) c' := by
  have hposition := hc.position_le
  have hbits := hc.bits_le
  have hcycles := h.endless hafter.cycles
  have hnonzero : c.noOfCycles ≠ 0 ∧ c.noOfCycles ≠ 1 := by
    rw [hafter.cycles]
    decide
  have hnext : (c.cadPosition + 1) % d.cadBits = (d.cadPosition + (n + 1)) % d.cadBits := by
    rw [← Nat.add_assoc, Nat.add_mod, hafter.position, ← Nat.add_mod]
  rw [← hafter.position, ← hafter.pattern, ← hafter.bits]
  cases h with
  | finished hz => exact absurd hz hnonzero.1
  | ended _ hone => exact absurd hone hnonzero.2
  | restarted m hwrap hpos hm =>
    have hat : c.cadPosition = c.cadBits := by omega
    refine ⟨by rw [hat, Nat.mod_self], hcycles, hafter.pattern, hafter.bits, ?_⟩
    rw [← hnext, hat, ← hafter.bits, Nat.add_mod_left]
  | continued _ hlt =>
    have hsucc : (c.cadPosition + 1) % 2 ^ 8 = c.cadPosition + 1 := Nat.mod_eq_of_lt (by omega)
    refine ⟨by rw [Nat.mod_eq_of_lt hlt], hcycles, hafter.pattern, hafter.bits, ?_⟩
    rw [← hnext, hsucc]

theorem Rewound.endlessAfter {n : Nat} {d : BuzLedCad} (h : Rewound c c') (hafter : EndlessAfter d n c) :
    EndlessAfter d n c' := by
  rcases h with rfl | ⟨hz, -⟩
  · exact hafter
  · rw [hafter.cycles] at hz
    exact absurd hz (by decide)

/-- What is on the pin after each tick. -/
def pinAfterTick (o : BuzzerLed) (s : DrvState) : CadOp → List Bool
  | .procBuzLedCad => [(procBuzLedCad s).gpio (buzLedPin o)]
  | _ => []

/-- While the engine is left alone, the pin of an output whose endless cadence is being played repeats its pattern
without a gap, one bit a tick. -/
theorem endless_output_repeats (gpio : Nat → Bool) (ops after : List CadOp) (o : BuzzerLed)
    (runs : (cadRun gpio ops).isBuzLedFillInProg = false)
    (endless : ((cadRun gpio ops).buzLedCadence (cadRun gpio ops).currentPriority o).noOfCycles = infiniteCycle)
    (alone : ∀ op ∈ after, LeftAlone op) :
    outputs cadStep (pinAfterTick o) (cadRun gpio ops) after =
      endlessLevels ((cadRun gpio ops).buzLedCadence (cadRun gpio ops).currentPriority o) (after.count .procBuzLedCad) := by
  have hselected := cadRun_selected gpio ops
  have hcells := fun p o => (cadRun_rowWellFormed gpio ops p).cells o
  have hbounded := cadRun_bounded gpio ops
  generalize cadRun gpio ops = s at runs endless hselected hcells hbounded ⊢
  have hrow : s.currentPriority ∈ unfinishedRows s := ⟨hselected.bound, o, by rw [endless]; decide⟩
  have hdone : Settled s.currentPriority s := by
    intro p hp o
    by_contra hne
    have hunfinished : p ∈ unfinishedRows s := ⟨hp.le.trans hselected.bound, o, Nat.pos_of_ne_zero hne⟩
    exact absurd ((hselected.least ⟨p, hunfinished⟩).2 hunfinished) (Nat.not_le_of_gt hp)
  have hsettling : Settling s s.currentPriority s := ⟨runs, hselected, hcells, hbounded, Nat.le_succ_of_le hselected.bound,
    fun p hp o => by rw [hdone p hp o]; decide, fun _ => ⟨o, endless⟩, fun _ _ => rfl⟩
  have hrun : outputs cadStep (pinAfterTick o) s after =
        endlessLevels (s.buzLedCadence s.currentPriority o) (after.count .procBuzLedCad) ∧
      Settling s s.currentPriority (after.foldl cadStep s) ∧ Settled s.currentPriority (after.foldl cadStep s) ∧
      EndlessAfter (s.buzLedCadence s.currentPriority o) (after.count .procBuzLedCad)
        ((after.foldl cadStep s).buzLedCadence s.currentPriority o) := by
    induction after using List.reverseRecOn with
    | nil => exact ⟨rfl, hsettling, hdone, endless, rfl, rfl, rfl⟩
    | append_singleton after op ih =>
      obtain ⟨hout, hs, hd, hcell⟩ := ih fun op hop => alone op (List.mem_append_left _ hop)
      have hop : LeftAlone op := alone op (by simp)
      have hcurrent := hs.current_eq hselected.bound hd
      rw [outputs_concat, hout, List.foldl_append, List.count_append]
      rcases hop with rfl | rfl
      · obtain ⟨c, hplayed, hrewound⟩ := procBuzLedCad_cell (after.foldl cadStep s) o hs.runs
        rw [hcurrent] at hplayed hrewound
        obtain ⟨hlevel, hnext⟩ := hplayed.repeats (hs.cells _ o) hcell
        refine ⟨?_, hs.step (.inl rfl), hs.stays hd (.inl rfl), hrewound.endlessAfter hnext⟩
        rw [pinAfterTick, procBuzLedCad_gpio, hlevel]
        exact (endlessLevels_succ _ _).symm
      · exact ⟨List.append_nil _, hs.step (.inr rfl), hs.stays hd (.inr rfl), hcell⟩
  exact hrun.1

/-- The green LED after the network is connected: on for six ticks, off for two. -/
theorem endless_output_repeats_on_connection :
    outputs cadStep (pinAfterTick .greenLed) (cadRun (fun _ => false) [.setCadence 2, .syncBuzLedCad])
        (List.replicate 16 .procBuzLedCad) =
      (List.replicate 2 [true, true, true, true, true, true, false, false]).flatten :=
  (endless_output_repeats (fun _ => false) [.setCadence 2, .syncBuzLedCad] (List.replicate 16 .procBuzLedCad) .greenLed
    (by decide +kernel) (by decide +kernel) fun _ hop => .inl (List.eq_of_mem_replicate hop)).trans (by decide +kernel)

end NvrxFirmware.MxGpio
