import NvrxFirmware.CadenceTick
import NvrxFirmware.Runs
import Mathlib.Order.Bounds.Basic
import Mathlib.Data.Nat.Init

namespace NvrxFirmware.MxGpio

variable {s t : DrvState}

def unfinishedRows (s : DrvState) : Set Nat :=
  {p | p ≤ maxPriority ∧ ∃ o, 0 < (s.buzLedCadence p o).noOfCycles}

structure PrioritySelected (s : DrvState) : Prop where
  bound : s.currentPriority ≤ maxPriority
  least : (unfinishedRows s).Nonempty → IsLeast (unfinishedRows s) s.currentPriority

theorem updateCadPriority_some {p : Nat}
    (h : (List.range (maxPriority + 1)).find? (fun j => rowUnfinished (s.buzLedCadence j)) = some p) :
    updateCadPriority s = { s with currentPriority := p } ∧ IsLeast (unfinishedRows s) p := by
  obtain ⟨hp, hm, hbefore⟩ := List.find?_range_eq_some.mp h
  have hstate : updateCadPriority s = { s with currentPriority := p } := by simp [updateCadPriority, h]
  have hbound : p ≤ maxPriority := by simpa [Nat.lt_succ_iff] using hm
  have hlower : ∀ q ∈ unfinishedRows s, p ≤ q := by
    intro q hq
    by_contra hlt
    have hfinished := hbefore q (by omega)
    simp [rowUnfinished_iff.mpr hq.2] at hfinished
  exact ⟨hstate, ⟨hbound, rowUnfinished_iff.mp hp⟩, hlower⟩

theorem updateCadPriority_selected (h : s.currentPriority ≤ maxPriority) :
    PrioritySelected (updateCadPriority s) := by
  cases hf : (List.range (maxPriority + 1)).find? (fun j => rowUnfinished (s.buzLedCadence j)) with
  | some p =>
    obtain ⟨he, hleast⟩ := updateCadPriority_some hf
    rw [he]
    exact ⟨hleast.1.1, fun _ => hleast⟩
  | none =>
    have he : updateCadPriority s = s := by simp [updateCadPriority, hf]
    rw [he]
    refine ⟨h, ?_⟩
    intro hsome
    obtain ⟨p, hp, hq⟩ := hsome
    have hfinished := List.find?_range_eq_none.mp hf p (by omega)
    simp [rowUnfinished_iff.mpr hq] at hfinished

theorem fillStructOfLedBuz_selected (resp : Nat) (output : BuzzerLed) (h : PrioritySelected s) :
    PrioritySelected (fillStructOfLedBuz resp output s) := by
  unfold fillStructOfLedBuz
  split
  · exact updateCadPriority_selected h.bound
  · exact h

theorem ioctlSetCadence_selected (state : UInt32) (h : PrioritySelected s) :
    PrioritySelected (ioctlSetCadence state s).2 := by
  by_cases hr : setResponse state < nvrxRespMax
  · rw [ioctlSetCadence_fills hr]
    have hred := fillStructOfLedBuz_selected (setResponse state) .redLed h
    have hgreen := fillStructOfLedBuz_selected (setResponse state) .greenLed hred
    exact fillStructOfLedBuz_selected (setResponse state) .buzzer hgreen
  · rw [ioctlSetCadence_rejects hr]
    exact h

theorem clearCadence_selected (led buz : Nat) (h : PrioritySelected s) :
    PrioritySelected (clearCadence led buz s).2 := by
  apply updateCadPriority_selected
  rw [clearHalves_currentPriority]
  exact h.bound

/-- A tick that leaves its row unfinished need not select again: the rows above
were finished and it did not touch them. -/
theorem procBuzLedCad_selected (h : PrioritySelected s) : PrioritySelected (procBuzLedCad s) := by
  cases hfill : s.isBuzLedFillInProg with
  | true => rwa [procBuzLedCad_blocked hfill]
  | false =>
    rcases procBuzLedCad_cases hfill with ⟨he, hrow⟩ | ⟨he, _⟩
    · rw [he]
      have hcurrent : (playedState s).currentPriority = s.currentPriority := playedState_currentPriority
      have hlower : ∀ p ∈ unfinishedRows (playedState s), s.currentPriority ≤ p := by
        intro p hp
        obtain ⟨hmax, hcell⟩ := hp
        by_cases hpc : p = s.currentPriority
        · exact hpc.ge
        · rw [playedState_row_ne hpc] at hcell
          have hleast := h.least ⟨p, hmax, hcell⟩
          exact hleast.2 ⟨hmax, hcell⟩
      constructor
      · rw [hcurrent]
        exact h.bound
      · intro _
        rw [hcurrent]
        exact ⟨⟨h.bound, hrow⟩, hlower⟩
    · rw [he]
      apply updateCadPriority_selected
      rw [playedState_currentPriority]
      exact h.bound

theorem cadStep_selected (op : CadOp) (h : PrioritySelected s) : PrioritySelected (cadStep s op) := by
  cases op with
  | setCadence state => exact ioctlSetCadence_selected state h
  | clrCadence led buz => exact clearCadence_selected _ _ h
  | procBuzLedCad => exact procBuzLedCad_selected h
  | syncBuzLedCad => exact ⟨h.bound, h.least⟩

theorem loadedState_selected (gpio : Nat → Bool) : PrioritySelected (loadedState gpio) := by
  refine ⟨le_rfl, ?_⟩
  intro hsome
  obtain ⟨p, _, o, ho⟩ := hsome
  simp [loadedState] at ho

theorem gpioModInit_eq (gpio : Nat → Bool) :
    gpioModInit gpio = (ioctlSetCadence 0 (loadedState (registerGPIOPin gpio))).2 := rfl

theorem cadRun_selected (gpio : Nat → Bool) (ops : List CadOp) : PrioritySelected (cadRun gpio ops) := by
  refine foldl_history (Q := fun _ s => PrioritySelected s) ?_ (fun _ _ op h => cadStep_selected op h) ops
  rw [gpioModInit_eq]
  exact ioctlSetCadence_selected 0 (loadedState_selected _)

/-- A tick plays the scheduled row, on its cells and on the pins, and no other. -/
theorem procBuzLedCad_plays (runs : s.isBuzLedFillInProg = false) :
    (∀ q, q ≠ s.currentPriority → (procBuzLedCad s).buzLedCadence q = s.buzLedCadence q) ∧
      ∀ o, Rewound (playCell (s.buzLedCadence s.currentPriority o)).1 ((procBuzLedCad s).buzLedCadence s.currentPriority o) ∧
        (procBuzLedCad s).gpio (buzLedPin o) =
          (playCell (s.buzLedCadence s.currentPriority o)).2.getD (s.gpio (buzLedPin o)) := by
  refine ⟨fun q hq => procBuzLedCad_row_ne hq, fun o => ⟨?_, ?_⟩⟩
  · rw [procBuzLedCad_row runs]
    exact playedState_rewound o
  · have hlevel : tickLevel s o = (playCell (s.buzLedCadence s.currentPriority o)).2 := by simp [tickLevel, runs]
    rw [procBuzLedCad_gpio, hlevel]

/-- In every reachable state the scheduled row exists, and it is the smallest
one with cycles left whenever any row has some, so that this is the row that a tick plays. -/
theorem current_priority_is_least (gpio : Nat → Bool) (ops : List CadOp) :
    (cadRun gpio ops).currentPriority ≤ maxPriority ∧
      ((∃ p ≤ maxPriority, ∃ o, 0 < ((cadRun gpio ops).buzLedCadence p o).noOfCycles) →
        IsLeast {p | p ≤ maxPriority ∧ ∃ o, 0 < ((cadRun gpio ops).buzLedCadence p o).noOfCycles}
          (cadRun gpio ops).currentPriority) ∧
      ∀ p, IsLeast {p | p ≤ maxPriority ∧ ∃ o, 0 < ((cadRun gpio ops).buzLedCadence p o).noOfCycles} p →
        (cadRun gpio ops).isBuzLedFillInProg = false →
        (∀ q, q ≠ p → (cadRun gpio (ops ++ [.procBuzLedCad])).buzLedCadence q = (cadRun gpio ops).buzLedCadence q) ∧
          ∀ o, Rewound (playCell ((cadRun gpio ops).buzLedCadence p o)).1
              ((cadRun gpio (ops ++ [.procBuzLedCad])).buzLedCadence p o) ∧
            (cadRun gpio (ops ++ [.procBuzLedCad])).gpio (buzLedPin o) =
              (playCell ((cadRun gpio ops).buzLedCadence p o)).2.getD ((cadRun gpio ops).gpio (buzLedPin o)) := by
  have selected := cadRun_selected gpio ops
  refine ⟨selected.bound, fun unfinished => selected.least unfinished, fun p hleast runs => ?_⟩
  have hcurrent : p = (cadRun gpio ops).currentPriority := hleast.unique (selected.least hleast.nonempty)
  have htick : cadRun gpio (ops ++ [.procBuzLedCad]) = procBuzLedCad (cadRun gpio ops) := by
    simp [cadRun, List.foldl_append, cadStep]
  rw [htick, hcurrent]
  exact procBuzLedCad_plays runs

end NvrxFirmware.MxGpio
