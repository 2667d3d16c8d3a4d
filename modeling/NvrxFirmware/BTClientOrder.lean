import NvrxFirmware.BTClientEvents

namespace NvrxFirmware.BTClient

variable {w : World} {e : Event}

theorem foldl_fillHandles (services : List (List Nat)) (s : ClientState) :
    (services.foldl fillHandles s).goAheadF = s.goAheadF ∧ (services.foldl fillHandles s).encRandomNo = s.encRandomNo := by
  induction services generalizing s with
  | nil => exact ⟨rfl, rfl⟩
  | cons c services ih => exact ih (fillHandles s c)

/-- The wait that `main` leaves has been answered: by the events that raised
the flag, or, for the services, by nothing in particular. -/
theorem spin_inPhase {wait : Wait} (h : InPhase w) (hpc : w.pc = .spin wait) (hflag : w.state.goAheadF = true) :
    InPhase { w with pc := .clear wait } := by
  have hraised := h.raised hflag
  have hpassed := h.passed
  rw [hpc] at hraised hpassed
  constructor
  · intro _
    cases wait <;> trivial
  · cases wait with
    | services => exact hpassed
    | _ => exact hraised

theorem exited_inPhase (w : World) : InPhase { w with pc := .exited } := ⟨fun _ => trivial, trivial⟩

theorem mainStep_inPhase (reply : Reply) (h : InPhase w) : InPhase (mainStep reply w) := by
  have hraised := h.raised
  have hpassed := h.passed
  cases hpc : w.pc with
  | scanf =>
    rw [hpc] at hraised
    simp only [mainStep, hpc]
    split
    · exact exited_inPhase w
    · refine ⟨?_, trivial⟩
      intro hflag
      exact absurd (hraised hflag) id
  | spin wait =>
    simp only [mainStep, hpc]
    split
    next hflag => exact spin_inPhase h hpc hflag
    next => exact h
  | clear wait =>
    rw [hpc] at hpassed
    simp only [mainStep, hpc]
    constructor
    · intro hflag
      exact absurd hflag Bool.false_ne_true
    · cases wait <;> exact hpassed
  | queryParsedServices =>
    rw [hpc] at hraised
    simp only [mainStep, hpc]
    split
    · obtain ⟨hgo, henc⟩ := foldl_fillHandles (reply.services.getD []) w.state
      refine ⟨?_, trivial⟩
      intro hflag
      have hrandom : RandomReceived w w.state.encRandomNo := hraised (hgo.symm.trans hflag)
      rwa [← henc] at hrandom
    · exact exited_inPhase w
  | checkBusy =>
    rw [hpc] at hraised hpassed
    simp only [mainStep, hpc]
    split
    · exact ⟨fun _ => hpassed, trivial⟩
    next hnot =>
      refine ⟨?_, trivial⟩
      intro hflag
      exact absurd (hraised hflag) hnot
  | switchStatus =>
    rw [hpc] at hraised hpassed
    simp only [mainStep, hpc]
    exact ⟨hraised, hpassed⟩
  | startDeviceScan | readRandom =>
    rw [hpc] at hraised
    simp only [mainStep, hpc]
    split
    next => exact ⟨hraised, trivial⟩
    next => exact exited_inPhase w
  | connectWithRemoteDevice =>
    rw [hpc] at hraised
    simp only [mainStep, hpc]
    split
    next => exact exited_inPhase w
    next => exact ⟨hraised, trivial⟩
  | queryRemoteDeviceServices =>
    rw [hpc] at hpassed
    simp only [mainStep, hpc]
    split
    next => exact exited_inPhase w
    next => exact ⟨fun _ => trivial, hpassed⟩
  | decryptRandom | writeRequest | readStatus | disconnect =>
    rw [hpc] at hraised
    simp only [mainStep, hpc]
    exact ⟨hraised, trivial⟩
  | exited =>
    simp only [mainStep, hpc]
    exact h

theorem btStep_inPhase (h : InPhase w) (op : BtOp) (orderly : Orderly w op) : InPhase (btStep w op) := by
  cases op with
  | main reply => exact mainStep_inPhase reply h
  | deliver e => exact deliver_inPhase h orderly

theorem startWorld_inPhase (s : ClientState) : InPhase (startWorld s) :=
  ⟨fun h => absurd h Bool.false_ne_true, trivial⟩

theorem btRun_inPhase (s : ClientState) (ops : List BtOp) (orderly : Along btStep Orderly (startWorld s) ops) :
    InPhase (ops.foldl btStep (startWorld s)) := by
  apply orderly.invariant
  · exact startWorld_inPhase s
  · intro past op h ho
    exact btStep_inPhase h op ho

/-- In the orderly runs each phase of a round follows the event that it waits for. -/
theorem phase_order_of_orderly (s : ClientState) (ops : List BtOp)
    (orderly : Along btStep Orderly (startWorld s) ops) : PhaseOrder (ops.foldl btStep (startWorld s)) := by
  have inPhase := btRun_inPhase s ops orderly
  exact inPhase.phaseOrder

/-- A client looking for "Vega" that remembers address 9 from before. -/
def client : ClientState where
  deviceName := [86, 101, 103, 97]
  writeCharHandle := 0
  readRandomHandle := 0
  readStatusHandle := 0
  encRandomNo := []
  userStatus := 0
  remoteBDAddr := 9
  goAheadF := false

theorem phase_order_of_orderly_found : PhaseOrder
    ([.main { userid := "12" }, .main {}, .deliver (.remoteDeviceFound [86, 101, 103, 97] 5), .main {},
      .main {}].foldl btStep (startWorld client)) :=
  phase_order_of_orderly client _ ⟨trivial, trivial, fun _ => ⟨.inl rfl, trivial⟩, trivial, trivial, trivial⟩

/-- The scan ends without a device, and the client connects to the address it remembers. -/
theorem scan_end_connects : ¬∀ (s : ClientState) (ops : List BtOp), PhaseOrder (ops.foldl btStep (startWorld s)) := by
  intro h
  have order := h client [.main { userid := "12" }, .main {}, .deliver .scanStopped, .main {}, .main {}]
  obtain ⟨d, hd, hreports⟩ := order.connects rfl
  obtain rfl : d = ⟨.scanStopped, 0, 0⟩ := List.mem_singleton.mp hd
  exact absurd hreports (by decide)

end NvrxFirmware.BTClient
