import NvrxFirmware.AutomacSteps

namespace NvrxFirmware.Automac

variable {w v : World} {now : Nat} {ret : Int} {first second : StartAgain} {p : Packet}

/-- While the client waits for an answer a timer runs, or the network loop is about to restart or to end. -/
def Armed (w : World) : Prop :=
  w.autoMacState = .broadcastigWait → w.netState = .netloopContinue → w.timeHandler.isSome

/-- The client is not silent at the top of an iteration of the reception loop. -/
def NotSilent (w : World) : Prop := w.phase = .top → Armed w

/-- The timer that expires is not the one after the last request of the last round. -/
def NotLastTimeout (w : World) : NetOp → Prop
  | .poll ctrlc expired _ _ _ =>
    ¬(w.inLoop ∧ ctrlc = false ∧ expired = true ∧ w.timeHandler = some .autoMacTimeout ∧
      w.autoMacState = .broadcastigWait ∧ w.netState = .netloopContinue ∧
      timeoutCount ≤ w.autoMacTimeoutCount ∧ automacRetryCount < w.retrycnt)
  | _ => True

theorem Started.armed (h : Started w) : Armed w := by
  intro _ _
  simp [h.timer]

theorem grantMac_armed : Armed (grantMac p now w) := by
  dsimp only [grantMac]
  split
  · intro _ hn
    cases hn
  · exact automacStart_started.armed

theorem StartedAgain.armed (h : StartedAgain w v) : Armed v := by
  cases h with
  | failed _ _ _ =>
    intro _ hn
    cases hn
  | waits _ _ =>
    intro _ _
    rfl
  | restarts _ _ _ =>
    intro _ hn
    cases hn

theorem TimedOut.armed (h : TimedOut w v)
    (hlast : ¬(w.autoMacState = .broadcastigWait ∧ w.netState = .netloopContinue ∧
      timeoutCount ≤ w.autoMacTimeoutCount ∧ automacRetryCount < w.retrycnt)) : Armed v := by
  cases h with
  | ignored hstate =>
    intro hwait _
    exact absurd hwait hstate
  | silent hwait hcount hretry =>
    intro _ hn
    exact absurd ⟨hwait, hn, hcount, hretry⟩ hlast
  | again _ _ _ hagain => exact hagain.armed
  | retried _ _ =>
    intro _ _
    simp

theorem runTimeHandler_armed (h : Armed w)
    (hlast : ¬(w.timeHandler = some .autoMacTimeout ∧ w.autoMacState = .broadcastigWait ∧
      w.netState = .netloopContinue ∧ timeoutCount ≤ w.autoMacTimeoutCount ∧ automacRetryCount < w.retrycnt)) :
    Armed (runTimeHandler first w) := by
  unfold runTimeHandler
  split
  · exact h
  next htimer =>
    apply autoMacTimeout_timedOut.armed
    intro hstate
    exact hlast ⟨htimer, hstate⟩
  next =>
    intro _ hn
    cases hn

theorem GoesOn.armed (h : GoesOn now w v) (hw : Armed w) : Armed v := by
  cases h with
  | restarts _ => exact restart_started.armed
  | continues _ => exact hw

theorem endIteration_armed (h : Armed w) (hloop : (endIteration second now w).inLoop) :
    Armed (endIteration second now w) := by
  rcases endIteration_goesOn hloop with hon | ⟨u, _, hagain, hon⟩
  · exact hon.armed h
  · exact hon.armed hagain.armed

theorem Loops.armed {op : NetOp} (hloops : Loops w op v) (h : w.inLoop → Armed w) (hlast : NotLastTimeout w op)
    (hv : v.inLoop) : Armed v := by
  cases hloops with
  | kept hw => exact h hw
  | entered _ => exact restart_started.armed
  | granted _ => exact grantMac_armed
  | ungranted hw => exact h hw
  | polled hw =>
    refine endIteration_armed ?_ hv
    split
    next hexpired =>
      apply runTimeHandler_armed (h hw)
      intro hstate
      exact hlast ⟨hw, rfl, hexpired, hstate⟩
    next => exact h hw

/-- After the last timeout the client waits at the top of the loop, and no timer runs. -/
theorem lastTimeout_silent {op : NetOp} (hsilent : NotSilent (netStep w op)) : NotLastTimeout w op := by
  cases op with
  | poll ctrlc expired first second now =>
    intro hfound
    obtain ⟨hw, rfl, rfl, htimer, hwait, hn, hcount, hretry⟩ := hfound
    have hstep : netStep w (.poll false true first second now) = { w with
        timeHandler := none, autoMacTimeoutCount := w.autoMacTimeoutCount + 1, phase := .top } := by
      have hlate : timeoutCount < w.autoMacTimeoutCount + 1 := Nat.lt_succ_of_le hcount
      simp [netStep, hw, poll, runTimeHandler, htimer, autoMacTimeout, hwait, hlate, hretry, endIteration, hn, dispatch]
    rw [hstep] at hsilent
    have harmed := hsilent rfl hwait hn
    simp at harmed
  | doAutomac card => trivial
  | netLoop card ticks fuel ethInit now => trivial
  | deliver p now => trivial

/-- The client is never silent in a run exactly if the timer after the last request of the last
round never expires in it. -/
theorem never_silent_iff (env : Env) (ops : List NetOp) :
    (∀ past, past <+: ops → NotSilent (netRun env past)) ↔ Along netStep NotLastTimeout (bootWorld env) ops := by
  symm
  apply Along.iff_always (P := fun w => w.inLoop → Armed w)
  · intro hloop
    simp [World.inLoop, bootWorld] at hloop
  · intro w h htop
    exact h (.inl htop)
  · intro w op h hlast hloop
    exact (netStep_loops w op hloop).armed h hlast hloop
  · intro w op _ hsilent
    exact lastTimeout_silent hsilent

theorem endIteration_restarts (hn : w.netState = .netloopRestart) :
    endIteration second now w = restart now { w with netRestarted := true } := by
  simp [endIteration, dispatch, hn]

theorem endIteration_continues (hn : w.netState = .netloopContinue) :
    endIteration second now w = { w with phase := .top } := by
  simp [endIteration, dispatch, hn]

def expiry : NetOp := .poll false true ⟨1, ethUp, false⟩ ⟨1, ethUp, false⟩ 0

/-- The client has started over `round` times and has sent `count` more requests since, all for nothing. -/
structure InRound (round count : Nat) (w : World) : Prop where
  phase : w.phase = .top
  netState : w.netState = .netloopContinue
  state : w.autoMacState = .broadcastigWait
  timer : w.timeHandler = some .autoMacTimeout
  count : w.autoMacTimeoutCount = count
  round : w.retrycnt = round
  netretry : w.env .netretry = none
  wrap : w.netRestartWrap = false

theorem expiry_step (htop : w.phase = .top) (htimer : w.timeHandler = some .autoMacTimeout) :
    netStep w expiry =
      endIteration ⟨1, ethUp, false⟩ 0 (autoMacTimeout ⟨1, ethUp, false⟩ { w with timeHandler := none }) := by
  have hloop : w.inLoop := .inl htop
  rw [expiry, netStep, if_pos hloop]
  simp [poll, runTimeHandler, htimer]

theorem autoMacSend_kept : (autoMacSend w).autoMacTimeoutCount = w.autoMacTimeoutCount ∧
    (autoMacSend w).retrycnt = w.retrycnt ∧ (autoMacSend w).netRestartWrap = w.netRestartWrap ∧
    (autoMacSend w).env = w.env := by
  unfold autoMacSend
  split <;> exact ⟨rfl, rfl, rfl, rfl⟩

theorem autoMacTimeout_early {again : StartAgain} (hwait : w.autoMacState = .broadcastigWait)
    (hcount : w.autoMacTimeoutCount < timeoutCount) : autoMacTimeout again w = autoMacSend { w with
      autoMacTimeoutCount := w.autoMacTimeoutCount + 1
      timeHandler := some .autoMacTimeout
      autoMacState := .broadcastig } := by
  have hearly : ¬timeoutCount < w.autoMacTimeoutCount + 1 := by omega
  unfold autoMacTimeout
  rw [if_pos hwait, if_neg hearly]

theorem autoMacTimeout_late {again : StartAgain} (hwait : w.autoMacState = .broadcastigWait)
    (hcount : timeoutCount ≤ w.autoMacTimeoutCount) (hretry : w.retrycnt ≤ automacRetryCount) :
    autoMacTimeout again w = (netStartAgain again { w with
      autoMacTimeoutCount := w.autoMacTimeoutCount + 1
      retrycnt := w.retrycnt + 1 }).2 := by
  have hlate : timeoutCount < w.autoMacTimeoutCount + 1 := by omega
  have hmore : ¬automacRetryCount < w.retrycnt := by omega
  unfold autoMacTimeout
  rw [if_pos hwait, if_pos hlate, if_neg hmore]

theorem InRound.again {round count : Nat} (h : InRound round count w) (hcount : count < timeoutCount) :
    InRound round (count + 1) (netStep w expiry) := by
  have hearly : w.autoMacTimeoutCount < timeoutCount := h.count ▸ hcount
  rw [expiry_step h.phase h.timer, autoMacTimeout_early (w := { w with timeHandler := none }) h.state hearly]
  rw [endIteration_continues (by simp [h.netState])]
  constructor <;>
    simp [autoMacSend_kept, autoMacSend_state, h.netState, h.count, h.round, h.netretry, h.wrap]

/-- Without `netretry` and with one device, `net_start_again` always starts over at once. -/
theorem netStartAgain_restarts (hretry : w.env .netretry = none) (hwrap : w.netRestartWrap = false) :
    (netStartAgain ⟨1, ethUp, false⟩ w).2 = { w with
      env := ethUp.calls.run w.env
      netState := .netloopRestart
      netTryCount := w.netTryCount + 1 } := by
  simp [netStartAgain, netRetry, hretry, hwrap]

theorem InRound.next {round : Nat} (h : InRound round timeoutCount w) (hround : round ≤ automacRetryCount) :
    InRound (round + 1) 0 (netStep w expiry) := by
  have hlate : timeoutCount ≤ w.autoMacTimeoutCount := Nat.le_of_eq h.count.symm
  have hmore : w.retrycnt ≤ automacRetryCount := h.round ▸ hround
  rw [expiry_step h.phase h.timer, autoMacTimeout_late (w := { w with timeHandler := none }) h.state hlate hmore,
    netStartAgain_restarts (by exact h.netretry) (by exact h.wrap)]
  rw [endIteration_restarts rfl]
  have hkept : ethUp.calls.run w.env .netretry = none :=
    (ethUp.calls.keeps_other (by simp) (by simp) (by simp)).trans h.netretry
  refine ⟨restart_phase, restart_netState, restart_started.state, restart_started.timer, ?_, ?_, ?_, ?_⟩ <;>
    simp [restart, automacStart, autoMacSend_kept, h.round, hkept, h.wrap]

def expiries (n : Nat) (w : World) : World := (List.replicate n expiry).foldl netStep w

theorem expiries_succ (n : Nat) : expiries (n + 1) w = netStep (expiries n w) expiry := by
  rw [expiries, List.replicate_succ', List.foldl_append]
  rfl

theorem expiries_add (m n : Nat) : expiries (m + n) w = expiries n (expiries m w) := by
  rw [expiries, ← List.replicate_append_replicate, List.foldl_append]
  rfl

theorem InRound.counts {round : Nat} (h : InRound round 0 w) (count : Nat) (hcount : count ≤ timeoutCount) :
    InRound round count (expiries count w) := by
  induction count with
  | zero => exact h
  | succ count ih =>
    rw [expiries_succ]
    exact (ih (Nat.le_of_lt hcount)).again hcount

theorem InRound.rounds (h : InRound 0 0 w) (round : Nat) (hround : round ≤ automacRetryCount + 1) :
    InRound round 0 (expiries (round * (timeoutCount + 1)) w) := by
  induction round with
  | zero =>
    rw [Nat.zero_mul]
    exact h
  | succ round ih =>
    have hlast := (ih (Nat.le_of_lt hround)).counts timeoutCount (Nat.le_refl _)
    rw [Nat.succ_mul, expiries_add, expiries_succ]
    exact hlast.next (Nat.le_of_lt_succ hround)

theorem InRound.silent (h : InRound (automacRetryCount + 1) timeoutCount w) : ¬NotSilent (netStep w expiry) := by
  intro hsilent
  have hlate : timeoutCount ≤ w.autoMacTimeoutCount := Nat.le_of_eq h.count.symm
  have hretry : automacRetryCount < w.retrycnt := by
    rw [h.round]
    exact Nat.lt_succ_self _
  have hlast := lastTimeout_silent hsilent
  exact hlast ⟨.inl h.phase, rfl, rfl, h.timer, h.state, h.netState, hlate, hretry⟩

/-- Without an answer the client gives up after 31 restarts, without a timer and without an error. -/
theorem unanswered_client_falls_silent : ¬∀ env ops, NotSilent (netRun env ops) := by
  intro h
  have hstart : InRound 0 0 (netRun (fun _ => none) [.doAutomac 0, .netLoop 0 1 5 ethUp 0]) := by
    constructor <;> decide
  have hlast := (hstart.rounds (automacRetryCount + 1) (Nat.le_refl _)).counts timeoutCount (Nat.le_refl _)
  rw [← expiries_add] at hlast
  apply hlast.silent
  rw [← expiries_succ]
  have hrun := h (fun _ => none) ([.doAutomac 0, .netLoop 0 1 5 ethUp 0] ++
    List.replicate ((automacRetryCount + 1) * (timeoutCount + 1) + timeoutCount + 1) expiry)
  rwa [netRun, List.foldl_append] at hrun

end NvrxFirmware.Automac
