import NvrxFirmware.AutomacModel

namespace NvrxFirmware.Automac

variable {w : World} {now : Nat} {ret : Int} {again first second : StartAgain} {p : Packet}

namespace EthCalls

variable (calls : EthCalls) {env : Env} {v : EnvVar} {value : List UInt8}

theorem keeps_set (hv : env v = some value) (hname : v ≠ .ethact) : calls.run env v = some value := by
  by_contra hchanged
  have hsets := calls.sets env v fun hsame => hchanged (hsame.trans hv)
  rcases hsets with h | ⟨-, hnone⟩
  · exact hname h
  · rw [hv] at hnone
    cases hnone

theorem keeps_other (hname : v ≠ .ethact) (hethaddr : v ≠ .ethaddr) (heth1addr : v ≠ .eth1addr) :
    calls.run env v = env v := by
  by_contra hchanged
  rcases calls.sets env v hchanged with h | ⟨h | h, -⟩
  · exact hname h
  · exact hethaddr h
  · exact heth1addr h

def idle : EthCalls := ⟨id, fun _ _ h => absurd rfl h⟩

/-- The calls of `again` after those of `calls`. -/
def andThen (again : EthCalls) : EthCalls where
  run := again.run ∘ calls.run
  sets env v h := by
    by_cases hsecond : again.run (calls.run env) v = calls.run env v
    · exact calls.sets env v fun hfirst => h (hsecond.trans hfirst)
    · refine (again.sets (calls.run env) v hsecond).imp id fun ⟨hmac, hnone⟩ => ⟨hmac, ?_⟩
      cases hv : env v with
      | none => rfl
      | some value =>
        have hname : v ≠ .ethact := by rcases hmac with rfl | rfl <;> simp
        rw [calls.keeps_set hv hname] at hnone
        cases hnone

end EthCalls

/-- The counters, the environment and the records: what only grants and `automac_init` change. -/
structure Ledger where
  macreceived : Nat
  requiredMacaddr : Nat
  env : Env
  grants : List Grant
  saves : List Saved

def World.ledger (w : World) : Ledger := ⟨w.macreceived, w.requiredMacaddr, w.env, w.grants, w.saves⟩

/-- The ledger after calls of the functions that bring up a device. -/
def Ledger.probed (l : Ledger) (calls : EthCalls) : Ledger := { l with env := calls.run l.env }

theorem Ledger.probed_probed (l : Ledger) (calls again : EthCalls) :
    (l.probed calls).probed again = l.probed (calls.andThen again) := rfl

@[simp] theorem autoMacSend_ledger : (autoMacSend w).ledger = w.ledger := by
  unfold autoMacSend
  split <;> rfl

@[simp] theorem autoMacSend_phase : (autoMacSend w).phase = w.phase := by
  unfold autoMacSend
  split <;> rfl

@[simp] theorem autoMacSend_netState : (autoMacSend w).netState = w.netState := by
  unfold autoMacSend
  split <;> rfl

@[simp] theorem autoMacSend_timeHandler : (autoMacSend w).timeHandler = w.timeHandler := by
  unfold autoMacSend
  split <;> rfl

@[simp] theorem autoMacSend_udpHandler : (autoMacSend w).udpHandler = w.udpHandler := by
  unfold autoMacSend
  split <;> rfl

@[simp] theorem autoMacSend_serverPort : (autoMacSend w).autoMacServerPort = w.autoMacServerPort := by
  unfold autoMacSend
  split <;> rfl

theorem autoMacSend_state : (autoMacSend w).autoMacState =
    if w.autoMacState = .broadcastig then .broadcastigWait else w.autoMacState := by
  unfold autoMacSend
  split
  next h => rw [if_pos h]
  next h => simp [h]
  next h _ => rw [if_neg h]

structure Started (w : World) : Prop where
  state : w.autoMacState = .broadcastigWait
  timer : w.timeHandler = some .autoMacTimeout
  udp : w.udpHandler = .autoMacHandler
  port : w.autoMacServerPort = autoMacServerPortNo

theorem automacStart_started : Started (automacStart now w) := by
  constructor <;> simp [automacStart, autoMacSend_state]

@[simp] theorem automacStart_ledger : (automacStart now w).ledger = w.ledger := by
  rw [automacStart, autoMacSend_ledger]
  rfl

@[simp] theorem automacStart_netState : (automacStart now w).netState = w.netState := by
  simp [automacStart]

@[simp] theorem automacStart_phase : (automacStart now w).phase = w.phase := by
  simp [automacStart]

theorem restart_started : Started (restart now w) := automacStart_started

@[simp] theorem restart_netState : (restart now w).netState = .netloopContinue := by
  simp [restart]

@[simp] theorem restart_phase : (restart now w).phase = .top := by
  simp [restart]

@[simp] theorem restart_ledger : (restart now w).ledger = w.ledger := by
  rw [restart, automacStart_ledger]
  rfl

/-- The ways in which `net_start_again` ends: it gives up, it has tried every
device and waits before it starts over, or it starts over at once. -/
inductive StartedAgain (w : World) : World → Prop
  | failed (calls : EthCalls) (tries : Nat) (wrap : Bool) : StartedAgain w
      { w with env := calls.run w.env, netState := .netloopFail, netTryCount := tries, netRestartWrap := wrap }
  | waits (calls : EthCalls) (tries : Nat) : StartedAgain w
      { w with
        env := calls.run w.env, netTryCount := tries, netRestartWrap := false,
        timeHandler := some .startAgainTimeoutHandler, udpHandler := .dummyHandler }
  | restarts (calls : EthCalls) (tries : Nat) (wrap : Bool) : StartedAgain w
      { w with env := calls.run w.env, netState := .netloopRestart, netTryCount := tries, netRestartWrap := wrap }

theorem netStartAgain_cases : StartedAgain w (netStartAgain again w).2 := by
  dsimp only [netStartAgain]
  split
  · exact .failed .idle w.netTryCount w.netRestartWrap
  · split
    · split
      · exact .waits again.ethInit.calls _
      · exact .failed again.ethInit.calls _ _
    · exact .restarts again.ethInit.calls _ _

theorem StartedAgain.ledger {v : World} (h : StartedAgain w v) : ∃ calls, v.ledger = w.ledger.probed calls := by
  cases h with
  | failed calls _ _ => exact ⟨calls, rfl⟩
  | waits calls _ => exact ⟨calls, rfl⟩
  | restarts calls _ _ => exact ⟨calls, rfl⟩

/-- What the handler of the five second timer does, by the state of the client and its counters. -/
inductive TimedOut (w : World) : World → Prop
  | ignored : w.autoMacState ≠ .broadcastigWait → TimedOut w w
  | silent : w.autoMacState = .broadcastigWait → timeoutCount ≤ w.autoMacTimeoutCount → automacRetryCount < w.retrycnt →
      TimedOut w { w with autoMacTimeoutCount := w.autoMacTimeoutCount + 1 }
  | again {v : World} : w.autoMacState = .broadcastigWait → timeoutCount ≤ w.autoMacTimeoutCount →
      w.retrycnt ≤ automacRetryCount →
      StartedAgain { w with autoMacTimeoutCount := w.autoMacTimeoutCount + 1, retrycnt := w.retrycnt + 1 } v →
      TimedOut w v
  | retried : w.autoMacState = .broadcastigWait → w.autoMacTimeoutCount < timeoutCount →
      TimedOut w (autoMacSend { w with
        autoMacTimeoutCount := w.autoMacTimeoutCount + 1
        timeHandler := some .autoMacTimeout
        autoMacState := .broadcastig })

theorem autoMacTimeout_timedOut : TimedOut w (autoMacTimeout again w) := by
  unfold autoMacTimeout
  split
  next hwait =>
    dsimp only
    split
    next hcount =>
      split
      next hretry => exact .silent hwait (Nat.le_of_lt_succ hcount) hretry
      next hretry =>
        exact .again hwait (Nat.le_of_lt_succ hcount) (Nat.le_of_not_lt hretry) netStartAgain_cases
    next hcount => exact .retried hwait (by omega)
  next hwait => exact .ignored hwait

theorem TimedOut.ledger {v : World} (h : TimedOut w v) : ∃ calls, v.ledger = w.ledger.probed calls := by
  cases h with
  | ignored _ => exact ⟨.idle, rfl⟩
  | silent _ _ _ => exact ⟨.idle, rfl⟩
  | again _ _ _ h => exact h.ledger
  | retried _ _ => exact ⟨.idle, autoMacSend_ledger⟩

theorem runTimeHandler_ledger (again : StartAgain) (w : World) :
    ∃ calls, (runTimeHandler again w).ledger = w.ledger.probed calls := by
  unfold runTimeHandler
  split
  · exact ⟨.idle, rfl⟩
  · exact autoMacTimeout_timedOut.ledger
  · exact ⟨.idle, rfl⟩

theorem dispatch_ledger : (dispatch ret now w).ledger = w.ledger := by
  unfold dispatch
  split
  · exact restart_ledger
  · rfl
  · rfl
  · rfl

theorem endIteration_ledger (second : StartAgain) (now : Nat) (w : World) :
    ∃ calls, (endIteration second now w).ledger = w.ledger.probed calls := by
  unfold endIteration
  split
  · rw [dispatch_ledger]
    exact netStartAgain_cases.ledger
  · exact ⟨.idle, dispatch_ledger⟩

theorem poll_ledger (ctrlc expired : Bool) (first second : StartAgain) (now : Nat) (w : World) :
    ∃ calls, (poll ctrlc expired first second now w).ledger = w.ledger.probed calls := by
  unfold poll
  split
  · exact ⟨.idle, rfl⟩
  · obtain ⟨calls, hend⟩ := endIteration_ledger second now (if expired then runTimeHandler first w else w)
    rw [hend]
    split
    · obtain ⟨before, hhandler⟩ := runTimeHandler_ledger first w
      exact ⟨before.andThen calls, by rw [hhandler, Ledger.probed_probed]⟩
    · exact ⟨calls, rfl⟩

/-- The packet that is applied as a grant. -/
def World.grants? (w : World) (p : Packet) : Prop :=
  w.inLoop ∧ w.udpHandler = .autoMacHandler ∧ w.passes p ∧ p.isAccept = true ∧
    p.getTransactionId = some w.transactionId

theorem deliver_ungranted (now : Nat) (h : ¬w.grants? p) : ∃ phase,
    netStep w (.deliver p now) = { w with phase := phase } ∧ (phase = .top ∨ phase = .receiving → w.inLoop) := by
  by_cases hloop : w.inLoop
  · simp only [netStep, if_pos hloop]
    cases hudp : w.udpHandler with
    | dummyHandler => exact ⟨.receiving, rfl, fun _ => hloop⟩
    | autoMacHandler =>
      dsimp only [autoMacHandler]
      split
      next hpass =>
        split
        next haccept =>
          cases hid : p.getTransactionId with
          | none => exact ⟨.hung, rfl, fun _ => hloop⟩
          | some receivedId =>
            have hne : receivedId ≠ w.transactionId := by
              intro he
              rw [he] at hid
              exact h ⟨hloop, hudp, hpass, haccept, hid⟩
            exact ⟨.receiving, if_neg hne, fun _ => hloop⟩
        next => exact ⟨.receiving, rfl, fun _ => hloop⟩
      next => exact ⟨.receiving, rfl, fun _ => hloop⟩
  · exact ⟨w.phase, by simp [netStep, hloop], fun h => h⟩

theorem deliver_granted (h : w.grants? p) :
    netStep w (.deliver p now) = grantMac p now { w with phase := .receiving } := by
  obtain ⟨hloop, hudp, hpass, haccept, hid⟩ := h
  have hpass' : ({ w with phase := .receiving } : World).passes p := hpass
  rw [netStep, if_pos hloop]
  split
  next hdummy => simp [hudp] at hdummy
  next =>
    rw [autoMacHandler, if_pos hpass', if_pos haccept, hid]
    exact if_pos rfl

theorem leave_not_inLoop : ¬(leave ret w).inLoop := by
  unfold leave World.inLoop
  split <;> simp

theorem doAutomac_not_inLoop (card : Nat) : ¬(doAutomac card w).inLoop := by
  unfold doAutomac World.inLoop
  split <;> split <;> simp

/-- The ways in which the reception loop goes on: the protocol starts over, or it just continues. -/
inductive GoesOn (now : Nat) (w : World) : World → Prop
  | restarts : w.netState = .netloopRestart → GoesOn now w (restart now { w with netRestarted := true })
  | continues : w.netState = .netloopContinue → GoesOn now w { w with phase := .top }

theorem dispatch_goesOn (hloop : (dispatch ret now w).inLoop) : GoesOn now w (dispatch ret now w) := by
  unfold dispatch at hloop ⊢
  split
  next hn => exact .restarts hn
  next hn =>
    simp only [hn] at hloop
    exact absurd hloop leave_not_inLoop
  next hn =>
    simp only [hn] at hloop
    exact absurd hloop leave_not_inLoop
  next hn => exact .continues hn

/-- At the end of an iteration the loop goes on from `w`, or after a failure from what `net_start_again` makes of it. -/
theorem endIteration_goesOn (hloop : (endIteration second now w).inLoop) :
    GoesOn now w (endIteration second now w) ∨
      ∃ v, w.netState = .netloopFail ∧ StartedAgain w v ∧ GoesOn now v (endIteration second now w) := by
  unfold endIteration at hloop ⊢
  by_cases hfail : w.netState = .netloopFail
  · rw [if_pos hfail] at hloop ⊢
    exact .inr ⟨_, hfail, netStartAgain_cases, dispatch_goesOn hloop⟩
  · rw [if_neg hfail] at hloop ⊢
    exact .inl (dispatch_goesOn hloop)

inductive Loops (w : World) : NetOp → World → Prop
  | kept {op : NetOp} : w.inLoop → Loops w op w
  | entered {card : Nat} {ticks : UInt32} {fuel : Nat} {ethInit : EthInit} {now : Nat} {u : World} :
      u = automacInit card ticks fuel { w with netRestarted := false, netDevExists := false, netTryCount := 1 } →
      Loops w (.netLoop card ticks fuel ethInit now) (restart now { u with env := ethInit.calls.run u.env })
  | granted {p : Packet} {now : Nat} :
      w.grants? p → Loops w (.deliver p now) (grantMac p now { w with phase := .receiving })
  | ungranted {p : Packet} {now : Nat} {phase : Phase} : w.inLoop → Loops w (.deliver p now) { w with phase := phase }
  | polled {expired : Bool} {first second : StartAgain} {now : Nat} : w.inLoop →
      Loops w (.poll false expired first second now)
        (endIteration second now (if expired then runTimeHandler first w else w))

theorem netLoop_loops {card : Nat} {ticks : UInt32} {fuel : Nat} {ethInit : EthInit}
    (hloop : (netLoop card ticks fuel ethInit now w).inLoop) :
    Loops w (.netLoop card ticks fuel ethInit now) (netLoop card ticks fuel ethInit now w) := by
  dsimp only [netLoop] at hloop ⊢
  split
  next hhung =>
    rw [if_pos hhung] at hloop
    simp [World.inLoop, hhung] at hloop
  next hhung =>
    rw [if_neg hhung] at hloop
    split
    next heth =>
      rw [if_pos heth] at hloop
      exact absurd hloop leave_not_inLoop
    next => exact .entered rfl

theorem netStep_loops (w : World) (op : NetOp) (hloop : (netStep w op).inLoop) : Loops w op (netStep w op) := by
  cases op with
  | doAutomac card =>
    rw [netStep] at hloop ⊢
    split
    next hphase =>
      rw [if_pos hphase] at hloop
      exact absurd hloop (doAutomac_not_inLoop card)
    next hphase =>
      rw [if_neg hphase] at hloop
      exact .kept hloop
  | netLoop card ticks fuel ethInit now =>
    rw [netStep] at hloop ⊢
    split
    next hphase =>
      rw [if_pos hphase] at hloop
      exact netLoop_loops hloop
    next hphase =>
      rw [if_neg hphase] at hloop
      exact .kept hloop
  | deliver p now =>
    by_cases hgrant : w.grants? p
    · rw [deliver_granted hgrant]
      exact .granted hgrant
    · obtain ⟨phase, hstep, hphase⟩ := deliver_ungranted now hgrant
      rw [hstep] at hloop ⊢
      exact .ungranted (hphase hloop)
  | poll ctrlc expired first second now =>
    rw [netStep] at hloop ⊢
    split
    next hw =>
      rw [if_pos hw] at hloop
      cases ctrlc with
      | true => exact absurd hloop leave_not_inLoop
      | false => exact .polled hw
    next hw =>
      rw [if_neg hw] at hloop
      exact absurd hloop hw

/-- A device that comes up at once. -/
def ethUp : EthInit where
  ret := 0
  calls :=
    { run := envSet .ethact (bytesOf ['e', 't', 'h', '0'])
      sets := fun _ _ h => .inl (by_contra fun hother => h (if_neg hother)) }

end NvrxFirmware.Automac
