import NvrxFirmware.AutomacSaves

namespace NvrxFirmware.Automac

variable {w v : World} {now : Nat} {ret : Int} {first second : StartAgain} {p : Packet}

/-- Grants are applied to requests in progress only, come from the server's port and no more
often than needed, and no message gives its address to two interfaces. -/
structure GrantSafe (w : World) : Prop where
  applied : ∀ g ∈ w.grants, g.state = .broadcastigWait ∧ g.src = autoMacServerPortNo
  bounded : w.macreceived ≤ w.requiredMacaddr
  single : ∀ g ∈ w.grants, ∀ g' ∈ w.grants, g.message = g'.message → g.interface = g'.interface

/-- A packet that would be granted answers the request in progress, comes from
the server's port, and its message has not been granted before. -/
def GrantInOrder (w : World) : NetOp → Prop
  | .deliver p _ => w.grants? p →
      w.autoMacState = .broadcastigWait ∧ p.src = autoMacServerPortNo ∧ ∀ g ∈ w.grants, g.message ≠ p.message
  | _ => True

/-- The variables of the state machine in the reception loop: unless all addresses are there
the client may start over, and with all of them there it only waits to be told so. -/
structure Looping (w : World) : Prop where
  port : w.autoMacServerPort = autoMacServerPortNo
  incomplete : w.macreceived < w.requiredMacaddr ∨ w.autoMacState = .grantedMac
  again : w.timeHandler = some .startAgainTimeoutHandler →
    w.udpHandler = .dummyHandler ∧ w.macreceived < w.requiredMacaddr
  ending : w.netState = .netloopRestart ∨ w.netState = .netloopFail → w.macreceived < w.requiredMacaddr

theorem Looping.of_lt (port : w.autoMacServerPort = autoMacServerPortNo) (lt : w.macreceived < w.requiredMacaddr)
    (again : w.timeHandler = some .startAgainTimeoutHandler → w.udpHandler = .dummyHandler) : Looping w :=
  ⟨port, .inl lt, fun h => ⟨again h, lt⟩, fun _ => lt⟩

theorem Looping.dummy (h : Looping w) (ht : w.timeHandler = some .startAgainTimeoutHandler) :
    w.udpHandler = .dummyHandler :=
  (h.again ht).1

theorem Looping.waiting (h : Looping w) (hw : w.autoMacState = .broadcastigWait) :
    w.macreceived < w.requiredMacaddr := by
  rcases h.incomplete with hlt | hgranted
  · exact hlt
  · simp [hw] at hgranted

theorem lt_of_ledger (h : v.ledger = w.ledger) (lt : w.macreceived < w.requiredMacaddr) :
    v.macreceived < v.requiredMacaddr := by
  have hcount : v.ledger.macreceived = w.ledger.macreceived := by rw [h]
  have hrequired : v.ledger.requiredMacaddr = w.ledger.requiredMacaddr := by rw [h]
  change v.macreceived = w.macreceived at hcount
  change v.requiredMacaddr = w.requiredMacaddr at hrequired
  rwa [hcount, hrequired]

theorem Started.looping (h : Started w) (lt : w.macreceived < w.requiredMacaddr) : Looping w := by
  apply Looping.of_lt h.port lt
  intro ht
  simp [h.timer] at ht

theorem restart_looping (lt : w.macreceived < w.requiredMacaddr) : Looping (restart now w) :=
  restart_started.looping (lt_of_ledger restart_ledger lt)

theorem StartedAgain.looping (h : StartedAgain w v) (port : w.autoMacServerPort = autoMacServerPortNo)
    (lt : w.macreceived < w.requiredMacaddr)
    (again : w.timeHandler = some .startAgainTimeoutHandler → w.udpHandler = .dummyHandler) : Looping v := by
  cases h with
  | failed _ _ _ => exact Looping.of_lt port lt again
  | waits _ _ => exact Looping.of_lt port lt fun _ => rfl
  | restarts _ _ _ => exact Looping.of_lt port lt again

theorem TimedOut.looping (h : TimedOut w v) (hw : Looping w) : Looping v := by
  cases h with
  | ignored _ => exact hw
  | silent hwait _ _ =>
    have hlt := hw.waiting hwait
    exact Looping.of_lt hw.port hlt hw.dummy
  | again hwait _ _ hagain =>
    have hlt := hw.waiting hwait
    exact hagain.looping hw.port hlt hw.dummy
  | retried hwait _ =>
    have hlt := hw.waiting hwait
    apply Looping.of_lt
    · simpa using hw.port
    · exact lt_of_ledger autoMacSend_ledger hlt
    · intro ht
      simp at ht

theorem runTimeHandler_looping (h : Looping w) : Looping (runTimeHandler first w) := by
  unfold runTimeHandler
  split
  · exact h
  · apply autoMacTimeout_timedOut.looping
    refine ⟨h.port, h.incomplete, ?_, h.ending⟩
    intro ht
    simp at ht
  next hagain =>
    refine Looping.of_lt h.port (h.again hagain).2 ?_
    intro ht
    simp at ht

theorem GoesOn.looping (h : GoesOn now w v) (hw : Looping w) : Looping v := by
  cases h with
  | restarts hn => exact restart_looping (hw.ending (.inl hn))
  | continues _ => exact ⟨hw.port, hw.incomplete, hw.again, hw.ending⟩

theorem endIteration_looping (h : Looping w) (hloop : (endIteration second now w).inLoop) :
    Looping (endIteration second now w) := by
  rcases endIteration_goesOn hloop with hon | ⟨u, hfail, hagain, hon⟩
  · exact hon.looping h
  · have hu := hagain.looping h.port (h.ending (.inr hfail)) h.dummy
    exact hon.looping hu

theorem GrantSafe.of_ledger {calls : EthCalls} (h : GrantSafe w) (hv : v.ledger = w.ledger.probed calls) :
    GrantSafe v := by
  have hgrants : v.grants = w.grants := congrArg Ledger.grants hv
  have hcount : v.macreceived = w.macreceived := congrArg Ledger.macreceived hv
  have hrequired : v.requiredMacaddr = w.requiredMacaddr := congrArg Ledger.requiredMacaddr hv
  constructor
  · rw [hgrants]
    exact h.applied
  · rw [hcount, hrequired]
    exact h.bounded
  · rw [hgrants]
    exact h.single

structure GrantInv (w : World) : Prop where
  safe : GrantSafe w
  sound : w.ledger.Sound
  looping : w.inLoop → Looping w

theorem grantMac_looping (h : Looping w) (hwait : w.autoMacState = .broadcastigWait)
    (hudp : w.udpHandler = .autoMacHandler) : Looping (grantMac p now w) := by
  have hlt := h.waiting hwait
  dsimp only [grantMac]
  split
  next hlast =>
    constructor
    · simpa using h.port
    · right
      simp [autoMacSend_state]
    · intro ht
      have hdummy := h.dummy (by simpa using ht)
      simp [hudp] at hdummy
    · intro hn
      rcases hn with hn | hn <;> cases hn
  next hmore =>
    apply automacStart_started.looping
    apply lt_of_ledger automacStart_ledger
    have hmore' : w.requiredMacaddr ≠ w.macreceived + 1 := hmore
    have hsent : ∀ u : World, u.macreceived < u.requiredMacaddr → (autoMacSend u).macreceived <
        (autoMacSend u).requiredMacaddr := fun u => lt_of_ledger autoMacSend_ledger
    apply hsent
    show w.macreceived + 1 < w.requiredMacaddr
    omega

theorem GrantSafe.grant (h : GrantSafe w) (hv : v.ledger = w.ledger.grant (grantOf w p))
    (hlt : w.macreceived < w.requiredMacaddr) (hwait : w.autoMacState = .broadcastigWait)
    (hsrc : p.src = autoMacServerPortNo) (hnew : ∀ g ∈ w.grants, g.message ≠ p.message) : GrantSafe v := by
  have hgrants : v.grants = w.grants ++ [grantOf w p] := congrArg Ledger.grants hv
  have hcount : v.macreceived = w.macreceived + 1 := congrArg Ledger.macreceived hv
  have hrequired : v.requiredMacaddr = w.requiredMacaddr := congrArg Ledger.requiredMacaddr hv
  refine ⟨?_, by omega, ?_⟩
  · rw [hgrants, List.forall_mem_append, List.forall_mem_singleton]
    exact ⟨h.applied, hwait, hsrc⟩
  · rw [hgrants]
    intro g hg g' hg' hmessage
    rcases List.mem_append.mp hg with hg | hg <;> rcases List.mem_append.mp hg' with hg' | hg'
    · exact h.single g hg g' hg' hmessage
    · obtain rfl := List.mem_singleton.mp hg'
      exact absurd hmessage (hnew g hg)
    · obtain rfl := List.mem_singleton.mp hg
      exact absurd hmessage.symm (hnew g' hg')
    · rw [List.mem_singleton.mp hg, List.mem_singleton.mp hg']

theorem automacInit_lt (sound : w.ledger.Sound) (card : Nat) (ticks : UInt32) (fuel : Nat) :
    (automacInit card ticks fuel w).macreceived < (automacInit card ticks fuel w).requiredMacaddr := by
  obtain ⟨env, h⟩ := automacInit_ledger (w := w) card ticks fuel
  have hrequired := (sound.init card env).required
  rw [← h] at hrequired
  have hcount : (automacInit card ticks fuel w).macreceived = 0 := congrArg Ledger.macreceived h
  change (automacInit card ticks fuel w).requiredMacaddr = 1 ∨
    (automacInit card ticks fuel w).requiredMacaddr = 2 at hrequired
  omega

theorem GrantSafe.of_init {l : Ledger} {card : Nat} {env : Env} (hv : v.ledger = l.init card env) : GrantSafe v := by
  have hgrants : v.grants = [] := congrArg Ledger.grants hv
  have hcount : v.macreceived = 0 := congrArg Ledger.macreceived hv
  exact ⟨by simp [hgrants], by omega, by simp [hgrants]⟩

theorem GrantInv.receiving (h : GrantInv w) (hloop : w.inLoop) (phase : Phase) : Looping { w with phase := phase } :=
  have hw := h.looping hloop
  ⟨hw.port, hw.incomplete, hw.again, hw.ending⟩

theorem Loops.looping {op : NetOp} (hloops : Loops w op v) (h : GrantInv w) (horder : GrantInOrder w op)
    (hv : v.inLoop) : Looping v := by
  cases hloops with
  | kept hw => exact h.looping hw
  | entered hinit =>
    have sound : Ledger.Sound ({ w with netRestarted := false, netDevExists := false, netTryCount := 1 } : World).ledger :=
      h.sound
    exact restart_looping (hinit ▸ automacInit_lt sound _ _ _)
  | granted hgrant =>
    obtain ⟨hwait, _, _⟩ := horder hgrant
    exact grantMac_looping (h.receiving hgrant.1 _) hwait hgrant.2.1
  | ungranted hw => exact h.receiving hw _
  | polled hw =>
    refine endIteration_looping ?_ hv
    split
    · exact runTimeHandler_looping (h.looping hw)
    · exact h.looping hw

theorem Entered.grantSafe {op : NetOp} {l : Ledger} (hentered : Entered w op l) (hv : v.ledger = l) (h : GrantInv w)
    (horder : GrantInOrder w op) : GrantSafe v := by
  cases hentered with
  | kept calls => exact h.safe.of_ledger hv
  | started card env => exact GrantSafe.of_init hv
  | granted p now hop hgrant =>
    subst hop
    obtain ⟨hwait, hsrc, hnew⟩ := horder hgrant
    have hlt := (h.looping hgrant.1).waiting hwait
    exact h.safe.grant hv hlt hwait hsrc hnew

theorem GrantInv.keep (h : GrantInv w) (op : NetOp) (horder : GrantInOrder w op) : GrantInv (netStep w op) := by
  constructor
  · exact (netStep_entered w op).grantSafe rfl h horder
  · exact netStep_sound h.sound op
  · intro hloop
    exact (netStep_loops w op hloop).looping h horder hloop

/-- The interfaces that the grants since `automac_init` went to differ while they are no more than two. -/
theorem fresh_of_single {l : Ledger} {g : Grant} (sound : l.Sound) (hg : g.interface = macVariable (l.macreceived + 1))
    (hbound : l.macreceived + 1 ≤ 2) {g' : Grant} (hg' : g' ∈ l.grants) : g'.interface ≠ g.interface := by
  obtain ⟨i, hi⟩ := List.mem_iff_getElem?.mp hg'
  obtain ⟨hlt, _⟩ := List.getElem?_eq_some_iff.mp hi
  have hcounted := sound.counted
  have hzero : i = 0 := by omega
  have hone : l.macreceived = 1 := by omega
  rw [sound.interfaces i g' hi, hg, hzero, hone]
  decide

/-- A grant out of order breaks the safety of the grants at once. -/
theorem GrantInv.needed (h : GrantInv w) (op : NetOp) (hsafe : GrantSafe (netStep w op)) : GrantInOrder w op := by
  cases op with
  | deliver p now =>
    intro hgrant
    rw [deliver_granted hgrant] at hsafe
    have hledger : (grantMac p now { w with phase := .receiving }).ledger = w.ledger.grant (grantOf w p) :=
      grantMac_ledger
    generalize grantMac p now { w with phase := .receiving } = v at hsafe hledger
    have hgrants : v.grants = w.grants ++ [grantOf w p] := congrArg Ledger.grants hledger
    have hcount : v.macreceived = w.macreceived + 1 := congrArg Ledger.macreceived hledger
    have hrequired : v.requiredMacaddr = w.requiredMacaddr := congrArg Ledger.requiredMacaddr hledger
    have hlast : grantOf w p ∈ v.grants := by simp [hgrants]
    obtain ⟨hwait, hsrc⟩ := hsafe.applied _ hlast
    refine ⟨hwait, hsrc, ?_⟩
    intro g hg hmessage
    have hbound : w.macreceived + 1 ≤ 2 := by
      have hsafeBound := hsafe.bounded
      have htwo : w.requiredMacaddr = 1 ∨ w.requiredMacaddr = 2 := h.sound.required
      omega
    have hold : g ∈ v.grants := by simp [hgrants, hg]
    have hsame := hsafe.single g hold _ hlast hmessage
    exact fresh_of_single (l := w.ledger) h.sound rfl hbound hg hsame
  | doAutomac card => trivial
  | netLoop card ticks fuel ethInit now => trivial
  | poll ctrlc expired first second now => trivial

theorem bootWorld_grantInv (env : Env) : GrantInv (bootWorld env) := by
  have hsafe : GrantSafe (bootWorld env) := ⟨by simp [bootWorld], Nat.zero_le 1, by simp [bootWorld]⟩
  refine ⟨hsafe, bootWorld_sound env, ?_⟩
  intro hloop
  simp [World.inLoop, bootWorld] at hloop

/-- The grants are safe in every state of a run exactly if every packet that carries the current
transaction id comes in order. -/
theorem grants_safe_iff_inOrder (env : Env) (ops : List NetOp) :
    (∀ past, past <+: ops → GrantSafe (netRun env past)) ↔ Along netStep GrantInOrder (bootWorld env) ops := by
  symm
  apply Along.iff_always (P := GrantInv)
  · exact bootWorld_grantInv env
  · intro w h
    exact h.safe
  · intro w op h horder
    exact h.keep op horder
  · intro w op h hsafe
    exact h.needed op hsafe

/-- A second copy of the answer, handed over by the same `eth_rx`, is granted to the other interface. -/
theorem duplicate_answer_granted_twice : ¬∀ env ops, GrantSafe (netRun env ops) := by
  intro h
  have hbound := (h (fun _ => none)
    [.doAutomac 0, .netLoop 0 1 5 ethUp 0, .deliver acceptPacket 0, .deliver acceptPacket 0]).bounded
  revert hbound
  decide

end NvrxFirmware.Automac
