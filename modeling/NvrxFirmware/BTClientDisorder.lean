import NvrxFirmware.BTClientOrder

namespace NvrxFirmware.BTClient

variable {w : World}

/-- The loop of `main` goes on with these replies and no event comes. -/
def mainRun (replies : List Reply) (w : World) : World := (replies.map BtOp.main).foldl btStep w

theorem mainRun_cons (reply : Reply) (replies : List Reply) :
    mainRun (reply :: replies) w = mainRun replies (mainStep reply w) := rfl

theorem checkBusy_connects (hpc : w.pc = .checkBusy) (hflag : w.state.goAheadF = true)
    (hnot : w.state.userStatus ≠ respDeviceBusy) : ¬PhaseOrder (mainRun (List.replicate 6 {}) w) := by
  obtain ⟨⟨name, write, random, status, enc, user, addr, flag⟩, pc, round⟩ := w
  obtain rfl : flag = true := hflag
  obtain rfl : pc = .checkBusy := hpc
  have hnot : ¬user = respDeviceBusy := hnot
  intro order
  have hleave (reply : Reply) : mainStep reply ⟨⟨name, write, random, status, enc, user, addr, true⟩, .checkBusy, round⟩ =
      ⟨⟨name, write, random, status, enc, user, addr, true⟩, .disconnect, round⟩ := by
    simp [mainStep, hnot]
  simp only [mainRun, List.replicate, List.map, List.foldl, btStep, hleave] at order
  obtain ⟨d, hd, _⟩ := order.connects rfl
  cases hd

/-- A raised flag that does not stand for what the next wait is for takes `main` on without it. -/
theorem raised_breaks_order (hflag : w.state.goAheadF = true) (hraised : ¬Holds w w.pc.raised) :
    ∃ replies, ¬PhaseOrder (mainRun replies w) := by
  obtain ⟨⟨name, write, random, status, enc, user, addr, flag⟩, pc, round⟩ := w
  obtain rfl : flag = true := hflag
  cases pc with
  | startDeviceScan => exact ⟨[{}, {}, {}], fun order => hraised (order.connects rfl)⟩
  | connectWithRemoteDevice => exact ⟨[{}, {}, {}], fun order => hraised (order.queries (.inl rfl))⟩
  | queryParsedServices => exact ⟨[{}, {}, {}, {}], fun order => hraised (order.decrypts rfl)⟩
  | readRandom => exact ⟨[{}, {}, {}], fun order => hraised (order.decrypts rfl)⟩
  | decryptRandom => exact ⟨[{}, {}, {}, {}, {}], fun order => hraised (order.acts (.inl rfl))⟩
  | writeRequest => exact ⟨[{}, {}, {}, {}], fun order => hraised (order.acts (.inl rfl))⟩
  | readStatus => exact ⟨[{}, {}, {}], fun order => hraised (order.acts (.inl rfl))⟩
  | spin wait =>
    cases wait with
    | scan => exact ⟨[{}, {}], fun order => hraised (order.connects rfl)⟩
    | connect => exact ⟨[{}, {}], fun order => hraised (order.queries (.inl rfl))⟩
    | services => exact absurd trivial hraised
    | random => exact ⟨[{}, {}], fun order => hraised (order.decrypts rfl)⟩
    | status => exact ⟨[{}, {}], fun order => hraised (order.acts (.inl rfl))⟩
  | scanf =>
    refine ⟨[{}, {}, {}, {}], fun order => ?_⟩
    obtain ⟨d, hd, _⟩ := order.connects rfl
    cases hd
  | disconnect =>
    refine ⟨[{}, {}, {}, {}, {}], fun order => ?_⟩
    obtain ⟨d, hd, _⟩ := order.connects rfl
    cases hd
  | switchStatus =>
    refine ⟨{} :: List.replicate 6 {}, ?_⟩
    rw [mainRun_cons]
    exact checkBusy_connects rfl rfl hraised
  | checkBusy => exact ⟨List.replicate 6 {}, checkBusy_connects rfl rfl hraised⟩
  | clear wait => exact absurd trivial hraised
  | queryRemoteDeviceServices => exact absurd trivial hraised
  | exited => exact absurd trivial hraised

/-- So does an event that takes away what `main` is about to act on. -/
theorem passed_breaks_order (hflag : w.state.goAheadF = true) (hpassed : ¬Holds w w.pc.passed) :
    ∃ replies, ¬PhaseOrder (mainRun replies w) := by
  obtain ⟨⟨name, write, random, status, enc, user, addr, flag⟩, pc, round⟩ := w
  obtain rfl : flag = true := hflag
  cases pc with
  | clear wait =>
    cases wait with
    | scan => exact ⟨[{}], fun order => hpassed (order.connects rfl)⟩
    | connect => exact ⟨[{}], fun order => hpassed (order.queries (.inl rfl))⟩
    | services => exact ⟨[{}], fun order => hpassed (order.queries (.inr rfl))⟩
    | random => exact ⟨[{}], fun order => hpassed (order.decrypts rfl)⟩
    | status => exact ⟨[{}], fun order => hpassed (order.acts (.inl rfl))⟩
  | spin wait =>
    cases wait with
    | services => exact ⟨[{}, {}], fun order => hpassed (order.queries (.inr rfl))⟩
    | _ => exact absurd trivial hpassed
  | connectWithRemoteDevice => exact ⟨[], fun order => hpassed (order.connects rfl)⟩
  | queryRemoteDeviceServices => exact ⟨[], fun order => hpassed (order.queries (.inl rfl))⟩
  | queryParsedServices => exact ⟨[], fun order => hpassed (order.queries (.inr rfl))⟩
  | decryptRandom => exact ⟨[], fun order => hpassed (order.decrypts rfl)⟩
  | switchStatus => exact ⟨[], fun order => hpassed (order.acts (.inl rfl))⟩
  | checkBusy => exact ⟨[], fun order => hpassed (order.acts (.inr rfl))⟩
  | _ => exact absurd trivial hpassed

theorem mainRun_inPhase (replies : List Reply) (h : InPhase w) : InPhase (mainRun replies w) := by
  induction replies generalizing w with
  | nil => exact h
  | cons reply replies ih => exact ih (mainStep_inPhase reply h)

theorem orderly_of_order_lasts {op : BtOp} (h : ∀ replies, PhaseOrder (mainRun replies (btStep w op))) :
    Orderly w op := by
  cases op with
  | main reply => trivial
  | deliver e =>
    intro hs
    have hflag : (deliver e w).state.goAheadF = true := by
      rw [deliver, eventCallback_goAheadF, hs, Bool.or_true]
    constructor
    · by_contra hraised
      have hlost : ¬Holds (deliver e w) w.pc.raised := mt (finds_iff_holds hs _).mpr hraised
      obtain ⟨replies, hbad⟩ := raised_breaks_order hflag hlost
      exact hbad (h replies)
    · by_contra hpassed
      have hlost : ¬Holds (deliver e w) w.pc.passed := mt (finds_iff_holds hs _).mpr hpassed
      obtain ⟨replies, hbad⟩ := passed_breaks_order hflag hlost
      exact hbad (h replies)

/-- The condition leaves out no harmless event: the runs that are orderly are exactly those
after which, whatever its calls return, `main` alone never gets out of order. -/
theorem orderly_iff_order_lasts (s : ClientState) (ops : List BtOp) :
    Along btStep Orderly (startWorld s) ops ↔
      ∀ past, past <+: ops → ∀ replies, PhaseOrder (mainRun replies (past.foldl btStep (startWorld s))) := by
  apply Along.iff_always (P := InPhase) (S := fun w => ∀ replies, PhaseOrder (mainRun replies w))
  · exact startWorld_inPhase s
  · intro w h replies
    exact (mainRun_inPhase replies h).phaseOrder
  · intro w op h orderly
    exact btStep_inPhase h op orderly
  · intro w op _ hlasts
    exact orderly_of_order_lasts hlasts
end NvrxFirmware.BTClient
