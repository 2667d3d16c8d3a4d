import NvrxFirmware.AutomacSteps
import NvrxFirmware.CStrings

namespace NvrxFirmware.Automac

variable {w : World} {now : Nat} {p : Packet} {l : Ledger}

def grantOf (w : World) (p : Packet) : Grant :=
  ⟨w.autoMacState, p.src, p.message, macVariable (w.macreceived + 1), p.recvdMac⟩

/-- The ledger after a grant. It is saved exactly when the last required address has come. -/
def Ledger.grant (l : Ledger) (g : Grant) : Ledger where
  macreceived := l.macreceived + 1
  requiredMacaddr := l.requiredMacaddr
  env := envSet g.interface g.mac l.env
  grants := l.grants ++ [g]
  saves :=
    if l.requiredMacaddr = l.macreceived + 1 then
      l.saves ++ [⟨l.macreceived + 1, l.requiredMacaddr, envSet g.interface g.mac l.env⟩]
    else l.saves

theorem grantMac_ledger : (grantMac p now w).ledger = w.ledger.grant (grantOf w p) := by
  dsimp only [grantMac]
  split
  next h =>
    have hsave : w.ledger.requiredMacaddr = w.ledger.macreceived + 1 := h
    simp only [Ledger.grant, if_pos hsave]
    exact autoMacSend_ledger
  next h =>
    have hsave : ¬w.ledger.requiredMacaddr = w.ledger.macreceived + 1 := h
    rw [automacStart_ledger]
    simp only [Ledger.grant, if_neg hsave]
    exact autoMacSend_ledger

structure GrantedSnapshot (l : Ledger) (s : Saved) : Prop where
  required : s.requiredMacaddr = l.requiredMacaddr
  complete : s.macreceived = s.requiredMacaddr
  ethaddr : ∃ g, l.grants[0]? = some g ∧ s.env .ethaddr = some g.mac
  eth1addr : s.requiredMacaddr = 2 → ∃ g, l.grants[1]? = some g ∧ s.env .eth1addr = some g.mac

/-- The invariant of the counters, the environment and the records, over all runs. -/
structure Ledger.Sound (l : Ledger) : Prop where
  counted : l.grants.length = l.macreceived
  interfaces : ∀ i g, l.grants[i]? = some g → g.interface = macVariable (i + 1)
  required : l.requiredMacaddr = 1 ∨ l.requiredMacaddr = 2
  unsaved : l.macreceived < l.requiredMacaddr → l.saves = []
  once : l.saves.length ≤ 1
  ethaddr : l.macreceived < l.requiredMacaddr → ∀ g, l.grants[0]? = some g → l.env .ethaddr = some g.mac
  snapshot : ∀ s ∈ l.saves, GrantedSnapshot l s

theorem Ledger.Sound.probed (h : l.Sound) (calls : EthCalls) : (l.probed calls).Sound where
  counted := h.counted
  interfaces := h.interfaces
  required := h.required
  unsaved := h.unsaved
  once := h.once
  ethaddr hlt g hg := calls.keeps_set (h.ethaddr hlt g hg) (by simp)
  snapshot s hs :=
    have hsnapshot := h.snapshot s hs
    ⟨hsnapshot.required, hsnapshot.complete, hsnapshot.ethaddr, hsnapshot.eth1addr⟩

theorem GrantedSnapshot.grant {s : Saved} {g : Grant} (h : GrantedSnapshot l s) : GrantedSnapshot (l.grant g) s := by
  have keep {i : Nat} {g' : Grant} (hg : l.grants[i]? = some g') : (l.grant g).grants[i]? = some g' := by
    obtain ⟨hi, rfl⟩ := List.getElem?_eq_some_iff.mp hg
    simp [Ledger.grant, List.getElem?_append_left hi, hi]
  refine ⟨h.required, h.complete, ?_, ?_⟩
  · obtain ⟨g', hg', henv⟩ := h.ethaddr
    exact ⟨g', keep hg', henv⟩
  · intro htwo
    obtain ⟨g', hg', henv⟩ := h.eth1addr htwo
    exact ⟨g', keep hg', henv⟩

/-- The first address goes to `ethaddr`, and the second, on boards with two interfaces, to `eth1addr`. -/
theorem Ledger.Sound.newSnapshot {g : Grant} (h : l.Sound) (hlast : l.requiredMacaddr = l.macreceived + 1)
    (hg : g.interface = macVariable (l.macreceived + 1)) :
    GrantedSnapshot (l.grant g) ⟨l.macreceived + 1, l.requiredMacaddr, envSet g.interface g.mac l.env⟩ := by
  have hlen := h.counted
  refine ⟨rfl, hlast.symm, ?_, ?_⟩
  · rcases h.required with hone | htwo
    · have hzero : l.macreceived = 0 := by omega
      have hnil : l.grants = [] := List.length_eq_zero_iff.mp (hlen.trans hzero)
      have hfirst : (l.grant g).grants[0]? = some g := by simp [Ledger.grant, hnil]
      have hset : envSet g.interface g.mac l.env .ethaddr = some g.mac := by simp [envSet, hg, hzero, macVariable]
      exact ⟨g, hfirst, hset⟩
    · have hone : l.macreceived = 1 := by omega
      have hfirst : 0 < l.grants.length := by omega
      refine ⟨l.grants[0], by simp [Ledger.grant, hfirst], ?_⟩
      have hold := h.ethaddr (by omega) l.grants[0] (List.getElem?_eq_getElem hfirst)
      simpa [envSet, hg, hone, macVariable] using hold
  · intro htwo
    have hrequired : l.requiredMacaddr = 2 := htwo
    have hone : l.macreceived = 1 := by omega
    have hat : l.grants.length = 1 := hlen.trans hone
    have hset : envSet g.interface g.mac l.env .eth1addr = some g.mac := by simp [envSet, hg, hone, macVariable]
    refine ⟨g, ?_, hset⟩
    show (l.grants ++ [g])[1]? = some g
    rw [← hat, List.getElem?_concat_length]

theorem Ledger.Sound.grantInterfaces {g : Grant} (h : l.Sound) (hg : g.interface = macVariable (l.macreceived + 1))
    (i : Nat) (g' : Grant) (hi : (l.grant g).grants[i]? = some g') : g'.interface = macVariable (i + 1) := by
  have happend : (l.grants ++ [g])[i]? = some g' := hi
  by_cases hlt : i < l.grants.length
  · rw [List.getElem?_append_left hlt] at happend
    exact h.interfaces i g' happend
  · have hat : i = l.grants.length := by
      obtain ⟨hbound, _⟩ := List.getElem?_eq_some_iff.mp happend
      rw [List.length_append, List.length_singleton] at hbound
      omega
    subst hat
    rw [List.getElem?_concat_length] at happend
    obtain rfl := Option.some.inj happend
    rw [hg, h.counted]

theorem Ledger.Sound.grant {g : Grant} (h : l.Sound) (hg : g.interface = macVariable (l.macreceived + 1)) :
    (l.grant g).Sound := by
  have hlen := h.counted
  by_cases hlast : l.requiredMacaddr = l.macreceived + 1
  · have hnone : l.saves = [] := h.unsaved (by omega)
    have hsaves : (l.grant g).saves =
        [⟨l.macreceived + 1, l.requiredMacaddr, envSet g.interface g.mac l.env⟩] := by
      simp [Ledger.grant, hlast, hnone]
    have hfull : ¬(l.grant g).macreceived < (l.grant g).requiredMacaddr := by
      simp [Ledger.grant, hlast]
    constructor
    · simp [Ledger.grant, hlen]
    · exact h.grantInterfaces hg
    · exact h.required
    · intro hlt
      exact absurd hlt hfull
    · simp [hsaves]
    · intro hlt
      exact absurd hlt hfull
    · intro s hs
      rw [hsaves] at hs
      obtain rfl := List.mem_singleton.mp hs
      exact h.newSnapshot hlast hg
  · have hsaves : (l.grant g).saves = l.saves := by simp [Ledger.grant, hlast]
    constructor
    · simp [Ledger.grant, hlen]
    · exact h.grantInterfaces hg
    · exact h.required
    · intro hlt
      rw [hsaves]
      exact h.unsaved (Nat.lt_of_succ_lt hlt)
    · rw [hsaves]
      exact h.once
    · intro hlt g' hg'
      have hfirst : l.macreceived + 1 < l.requiredMacaddr := hlt
      have hzero : l.macreceived = 0 := by
        rcases h.required with hr | hr <;> omega
      have hnil : l.grants = [] := List.length_eq_zero_iff.mp (hlen.trans hzero)
      obtain rfl : g = g' := by simpa [Ledger.grant, hnil] using hg'
      simp [Ledger.grant, envSet, hg, hzero, macVariable]
    · intro s hs
      rw [hsaves] at hs
      exact (h.snapshot s hs).grant

theorem Ledger.Sound.fresh (hcount : l.macreceived = 0) (hgrants : l.grants = []) (hsaves : l.saves = [])
    (required : l.requiredMacaddr = 1 ∨ l.requiredMacaddr = 2) : l.Sound := by
  constructor
  · rw [hgrants, hcount, List.length_nil]
  · intro i g hg
    simp [hgrants] at hg
  · exact required
  · intro _
    exact hsaves
  · rw [hsaves]
    exact Nat.zero_le 1
  · intro _ g hg
    simp [hgrants] at hg
  · intro s hs
    simp [hsaves] at hs

def Ledger.init (card : Nat) (env : Env) (l : Ledger) : Ledger :=
  ⟨0, if card = nvrx1602 then 2 else l.requiredMacaddr, env, [], []⟩

theorem Ledger.Sound.init (h : l.Sound) (card : Nat) (env : Env) : (l.init card env).Sound := by
  have hrequired : (l.init card env).requiredMacaddr = 1 ∨ (l.init card env).requiredMacaddr = 2 := by
    dsimp only [Ledger.init]
    split
    · exact .inr rfl
    · exact h.required
  exact .fresh rfl rfl rfl hrequired

theorem automacInit_ledger (card : Nat) (ticks : UInt32) (fuel : Nat) :
    ∃ env, (automacInit card ticks fuel w).ledger = w.ledger.init card env := by
  dsimp only [automacInit]
  split
  · exact ⟨w.env, rfl⟩
  · exact ⟨_, rfl⟩

theorem netLoop_ledger (card : Nat) (ticks : UInt32) (fuel : Nat) (ethInit : EthInit) (now : Nat) :
    ∃ env, (netLoop card ticks fuel ethInit now w).ledger = w.ledger.init card env := by
  obtain ⟨env, h⟩ := automacInit_ledger (w := { w with netRestarted := false, netDevExists := false, netTryCount := 1 })
    card ticks fuel
  dsimp only [netLoop]
  split
  · exact ⟨env, h⟩
  · have hprobed := congrArg (fun l => l.probed ethInit.calls) h
    refine ⟨ethInit.calls.run env, Eq.trans ?_ hprobed⟩
    split
    · rfl
    · exact restart_ledger

theorem doAutomac_ledger (card : Nat) : (doAutomac card w).ledger = w.ledger := by
  unfold doAutomac
  split <;> split <;> rfl

/-- How an operation changes the ledger. -/
inductive Entered (w : World) (op : NetOp) : Ledger → Prop
  | kept (calls : EthCalls) : Entered w op (w.ledger.probed calls)
  | started (card : Nat) (env : Env) : Entered w op (w.ledger.init card env)
  | granted (p : Packet) (now : Nat) : op = .deliver p now → w.grants? p → Entered w op (w.ledger.grant (grantOf w p))

theorem netStep_entered (w : World) (op : NetOp) : Entered w op (netStep w op).ledger := by
  cases op with
  | doAutomac card =>
    rw [netStep]
    split
    · rw [doAutomac_ledger]
      exact .kept .idle
    · exact .kept .idle
  | netLoop card ticks fuel ethInit now =>
    rw [netStep]
    split
    · obtain ⟨env, h⟩ := netLoop_ledger (w := w) card ticks fuel ethInit now
      exact h ▸ .started card env
    · exact .kept .idle
  | deliver p now =>
    by_cases hgrant : w.grants? p
    · rw [deliver_granted hgrant, grantMac_ledger]
      exact .granted p now rfl hgrant
    · obtain ⟨phase, h, _⟩ := deliver_ungranted now hgrant
      rw [h]
      exact .kept .idle
  | poll ctrlc expired first second now =>
    rw [netStep]
    split
    · obtain ⟨calls, h⟩ := poll_ledger ctrlc expired first second now w
      exact h ▸ .kept calls
    · exact .kept .idle

theorem bootWorld_sound (env : Env) : (bootWorld env).ledger.Sound := .fresh rfl rfl rfl (.inl rfl)

theorem netStep_sound (h : w.ledger.Sound) (op : NetOp) : (netStep w op).ledger.Sound := by
  have hentered := netStep_entered w op
  generalize (netStep w op).ledger = v at hentered ⊢
  cases hentered with
  | kept calls => exact h.probed calls
  | started card env => exact h.init card env
  | granted p now _ _ => exact h.grant rfl

theorem netRun_sound (env : Env) (ops : List NetOp) : (netRun env ops).ledger.Sound := by
  apply foldl_history (f := netStep) (Q := fun _ w => w.ledger.Sound)
  · exact bootWorld_sound env
  · intro _ w op h
    exact netStep_sound h op

/-- The MAC field of a packet: the text after `ACCEPT MAC#`, up to 17 characters or the first NUL. -/
structure MacField (pkt : Nat → UInt8) (mac : List UInt8) : Prop where
  bytes : ∀ i (h : i < mac.length), mac[i] = pkt (grantacceptMessageRx.length + i)
  text : 0 ∉ mac
  ended : mac.length = 17 ∨ mac.length < 17 ∧ pkt (grantacceptMessageRx.length + mac.length) = 0

theorem recvdMac_macField (p : Packet) : MacField p.pkt p.recvdMac := by
  let field := (List.range 17).map fun i => p.pkt (grantacceptMessageRx.length + i)
  have hat (i : Nat) (hi : i < 17) : field[i]? = some (p.pkt (grantacceptMessageRx.length + i)) := by
    simp [field, hi]
  change MacField p.pkt (cString field)
  have hlen : (cString field).length ≤ 17 := by simpa [field] using length_cString_le field
  have hprefix : cString field <+: field := List.takeWhile_prefix _
  constructor
  · intro i hi
    apply Option.some.inj
    rw [← hat i (by omega)]
    exact (List.prefix_iff_getElem?.mp hprefix i hi).symm
  · exact nul_not_mem_cString field
  · by_cases hnul : 0 ∈ field
    · obtain ⟨rest, hrest⟩ := exists_eq_cString_append hnul
      have hend : field[(cString field).length]? = some 0 := by
        have hread := congrArg (fun bytes : List UInt8 => bytes[(cString field).length]?) hrest
        simpa using hread
      obtain ⟨hshort, -⟩ := List.getElem?_eq_some_iff.mp hend
      have hshort : (cString field).length < 17 := by simpa [field] using hshort
      rw [hat _ hshort] at hend
      exact .inr ⟨hshort, Option.some.inj hend⟩
    · left
      rw [cString_of_noNul hnul]
      simp [field]

/-- The client beside the environment that the last `net_loop` found and the packets accepted since then. -/
structure Attempt where
  start : Env
  accepted : List Packet
  world : World

instance (w : World) (p : Packet) : Decidable (w.grants? p) := inferInstanceAs (Decidable (_ ∧ _))

def Attempt.step (a : Attempt) (op : NetOp) : Attempt :=
  match op with
  | .netLoop .. =>
    if a.world.phase = .attempt then ⟨a.world.env, [], netStep a.world op⟩ else { a with world := netStep a.world op }
  | .deliver p _ =>
    { a with
      accepted := if a.world.grants? p then a.accepted ++ [p] else a.accepted
      world := netStep a.world op }
  | .doAutomac _ => { a with world := netStep a.world op }
  | .poll .. => { a with world := netStep a.world op }

def attemptRun (env : Env) (ops : List NetOp) : Attempt := ops.foldl Attempt.step ⟨env, [], bootWorld env⟩

theorem Attempt.step_world (a : Attempt) (op : NetOp) : (a.step op).world = netStep a.world op := by
  cases op with
  | netLoop =>
    dsimp only [Attempt.step]
    split <;> rfl
  | _ => rfl

theorem attemptRun_world (env : Env) (ops : List NetOp) : (attemptRun env ops).world = netRun env ops := by
  apply foldl_history (f := Attempt.step) (Q := fun ops a => a.world = netRun env ops)
  · rfl
  · intro ops a op h
    rw [a.step_world, h, netRun, netRun, List.foldl_concat]

/-- The addresses granted are those in the packets accepted. -/
def Attempt.Macs (a : Attempt) : Prop := a.world.grants.map Grant.mac = a.accepted.map Packet.recvdMac

theorem Attempt.Macs.step {a : Attempt} (h : a.Macs) (op : NetOp) : (a.step op).Macs := by
  have same {v : World} (hgrants : v.grants = a.world.grants) : v.grants.map Grant.mac = a.accepted.map Packet.recvdMac := by
    rw [hgrants]
    exact h
  cases op with
  | doAutomac card =>
    apply same
    rw [Attempt.step_world, netStep]
    split
    · exact congrArg Ledger.grants (doAutomac_ledger card)
    · rfl
  | netLoop card ticks fuel ethInit now =>
    dsimp only [Attempt.step]
    split
    next hphase =>
      obtain ⟨env, hledger⟩ := netLoop_ledger (w := a.world) card ticks fuel ethInit now
      have hstep : netStep a.world (.netLoop card ticks fuel ethInit now) = netLoop card ticks fuel ethInit now a.world :=
        if_pos hphase
      have hgrants : (netLoop card ticks fuel ethInit now a.world).grants = [] := congrArg Ledger.grants hledger
      rw [Attempt.Macs, hstep, hgrants]
      rfl
    next hphase =>
      apply same
      rw [netStep, if_neg hphase]
  | deliver p now =>
    by_cases hgrant : a.world.grants? p
    · have hgrants : (netStep a.world (.deliver p now)).grants = a.world.grants ++ [grantOf a.world p] := by
        rw [deliver_granted hgrant]
        exact congrArg Ledger.grants grantMac_ledger
      rw [Attempt.Macs, Attempt.step, hgrants, if_pos hgrant, List.map_append, List.map_append, h]
      rfl
    · obtain ⟨phase, hstep, _⟩ := deliver_ungranted now hgrant
      rw [Attempt.Macs, Attempt.step, if_neg hgrant]
      apply same
      rw [hstep]
  | poll ctrlc expired first second now =>
    apply same
    rw [Attempt.step_world, netStep]
    split
    · obtain ⟨calls, hledger⟩ := poll_ledger ctrlc expired first second now a.world
      exact congrArg Ledger.grants hledger
    · rfl

theorem attemptRun_macs (env : Env) (ops : List NetOp) : (attemptRun env ops).Macs := by
  apply foldl_history (f := Attempt.step) (Q := fun _ a => a.Macs)
  · rfl
  · intro _ a op h
    exact h.step op

theorem Attempt.Macs.accepted {a : Attempt} (h : a.Macs) {i : Nat} {g : Grant} (hg : a.world.grants[i]? = some g) :
    ∃ p, a.accepted[i]? = some p ∧ MacField p.pkt g.mac := by
  have hmac : (a.accepted.map Packet.recvdMac)[i]? = some g.mac := by
    rw [← h, List.getElem?_map, hg]
    rfl
  rw [List.getElem?_map, Option.map_eq_some_iff] at hmac
  obtain ⟨p, hp, hmac⟩ := hmac
  exact ⟨p, hp, hmac ▸ recvdMac_macField p⟩

/-- What has been saved since the last `automac_init` is in the packets accepted since then. -/
structure SavesGrantedMac (a : Attempt) : Prop where
  once : a.world.saves.length ≤ 1
  ethaddr : ∀ s ∈ a.world.saves, ∃ p mac, a.accepted[0]? = some p ∧ MacField p.pkt mac ∧ s.env .ethaddr = some mac
  eth1addr : ∀ s ∈ a.world.saves, s.requiredMacaddr = 2 →
    ∃ p mac, a.accepted[1]? = some p ∧ MacField p.pkt mac ∧ s.env .eth1addr = some mac

theorem attemptRun_savesGrantedMac (env : Env) (ops : List NetOp) : SavesGrantedMac (attemptRun env ops) := by
  have hmacs := attemptRun_macs env ops
  have sound : (attemptRun env ops).world.ledger.Sound := attemptRun_world env ops ▸ netRun_sound env ops
  constructor
  · exact sound.once
  · intro s hs
    obtain ⟨g, hg, hsaved⟩ := (sound.snapshot s hs).ethaddr
    obtain ⟨p, hp, hmac⟩ := hmacs.accepted hg
    exact ⟨p, g.mac, hp, hmac, hsaved⟩
  · intro s hs htwo
    obtain ⟨g, hg, hsaved⟩ := (sound.snapshot s hs).eth1addr htwo
    obtain ⟨p, hp, hmac⟩ := hmacs.accepted hg
    exact ⟨p, g.mac, hp, hmac, hsaved⟩

/-- The environment is saved at most once for each `automac_init`, in the step that brings the last
required address, and then holds the addresses in the packets accepted. -/
theorem saved_mac_is_granted (env : Env) (ops : List NetOp) (op : NetOp) :
    SavesGrantedMac (attemptRun env ops) ∧
      ((netRun env ops).saves.length < (netRun env (ops ++ [op])).saves.length →
        (netRun env ops).macreceived + 1 = (netRun env (ops ++ [op])).macreceived ∧
          (netRun env (ops ++ [op])).macreceived = (netRun env (ops ++ [op])).requiredMacaddr) := by
  refine ⟨attemptRun_savesGrantedMac env ops, ?_⟩
  have hrun : netRun env (ops ++ [op]) = netStep (netRun env ops) op := by
    simp [netRun, List.foldl_append]
  rw [hrun]
  intro hmore
  have hlonger : (netRun env ops).ledger.saves.length < (netStep (netRun env ops) op).ledger.saves.length := hmore
  change (netRun env ops).ledger.macreceived + 1 = (netStep (netRun env ops) op).ledger.macreceived ∧
    (netStep (netRun env ops) op).ledger.macreceived = (netStep (netRun env ops) op).ledger.requiredMacaddr
  have hentered := netStep_entered (netRun env ops) op
  generalize (netStep (netRun env ops) op).ledger = v at hentered hlonger ⊢
  cases hentered with
  | kept calls => exact absurd hlonger (Nat.lt_irrefl _)
  | started card env' => exact absurd hlonger (Nat.not_lt_zero _)
  | granted p now _ _ =>
    refine ⟨rfl, ?_⟩
    by_contra hother
    have hmissing : ¬(netRun env ops).ledger.requiredMacaddr = (netRun env ops).ledger.macreceived + 1 := by
      intro hlast
      exact hother hlast.symm
    have hsame : (netRun env ops).ledger.saves.length < (netRun env ops).ledger.saves.length := by
      simpa only [Ledger.grant, if_neg hmissing] using hlonger
    exact absurd hsame (Nat.lt_irrefl _)

/-- The server's answer to the first request after the timer seeded the generator with 1. -/
def acceptPacket : Packet where
  message := 0
  dest := 1024
  src := autoMacServerPortNo
  pkt i := (grantacceptMessageRx ++ bytesOf
    ['0', '0', ':', '1', 'B', ':', '0', '9', ':', '0', '0', ':', '0', '0', ':', '0', '1',
      '#', 'I', 'D', ':', 'E', '7', 'F', '4']).getD i 10

def grantedRun : List NetOp := [.doAutomac 0, .netLoop 0 1 5 ethUp 0, .deliver acceptPacket 0]

theorem saved_mac_is_granted_first : (netRun (fun _ => none) grantedRun).saves.length = 1 ∧
    (netRun (fun _ => none) grantedRun).macreceived = (netRun (fun _ => none) grantedRun).requiredMacaddr ∧
    ∀ s ∈ (netRun (fun _ => none) grantedRun).saves, ∃ mac, MacField acceptPacket.pkt mac ∧ s.env .ethaddr = some mac := by
  have hsaved := saved_mac_is_granted (fun _ => none) grantedRun (.deliver acceptPacket 0)
  refine ⟨by decide, ?_, ?_⟩
  · exact ((saved_mac_is_granted (fun _ => none) [.doAutomac 0, .netLoop 0 1 5 ethUp 0] (.deliver acceptPacket 0)).2
      (by decide)).2
  · intro s hs
    obtain ⟨p, mac, hp, hmac, hethaddr⟩ := hsaved.1.ethaddr s (attemptRun_world (fun _ => none) grantedRun ▸ hs)
    obtain rfl : acceptPacket = p := Option.some.inj hp
    exact ⟨mac, hmac, hethaddr⟩

end NvrxFirmware.Automac
