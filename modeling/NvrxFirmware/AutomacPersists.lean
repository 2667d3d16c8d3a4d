import NvrxFirmware.AutomacSaves

namespace NvrxFirmware.Automac

variable {w : World} {env after : Env} {g g' : Prng} {fuel : Nat} {l : Ledger}

def temporaryIp (a b c : UInt32) : List UInt8 := bytesOf ['1', '0'] ++ [a, b, c].flatMap fun n => dot ++ decimal n

/-- The settings with which the client looks for its server. -/
structure Temporary (env : Env) : Prop where
  ipaddr : ∃ a b c : UInt32, a < 253 ∧ b < 253 ∧ c < 253 ∧ c ≠ 0 ∧ c ≠ 1 ∧ c ≠ 10 ∧
    env .ipaddr = some (temporaryIp a b c)
  netmask : env .netmask = some (bytesOf ['2', '5', '5', '.', '0', '.', '0', '.', '0'])
  serverip : env .serverip =
    some (bytesOf ['2', '5', '5', '.', '2', '5', '5', '.', '2', '5', '5', '.', '2', '5', '5'])

def networkSettings : List EnvVar := [.ipaddr, .netmask, .serverip]

theorem getrandomnumber_lt (max : UInt32) (g : Prng) (hmax : 0 < max) : (getrandomnumber max g).1 < max :=
  UInt32.mod_lt _ hmax

theorem drawLastByte_range {y : UInt32} (h : drawLastByte fuel g = some (y, g')) :
    y < 253 ∧ y ≠ 0 ∧ y ≠ 1 ∧ y ≠ 10 := by
  induction fuel generalizing g with
  | zero => cases h
  | succ fuel ih =>
    have hlt := getrandomnumber_lt 253 g (by decide)
    rw [drawLastByte] at h
    dsimp only at h
    split at h
    next => exact ih h
    next hgood =>
      obtain ⟨rfl, -⟩ := Prod.mk.inj (Option.some.inj h)
      exact ⟨hlt, fun h0 => hgood (.inl h0), fun h1 => hgood (.inr (.inl h1)), fun h10 => hgood (.inr (.inr h10))⟩

theorem setenvironment_installs (h : setenvironment fuel g env = some (g', after)) :
    Temporary after ∧ ∀ v, v ∉ networkSettings → v ≠ .ethaddr → after v = env v := by
  unfold setenvironment at h
  dsimp only at h
  split at h
  next => cases h
  next last g'' hlast =>
    obtain ⟨-, rfl⟩ := Prod.mk.inj (Option.some.inj h)
    obtain ⟨hlt, hzero, hone, hten⟩ := drawLastByte_range hlast
    have hfirst := getrandomnumber_lt 253 g (by decide)
    have hsecond := getrandomnumber_lt 253 (getrandomnumber 253 g).2 (by decide)
    constructor
    · exact ⟨⟨_, _, last, hfirst, hsecond, hlt, hzero, hone, hten, rfl⟩, rfl, rfl⟩
    · intro v hv hmac
      simp only [networkSettings, List.mem_cons, List.not_mem_nil, or_false, not_or] at hv
      simp [envSet, hv, hmac]

/-- What bringing up a device leaves alone in an environment that began as `start`. -/
def Settled (start : Env) (v : EnvVar) : Prop := v ≠ .ethact ∧ (v = .eth1addr → (start v).isSome)

/-- A saved environment beside the one that its attempt began with. -/
structure Persisted (start : Env) (s : Saved) : Prop where
  temporary : Temporary s.env
  unchanged : ∀ v, v ∉ networkSettings → v ≠ .ethaddr → (s.requiredMacaddr = 2 → v ≠ .eth1addr) → Settled start v →
    s.env v = start v

/-- The environment during an attempt that began with `start`. -/
structure Working (start : Env) (l : Ledger) : Prop where
  temporary : Temporary l.env
  unchanged : ∀ v, v ∉ networkSettings → v ≠ .ethaddr → (1 < l.macreceived → v ≠ .eth1addr) → Settled start v →
    l.env v = start v

theorem Temporary.grant (h : Temporary env) (count : Nat) (mac : List UInt8) :
    Temporary (envSet (macVariable count) mac env) := by
  have hmac : macVariable count = .ethaddr ∨ macVariable count = .eth1addr := by
    unfold macVariable
    split
    · exact .inl rfl
    · exact .inr rfl
  have hkeep (v : EnvVar) (hv : v ∈ networkSettings) : envSet (macVariable count) mac env v = env v := by
    apply if_neg
    rintro rfl
    rcases hmac with h | h <;> simp [h, networkSettings] at hv
  constructor
  · rw [hkeep .ipaddr (by decide)]
    exact h.ipaddr
  · rw [hkeep .netmask (by decide)]
    exact h.netmask
  · rw [hkeep .serverip (by decide)]
    exact h.serverip

theorem Working.grant {start : Env} {grant : Grant} (h : Working start l)
    (hgrant : grant.interface = macVariable (l.macreceived + 1)) : Working start (l.grant grant) := by
  constructor
  · show Temporary (envSet grant.interface grant.mac l.env)
    rw [hgrant]
    exact h.temporary.grant _ _
  · intro v hv hmac hsecond hsettled
    have hother : v ≠ macVariable (l.macreceived + 1) := by
      unfold macVariable
      split
      next => exact hmac
      next hcount =>
        apply hsecond
        show 1 < l.macreceived + 1
        omega
    have hset : (l.grant grant).env v = l.env v := by
      show envSet grant.interface grant.mac l.env v = l.env v
      rw [hgrant]
      exact if_neg hother
    rw [hset]
    exact h.unchanged v hv hmac (fun hcount => hsecond (Nat.lt_succ_of_lt hcount)) hsettled

theorem Working.persisted {start : Env} (h : Working start l) (hrequired : l.requiredMacaddr = 1 ∨ l.requiredMacaddr = 2)
    (hlast : l.macreceived = l.requiredMacaddr) : Persisted start ⟨l.macreceived, l.requiredMacaddr, l.env⟩ := by
  refine ⟨h.temporary, fun v hv hmac htwo => h.unchanged v hv hmac fun hcount => htwo ?_⟩
  show l.requiredMacaddr = 2
  omega

theorem Temporary.probed (h : Temporary env) (calls : EthCalls) : Temporary (calls.run env) := by
  have hkeep (v : EnvVar) (hv : v ∈ networkSettings) : calls.run env v = env v := by
    simp only [networkSettings, List.mem_cons, List.not_mem_nil, or_false] at hv
    rcases hv with rfl | rfl | rfl <;> exact calls.keeps_other (by simp) (by simp) (by simp)
  constructor
  · rw [hkeep .ipaddr (by decide)]
    exact h.ipaddr
  · rw [hkeep .netmask (by decide)]
    exact h.netmask
  · rw [hkeep .serverip (by decide)]
    exact h.serverip

theorem Working.probed {start : Env} (h : Working start l) (calls : EthCalls) : Working start (l.probed calls) := by
  refine ⟨h.temporary.probed calls, fun v hv hmac hsecond hsettled => ?_⟩
  have hsame : l.env v = start v := h.unchanged v hv hmac hsecond hsettled
  by_cases hv1 : v = .eth1addr
  · obtain ⟨value, hvalue⟩ := Option.isSome_iff_exists.mp (hsettled.2 hv1)
    rw [hvalue]
    exact calls.keeps_set (hsame.trans hvalue) hsettled.1
  · exact (calls.keeps_other hsettled.1 hmac hv1).trans hsame

structure AttemptInv (a : Attempt) : Prop where
  sound : a.world.ledger.Sound
  working : a.world.inLoop → Working a.start a.world.ledger
  saved : ∀ saved ∈ a.world.saves, Persisted a.start saved

variable {a : Attempt}

theorem AttemptInv.keep {v : World} (h : AttemptInv a) (calls : EthCalls) (hledger : v.ledger = a.world.ledger.probed calls)
    (hloop : v.inLoop → a.world.inLoop) (accepted : List Packet) : AttemptInv ⟨a.start, accepted, v⟩ := by
  have hsaves : v.saves = a.world.saves := congrArg Ledger.saves hledger
  constructor
  · show v.ledger.Sound
    rw [hledger]
    exact h.sound.probed calls
  · intro hv
    show Working a.start v.ledger
    rw [hledger]
    exact (h.working (hloop hv)).probed calls
  · intro saved hsaved
    apply h.saved
    show saved ∈ a.world.saves
    rw [← hsaves]
    exact hsaved

theorem AttemptInv.granted {p : Packet} (now : Nat) (h : AttemptInv a) (hgrant : a.world.grants? p)
    (accepted : List Packet) : AttemptInv ⟨a.start, accepted, grantMac p now { a.world with phase := .receiving }⟩ := by
  have hledger : (grantMac p now { a.world with phase := .receiving }).ledger =
      a.world.ledger.grant (grantOf a.world p) := grantMac_ledger
  have hsound : (a.world.ledger.grant (grantOf a.world p)).Sound := h.sound.grant rfl
  have hworking : Working a.start (a.world.ledger.grant (grantOf a.world p)) := (h.working hgrant.1).grant rfl
  constructor
  · show (grantMac p now { a.world with phase := .receiving }).ledger.Sound
    rw [hledger]
    exact hsound
  · intro _
    show Working a.start (grantMac p now { a.world with phase := .receiving }).ledger
    rw [hledger]
    exact hworking
  · intro saved hsaved
    have hmem : saved ∈ (a.world.ledger.grant (grantOf a.world p)).saves := by
      rw [← hledger]
      exact hsaved
    by_cases hlast : a.world.ledger.requiredMacaddr = a.world.ledger.macreceived + 1
    · simp only [Ledger.grant, if_pos hlast] at hmem
      rcases List.mem_append.mp hmem with hold | hnew
      · exact h.saved saved hold
      · obtain rfl := List.mem_singleton.mp hnew
        exact hworking.persisted hsound.required hlast.symm
    · simp only [Ledger.grant, if_neg hlast] at hmem
      exact h.saved saved hmem

theorem netLoop_working {card : Nat} {ticks : UInt32} {ethInit : EthInit} {now : Nat}
    (hloop : (netLoop card ticks fuel ethInit now w).inLoop) :
    Working w.env (netLoop card ticks fuel ethInit now w).ledger := by
  unfold netLoop at hloop ⊢
  dsimp only [automacInit] at hloop ⊢
  cases hset : setenvironment fuel (setrandomnumberseed ticks w.prng) w.env with
  | none =>
    rw [hset] at hloop
    simp [World.inLoop] at hloop
  | some installed =>
    obtain ⟨prng, env⟩ := installed
    obtain ⟨htemporary, hframe⟩ := setenvironment_installs hset
    rw [hset] at hloop
    dsimp only at hloop ⊢
    split at hloop
    next hhung => simp [World.inLoop, hhung] at hloop
    next hrunning =>
      split at hloop
      next => exact absurd hloop leave_not_inLoop
      next heth =>
        rw [if_neg hrunning, if_neg heth, restart_ledger]
        have hinstalled : Working w.env
            ⟨0, if card = nvrx1602 then 2 else w.requiredMacaddr, env, [], []⟩ :=
          ⟨htemporary, fun v hv hmac _ _ => hframe v hv hmac⟩
        exact hinstalled.probed ethInit.calls

theorem netLoop_saves (card : Nat) (ticks : UInt32) (fuel : Nat) (ethInit : EthInit) (now : Nat) :
    (netLoop card ticks fuel ethInit now w).saves = [] := by
  obtain ⟨env, hledger⟩ := netLoop_ledger (w := w) card ticks fuel ethInit now
  exact congrArg Ledger.saves hledger

/-- An attempt begins with the environment that it finds, and with nothing saved. -/
theorem AttemptInv.begin (h : AttemptInv a) (hphase : a.world.phase = .attempt) (card : Nat) (ticks : UInt32) (fuel : Nat)
    (ethInit : EthInit) (now : Nat) : AttemptInv ⟨a.world.env, [], netLoop card ticks fuel ethInit now a.world⟩ := by
  have hstep : netStep a.world (.netLoop card ticks fuel ethInit now) = netLoop card ticks fuel ethInit now a.world :=
    if_pos hphase
  have hsound := netStep_sound h.sound (.netLoop card ticks fuel ethInit now)
  rw [hstep] at hsound
  refine ⟨hsound, netLoop_working, fun saved hsaved => ?_⟩
  rw [netLoop_saves] at hsaved
  cases hsaved

theorem AttemptInv.step (h : AttemptInv a) (op : NetOp) : AttemptInv (a.step op) := by
  cases op with
  | doAutomac card =>
    rw [Attempt.step, netStep]
    split
    · exact h.keep .idle (doAutomac_ledger card) (fun hloop => absurd hloop (doAutomac_not_inLoop card)) _
    · exact h
  | netLoop card ticks fuel ethInit now =>
    rw [Attempt.step]
    split
    next hphase =>
      rw [netStep, if_pos hphase]
      exact h.begin hphase card ticks fuel ethInit now
    next hphase =>
      rw [netStep, if_neg hphase]
      exact h
  | deliver p now =>
    rw [Attempt.step]
    by_cases hgrant : a.world.grants? p
    · rw [deliver_granted hgrant]
      exact h.granted now hgrant _
    · obtain ⟨phase, hstep, hloop⟩ := deliver_ungranted now hgrant
      rw [hstep]
      exact h.keep (v := { a.world with phase := phase }) .idle rfl hloop _
  | poll ctrlc expired first second now =>
    rw [Attempt.step, netStep]
    split
    next hloop =>
      obtain ⟨calls, hledger⟩ := poll_ledger ctrlc expired first second now a.world
      exact h.keep calls hledger (fun _ => hloop) _
    next => exact h

theorem attemptRun_inv (env : Env) (ops : List NetOp) : AttemptInv (attemptRun env ops) := by
  apply foldl_history (f := Attempt.step) (Q := fun _ a => AttemptInv a)
  · refine ⟨bootWorld_sound env, fun hloop => ?_, fun saved hsaved => ?_⟩
    · exact absurd hloop (by simp [World.inLoop, bootWorld])
    · cases hsaved
  · intro _ a op h
    exact h.step op

/-- What an attempt saves is the environment that it began with, but for the granted addresses, the settings with
which it looked for the server, and what bringing up a device sets. -/
theorem saved_environment_frame (env : Env) (ops : List NetOp) {saved : Saved}
    (hsaved : saved ∈ (netRun env ops).saves) : Persisted (attemptRun env ops).start saved := by
  rw [← attemptRun_world] at hsaved
  exact (attemptRun_inv env ops).saved saved hsaved

/-- A board that has been given its network settings. -/
def configuredEnv : Env
  | .ipaddr => some (bytesOf ['1', '9', '2', '.', '1', '6', '8', '.', '1', '.', '5', '0'])
  | .netmask => some (bytesOf ['2', '5', '5', '.', '2', '5', '5', '.', '2', '5', '5', '.', '0'])
  | .serverip => some (bytesOf ['1', '9', '2', '.', '1', '6', '8', '.', '1', '.', '4', '4'])
  | _ => none

theorem granted_environment_frame :
    ∃ saved ∈ (netRun configuredEnv grantedRun).saves, Persisted (attemptRun configuredEnv grantedRun).start saved := by
  have hsaved : 0 < (netRun configuredEnv grantedRun).saves.length := by decide
  have hmem := List.getElem_mem hsaved
  exact ⟨_, hmem, saved_environment_frame configuredEnv grantedRun hmem⟩

theorem configured_settings_lost : ¬∀ (env : Env) (ops : List NetOp), ∀ saved ∈ (netRun env ops).saves,
    ∀ v, v ≠ .ethaddr → (saved.requiredMacaddr = 2 → v ≠ .eth1addr) → Settled (attemptRun env ops).start v →
      saved.env v = (attemptRun env ops).start v := by
  intro hall
  have hserver : ∀ saved ∈ (netRun configuredEnv grantedRun).saves,
      saved.env .serverip = (attemptRun configuredEnv grantedRun).start .serverip := by
    intro saved hsaved
    exact hall configuredEnv grantedRun saved hsaved .serverip (by decide) (fun _ => by decide)
      ⟨by decide, fun h => by cases h⟩
  revert hserver
  decide

end NvrxFirmware.Automac
