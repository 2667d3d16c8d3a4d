import NvrxFirmware.AutomacPacket
import NvrxFirmware.Runs

namespace NvrxFirmware.Automac

def autoMacServerPortNo : Nat := 65000
def timeoutCount : Nat := 10
def automacRetryCount : Nat := 30
def nvrx1602 : Nat := 2

/-- `AUTOMAC_CLIENTST_*`, and the zero that the variable starts with. -/
inductive ClientSt
  | unset
  | broadcastig
  | broadcastigWait
  | grantedMac
  deriving DecidableEq, Repr

inductive NetState
  | netloopContinue
  | netloopRestart
  | netloopSuccess
  | netloopFail
  deriving DecidableEq, Repr

inductive TimeHandler
  | autoMacTimeout
  | startAgainTimeoutHandler
  deriving DecidableEq, Repr

inductive UdpHandler
  | dummyHandler
  | autoMacHandler
  deriving DecidableEq, Repr

/-- Where the command stands: about to call `net_loop`, at the top of the reception loop,
after some packets of one `eth_rx`, or out of it for good. -/
inductive Phase
  | command
  | attempt
  | top
  | receiving
  | returned
  | hung
  deriving DecidableEq, Repr

/-- A MAC address given to an interface, and how it came about. -/
structure Grant where
  state : ClientSt
  src : Nat
  message : Nat
  interface : EnvVar
  mac : List UInt8
  deriving DecidableEq, Repr

structure Saved where
  macreceived : Nat
  requiredMacaddr : Nat
  env : Env

inductive Sent
  | macRequest (id : UInt32)
  | successMac (id : UInt32)
  | nothing
  deriving DecidableEq, Repr

/-- The variables of `automac.c`, `net.c` and the environment. The last three fields
record what happened since the last `automac_init`. -/
structure World where
  phase : Phase
  autoMacServerPort : Nat
  autoMacOurPort : Nat
  autoMacTimeoutCount : Nat
  autoMacState : ClientSt
  transactionId : UInt32
  prng : Prng
  macreceived : Nat
  requiredMacaddr : Nat
  retrycnt : Nat
  netState : NetState
  timeHandler : Option TimeHandler
  udpHandler : UdpHandler
  netTryCount : Nat
  netRestarted : Bool
  netDevExists : Bool
  netRestartWrap : Bool
  env : Env
  sent : List Sent
  grants : List Grant
  saves : List Saved

def netCleanupLoop (w : World) : World := { w with udpHandler := .dummyHandler, timeHandler := none }

def autoMacSend (w : World) : World :=
  match w.autoMacState with
  | .broadcastig =>
    let (id, prng) := getrandomnumber 65534 w.prng
    { w with transactionId := id, prng := prng, autoMacState := .broadcastigWait, sent := w.sent ++ [.macRequest id] }
  | .grantedMac => { w with sent := w.sent ++ [.successMac w.transactionId] }
  | _ => { w with sent := w.sent ++ [.nothing] }

/-- `now` is the reading of the timer that picks our port. -/
def automacStart (now : Nat) (w : World) : World :=
  autoMacSend { w with
    timeHandler := some .autoMacTimeout
    udpHandler := .autoMacHandler
    autoMacServerPort := autoMacServerPortNo
    autoMacTimeoutCount := 0
    autoMacOurPort := 1024 + now % 3072
    autoMacState := .broadcastig }

/-- The variable that `update_mac` sets for its `uchar` argument. -/
def macVariable (ethnum : Nat) : EnvVar := if ethnum % 2 ^ 8 = 1 then .ethaddr else .eth1addr

/-- `AutoMacHandler` once the packet carries the current transaction id. -/
def grantMac (p : Packet) (now : Nat) (w : World) : World :=
  let count := w.macreceived + 1
  let w := { w with
    macreceived := count
    env := envSet (macVariable count) p.recvdMac w.env
    grants := w.grants ++ [Grant.mk w.autoMacState p.src p.message (macVariable count) p.recvdMac] }
  if w.requiredMacaddr = count then
    let w := { w with saves := w.saves ++ [Saved.mk count w.requiredMacaddr w.env] }
    { autoMacSend { w with autoMacState := .grantedMac } with netState := .netloopSuccess }
  else
    automacStart now { autoMacSend { w with autoMacState := .grantedMac } with netState := .netloopContinue }

/-- The tests before `AutoMacHandler` looks into the packet. -/
def World.passes (w : World) (p : Packet) : Prop :=
  p.dest = w.autoMacOurPort ∧ ¬(w.autoMacState ≠ .broadcastigWait ∧ p.src ≠ w.autoMacServerPort)

instance (w : World) (p : Packet) : Decidable (w.passes p) := inferInstanceAs (Decidable (_ ∧ _))

def autoMacHandler (p : Packet) (now : Nat) (w : World) : World :=
  if w.passes p then
    if p.isAccept then
      match p.getTransactionId with
      | none => { w with phase := .hung }
      | some receivedId => if receivedId = w.transactionId then grantMac p now w else w
    else w
  else w

/-- What `eth_set_current`, `eth_try_another` and `eth_init` do to the environment. They keep the name
of the current device in it, and may set the address of an interface that has none there. -/
structure EthCalls where
  run : Env → Env
  sets : ∀ env v, run env v ≠ env v → v = .ethact ∨ (v = .ethaddr ∨ v = .eth1addr) ∧ env v = none

/-- What `eth_init` returns, and what it and the call before it have done. -/
structure EthInit where
  ret : Int
  calls : EthCalls

/-- What `net_start_again` gets from outside: the number in `netretry`, the outcome of
`eth_init`, and whether `eth_try_another` has tried all devices. -/
structure StartAgain where
  retryCount : Nat
  ethInit : EthInit
  wraps : Bool

/-- `retry_forever` and `retrycnt` of `net_start_again`. -/
def netRetry (env : Env) (number : Nat) : Bool × Nat :=
  match env .netretry with
  | some nretry =>
    if nretry = bytesOf ['y', 'e', 's'] then (true, 0)
    else if nretry = bytesOf ['n', 'o'] then (false, 0)
    else if nretry = bytesOf ['o', 'n', 'c', 'e'] then (false, 1)
    else (false, number)
  | none => (true, 0)

def etimedout : Int := 110
def eintr : Int := 4

def netStartAgain (again : StartAgain) (w : World) : Int × World :=
  let (retryForever, retrycnt) := netRetry w.env again.retryCount
  if retryForever = false ∧ retrycnt ≤ w.netTryCount then (-etimedout, { w with netState := .netloopFail })
  else
    let w := { w with netTryCount := w.netTryCount + 1, env := again.ethInit.calls.run w.env }
    if w.netRestartWrap || again.wraps then
      let w := { w with netRestartWrap := false }
      if w.netDevExists then
        (again.ethInit.ret, { w with timeHandler := some .startAgainTimeoutHandler, udpHandler := .dummyHandler })
      else (again.ethInit.ret, { w with netState := .netloopFail })
    else (again.ethInit.ret, { w with netState := .netloopRestart })

def autoMacTimeout (again : StartAgain) (w : World) : World :=
  if w.autoMacState = .broadcastigWait then
    let w := { w with autoMacTimeoutCount := w.autoMacTimeoutCount + 1 }
    if timeoutCount < w.autoMacTimeoutCount then
      if automacRetryCount < w.retrycnt then w
      else (netStartAgain again { w with retrycnt := w.retrycnt + 1 }).2
    else autoMacSend { w with timeHandler := some .autoMacTimeout, autoMacState := .broadcastig }
  else w

/-- `net_loop` from its `restart` label to the reception loop. No prerequisite is checked for automac. -/
def restart (now : Nat) (w : World) : World :=
  automacStart now { w with netState := .netloopContinue, netDevExists := true, phase := .top }

/-- The call of an expired timer's handler, which is cleared first. -/
def runTimeHandler (again : StartAgain) (w : World) : World :=
  match w.timeHandler with
  | none => w
  | some .autoMacTimeout => autoMacTimeout again { w with timeHandler := none }
  | some .startAgainTimeoutHandler => { w with timeHandler := none, netState := .netloopRestart }

/-- The loop of `do_automac` tries again when `net_loop` has failed. -/
def leave (ret : Int) (w : World) : World := { w with phase := if ret < 0 then .attempt else .returned }

def dispatch (ret : Int) (now : Nat) (w : World) : World :=
  match w.netState with
  | .netloopRestart => restart now { w with netRestarted := true }
  | .netloopSuccess => leave 0 (netCleanupLoop w)
  | .netloopFail => leave ret (netCleanupLoop w)
  | .netloopContinue => { w with phase := .top }

/-- The end of an iteration: `net_start_again` after a failure, then the `switch`. -/
def endIteration (second : StartAgain) (now : Nat) (w : World) : World :=
  if w.netState = .netloopFail then dispatch (netStartAgain second w).1 now (netStartAgain second w).2
  else dispatch 0 now w

/-- The rest of an iteration of the reception loop after `eth_rx`. `first` and `second` are for
a restart from the timeout and for the one that follows a failure. -/
def poll (ctrlc expired : Bool) (first second : StartAgain) (now : Nat) (w : World) : World :=
  if ctrlc then leave (-eintr) (netCleanupLoop w)
  else endIteration second now (if expired then runTimeHandler first w else w)

/-- `automac_init`, where `ticks` is the timer count that seeds the generator. -/
def automacInit (card : Nat) (ticks : UInt32) (fuel : Nat) (w : World) : World :=
  let w := { w with
    macreceived := 0
    requiredMacaddr := if card = nvrx1602 then 2 else w.requiredMacaddr
    grants := []
    saves := []
    sent := [] }
  match setenvironment fuel (setrandomnumberseed ticks w.prng) w.env with
  | none => { w with phase := .hung }
  | some (prng, env) => { w with prng := prng, env := env }

/-- `net_loop(MATRIX_AUTOMAC)` up to the reception loop. -/
def netLoop (card : Nat) (ticks : UInt32) (fuel : Nat) (ethInit : EthInit) (now : Nat) (w : World) : World :=
  let w := automacInit card ticks fuel { w with netRestarted := false, netDevExists := false, netTryCount := 1 }
  if w.phase = .hung then w
  else
    let w := { w with env := ethInit.calls.run w.env }
    if ethInit.ret < 0 then leave ethInit.ret w else restart now w

/-- The checks of `do_automac` before its loop; `card` is the card type. -/
def doAutomac (card : Nat) (w : World) : World :=
  if card = nvrx1602 then
    if (w.env .ethaddr).isSome ∧ (w.env .eth1addr).isSome then { w with phase := .returned }
    else { w with phase := .attempt }
  else if (w.env .ethaddr).isSome then { w with phase := .returned }
  else { w with phase := .attempt }

/-- What can happen next, with what it reads from outside. -/
inductive NetOp
  | doAutomac (card : Nat)
  | netLoop (card : Nat) (ticks : UInt32) (fuel : Nat) (ethInit : EthInit) (now : Nat)
  | deliver (p : Packet) (now : Nat)
  | poll (ctrlc expired : Bool) (first second : StartAgain) (now : Nat)

def World.inLoop (w : World) : Prop := w.phase = .top ∨ w.phase = .receiving

instance (w : World) : Decidable w.inLoop := inferInstanceAs (Decidable (_ ∨ _))

/-- An operation that cannot happen where the command stands changes nothing. -/
def netStep (w : World) : NetOp → World
  | .doAutomac card => if w.phase = .command ∨ w.phase = .returned then doAutomac card w else w
  | .netLoop card ticks fuel ethInit now => if w.phase = .attempt then netLoop card ticks fuel ethInit now w else w
  | .deliver p now =>
    if w.inLoop then
      match w.udpHandler with
      | .dummyHandler => { w with phase := .receiving }
      | .autoMacHandler => autoMacHandler p now { w with phase := .receiving }
    else w
  | .poll ctrlc expired first second now => if w.inLoop then poll ctrlc expired first second now w else w

def bootWorld (env : Env) : World where
  phase := .command
  autoMacServerPort := 0
  autoMacOurPort := 0
  autoMacTimeoutCount := 0
  autoMacState := .unset
  transactionId := 0
  prng := ⟨0, 0, 0⟩
  macreceived := 0
  requiredMacaddr := 1
  retrycnt := 0
  netState := .netloopContinue
  timeHandler := none
  udpHandler := .dummyHandler
  netTryCount := 0
  netRestarted := false
  netDevExists := false
  netRestartWrap := false
  env := env
  sent := []
  grants := []
  saves := []

def netRun (env : Env) (ops : List NetOp) : World := ops.foldl netStep (bootWorld env)

end NvrxFirmware.Automac
