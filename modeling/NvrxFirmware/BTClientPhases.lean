import NvrxFirmware.BTClientModel

namespace NvrxFirmware.BTClient

variable {w : World}

def Delivered.reports (d : Delivered) (name : List UInt8) (addr : BdAddr) : Bool :=
  match d.event with
  | .remoteDeviceFound deviceName a => cString deviceName = cString name && a = addr
  | _ => false

def Delivered.brings (d : Delivered) (bytes : List UInt8) : Bool :=
  match d.event with
  | .readResponse handle value => handle = d.readRandomHandle && value.length = 37 && randomOf value = bytes
  | _ => false

def Delivered.tells (d : Delivered) (status : UInt8) : Bool :=
  match d.event with
  | .readResponse handle value => handle = d.readStatusHandle && value.length = 6 && statusOf value = status
  | _ => false

/-- A device whose whole name is `DeviceName` was found at this address in this round. -/
def Reported (w : World) (addr : BdAddr) : Prop := ∃ d ∈ w.round, d.reports w.state.deviceName addr = true

def Connected (w : World) : Prop := ∃ d ∈ w.round, d.event = .gattConnected

def RandomReceived (w : World) (bytes : List UInt8) : Prop := ∃ d ∈ w.round, d.brings bytes = true

def StatusReceived (w : World) (status : UInt8) : Prop := ∃ d ∈ w.round, d.tells status = true

/-- What must have happened in the round by the time `main` is about to act on it. -/
structure PhaseOrder (w : World) : Prop where
  connects : w.pc = .connectWithRemoteDevice → Reported w w.state.remoteBDAddr
  queries : w.pc = .queryRemoteDeviceServices ∨ w.pc = .queryParsedServices → Connected w
  decrypts : w.pc = .decryptRandom → RandomReceived w w.state.encRandomNo
  acts : w.pc = .switchStatus ∨ w.pc = .checkBusy → StatusReceived w w.state.userStatus

def sets (s : ClientState) : Event → Bool
  | .scanStarted => false
  | .scanStopped | .gattConnected => true
  | .remoteDeviceFound deviceName _ => s.matchesName deviceName
  | .remoteDevicePropertiesChanged leServicesState leServicesKnown => leServicesState && leServicesKnown
  | .readResponse handle value => s.isRandom handle value || s.isStatus handle value

inductive Fact
  | nothing
  | device
  | connection
  | random
  | status
  | busy
  | never

def Holds (w : World) : Fact → Prop
  | .nothing => True
  | .device => Reported w w.state.remoteBDAddr
  | .connection => Connected w
  | .random => RandomReceived w w.state.encRandomNo
  | .status => StatusReceived w w.state.userStatus
  | .busy => w.state.userStatus = respDeviceBusy
  | .never => False

/-- What a raised flag stands for at each place in the loop. Past the last
wait it stays up for the next round, unless `main` asks for the status again. -/
def Pc.raised : Pc → Fact
  | .scanf | .disconnect => .never
  | .startDeviceScan | .spin .scan => .device
  | .connectWithRemoteDevice | .spin .connect => .connection
  | .queryParsedServices | .readRandom | .spin .random => .random
  | .decryptRandom | .writeRequest | .readStatus | .spin .status => .status
  | .switchStatus | .checkBusy => .busy
  | _ => .nothing

/-- What the waits passed so far have brought, as long as `main` is still going to act on it. -/
def Pc.passed : Pc → Fact
  | .clear .scan | .connectWithRemoteDevice => .device
  | .clear .connect | .queryRemoteDeviceServices | .spin .services | .clear .services | .queryParsedServices =>
    .connection
  | .clear .random | .decryptRandom => .random
  | .clear .status | .switchStatus | .checkBusy => .status
  | _ => .nothing

/-- The fact holds once the event is delivered: the event brings it, or it held and the event leaves it. -/
def Finds (w : World) (e : Event) : Fact → Prop
  | .nothing => True
  | .device =>
    match e with
    | .remoteDeviceFound deviceName addr =>
      if w.state.matchesName deviceName then cString deviceName = cString w.state.deviceName ∨ Reported w addr
      else Reported w w.state.remoteBDAddr
    | _ => Reported w w.state.remoteBDAddr
  | .connection => e = .gattConnected ∨ Connected w
  | .random =>
    match e with
    | .readResponse handle value => w.state.isRandom handle value = true ∨ RandomReceived w w.state.encRandomNo
    | _ => RandomReceived w w.state.encRandomNo
  | .status =>
    match e with
    | .readResponse handle value => w.state.isStatus handle value = true ∨ StatusReceived w w.state.userStatus
    | _ => StatusReceived w w.state.userStatus
  | .busy =>
    match e with
    | .readResponse handle value =>
      if w.state.isStatus handle value then statusOf value = respDeviceBusy else w.state.userStatus = respDeviceBusy
    | _ => w.state.userStatus = respDeviceBusy
  | .never => False

/-- An event that raises the flag answers the wait that the flag will end, or finds it
answered, and takes nothing away that `main` is about to act on. -/
def Orderly (w : World) : BtOp → Prop
  | .main _ => True
  | .deliver e => sets w.state e = true → Finds w e w.pc.raised ∧ Finds w e w.pc.passed

structure InPhase (w : World) : Prop where
  raised : w.state.goAheadF = true → Holds w w.pc.raised
  passed : Holds w w.pc.passed

theorem InPhase.phaseOrder (h : InPhase w) : PhaseOrder w := by
  have passed := h.passed
  constructor
  · intro hp
    rwa [hp] at passed
  · intro hp
    rcases hp with hp | hp <;> rwa [hp] at passed
  · intro hp
    rwa [hp] at passed
  · intro hp
    rcases hp with hp | hp <;> rwa [hp] at passed

end NvrxFirmware.BTClient
