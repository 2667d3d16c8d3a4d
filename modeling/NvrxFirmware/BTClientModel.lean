import NvrxFirmware.Runs

namespace NvrxFirmware.BTClient

abbrev BdAddr := BitVec 48

/-- The events that the two callbacks act on, with what they read of them. -/
inductive Event
  | scanStarted
  | scanStopped
  | remoteDeviceFound (deviceName : List UInt8) (addr : BdAddr)
  | remoteDevicePropertiesChanged (leServicesState leServicesKnown : Bool)
  | gattConnected
  | readResponse (handle : Nat) (value : List UInt8)
  deriving DecidableEq, Repr

/-- The globals that `main` shares with the callbacks. -/
structure ClientState where
  deviceName : List UInt8
  writeCharHandle : Nat
  readRandomHandle : Nat
  readStatusHandle : Nat
  encRandomNo : List UInt8
  userStatus : UInt8
  remoteBDAddr : BdAddr
  goAheadF : Bool

def respDeviceBusy : UInt8 := 3

def cString (s : List UInt8) : List UInt8 := s.takeWhile (· ≠ 0)

/-- `strncmp(a, b, n) == 0`, where a string reads as zeros past its end. -/
def strncmpEq (a b : List UInt8) : Nat → Bool
  | 0 => true
  | n + 1 => a.headD 0 = b.headD 0 && (a.headD 0 = 0 || strncmpEq a.tail b.tail n)

/-- The test of `detRemoteDeviceFound`; `deviceName` holds `DeviceNameLength` characters. -/
def ClientState.matchesName (s : ClientState) (deviceName : List UInt8) : Bool :=
  0 < deviceName.length && strncmpEq s.deviceName deviceName deviceName.length

def ClientState.isRandom (s : ClientState) (handle : Nat) (value : List UInt8) : Bool :=
  handle = s.readRandomHandle && value.length = 37

def ClientState.isStatus (s : ClientState) (handle : Nat) (value : List UInt8) : Bool :=
  handle = s.readStatusHandle && value.length = 6

def randomOf (value : List UInt8) : List UInt8 := (value.drop 5).take 32

def statusOf (value : List UInt8) : UInt8 := value.getD 5 0

def readResponse (handle : Nat) (value : List UInt8) (s : ClientState) : ClientState :=
  let s := if s.isRandom handle value then { s with encRandomNo := randomOf value, goAheadF := true } else s
  if s.isStatus handle value then { s with userStatus := statusOf value, goAheadF := true } else s

/-- `DEVM_Event_Callback` and `GATM_Event_Callback`. -/
def eventCallback (s : ClientState) : Event → ClientState
  | .scanStarted => s
  | .scanStopped => { s with goAheadF := true }
  | .remoteDeviceFound deviceName addr =>
    if s.matchesName deviceName then { s with remoteBDAddr := addr, goAheadF := true } else s
  | .remoteDevicePropertiesChanged leServicesState leServicesKnown =>
    if leServicesState && leServicesKnown then { s with goAheadF := true } else s
  | .gattConnected => { s with goAheadF := true }
  | .readResponse handle value => readResponse handle value s

/-- `DisplayParsedGATTServiceData` keeps the handles of the first three characteristics of each service. -/
def fillHandles (s : ClientState) (characteristics : List Nat) : ClientState :=
  { s with
    writeCharHandle := characteristics.getD 0 s.writeCharHandle
    readRandomHandle := characteristics.getD 1 s.readRandomHandle
    readStatusHandle := characteristics.getD 2 s.readStatusHandle }

inductive Wait
  | scan
  | connect
  | services
  | random
  | status
  deriving DecidableEq, Repr

/-- Where `main` stands: before a call, in `while(GoAheadF == 0);`, or before the `GoAheadF = 0;` after it. -/
inductive Pc
  | scanf
  | startDeviceScan
  | spin (w : Wait)
  | clear (w : Wait)
  | connectWithRemoteDevice
  | queryRemoteDeviceServices
  | queryParsedServices
  | readRandom
  | decryptRandom
  | writeRequest
  | readStatus
  | switchStatus
  | checkBusy
  | disconnect
  | exited
  deriving DecidableEq, Repr

def Wait.next : Wait → Pc
  | .scan => .connectWithRemoteDevice
  | .connect => .queryRemoteDeviceServices
  | .services => .queryParsedServices
  | .random => .decryptRandom
  | .status => .switchStatus

/-- An event of the present round, with the handles at its delivery. -/
structure Delivered where
  event : Event
  readRandomHandle : Nat
  readStatusHandle : Nat

/-- The program together with the events delivered since the last user id was entered. -/
structure World where
  state : ClientState
  pc : Pc
  round : List Delivered

/-- What the call that `main` makes next returns: the user id, a result, and
the services as lists of characteristic handles unless their conversion fails. -/
structure Reply where
  userid : String := ""
  result : Int := 0
  services : Option (List (List Nat)) := none

/-- One step of the loop of `main`. What it writes to the device is left out. -/
def mainStep (reply : Reply) (w : World) : World :=
  match w.pc with
  | .scanf =>
    if reply.userid = "exit" then { w with pc := .exited } else { w with pc := .startDeviceScan, round := [] }
  | .startDeviceScan => { w with pc := if 0 ≤ reply.result then .spin .scan else .exited }
  | .spin wait => if w.state.goAheadF then { w with pc := .clear wait } else w
  | .clear wait => { w with state := { w.state with goAheadF := false }, pc := wait.next }
  | .connectWithRemoteDevice => { w with pc := if reply.result < 0 then .exited else .spin .connect }
  | .queryRemoteDeviceServices => { w with pc := if reply.result < 0 then .exited else .spin .services }
  | .queryParsedServices =>
    if 0 ≤ reply.result then
      { w with state := (reply.services.getD []).foldl fillHandles w.state, pc := .readRandom }
    else { w with pc := .exited }
  | .readRandom => { w with pc := if 0 ≤ reply.result then .spin .random else .exited }
  | .decryptRandom => { w with pc := .writeRequest }
  | .writeRequest => { w with pc := .readStatus }
  | .readStatus => { w with pc := .spin .status }
  | .switchStatus => { w with pc := .checkBusy }
  | .checkBusy => { w with pc := if w.state.userStatus = respDeviceBusy then .readStatus else .disconnect }
  | .disconnect => { w with pc := .scanf }
  | .exited => w

inductive BtOp
  | main (reply : Reply)
  | deliver (event : Event)

def deliver (event : Event) (w : World) : World :=
  { w with
    state := eventCallback w.state event
    round := w.round ++ [⟨event, w.state.readRandomHandle, w.state.readStatusHandle⟩] }

def btStep (w : World) : BtOp → World
  | .main reply => mainStep reply w
  | .deliver event => deliver event w

def startWorld (s : ClientState) : World where
  state := { s with goAheadF := false }
  pc := .scanf
  round := []

end NvrxFirmware.BTClient
