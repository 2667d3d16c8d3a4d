import NvrxFirmware.TestAppStore
import NvrxFirmware.Runs

namespace NvrxFirmware.TestApp

/-- The program's flags and timers, and its attribute store. -/
structure AppState where
  currentRemoteBdAddr : BdAddr
  btAdvertised : Bool
  btConnected : Bool
  btReadReqTimerF : Bool
  sysTick : UInt32
  prevSysTick : UInt32
  receiveDone : Bool
  btTimerValue : UInt32
  startAdvtF : Bool
  store : Store

/-- `GetSysTick`, where `none` is a failing `clock_gettime` and `some` its milliseconds. -/
def getSysTick (clock : Option Nat) (s : AppState) : UInt32 × AppState :=
  match clock with
  | some currMsecCnt =>
    let sysTick := UInt32.ofNat (currMsecCnt % 0xFFFFFFFF)
    (sysTick, { s with sysTick := sysTick })
  | none => (s.sysTick, s)

def startBtAdvertisement (result : Int) (s : AppState) : AppState :=
  if result = 0 then { s with btAdvertised := true, startAdvtF := false }
  else { s with btAdvertised := false }

def clearWriteCharCommonBuff (s : AppState) : AppState := { s with receiveDone := false }

def disconnectRemoteDevice (s : AppState) : AppState × List Call :=
  (clearWriteCharCommonBuff { s with btConnected := false }, [.disconnectRemoteDevice s.currentRemoteBdAddr])

def runBluetoothTask (s : AppState) : AppState × List Call :=
  if s.receiveDone then
    ({ clearWriteCharCommonBuff s with btReadReqTimerF := true },
      [.sendHandleValueNotification s.store.serviceID s.currentRemoteBdAddr readStsRespBytes])
  else (s, [])

def endSession (clock : Option Nat) (s : AppState) : AppState × List Call :=
  let (tick, s) := getSysTick clock s
  let (s, calls) := disconnectRemoteDevice { s with prevSysTick := tick, startAdvtF := true }
  ({ s with btReadReqTimerF := false }, calls)

def retryAdvertisement (clock : Option Nat) (result : Int) (s : AppState) : AppState × List Call :=
  let (tick, s) := getSysTick clock s
  (startBtAdvertisement result { s with prevSysTick := tick }, [.startAdvertising])

def sessionTimer (s : AppState) : UInt32 := if s.btReadReqTimerF then 1000 else 10000

/-- The body of the loop of `main`, before `RunBluetoothTask`. Each reading of the clock is an input. -/
def checkTimers (clock₁ clock₂ : Option Nat) (result : Int) (s : AppState) : AppState × List Call :=
  if s.btConnected then
    let (tick, s) := getSysTick clock₁ { s with btTimerValue := sessionTimer s }
    if s.btTimerValue ≤ tick - s.prevSysTick then endSession clock₂ s else (s, [])
  else if s.startAdvtF then
    let (tick, s) := getSysTick clock₁ s
    if 10000 ≤ tick - s.prevSysTick then retryAdvertisement clock₂ result s else (s, [])
  else (s, [])

def mainIteration (clock₁ clock₂ : Option Nat) (result : Int) (s : AppState) : AppState × List Call :=
  let (s, calls) := checkTimers clock₁ clock₂ result s
  let (s, more) := runBluetoothTask s
  (s, calls ++ more)

/-- An iteration of `main` and the events that the two callbacks act on. Where a
callback calls `DEVM_StartAdvertising`, the event carries the result. -/
inductive AppOp
  | mainIteration (clock₁ clock₂ : Option Nat) (result : Int)
  | localDevicePropertiesChanged (connectableMode : Bool) (result : Int)
  | deviceAdvertisingStarted
  | deviceAdvertisingStopped
  | advertisingTimeout (result : Int)
  | gattConnected (remoteDeviceAddress : BdAddr) (clock : Option Nat)
  | gattDisconnected (result : Int)
  | gattConnectionMTUUpdate
  | gattWriteRequest (req : WriteRequest) (mutexFree allocates : Bool)
  | gattReadRequest (req : ReadRequest) (mutexFree : Bool) (clock : Option Nat)

def appStep (s : AppState) : AppOp → AppState × List Call
  | .mainIteration clock₁ clock₂ result => mainIteration clock₁ clock₂ result s
  | .localDevicePropertiesChanged connectableMode result =>
    if connectableMode = false then (startBtAdvertisement result s, [.startAdvertising]) else (s, [])
  | .deviceAdvertisingStarted => ({ s with btAdvertised := true }, [])
  | .deviceAdvertisingStopped => ({ s with btAdvertised := false }, [])
  | .advertisingTimeout result => (startBtAdvertisement result s, [.startAdvertising])
  | .gattConnected addr clock =>
    let s := { s with
      currentRemoteBdAddr := addr, btConnected := true, btAdvertised := false, btReadReqTimerF := false }
    let (tick, s) := getSysTick clock s
    ({ s with prevSysTick := tick }, [])
  | .gattDisconnected result =>
    (startBtAdvertisement result (clearWriteCharCommonBuff { s with btConnected := false }), [.startAdvertising])
  | .gattConnectionMTUUpdate => ({ s with btConnected := true, btAdvertised := false }, [])
  | .gattWriteRequest req mutexFree allocates =>
    let (store, receiveDone, calls) := processWriteRequestEvent req mutexFree allocates s.receiveDone s.store
    ({ s with btConnected := true, btAdvertised := false, store := store, receiveDone := receiveDone }, calls)
  | .gattReadRequest req mutexFree clock =>
    let s := { s with btConnected := true, btAdvertised := false }
    let calls := processReadRequestEvent req mutexFree s.store
    if req.attributeOffset = readStatusCharOffset then
      let (tick, s) := getSysTick clock s
      ({ s with prevSysTick := tick, btReadReqTimerF := true }, calls)
    else (s, calls)

def appNext (s : AppState) (op : AppOp) : AppState := (appStep s op).1

/-- The program when its main loop starts, for any service id that it will register. -/
def bootState (serviceID : Nat) (garbage : Nat → Nat → UInt8) : AppState where
  currentRemoteBdAddr := 0
  btAdvertised := false
  btConnected := false
  btReadReqTimerF := false
  sysTick := 0
  prevSysTick := 0
  receiveDone := false
  btTimerValue := 0
  startAdvtF := false
  store := initialStore serviceID garbage

end NvrxFirmware.TestApp
