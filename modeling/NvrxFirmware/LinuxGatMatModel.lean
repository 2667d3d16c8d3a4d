import NvrxFirmware.CharArrays
import NvrxFirmware.Heaps
import NvrxFirmware.TestAppStore

namespace NvrxFirmware.LinuxGatMat

open TestApp (AttributeType AttError Call WriteRequest ReadRequest errorResponse)

/-- The memory that a `Value` field can point to: the array `ReadData`, or a block from `BTPS_AllocateMemory`. -/
inductive Pointer
  | readData
  | block (a : Nat)
  deriving DecidableEq, Repr

inductive Attribute
  | srv3Attr1
  | srv3Attr2
  deriving DecidableEq, Repr

structure CharacteristicInfo where
  allocatedValue : Bool
  maximumValueLength : Nat
  valueLength : Nat
  value : Option Pointer
  deriving DecidableEq, Repr

structure AttributeInfo where
  attributeType : AttributeType
  attributeOffset : Nat
  characteristic : Attribute
  deriving DecidableEq, Repr

def srvTable3 : List AttributeInfo :=
  [⟨.atCharacteristic, 1, .srv3Attr1⟩,
   ⟨.atCharacteristic, 3, .srv3Attr2⟩]

/-- The globals, the one service of `ServiceTable`, and the allocated blocks with what has been copied into them. -/
structure MatState where
  readData : CharArray 256
  bFirstTime : Bool
  readDataLength : Nat
  serviceID : Nat
  info : Attribute → CharacteristicInfo
  heap : Heap (List UInt8)

/-- The program after `RegisterService` has obtained a service id. -/
def bootState (serviceID : Nat) : MatState where
  readData := .zeros 256 (Nat.succ_pos 255)
  bFirstTime := false
  readDataLength := 0
  serviceID := serviceID
  info := fun _ => ⟨true, 512, 0, none⟩
  heap := .empty

def MatState.setInfo (s : MatState) (attr : Attribute) (info : CharacteristicInfo) : MatState :=
  { s with info := Function.update s.info attr info }

def searchServiceListByOffset (s : MatState) (serviceID attributeOffset : Nat) : Option AttributeInfo :=
  if serviceID ≠ 0 ∧ attributeOffset ≠ 0 then
    if s.serviceID = serviceID then srvTable3.find? fun a => a.attributeOffset = attributeOffset else none
  else none

/-- An array of the program is not a block that could be freed. -/
def btpsFreeMemory (p : Pointer) (heap : Heap (List UInt8)) : Option (Heap (List UInt8)) :=
  match p with
  | .readData => none
  | .block a => heap.free a

/-- `ProcessWriteRequestEvent`: free any previously existing buffer. -/
def releaseValue (attr : Attribute) (s : MatState) : Option MatState :=
  match s.info attr with
  | { allocatedValue := true, value := some p, maximumValueLength, .. } =>
    (btpsFreeMemory p s.heap).map fun heap =>
      { s with heap := heap }.setInfo attr ⟨false, maximumValueLength, 0, none⟩
  | _ => some s

/-- `ProcessWriteRequestEvent`: allocate a worst case buffer and store the data. A failed
allocation has assigned its null result to the value pointer already. -/
def storeValue (attr : Attribute) (data : List UInt8) (allocates : Bool) (s : MatState) :
    Option AttError × MatState :=
  if data.length = 0 then
    (none, s.setInfo attr { s.info attr with allocatedValue := false, valueLength := 0, value := none })
  else if allocates then
    let (a, heap) := s.heap.malloc data
    (none, { s with heap := heap }.setInfo attr
      { s.info attr with allocatedValue := true, valueLength := data.length, value := some (.block a) })
  else (some .insufficientResources, s.setInfo attr { s.info attr with value := none })

/-- `mutexFree` is the result of `BTPS_WaitMutex`, `allocates` whether `BTPS_AllocateMemory` succeeds. -/
def processWriteRequestEvent (req : WriteRequest) (mutexFree allocates : Bool) (s : MatState) :
    Option (MatState × List Call) :=
  if mutexFree then
    match searchServiceListByOffset s req.serviceID req.attributeOffset with
    | some a =>
      if a.attributeType = .atCharacteristic ∨ a.attributeType = .atDescriptor then
        if req.data.length ≤ (s.info a.characteristic).maximumValueLength then
          (releaseValue a.characteristic s).map fun s =>
            let (errorCode, s) := storeValue a.characteristic req.data allocates s
            let answer := if errorCode = none ∧ req.requestID ≠ 0 then [.writeResponse req.requestID] else []
            (s, answer ++ errorResponse req.requestID errorCode)
        else some (s, errorResponse req.requestID (some .invalidAttributeValueLength))
      else some (s, errorResponse req.requestID (some .invalidHandle))
    | none => some (s, errorResponse req.requestID (some .invalidHandle))
  else some (s, errorResponse req.requestID (some .unlikelyError))

/-- The bytes that `Value` and `ValueLength` describe, from the offset on. -/
def valueBytes (s : MatState) (attr : Attribute) (offset : Nat) : List UInt8 :=
  let length := (s.info attr).valueLength - offset
  match (s.info attr).value with
  | some .readData => (s.readData.bytes.drop offset).take length
  | some (.block a) => (((s.heap.block a).getD []).drop offset).take length
  | none => []

def processReadRequestEvent (req : ReadRequest) (mutexFree : Bool) (s : MatState) : List Call :=
  if mutexFree then
    match searchServiceListByOffset s req.serviceID req.attributeOffset with
    | some a =>
      if a.attributeType = .atCharacteristic ∨ a.attributeType = .atDescriptor then
        if req.attributeValueOffset ≤ (s.info a.characteristic).valueLength then
          [.readResponse req.requestID (valueBytes s a.characteristic req.attributeValueOffset)]
        else [.errorResponse req.requestID .invalidOffset]
      else [.errorResponse req.requestID .invalidHandle]
    | none => [.errorResponse req.requestID .invalidHandle]
  else [.errorResponse req.requestID .unlikelyError]

/-- `DumpData`; what it prints into its own buffer is not used. -/
def dumpData (data : List UInt8) (s : MatState) : Option MatState :=
  (s.readData.strncat data data.length).map fun readData =>
    { s with readData := readData, readDataLength := readData.strlen }

/-- A write request with what the mutex and the allocation answer. -/
structure Write where
  req : WriteRequest
  mutexFree : Bool
  allocates : Bool

/-- `GATM_Event_Callback` for a write request. -/
def gattWriteRequest (w : Write) (s : MatState) : Option (MatState × List Call) :=
  let s := if s.bFirstTime then s else { s with readData := .zeros 256 (Nat.succ_pos 255), bFirstTime := true }
  match dumpData w.req.data s with
  | none => none
  | some s =>
    processWriteRequestEvent w.req w.mutexFree w.allocates
      (s.setInfo .srv3Attr2 { s.info .srv3Attr2 with valueLength := s.readDataLength, value := some .readData })

/-- The events that the two callbacks act on. -/
inductive MatOp
  | deviceAdvertisingStarted
  | gattWriteRequest (w : Write)
  | gattReadRequest (req : ReadRequest) (mutexFree : Bool)

/-- One event, unless it accesses memory that it may not. -/
def matStep (s : MatState) : MatOp → Option (MatState × List Call)
  | .deviceAdvertisingStarted => some ({ s with bFirstTime := false }, [])
  | .gattWriteRequest w => gattWriteRequest w s
  | .gattReadRequest req mutexFree => some (s, processReadRequestEvent req mutexFree s)

def matNext (s : MatState) (op : MatOp) : Option MatState := (matStep s op).map Prod.fst

def matRun (s : MatState) (ops : List MatOp) : Option MatState := ops.foldlM matNext s

/-- The states that the program gets into. -/
def Reachable (s : MatState) : Prop := ∃ serviceID ops, matRun (bootState serviceID) ops = some s

end NvrxFirmware.LinuxGatMat
