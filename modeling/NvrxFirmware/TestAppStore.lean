import Mathlib.Data.List.Basic
import Mathlib.Logic.Function.Basic

namespace NvrxFirmware.TestApp

/-- The memory that a `value` field can point to: one of the two static
responses, or a block from `BTPS_AllocateMemory`. -/
inductive Buffer
  | readRandResp
  | readStsResp
  | heap (n : Nat)
  deriving DecidableEq, Repr

structure CharecteristicInfo where
  allocatedValue : Bool
  maximumValueLength : Nat
  valueLength : Nat
  value : Option Buffer
  deriving DecidableEq, Repr

inductive Attribute
  | writeAcceessReqCharAttr
  | readRandomKeyCharAttr
  | readStatusCharAttr
  deriving DecidableEq, Repr

inductive AttributeType
  | atInclude
  | atCharacteristic
  | atDescriptor
  deriving DecidableEq, Repr

structure AttributeInfo where
  attributeType : AttributeType
  attributeOffset : Nat
  characteristic : Attribute

def writeAccessReqCharOffset : Nat := 1
def readRandomKeyCharOffset : Nat := 3
def readStatusCharOffset : Nat := 5

def attrList : List AttributeInfo :=
  [⟨.atCharacteristic, writeAccessReqCharOffset, .writeAcceessReqCharAttr⟩,
   ⟨.atCharacteristic, readRandomKeyCharOffset, .readRandomKeyCharAttr⟩,
   ⟨.atCharacteristic, readStatusCharOffset, .readStatusCharAttr⟩]

def readRandRespBytes : List UInt8 := [2, 0, 1, 32] ++ List.replicate 33 0
def readStsRespBytes : List UInt8 := [3, 0, 2, 1, 0, 1, 0, 1, 0]

/-- The one registered service with its attributes, the memory they point to,
and the blocks that are allocated. -/
structure Store where
  serviceID : Nat
  info : Attribute → CharecteristicInfo
  memory : Buffer → Nat → UInt8
  live : List Nat
  nextBuffer : Nat

def initialInfo : Attribute → CharecteristicInfo
  | .writeAcceessReqCharAttr => ⟨true, 512, 0, none⟩
  | .readRandomKeyCharAttr => ⟨true, 512, readRandRespBytes.length, some .readRandResp⟩
  | .readStatusCharAttr => ⟨true, 512, readStsRespBytes.length, some .readStsResp⟩

/-- The store after `RegisterService` has obtained a service id. Heap blocks hold arbitrary bytes. -/
def initialStore (serviceID : Nat) (garbage : Nat → Nat → UInt8) : Store where
  serviceID := serviceID
  info := initialInfo
  memory
    | .readRandResp => fun i => readRandRespBytes.getD i 0
    | .readStsResp => fun i => readStsRespBytes.getD i 0
    | .heap n => garbage n
  live := []
  nextBuffer := 0

def Store.setInfo (s : Store) (attr : Attribute) (info : CharecteristicInfo) : Store :=
  { s with info := Function.update s.info attr info }

inductive AttError
  | invalidHandle
  | invalidOffset
  | invalidAttributeValueLength
  | unlikelyError
  | insufficientResources
  deriving DecidableEq, Repr

abbrev BdAddr := BitVec 48

inductive Call
  | freeMemory (b : Buffer)
  | writeResponse (requestID : Nat)
  | readResponse (requestID : Nat) (value : List UInt8)
  | errorResponse (requestID : Nat) (code : AttError)
  | sendHandleValueNotification (serviceID : Nat) (addr : BdAddr) (value : List UInt8)
  | disconnectRemoteDevice (addr : BdAddr)
  | startAdvertising
  deriving DecidableEq

structure WriteRequest where
  requestID : Nat
  serviceID : Nat
  attributeOffset : Nat
  data : List UInt8

structure ReadRequest where
  requestID : Nat
  serviceID : Nat
  attributeOffset : Nat
  attributeValueOffset : Nat

def searchServiceListByOffset (s : Store) (serviceID attributeOffset : Nat) : Option AttributeInfo :=
  if serviceID ≠ 0 ∧ attributeOffset ≠ 0 then
    if s.serviceID = serviceID then attrList.find? fun a => a.attributeOffset = attributeOffset else none
  else none

def btpsFreeMemory (b : Buffer) (s : Store) : Store :=
  match b with
  | .heap n => { s with live := s.live.erase n }
  | _ => s

/-- `ProcessWriteRequestEvent`: free any previously existing buffer. -/
def releaseValue (attr : Attribute) (s : Store) : Store × List Call :=
  match s.info attr with
  | { allocatedValue := true, value := some b, maximumValueLength, .. } =>
    ((btpsFreeMemory b s).setInfo attr ⟨false, maximumValueLength, 0, none⟩, [.freeMemory b])
  | _ => (s, [])

/-- `ProcessWriteRequestEvent`: allocate a worst case buffer and store the data. A failed
allocation has assigned its null result to the value pointer already. -/
def storeValue (attr : Attribute) (data : List UInt8) (allocates receiveDone : Bool) (s : Store) :
    Option AttError × Store × Bool :=
  if data.length = 0 then
    (none, s.setInfo attr { s.info attr with allocatedValue := false, valueLength := 0, value := none }, receiveDone)
  else if allocates then
    let b := Buffer.heap s.nextBuffer
    let copied := fun i => data.getD i (s.memory b i)
    let s := { s with memory := Function.update s.memory b copied, live := s.nextBuffer :: s.live,
                      nextBuffer := s.nextBuffer + 1 }
    (none, s.setInfo attr { s.info attr with allocatedValue := true, valueLength := data.length, value := some b },
      true)
  else (some .insufficientResources, s.setInfo attr { s.info attr with value := none }, receiveDone)

def errorResponse (requestID : Nat) (errorCode : Option AttError) : List Call :=
  match errorCode with
  | some code => if requestID ≠ 0 then [.errorResponse requestID code] else []
  | none => []

/-- `mutexFree` is the result of `BTPS_WaitMutex`, `allocates` whether `BTPS_AllocateMemory` succeeds. -/
def processWriteRequestEvent (req : WriteRequest) (mutexFree allocates receiveDone : Bool) (s : Store) :
    Store × Bool × List Call :=
  if mutexFree then
    match searchServiceListByOffset s req.serviceID req.attributeOffset with
    | some a =>
      if a.attributeType = .atCharacteristic ∨ a.attributeType = .atDescriptor then
        if req.data.length ≤ (s.info a.characteristic).maximumValueLength then
          let (s, freed) := releaseValue a.characteristic s
          let (errorCode, s, receiveDone) := storeValue a.characteristic req.data allocates receiveDone s
          let answer := if errorCode = none ∧ req.requestID ≠ 0 then [.writeResponse req.requestID] else []
          (s, receiveDone, freed ++ answer ++ errorResponse req.requestID errorCode)
        else (s, receiveDone, errorResponse req.requestID (some .invalidAttributeValueLength))
      else (s, receiveDone, errorResponse req.requestID (some .invalidHandle))
    | none => (s, receiveDone, errorResponse req.requestID (some .invalidHandle))
  else (s, receiveDone, errorResponse req.requestID (some .unlikelyError))

def readBytes (s : Store) (b : Buffer) (offset length : Nat) : List UInt8 :=
  (List.range length).map fun i => s.memory b (offset + i)

def readValue (s : Store) (attr : Attribute) (offset : Nat) : Except AttError (List UInt8) :=
  let info := s.info attr
  if offset ≤ info.valueLength then
    match info.value with
    | some b => .ok (readBytes s b offset (info.valueLength - offset))
    | none => .ok []
  else .error .invalidOffset

/-- Unlike a write, a failed read is answered whatever the request id is. -/
def processReadRequestEvent (req : ReadRequest) (mutexFree : Bool) (s : Store) : List Call :=
  if mutexFree then
    match searchServiceListByOffset s req.serviceID req.attributeOffset with
    | some a =>
      if a.attributeType = .atCharacteristic ∨ a.attributeType = .atDescriptor then
        match readValue s a.characteristic req.attributeValueOffset with
        | .ok value => [.readResponse req.requestID value]
        | .error code => [.errorResponse req.requestID code]
      else [.errorResponse req.requestID .invalidHandle]
    | none => [.errorResponse req.requestID .invalidHandle]
  else [.errorResponse req.requestID .unlikelyError]

end NvrxFirmware.TestApp
