import NvrxFirmware.LinuxGatMatModel
import NvrxFirmware.Runs

namespace NvrxFirmware.LinuxGatMat

open TestApp (WriteRequest)

variable {s s' t : MatState} {w : Write}

/-- `Srv3Attr1` points to a block of its own if anywhere, and `Srv3Attr2` to `ReadData` with the length that it has. -/
structure Wf (s : MatState) : Prop where
  owned : ∀ p, (s.info .srv3Attr1).value = some p → ∃ a, p = .block a ∧ s.heap.Live a
  maximum : ∀ attr, (s.info attr).maximumValueLength = 512
  flagged : (s.info .srv3Attr2).allocatedValue = true
  counted : s.readDataLength = s.readData.strlen
  described : (s.info .srv3Attr2).valueLength = s.readDataLength
  pointed : (s.info .srv3Attr2).value = some .readData ∨ (s.info .srv3Attr2).value = none ∧ s.readDataLength = 0

/-- What a request for the other attribute leaves alone. -/
structure LeavesReadData (s s' : MatState) : Prop where
  readData : s'.readData = s.readData
  bFirstTime : s'.bFirstTime = s.bFirstTime
  readDataLength : s'.readDataLength = s.readDataLength
  serviceID : s'.serviceID = s.serviceID
  srv3Attr2 : s'.info .srv3Attr2 = s.info .srv3Attr2
  maximum : (s'.info .srv3Attr1).maximumValueLength = (s.info .srv3Attr1).maximumValueLength

theorem LeavesReadData.refl (s : MatState) : LeavesReadData s s := ⟨rfl, rfl, rfl, rfl, rfl, rfl⟩

theorem LeavesReadData.trans (h : LeavesReadData s t) (h' : LeavesReadData t s') : LeavesReadData s s' :=
  ⟨h'.readData.trans h.readData, h'.bFirstTime.trans h.bFirstTime, h'.readDataLength.trans h.readDataLength,
    h'.serviceID.trans h.serviceID, h'.srv3Attr2.trans h.srv3Attr2, h'.maximum.trans h.maximum⟩

theorem setInfo_leavesReadData {info : CharacteristicInfo} {heap : Heap (List UInt8)}
    (hmax : info.maximumValueLength = (s.info .srv3Attr1).maximumValueLength) :
    LeavesReadData s ({ s with heap := heap }.setInfo .srv3Attr1 info) :=
  ⟨rfl, rfl, rfl, rfl, rfl, hmax⟩

theorem Wf.of_leaves (h : Wf s) (hleaves : LeavesReadData s s')
    (howned : ∀ p, (s'.info .srv3Attr1).value = some p → ∃ a, p = .block a ∧ s'.heap.Live a) : Wf s' where
  owned := howned
  maximum
    | .srv3Attr1 => hleaves.maximum.trans (h.maximum _)
    | .srv3Attr2 => by rw [hleaves.srv3Attr2, h.maximum]
  flagged := by rw [hleaves.srv3Attr2, h.flagged]
  counted := by rw [hleaves.readDataLength, hleaves.readData, h.counted]
  described := by rw [hleaves.srv3Attr2, hleaves.readDataLength, h.described]
  pointed := by rw [hleaves.srv3Attr2, hleaves.readDataLength]; exact h.pointed

theorem releaseValue_srv3Attr1 (h : Wf s) : ∃ t, releaseValue .srv3Attr1 s = some t ∧ LeavesReadData s t := by
  unfold releaseValue
  split
  next maximumValueLength valueLength p hinfo =>
    obtain ⟨a, rfl, hlive⟩ := h.owned p (by rw [hinfo])
    obtain ⟨heap, hheap⟩ := hlive.exists_free
    refine ⟨_, congrArg (Option.map _) hheap, setInfo_leavesReadData ?_⟩
    rw [hinfo]
  next => exact ⟨s, rfl, .refl s⟩

theorem releaseValue_srv3Attr2 (hvalue : (s.info .srv3Attr2).value = some .readData)
    (hflag : (s.info .srv3Attr2).allocatedValue = true) : releaseValue .srv3Attr2 s = none := by
  unfold releaseValue
  split
  next maximumValueLength valueLength p hinfo =>
    rw [hinfo] at hvalue
    obtain rfl := Option.some.inj hvalue
    rfl
  next hother =>
    cases hinfo : s.info .srv3Attr2 with
    | mk allocatedValue maximumValueLength valueLength value =>
      rw [hinfo] at hvalue hflag
      obtain rfl := hvalue
      obtain rfl := hflag
      exact absurd hinfo (hother _ _ _)

theorem storeValue_srv3Attr1 (data : List UInt8) (allocates : Bool) (s : MatState) :
    LeavesReadData s (storeValue .srv3Attr1 data allocates s).2 ∧
      ∀ p, ((storeValue .srv3Attr1 data allocates s).2.info .srv3Attr1).value = some p →
        ∃ a, p = .block a ∧ (storeValue .srv3Attr1 data allocates s).2.heap.Live a := by
  unfold storeValue
  split
  · exact ⟨setInfo_leavesReadData rfl, fun p hp => by cases hp⟩
  · split
    · refine ⟨setInfo_leavesReadData rfl, fun p hp => ?_⟩
      obtain rfl := Option.some.inj hp
      exact ⟨_, rfl, Heap.malloc_live⟩
    · exact ⟨setInfo_leavesReadData rfl, fun p hp => by cases hp⟩

/-- The request stores its data in `Srv3Attr2`, after freeing what is there. -/
def ReplacesReadValue (serviceID : Nat) (w : Write) : Prop :=
  w.mutexFree = true ∧ w.req.serviceID ≠ 0 ∧ serviceID = w.req.serviceID ∧ w.req.attributeOffset = 3 ∧
    w.req.data.length ≤ 512

instance (serviceID : Nat) : DecidablePred (ReplacesReadValue serviceID) := fun _ =>
  inferInstanceAs (Decidable (_ ∧ _ ∧ _ ∧ _ ∧ _))

/-- What the search for an attribute finds. -/
inductive Found (s : MatState) (serviceID attributeOffset : Nat) : Option AttributeInfo → Prop
  | nothing : ¬(serviceID ≠ 0 ∧ s.serviceID = serviceID ∧ attributeOffset = 3) → Found s serviceID attributeOffset none
  | first : attributeOffset = 1 → Found s serviceID attributeOffset (some ⟨.atCharacteristic, 1, .srv3Attr1⟩)
  | second : serviceID ≠ 0 → s.serviceID = serviceID → attributeOffset = 3 →
      Found s serviceID attributeOffset (some ⟨.atCharacteristic, 3, .srv3Attr2⟩)

theorem searchServiceListByOffset_found (s : MatState) (serviceID attributeOffset : Nat) :
    Found s serviceID attributeOffset (searchServiceListByOffset s serviceID attributeOffset) := by
  unfold searchServiceListByOffset
  split
  next hvalid =>
    split
    next hid =>
      by_cases h1 : attributeOffset = 1
      · subst h1
        exact .first rfl
      · by_cases h3 : attributeOffset = 3
        · subst h3
          exact .second hvalid.1 hid rfl
        · have hnone : srvTable3.find? (fun a => a.attributeOffset = attributeOffset) = none := by
            simp [srvTable3, Ne.symm h1, Ne.symm h3]
          rw [hnone]
          exact .nothing fun h => h3 h.2.2
    next hid => exact .nothing fun h => hid h.2.1
  next hvalid =>
    refine .nothing fun h => hvalid ⟨h.1, ?_⟩
    rw [h.2.2]
    decide

/-- What a request does once `Srv3Attr2` points to `ReadData`. -/
inductive Processed (s : MatState) (w : Write) : Option (MatState × List TestApp.Call) → Prop
  | freed : ReplacesReadValue s.serviceID w → Processed s w none
  | kept (t : MatState) (calls : List TestApp.Call) : ¬ReplacesReadValue s.serviceID w → LeavesReadData s t → Wf t →
      Processed s w (some (t, calls))

theorem processWriteRequestEvent_processed (h : Wf s) (hvalue : (s.info .srv3Attr2).value = some .readData) (w : Write) :
    Processed s w (processWriteRequestEvent w.req w.mutexFree w.allocates s) := by
  unfold processWriteRequestEvent
  split
  next hmutex =>
    have hfound := searchServiceListByOffset_found s w.req.serviceID w.req.attributeOffset
    cases hsearch : searchServiceListByOffset s w.req.serviceID w.req.attributeOffset with
    | none =>
      rw [hsearch] at hfound
      cases hfound with
      | nothing hno =>
        refine .kept s _ ?_ (.refl s) h
        rintro ⟨-, hid, hsame, hoff, -⟩
        exact hno ⟨hid, hsame, hoff⟩
    | some a =>
      rw [hsearch] at hfound
      dsimp only
      cases hfound with
      | first hoff =>
        have hother : ¬ReplacesReadValue s.serviceID w := by
          rintro ⟨-, -, -, hoff', -⟩
          omega
        rw [if_pos (.inl rfl)]
        split
        next hfits =>
          obtain ⟨t, ht, hleaves⟩ := releaseValue_srv3Attr1 h
          obtain ⟨hstored, howned⟩ := storeValue_srv3Attr1 w.req.data w.allocates t
          rw [ht]
          exact .kept _ _ hother (hleaves.trans hstored) (h.of_leaves (hleaves.trans hstored) howned)
        next => exact .kept s _ hother (.refl s) h
      | second hid hsame hoff =>
        rw [if_pos (.inl rfl), h.maximum]
        split
        next hfits =>
          rw [releaseValue_srv3Attr2 hvalue h.flagged]
          exact .freed ⟨hmutex, hid, hsame, hoff, hfits⟩
        next hlong =>
          refine .kept s _ ?_ (.refl s) h
          rintro ⟨-, -, -, -, hfits⟩
          exact hlong hfits
  next hmutex =>
    refine .kept s _ ?_ (.refl s) h
    rintro ⟨hfree, -⟩
    exact hmutex hfree

/-- The string that the next write is appended to. The first write after advertising started clears the array. -/
def accumulated (s : MatState) : List UInt8 := if s.bFirstTime then s.readData.string else []

/-- What a write event does. -/
inductive Written (s : MatState) (w : Write) : Option (MatState × List TestApp.Call) → Prop
  | freed : ReplacesReadValue s.serviceID w → Written s w none
  | overran : 256 ≤ (accumulated s).length + (cString w.req.data).length → Written s w none
  | appended (t : MatState) (calls : List TestApp.Call) : ¬ReplacesReadValue s.serviceID w →
      t.serviceID = s.serviceID → t.bFirstTime = true → (t.info .srv3Attr2).value = some .readData →
      t.readData.string = accumulated s ++ cString w.req.data → Wf t → Written s w (some (t, calls))

/-- `Srv3Attr2` points to `ReadData` again after `DumpData`. -/
theorem Wf.pointed_again (h : Wf s) (array : CharArray 256) :
    Wf ({ s with readData := array, bFirstTime := true, readDataLength := array.strlen }.setInfo .srv3Attr2
      { s.info .srv3Attr2 with valueLength := array.strlen, value := some .readData }) where
  owned := h.owned
  maximum
    | .srv3Attr1 => h.maximum .srv3Attr1
    | .srv3Attr2 => h.maximum .srv3Attr2
  flagged := h.flagged
  counted := rfl
  described := rfl
  pointed := .inl rfl

theorem gattWriteRequest_written (h : Wf s) (w : Write) : Written s w (gattWriteRequest w s) := by
  unfold gattWriteRequest
  have hcleared : ∃ array : CharArray 256, array.string = accumulated s ∧
      (if s.bFirstTime then s else { s with readData := .zeros 256 (Nat.succ_pos 255), bFirstTime := true }) =
        { s with readData := array, bFirstTime := true } := by
    unfold accumulated
    split
    next hfirst =>
      refine ⟨s.readData, rfl, ?_⟩
      rw [← hfirst]
    next => exact ⟨_, CharArray.zeros_string _, rfl⟩
  obtain ⟨array, harray, heq⟩ := hcleared
  rw [heq]
  dsimp only [dumpData]
  cases hcat : array.strncat w.req.data w.req.data.length with
  | none =>
    apply Written.overran
    have hroom := CharArray.strncat_isSome_iff array w.req.data w.req.data.length
    rw [hcat, List.take_length, CharArray.strlen, harray] at hroom
    by_contra hlt
    exact Bool.false_ne_true (hroom.mpr (by omega))
  | some array' =>
    have hstring := CharArray.strncat_string hcat
    rw [List.take_length, harray] at hstring
    have hprocessed := processWriteRequestEvent_processed (h.pointed_again array') rfl w
    show Written s w (processWriteRequestEvent w.req w.mutexFree w.allocates _)
    cases hprocess : processWriteRequestEvent w.req w.mutexFree w.allocates _ with
    | none =>
      rw [hprocess] at hprocessed
      cases hprocessed with
      | freed hreplaces => exact .freed hreplaces
    | some result =>
      rw [hprocess] at hprocessed
      cases hprocessed with
      | kept t calls hkept hleaves hwf =>
        refine .appended t calls hkept hleaves.serviceID hleaves.bFirstTime ?_ ?_ hwf
        · rw [hleaves.srv3Attr2]
          rfl
        · rw [hleaves.readData]
          exact hstring

theorem bootState_wf (serviceID : Nat) : Wf (bootState serviceID) where
  owned := fun p hp => by cases hp
  maximum := fun _ => rfl
  flagged := rfl
  counted := by
    show 0 = (CharArray.zeros 256 (Nat.succ_pos 255)).string.length
    rw [CharArray.zeros_string]
    rfl
  described := rfl
  pointed := .inr ⟨rfl, rfl⟩

theorem Wf.restarted (h : Wf s) : Wf { s with bFirstTime := false } :=
  ⟨h.owned, h.maximum, h.flagged, h.counted, h.described, h.pointed⟩

theorem matNext_wf (h : Wf s) {op : MatOp} (hnext : matNext s op = some t) : Wf t := by
  obtain ⟨result, hstep, rfl⟩ := Option.map_eq_some_iff.mp hnext
  cases op with
  | deviceAdvertisingStarted =>
    obtain rfl := Option.some.inj hstep
    exact h.restarted
  | gattWriteRequest w =>
    have hwritten := gattWriteRequest_written h w
    rw [show gattWriteRequest w s = some result from hstep] at hwritten
    cases hwritten with
    | appended t calls _ _ _ _ _ hwf => exact hwf
  | gattReadRequest req mutexFree =>
    obtain rfl := Option.some.inj hstep
    exact h

theorem Reachable.wf (h : Reachable s) : Wf s := by
  obtain ⟨serviceID, ops, hrun⟩ := h
  exact foldlM_invariant (fun _ _ _ hs hnext => matNext_wf hs hnext) (bootState_wf serviceID) hrun

/-- The strings of the writes, one behind the other. -/
def strings (writes : List Write) : List UInt8 := (writes.map fun w => w.req.data).flatMap cString

/-- The run of these writes, one after the other. -/
def writeAll (s : MatState) (writes : List Write) : Option MatState := matRun s (writes.map .gattWriteRequest)

theorem writeAll_cons (w : Write) (writes : List Write) :
    writeAll s (w :: writes) = (matNext s (.gattWriteRequest w)).bind fun t => writeAll t writes := List.foldlM_cons ..

theorem writeAll_some (h : Wf s) {writes : List Write} (hrun : writeAll s writes = some t) :
    (∀ w ∈ writes, ¬ReplacesReadValue s.serviceID w) ∧ accumulated t = accumulated s ++ strings writes ∧
      (writes ≠ [] → t.bFirstTime = true) ∧ Wf t := by
  induction writes generalizing s with
  | nil =>
    obtain rfl := Option.some.inj hrun
    exact ⟨fun w hw => absurd hw List.not_mem_nil, (List.append_nil _).symm, fun hne => absurd rfl hne, h⟩
  | cons w writes ih =>
    rw [writeAll_cons] at hrun
    obtain ⟨u, hu, hrest⟩ := Option.bind_eq_some_iff.mp hrun
    obtain ⟨result, hstep, rfl⟩ := Option.map_eq_some_iff.mp hu
    have hwritten := gattWriteRequest_written h w
    rw [show gattWriteRequest w s = some result from hstep] at hwritten
    cases hwritten with
    | appended u calls hkept hid hfirst hvalue hstring hwf =>
      obtain ⟨hall, hacc, hlast, ht⟩ := ih hwf hrest
      have hu : accumulated u = u.readData.string := if_pos hfirst
      refine ⟨?_, ?_, fun _ => ?_, ht⟩
      · intro v hv
        rcases List.mem_cons.mp hv with rfl | hv
        · exact hkept
        · rw [← hid]
          exact hall v hv
      · rw [hacc, hu, hstring, List.append_assoc]
        rfl
      · cases writes with
        | nil =>
          obtain rfl := Option.some.inj hrest
          exact hfirst
        | cons v writes => exact hlast (List.cons_ne_nil _ _)

theorem writeAll_runs (h : Wf s) {writes : List Write} (hkept : ∀ w ∈ writes, ¬ReplacesReadValue s.serviceID w)
    (hroom : (accumulated s).length + (strings writes).length < 256) : ∃ t, writeAll s writes = some t := by
  induction writes generalizing s with
  | nil => exact ⟨s, rfl⟩
  | cons w writes ih =>
    have hcons : strings (w :: writes) = cString w.req.data ++ strings writes := rfl
    rw [hcons, List.length_append] at hroom
    have hwritten := gattWriteRequest_written h w
    rw [writeAll_cons, matNext, matStep]
    cases hstep : gattWriteRequest w s with
    | none =>
      rw [hstep] at hwritten
      cases hwritten with
      | freed hreplaces => exact absurd hreplaces (hkept w List.mem_cons_self)
      | overran hlong => omega
    | some result =>
      rw [hstep] at hwritten
      cases hwritten with
      | appended u calls _ hid hfirst _ hstring hwf =>
        have hu : accumulated u = u.readData.string := if_pos hfirst
        apply ih hwf
        · rw [hid]
          exact fun v hv => hkept v (List.mem_cons_of_mem _ hv)
        · rw [hu, hstring, List.length_append]
          omega

/-- `ReadData` and `Srv3Attr2` hold the bytes, as many of them as there is room for in front of a terminator. -/
def Faithful (s : MatState) (bytes : List UInt8) : Prop :=
  s.readData.bytes.take s.readDataLength = bytes.take 255 ∧ s.readDataLength = (bytes.take 255).length ∧
    valueBytes s .srv3Attr2 0 = bytes.take 255 ∧ (s.info .srv3Attr2).valueLength = (bytes.take 255).length

theorem faithful_iff (h : Wf s) (bytes : List UInt8) : Faithful s bytes ↔ s.readData.string = bytes.take 255 := by
  have hbytes : s.readData.bytes.take s.readDataLength = s.readData.string := by
    rw [h.counted, CharArray.take_strlen]
  have hlen : s.readDataLength = s.readData.string.length := h.counted
  have hvalue : valueBytes s .srv3Attr2 0 = s.readData.string := by
    unfold valueBytes
    dsimp only
    rw [h.described]
    obtain hpointed | ⟨hunset, hzero⟩ := h.pointed
    · rw [hpointed]
      exact hbytes
    · rw [hunset]
      rw [hzero] at hlen
      exact (List.eq_nil_of_length_eq_zero hlen.symm).symm
  rw [Faithful, h.described, hbytes, hvalue, hlen]
  constructor
  · exact fun hall => hall.1
  · intro heq
    exact ⟨heq, congrArg List.length heq, heq, congrArg List.length heq⟩

/-- The bytes of the writes, one behind the other. -/
def written (writes : List Write) : List UInt8 := writes.flatMap fun w => w.req.data

/-- The writes do not touch the value that they are collected in, hold no zero byte that there is room
for, and what the program takes for their strings has room. -/
def Collects (s : MatState) (writes : List Write) : Prop :=
  if writes = [] then s.readDataLength = 0
  else (∀ w ∈ writes, ¬ReplacesReadValue s.serviceID w) ∧ 0 ∉ (written writes).take 255 ∧ (strings writes).length ≤ 255

theorem strings_eq_take_iff {writes : List Write} (hlen : (strings writes).length ≤ 255) :
    strings writes = (written writes).take 255 ↔ 0 ∉ (written writes).take 255 := by
  have hwritten : written writes = (writes.map fun w => w.req.data).flatten := List.flatMap_def ..
  rw [hwritten]
  exact flatMap_cString_eq_take_iff hlen

/-- What a run of writes after a restart leaves in `ReadData`. -/
theorem restarted_string (h : Wf s) {writes : List Write} (hne : writes ≠ [])
    (hrun : writeAll { s with bFirstTime := false } writes = some t) : t.readData.string = strings writes := by
  obtain ⟨-, hacc, hlast, -⟩ := writeAll_some h.restarted hrun
  have hstring : accumulated t = t.readData.string := if_pos (hlast hne)
  rw [← hstring, hacc]
  rfl

/-- The writes after advertising has started leave their bytes in `ReadData` exactly under this condition. -/
theorem writes_collected_iff (h : Reachable s) (writes : List Write) :
    (∃ t, matRun s (.deviceAdvertisingStarted :: writes.map .gattWriteRequest) = some t ∧ Faithful t (written writes)) ↔
      Collects s writes := by
  have hwf := h.wf.restarted
  have hstart : matRun s (.deviceAdvertisingStarted :: writes.map .gattWriteRequest) =
      writeAll { s with bFirstTime := false } writes := List.foldlM_cons ..
  rw [hstart]
  unfold Collects
  split
  next hnil =>
    subst hnil
    constructor
    · rintro ⟨t, hrun, hfaithful⟩
      obtain rfl := Option.some.inj hrun
      exact hfaithful.2.1
    · intro hzero
      refine ⟨_, rfl, (faithful_iff hwf _).mpr ?_⟩
      have hlen : s.readData.string.length = 0 := h.wf.counted.symm.trans hzero
      exact List.eq_nil_of_length_eq_zero hlen
  next hne =>
    constructor
    · rintro ⟨t, hrun, hfaithful⟩
      obtain ⟨hkept, -, -, ht⟩ := writeAll_some hwf hrun
      have hstring := restarted_string h.wf hne hrun
      have hlt := t.readData.strlen_lt
      rw [CharArray.strlen, hstring] at hlt
      have hlen : (strings writes).length ≤ 255 := by omega
      refine ⟨hkept, (strings_eq_take_iff hlen).mp ?_, hlen⟩
      rw [← hstring]
      exact (faithful_iff ht _).mp hfaithful
    · rintro ⟨hkept, hnul, hlen⟩
      obtain ⟨t, hrun⟩ := writeAll_runs hwf hkept (by
        show 0 + (strings writes).length < 256
        omega)
      obtain ⟨-, -, -, ht⟩ := writeAll_some hwf hrun
      refine ⟨t, hrun, (faithful_iff ht _).mpr ?_⟩
      rw [restarted_string h.wf hne hrun]
      exact (strings_eq_take_iff hlen).mpr hnul

/-- A write to `Srv3Attr1` of the service 1. -/
def writeOf (data : List UInt8) : Write := ⟨⟨0, 1, 1, data⟩, true, true⟩

theorem bootState_reachable (serviceID : Nat) : Reachable (bootState serviceID) := ⟨serviceID, [], rfl⟩

theorem writes_collected_iff_of_two_writes : Reachable (bootState 1) ∧
    ((∃ t, matRun (bootState 1) (.deviceAdvertisingStarted :: [writeOf [1, 2], writeOf [3]].map .gattWriteRequest) =
      some t ∧ Faithful t [1, 2, 3]) ↔ Collects (bootState 1) [writeOf [1, 2], writeOf [3]]) :=
  ⟨bootState_reachable 1, writes_collected_iff (bootState_reachable 1) [writeOf [1, 2], writeOf [3]]⟩

/-- What follows a zero byte is lost, two writes of 200 bytes overrun the array, and a write to the value that is
read frees an array that was never allocated. -/
theorem writes_lost :
    ¬(∃ t, matRun (bootState 1) [.deviceAdvertisingStarted, .gattWriteRequest (writeOf [1, 0, 2])] = some t ∧
      Faithful t [1, 0, 2]) ∧
    matRun (bootState 1) [.deviceAdvertisingStarted, .gattWriteRequest (writeOf (List.replicate 200 1)),
      .gattWriteRequest (writeOf (List.replicate 200 1))] = none ∧
    matRun (bootState 1) [.deviceAdvertisingStarted, .gattWriteRequest ⟨⟨0, 1, 3, [1]⟩, true, true⟩] = none := by
  refine ⟨?_, ?_, ?_⟩
  · rintro ⟨t, hrun, -, hlen, -⟩
    have hone : (matRun (bootState 1) [.deviceAdvertisingStarted, .gattWriteRequest (writeOf [1, 0, 2])]).map
        MatState.readDataLength = some 1 := by decide +kernel
    rw [hrun, Option.map_some, hlen] at hone
    exact absurd hone (by decide)
  · exact Option.isNone_iff_eq_none.mp (by decide +kernel)
  · exact Option.isNone_iff_eq_none.mp (by decide +kernel)

end NvrxFirmware.LinuxGatMat
