import NvrxFirmware.TestAppModel

namespace NvrxFirmware.TestApp

def Attribute.offset : Attribute → Nat
  | .writeAcceessReqCharAttr => writeAccessReqCharOffset
  | .readRandomKeyCharAttr => readRandomKeyCharOffset
  | .readStatusCharAttr => readStatusCharOffset

/-- The write gets as far as replacing the value of the attribute. -/
structure Replaces (s : Store) (req : WriteRequest) (mutexFree : Bool) (attr : Attribute) : Prop where
  mutex : mutexFree = true
  known : req.serviceID ≠ 0
  service : s.serviceID = req.serviceID
  offset : req.attributeOffset = attr.offset
  fits : req.data.length ≤ (s.info attr).maximumValueLength

variable {s : Store} {req : WriteRequest} {mutexFree allocates receiveDone : Bool} {attr : Attribute}

theorem searchServiceListByOffset_offset {serviceID : Nat} (known : serviceID ≠ 0) (service : s.serviceID = serviceID)
    (attr : Attribute) : searchServiceListByOffset s serviceID attr.offset =
      some ⟨.atCharacteristic, attr.offset, attr⟩ := by
  have hoffset : attr.offset ≠ 0 := by cases attr <;> decide
  unfold searchServiceListByOffset
  rw [if_pos ⟨known, hoffset⟩, if_pos service]
  cases attr <;> rfl

theorem searchServiceListByOffset_some {serviceID offset : Nat} {a : AttributeInfo}
    (h : searchServiceListByOffset s serviceID offset = some a) :
    serviceID ≠ 0 ∧ s.serviceID = serviceID ∧ offset = a.characteristic.offset := by
  unfold searchServiceListByOffset at h
  split at h
  next hknown =>
    split at h
    next hservice =>
      have hmem := List.mem_of_find?_eq_some h
      have hoffset : a.attributeOffset = offset := by simpa using List.find?_some h
      refine ⟨hknown.1, hservice, ?_⟩
      rw [← hoffset]
      simp only [attrList, List.mem_cons, List.not_mem_nil, or_false] at hmem
      rcases hmem with rfl | rfl | rfl <;> rfl
    next => cases h
  next => cases h

theorem processWriteRequestEvent_replaces (h : Replaces s req mutexFree attr) :
    processWriteRequestEvent req mutexFree allocates receiveDone s =
      let released := releaseValue attr s
      let stored := storeValue attr req.data allocates receiveDone released.1
      (stored.2.1, stored.2.2, released.2 ++
        (if stored.1 = none ∧ req.requestID ≠ 0 then [.writeResponse req.requestID] else []) ++
        errorResponse req.requestID stored.1) := by
  unfold processWriteRequestEvent
  rw [if_pos h.mutex, h.offset, searchServiceListByOffset_offset h.known h.service]
  dsimp only
  rw [if_pos (.inl rfl), if_pos h.fits]

theorem processWriteRequestEvent_refused (allocates receiveDone : Bool) (h : ∀ attr, ¬Replaces s req mutexFree attr) :
    ∃ code, processWriteRequestEvent req mutexFree allocates receiveDone s =
      (s, receiveDone, errorResponse req.requestID (some code)) := by
  unfold processWriteRequestEvent
  split
  next hmutex =>
    split
    next a hfound =>
      obtain ⟨hknown, hservice, hoffset⟩ := searchServiceListByOffset_some hfound
      split
      next =>
        split
        next hfits => exact absurd ⟨hmutex, hknown, hservice, hoffset, hfits⟩ (h a.characteristic)
        next => exact ⟨_, rfl⟩
      next => exact ⟨_, rfl⟩
    next => exact ⟨_, rfl⟩
  next => exact ⟨_, rfl⟩

/-- What a write does to the value of its attribute and to the buffers, after the value has been released. -/
inductive Stored (attr : Attribute) (data : List UInt8) (allocates : Bool) (s : Store) : Option AttError × Store → Prop
  | reset : data = [] →
      Stored attr data allocates s (none, s.setInfo attr ⟨false, (s.info attr).maximumValueLength, 0, none⟩)
  | copied (memory : Buffer → Nat → UInt8) : data ≠ [] → allocates = true →
      (∀ b, b ≠ .heap s.nextBuffer → memory b = s.memory b) →
      (∀ i, i < data.length → memory (.heap s.nextBuffer) i = data.getD i 0) →
      Stored attr data allocates s (none,
        { s with memory := memory, live := s.nextBuffer :: s.live, nextBuffer := s.nextBuffer + 1 }.setInfo attr
          ⟨true, (s.info attr).maximumValueLength, data.length, some (.heap s.nextBuffer)⟩)
  | failed : data ≠ [] → allocates = false →
      Stored attr data allocates s (some .insufficientResources,
        s.setInfo attr { s.info attr with value := none })

theorem storeValue_stored (attr : Attribute) (data : List UInt8) (allocates receiveDone : Bool) (s : Store) :
    Stored attr data allocates s
      ((storeValue attr data allocates receiveDone s).1, (storeValue attr data allocates receiveDone s).2.1) := by
  unfold storeValue
  split
  next hempty => exact .reset (List.length_eq_zero_iff.mp hempty)
  next hdata =>
    have hne : data ≠ [] := by
      rintro rfl
      exact hdata rfl
    split
    next hallocates =>
      apply Stored.copied _ hne hallocates
      · intro b hb
        exact Function.update_of_ne hb _ _
      · intro i hi
        simp [List.getD_eq_getElem?_getD, hi]
    next hallocates => exact .failed hne (by simpa using hallocates)

/-- What freeing the previous value of an attribute does. -/
inductive Released (attr : Attribute) (s : Store) : Store × List Call → Prop
  | freed (b : Buffer) : (s.info attr).allocatedValue = true → (s.info attr).value = some b →
      Released attr s ((btpsFreeMemory b s).setInfo attr ⟨false, (s.info attr).maximumValueLength, 0, none⟩,
        [.freeMemory b])
  | kept : ((s.info attr).allocatedValue = true → (s.info attr).value = none) → Released attr s (s, [])

theorem releaseValue_released (attr : Attribute) (s : Store) : Released attr s (releaseValue attr s) := by
  unfold releaseValue
  split
  next maximum _ b hinfo =>
    have hfreed : Released attr s _ := .freed b (by rw [hinfo]) (by rw [hinfo])
    rwa [hinfo] at hfreed
  next hinfo =>
    apply Released.kept
    intro hallocated
    cases hvalue : (s.info attr).value with
    | none => rfl
    | some b =>
      refine absurd ?_ (hinfo (s.info attr).maximumValueLength (s.info attr).valueLength b)
      rw [← hallocated, ← hvalue]

/-- What a write to the attribute leaves as it was. -/
structure OnlyAt (attr : Attribute) (s t : Store) : Prop where
  service : t.serviceID = s.serviceID
  maximum : ∀ a, (t.info a).maximumValueLength = (s.info a).maximumValueLength
  others : ∀ a, a ≠ attr → t.info a = s.info a
  memory : ∀ b, b ≠ .heap s.nextBuffer → t.memory b = s.memory b

@[simp] theorem Store.setInfo_info (s : Store) (attr : Attribute) (info : CharecteristicInfo) :
    (s.setInfo attr info).info attr = info := Function.update_self _ _ _

theorem Store.setInfo_info_of_ne {a : Attribute} {info : CharecteristicInfo} (ha : a ≠ attr) :
    (s.setInfo attr info).info a = s.info a := Function.update_of_ne ha _ _

theorem onlyAt_setInfo {t : Store} {info : CharecteristicInfo} (service : t.serviceID = s.serviceID)
    (others : t.info = s.info) (memory : ∀ b, b ≠ .heap s.nextBuffer → t.memory b = s.memory b)
    (maximum : info.maximumValueLength = (s.info attr).maximumValueLength) : OnlyAt attr s (t.setInfo attr info) := by
  have hothers : ∀ a, a ≠ attr → (t.setInfo attr info).info a = s.info a := by
    intro a ha
    rw [← others]
    exact Store.setInfo_info_of_ne ha
  refine ⟨service, ?_, hothers, memory⟩
  intro a
  by_cases ha : a = attr
  · rw [ha, ← maximum]
    exact congrArg CharecteristicInfo.maximumValueLength (t.setInfo_info attr info)
  · rw [hothers a ha]

theorem btpsFreeMemory_rest (b : Buffer) (s : Store) : (btpsFreeMemory b s).serviceID = s.serviceID ∧
    (btpsFreeMemory b s).info = s.info ∧ (btpsFreeMemory b s).memory = s.memory ∧
    (btpsFreeMemory b s).nextBuffer = s.nextBuffer := by
  cases b <;> exact ⟨rfl, rfl, rfl, rfl⟩

theorem Released.onlyAt {r : Store × List Call} (h : Released attr s r) :
    OnlyAt attr s r.1 ∧ r.1.nextBuffer = s.nextBuffer := by
  cases h with
  | freed b _ _ =>
    obtain ⟨hservice, hinfo, hmemory, hnext⟩ := btpsFreeMemory_rest b s
    exact ⟨onlyAt_setInfo hservice hinfo (fun _ _ => congrFun hmemory _) rfl, hnext⟩
  | kept _ => exact ⟨⟨rfl, fun _ => rfl, fun _ _ => rfl, fun _ _ => rfl⟩, rfl⟩

theorem Stored.onlyAt {data : List UInt8} {r : Option AttError × Store} (h : Stored attr data allocates s r) :
    OnlyAt attr s r.2 ∧ s.nextBuffer ≤ r.2.nextBuffer := by
  cases h with
  | reset _ => exact ⟨onlyAt_setInfo rfl rfl (fun _ _ => rfl) rfl, Nat.le_refl _⟩
  | copied memory _ _ hmemory _ => exact ⟨onlyAt_setInfo rfl rfl hmemory rfl, Nat.le_succ _⟩
  | failed _ _ => exact ⟨onlyAt_setInfo rfl rfl (fun _ _ => rfl) rfl, Nat.le_refl _⟩

theorem OnlyAt.trans {t u : Store} (first : OnlyAt attr s t) (same : t.nextBuffer = s.nextBuffer)
    (second : OnlyAt attr t u) : OnlyAt attr s u where
  service := second.service.trans first.service
  maximum a := (second.maximum a).trans (first.maximum a)
  others a ha := (second.others a ha).trans (first.others a ha)
  memory b hb := (second.memory b (same ▸ hb)).trans (first.memory b hb)

theorem replaced_onlyAt {released next : Store} {freed : List Call} {data : List UInt8} {error : Option AttError}
    (hreleased : Released attr s (released, freed)) (hstored : Stored attr data allocates released (error, next)) :
    OnlyAt attr s next ∧ s.nextBuffer ≤ next.nextBuffer := by
  obtain ⟨hfirst, hsame⟩ := hreleased.onlyAt
  obtain ⟨hsecond, hbuffers⟩ := hstored.onlyAt
  exact ⟨hfirst.trans hsame hsecond, hsame ▸ hbuffers⟩

/-- What one step of the program does to its attribute store, with the calls that it makes. -/
inductive StoreStep (s : Store) : AppOp → Store × List Call → Prop
  | idle (op : AppOp) (calls : List Call) :
      (∀ req mutexFree allocates, op = .gattWriteRequest req mutexFree allocates →
        ∀ attr, ¬Replaces s req mutexFree attr) →
      (∀ b, .freeMemory b ∉ calls) → StoreStep s op (s, calls)
  | replaced (req : WriteRequest) (mutexFree allocates : Bool) (attr : Attribute) (released next : Store)
      (freed : List Call) (error : Option AttError) : Replaces s req mutexFree attr →
      Released attr s (released, freed) → Stored attr req.data allocates released (error, next) →
      StoreStep s (.gattWriteRequest req mutexFree allocates) (next, freed ++
        (if error = none ∧ req.requestID ≠ 0 then [.writeResponse req.requestID] else []) ++
        errorResponse req.requestID error)

theorem freeMemory_notMem_errorResponse (b : Buffer) (requestID : Nat) (error : Option AttError) :
    .freeMemory b ∉ errorResponse requestID error := by
  unfold errorResponse
  split
  · split <;> simp
  · simp

theorem freeMemory_notMem_read (b : Buffer) (req : ReadRequest) (mutexFree : Bool) (s : Store) :
    .freeMemory b ∉ processReadRequestEvent req mutexFree s := by
  unfold processReadRequestEvent
  split
  · split
    · split
      · split <;> simp
      · simp
    · simp
  · simp

theorem startBtAdvertisement_store (result : Int) (s : AppState) : (startBtAdvertisement result s).store = s.store := by
  unfold startBtAdvertisement
  split <;> rfl

theorem checkTimers_store (clock₁ clock₂ : Option Nat) (result : Int) (s : AppState) :
    (checkTimers clock₁ clock₂ result s).1.store = s.store ∧
      ∀ b, .freeMemory b ∉ (checkTimers clock₁ clock₂ result s).2 := by
  unfold checkTimers
  split
  · dsimp only
    split
    · cases clock₁ <;> cases clock₂ <;> exact ⟨rfl, by simp [endSession, disconnectRemoteDevice]⟩
    · cases clock₁ <;> exact ⟨rfl, by simp⟩
  · split
    · dsimp only
      split
      · refine ⟨?_, by simp [retryAdvertisement]⟩
        simp only [retryAdvertisement, startBtAdvertisement_store]
        cases clock₁ <;> cases clock₂ <;> rfl
      · cases clock₁ <;> exact ⟨rfl, by simp⟩
    · exact ⟨rfl, by simp⟩

theorem runBluetoothTask_store (s : AppState) :
    (runBluetoothTask s).1.store = s.store ∧ ∀ b, .freeMemory b ∉ (runBluetoothTask s).2 := by
  unfold runBluetoothTask
  split <;> exact ⟨rfl, by simp⟩

theorem storeStep_other {s : AppState} {op : AppOp} (store : (appNext s op).store = s.store)
    (free : ∀ b, .freeMemory b ∉ (appStep s op).2)
    (other : ∀ req mutexFree allocates, op ≠ .gattWriteRequest req mutexFree allocates) :
    StoreStep s.store op ((appNext s op).store, (appStep s op).2) := by
  rw [store]
  exact .idle _ _ (fun req mutexFree allocates hop => absurd hop (other req mutexFree allocates)) free

theorem appNext_storeStep (s : AppState) (op : AppOp) :
    StoreStep s.store op ((appNext s op).store, (appStep s op).2) := by
  cases op with
  | gattWriteRequest req mutexFree allocates =>
    by_cases hreplaces : ∃ attr, Replaces s.store req mutexFree attr
    · obtain ⟨attr, hreplaces⟩ := hreplaces
      have hreleased := releaseValue_released attr s.store
      have hstored := storeValue_stored attr req.data allocates s.receiveDone (releaseValue attr s.store).1
      simp only [appNext, appStep, processWriteRequestEvent_replaces hreplaces]
      exact .replaced req mutexFree allocates attr (releaseValue attr s.store).1 _ (releaseValue attr s.store).2 _
        hreplaces hreleased hstored
    · have hnone : ∀ attr, ¬Replaces s.store req mutexFree attr := fun attr h => hreplaces ⟨attr, h⟩
      obtain ⟨code, hrefused⟩ := processWriteRequestEvent_refused allocates s.receiveDone hnone
      simp only [appNext, appStep, hrefused]
      apply StoreStep.idle
      · rintro _ _ _ ⟨rfl, rfl, rfl⟩
        exact hnone
      · intro b
        exact freeMemory_notMem_errorResponse b _ _
  | mainIteration clock₁ clock₂ result =>
    obtain ⟨htimers, hfree⟩ := checkTimers_store clock₁ clock₂ result s
    obtain ⟨htask, hmore⟩ := runBluetoothTask_store (checkTimers clock₁ clock₂ result s).1
    apply storeStep_other
    · exact htask.trans htimers
    · intro b hb
      rcases List.mem_append.mp hb with hb | hb
      · exact hfree b hb
      · exact hmore b hb
    · intro _ _ _ hop
      cases hop
  | localDevicePropertiesChanged connectableMode result =>
    apply storeStep_other
    · cases connectableMode with
      | true => rfl
      | false => exact startBtAdvertisement_store result s
    · cases connectableMode <;> simp [appStep]
    · intro _ _ _ hop
      cases hop
  | deviceAdvertisingStarted => exact storeStep_other rfl (by simp [appStep]) (by simp)
  | deviceAdvertisingStopped => exact storeStep_other rfl (by simp [appStep]) (by simp)
  | advertisingTimeout result =>
    exact storeStep_other (startBtAdvertisement_store result s) (by simp [appStep]) (by simp)
  | gattConnected addr clock =>
    refine storeStep_other ?_ (by simp [appStep]) (by simp)
    cases clock <;> rfl
  | gattDisconnected result =>
    exact storeStep_other (startBtAdvertisement_store result _) (by simp [appStep]) (by simp)
  | gattConnectionMTUUpdate => exact storeStep_other rfl (by simp [appStep]) (by simp)
  | gattReadRequest req mutexFree clock =>
    have hstep : (appNext s (.gattReadRequest req mutexFree clock)).store = s.store ∧
        (appStep s (.gattReadRequest req mutexFree clock)).2 = processReadRequestEvent req mutexFree s.store := by
      simp only [appNext, appStep]
      split
      · cases clock <;> exact ⟨rfl, rfl⟩
      · exact ⟨rfl, rfl⟩
    refine storeStep_other hstep.1 ?_ (by simp)
    intro b
    rw [hstep.2]
    exact freeMemory_notMem_read b req mutexFree s.store

theorem appNext_service (s : AppState) (op : AppOp) : (appNext s op).store.serviceID = s.store.serviceID := by
  have hstep := appNext_storeStep s op
  generalize (appNext s op).store = next at hstep ⊢
  generalize (appStep s op).2 = calls at hstep
  cases hstep with
  | idle _ _ _ _ => rfl
  | replaced req mutexFree allocates attr released _ freed error _ hreleased hstored =>
    exact (replaced_onlyAt hreleased hstored).1.service

end NvrxFirmware.TestApp
