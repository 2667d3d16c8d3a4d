import Mathlib.Data.List.GetD
import NvrxFirmware.TestAppWrites

namespace NvrxFirmware.TestApp

/-- What a client finds in the characteristic after the step, by the writes that the program takes. -/
def lastAccepted (serviceID : Nat) (value : List UInt8) : AppOp → List UInt8
  | .gattWriteRequest req mutexFree allocates =>
    if mutexFree = true ∧ req.serviceID = serviceID ∧ req.attributeOffset = writeAccessReqCharOffset ∧
        req.data.length ≤ 512 ∧ (req.data = [] ∨ allocates = true) then req.data
    else value
  | _ => value

/-- The program, next to the value that a client has reason to expect. -/
def valueStep (serviceID : Nat) (s : AppState × List UInt8) (op : AppOp) : AppState × List UInt8 :=
  (appNext s.1 op, lastAccepted serviceID s.2 op)

def readAnswer (requestID offset : Nat) (value : List UInt8) : Call :=
  if offset ≤ value.length then .readResponse requestID (value.drop offset)
  else .errorResponse requestID .invalidOffset

/-- A read of the characteristic at any offset is answered from the last accepted write. -/
def ReadsBack (serviceID : Nat) (s : AppState × List UInt8) : Prop :=
  ∀ requestID offset clock, (appStep s.1
    (.gattReadRequest ⟨requestID, serviceID, writeAccessReqCharOffset, offset⟩ true clock)).2 =
      [readAnswer requestID offset s.2]

def SameValue (s t : Store) : Prop :=
  (t.info .writeAcceessReqCharAttr).valueLength = (s.info .writeAcceessReqCharAttr).valueLength ∧
    (t.info .writeAcceessReqCharAttr).value = (s.info .writeAcceessReqCharAttr).value ∧
    ∀ b ∈ (s.info .writeAcceessReqCharAttr).value, t.memory b = s.memory b

/-- A write to the characteristic that is answered with an error has left its value alone. -/
def RefusesHarmlessly (serviceID : Nat) (s : AppState × List UInt8) (op : AppOp) : Prop :=
  match op with
  | .gattWriteRequest req _ _ => req.serviceID = serviceID → req.attributeOffset = writeAccessReqCharOffset →
    (∃ code, Call.errorResponse req.requestID code ∈ (appStep s.1 op).2) →
    SameValue s.1.store (appNext s.1 op).store
  | _ => True

/-- No allocation fails for a write that would replace stored data. -/
def AllocatesForData (serviceID : Nat) (s : AppState × List UInt8) : AppOp → Prop
  | .gattWriteRequest req mutexFree allocates =>
    mutexFree = true → req.serviceID = serviceID → req.attributeOffset = writeAccessReqCharOffset →
      req.data ≠ [] → req.data.length ≤ 512 → (s.1.store.info .writeAcceessReqCharAttr).valueLength ≠ 0 →
      allocates = true
  | _ => True

/-- The attribute's pointer, length and flag stand for the value. -/
structure Holds (s : Store) (value : List UInt8) : Prop where
  maximum : (s.info .writeAcceessReqCharAttr).maximumValueLength = 512
  length : (s.info .writeAcceessReqCharAttr).valueLength = value.length
  buffer : (s.info .writeAcceessReqCharAttr).value = none ∧ value = [] ∨
    ∃ n < s.nextBuffer, (s.info .writeAcceessReqCharAttr).value = some (.heap n) ∧
      (s.info .writeAcceessReqCharAttr).allocatedValue = true ∧ value ≠ [] ∧
      ∀ i, i < value.length → s.memory (.heap n) i = value.getD i 0

variable {s t : Store} {value data : List UInt8} {serviceID : Nat}

theorem readBytes_drop {b : Buffer} {offset : Nat} (bound : offset ≤ value.length)
    (h : ∀ i, i < value.length → s.memory b i = value.getD i 0) :
    readBytes s b offset (value.length - offset) = value.drop offset := by
  apply List.ext_getElem
  · simp [readBytes]
  · intro i hi _
    have hlength : i < value.length - offset := by simpa [readBytes] using hi
    have hbyte := h (offset + i) (by omega)
    simp only [readBytes, List.getElem_map, List.getElem_range, List.getElem_drop, hbyte]
    exact List.getD_eq_getElem _ _ (by omega)

theorem Holds.readValue (h : Holds s value) (offset : Nat) : readValue s .writeAcceessReqCharAttr offset =
    if offset ≤ value.length then .ok (value.drop offset) else .error .invalidOffset := by
  unfold TestApp.readValue
  dsimp only
  rw [h.length]
  split
  next hoffset =>
    rcases h.buffer with ⟨hnone, hempty⟩ | ⟨n, _, hsome, _, _, hbytes⟩
    · rw [hnone, hempty]
      simp
    · rw [hsome]
      exact congrArg Except.ok (readBytes_drop hoffset hbytes)
  next => rfl

theorem processReadRequestEvent_answer (known : serviceID ≠ 0) (service : s.serviceID = serviceID)
    (h : Holds s value) (requestID offset : Nat) :
    processReadRequestEvent ⟨requestID, serviceID, writeAccessReqCharOffset, offset⟩ true s =
      [readAnswer requestID offset value] := by
  have hfound := searchServiceListByOffset_offset known service .writeAcceessReqCharAttr
  unfold processReadRequestEvent
  rw [if_pos rfl]
  have hoffset : writeAccessReqCharOffset = Attribute.offset .writeAcceessReqCharAttr := rfl
  dsimp only
  rw [hoffset, hfound]
  dsimp only
  rw [if_pos (.inl rfl), h.readValue, readAnswer]
  by_cases hbound : offset ≤ value.length
  · rw [if_pos hbound, if_pos hbound]
  · rw [if_neg hbound, if_neg hbound]

/-- A write to another attribute does not reach the buffer of this one. -/
theorem Holds.elsewhere {attr : Attribute} (h : Holds s value) (only : OnlyAt attr s t)
    (buffers : s.nextBuffer ≤ t.nextBuffer) (other : attr ≠ .writeAcceessReqCharAttr) : Holds t value := by
  have hinfo := only.others _ (Ne.symm other)
  refine ⟨hinfo ▸ h.maximum, hinfo ▸ h.length, ?_⟩
  rcases h.buffer with hempty | ⟨n, hn, hsome, hallocated, hdata, hbytes⟩
  · exact .inl (hinfo ▸ hempty)
  · refine .inr ⟨n, by omega, hinfo ▸ hsome, hinfo ▸ hallocated, hdata, ?_⟩
    have hne : Buffer.heap n ≠ .heap s.nextBuffer := by
      rintro hsame
      injection hsame
      omega
    rw [only.memory _ hne]
    exact hbytes

/-- Releasing the value leaves nothing behind, or had nothing to release. -/
theorem Holds.released {r : Store × List Call} (h : Holds s value) (released : Released .writeAcceessReqCharAttr s r) :
    (r.1.info .writeAcceessReqCharAttr).value = none ∧ (r.1.info .writeAcceessReqCharAttr).valueLength = 0 := by
  cases released with
  | freed b _ _ => simp
  | kept hkept =>
    rcases h.buffer with ⟨hnone, hempty⟩ | ⟨n, _, hsome, hallocated, _, _⟩
    · exact ⟨hnone, by rw [h.length, hempty]; rfl⟩
    · rw [hkept hallocated] at hsome
      cases hsome

/-- The attribute stands for the data that was written, or for nothing if there was no buffer for it. -/
theorem Stored.holds {allocates : Bool} {r : Option AttError × Store}
    (stored : Stored .writeAcceessReqCharAttr data allocates s r)
    (maximum : (s.info .writeAcceessReqCharAttr).maximumValueLength = 512)
    (released : (s.info .writeAcceessReqCharAttr).valueLength = 0) :
    Holds r.2 (if data = [] ∨ allocates = true then data else []) := by
  cases stored with
  | reset hempty => exact ⟨by simpa using maximum, by simp [hempty], .inl ⟨by simp, by simp [hempty]⟩⟩
  | copied memory hdata hallocates _ hbytes =>
    rw [if_pos (.inr hallocates)]
    exact ⟨by simpa using maximum, by simp, .inr ⟨s.nextBuffer, Nat.lt_succ_self _, by simp, by simp, hdata, hbytes⟩⟩
  | failed hdata hfails =>
    rw [if_neg (by simp [hdata, hfails])]
    exact ⟨by simpa using maximum, by simpa using released, .inl ⟨by simp, rfl⟩⟩

/-- The store of the registered service holds the value that a client expects. -/
structure ValueKept (serviceID : Nat) (s : AppState × List UInt8) : Prop where
  service : s.1.store.serviceID = serviceID
  holds : Holds s.1.store s.2

section Steps

variable {s : AppState × List UInt8} {req : WriteRequest} {mutexFree allocates : Bool}

theorem ValueKept.readsBack (known : serviceID ≠ 0) (kept : ValueKept serviceID s) : ReadsBack serviceID s := by
  intro requestID offset clock
  have hanswer := processReadRequestEvent_answer known kept.service kept.holds requestID offset
  rw [← hanswer]
  rfl

theorem ValueKept.replaces (known : serviceID ≠ 0) (kept : ValueKept serviceID s) (mutex : mutexFree = true)
    (service : req.serviceID = serviceID) (offset : req.attributeOffset = writeAccessReqCharOffset)
    (fits : req.data.length ≤ 512) : Replaces s.1.store req mutexFree .writeAcceessReqCharAttr :=
  ⟨mutex, service ▸ known, kept.service.trans service.symm, offset, Nat.le_trans fits (Nat.le_of_eq kept.holds.maximum.symm)⟩

theorem ValueKept.fits (kept : ValueKept serviceID s)
    (h : Replaces s.1.store req mutexFree .writeAcceessReqCharAttr) : req.data.length ≤ 512 :=
  Nat.le_trans h.fits (Nat.le_of_eq kept.holds.maximum)

theorem ValueKept.write_holds (kept : ValueKept serviceID s)
    (h : Replaces s.1.store req mutexFree .writeAcceessReqCharAttr) (allocates : Bool) :
    Holds (appNext s.1 (.gattWriteRequest req mutexFree allocates)).store
      (if req.data = [] ∨ allocates = true then req.data else []) := by
  have hreleased := releaseValue_released .writeAcceessReqCharAttr s.1.store
  have hmaximum := (hreleased.onlyAt.1.maximum .writeAcceessReqCharAttr).trans kept.holds.maximum
  have hstored := storeValue_stored .writeAcceessReqCharAttr req.data allocates s.1.receiveDone
    (releaseValue .writeAcceessReqCharAttr s.1.store).1
  simp only [appNext, appStep, processWriteRequestEvent_replaces h]
  exact hstored.holds hmaximum (kept.holds.released hreleased).2

theorem ValueKept.lastAccepted_write (kept : ValueKept serviceID s)
    (h : Replaces s.1.store req mutexFree .writeAcceessReqCharAttr) (allocates : Bool) :
    lastAccepted serviceID s.2 (.gattWriteRequest req mutexFree allocates) =
      if req.data = [] ∨ allocates = true then req.data else s.2 := by
  have hfits := kept.fits h
  have hservice : req.serviceID = serviceID := h.service.symm.trans kept.service
  have hoffset : req.attributeOffset = writeAccessReqCharOffset := h.offset
  simp [lastAccepted, h.mutex, hservice, hoffset, hfits]

theorem ValueKept.lastAccepted_other (known : serviceID ≠ 0) (kept : ValueKept serviceID s)
    (h : ¬Replaces s.1.store req mutexFree .writeAcceessReqCharAttr) (allocates : Bool) :
    lastAccepted serviceID s.2 (.gattWriteRequest req mutexFree allocates) = s.2 := by
  unfold lastAccepted
  apply if_neg
  rintro ⟨hmutex, hservice, hoffset, hfits, -⟩
  exact h (kept.replaces known hmutex hservice hoffset hfits)

/-- A step that does not replace the value of the characteristic changes neither side. -/
theorem ValueKept.step_elsewhere (known : serviceID ≠ 0) (kept : ValueKept serviceID s) {op : AppOp}
    (elsewhere : ∀ req mutexFree allocates, op = .gattWriteRequest req mutexFree allocates →
      ¬Replaces s.1.store req mutexFree .writeAcceessReqCharAttr) :
    ValueKept serviceID (valueStep serviceID s op) := by
  have hvalue : lastAccepted serviceID s.2 op = s.2 := by
    cases op with
    | gattWriteRequest req mutexFree allocates =>
      exact kept.lastAccepted_other known (elsewhere req mutexFree allocates rfl) allocates
    | _ => rfl
  unfold valueStep
  rw [hvalue]
  have hstep := appNext_storeStep s.1 op
  generalize hnext : (appNext s.1 op).store = next at hstep
  generalize (appStep s.1 op).2 = calls at hstep
  cases hstep with
  | idle _ _ _ _ => exact ⟨hnext.symm ▸ kept.service, hnext.symm ▸ kept.holds⟩
  | replaced req mutexFree allocates attr released _ freed error hreplaces hreleased hstored =>
    have hother : attr ≠ .writeAcceessReqCharAttr := by
      rintro rfl
      exact elsewhere req mutexFree allocates rfl hreplaces
    obtain ⟨honly, hbuffers⟩ := replaced_onlyAt hreleased hstored
    have hholds := kept.holds.elsewhere honly hbuffers hother
    exact ⟨hnext.symm ▸ honly.service.trans kept.service, hnext.symm ▸ hholds⟩

theorem ValueKept.step (known : serviceID ≠ 0) (kept : ValueKept serviceID s) {op : AppOp}
    (allocates : AllocatesForData serviceID s op) : ValueKept serviceID (valueStep serviceID s op) := by
  by_cases hreplaces : ∃ req mutexFree allocates, op = .gattWriteRequest req mutexFree allocates ∧
      Replaces s.1.store req mutexFree .writeAcceessReqCharAttr
  · obtain ⟨req, mutexFree, allocated, rfl, hreplaces⟩ := hreplaces
    have hholds := kept.write_holds hreplaces allocated
    refine ⟨(appNext_service s.1 _).trans kept.service, ?_⟩
    unfold valueStep
    rw [kept.lastAccepted_write hreplaces]
    by_cases htaken : req.data = [] ∨ allocated = true
    · rw [if_pos htaken] at hholds ⊢
      exact hholds
    · rw [if_neg htaken] at hholds ⊢
      obtain ⟨hdata, hfails⟩ := not_or.mp htaken
      have hempty : s.2 = [] := by
        by_contra hvalue
        have hlength : (s.1.store.info .writeAcceessReqCharAttr).valueLength ≠ 0 := by
          rw [kept.holds.length]
          exact fun h => hvalue (List.length_eq_zero_iff.mp h)
        exact hfails (allocates hreplaces.mutex (hreplaces.service.symm.trans kept.service) hreplaces.offset hdata
          (kept.fits hreplaces) hlength)
      rw [hempty]
      exact hholds
  · apply kept.step_elsewhere known
    intro req mutexFree allocates hop h
    exact hreplaces ⟨req, mutexFree, allocates, hop, h⟩

/-- Where there is no buffer for new data and there was data, the client that reads gets nothing. -/
theorem ValueKept.needed (known : serviceID ≠ 0) (kept : ValueKept serviceID s) {op : AppOp}
    (reads : ReadsBack serviceID (valueStep serviceID s op)) : AllocatesForData serviceID s op := by
  cases op with
  | gattWriteRequest req mutexFree allocates =>
    intro hmutex hservice hoffset hdata hfits hlength
    by_contra hfails
    have hreplaces := kept.replaces known hmutex hservice hoffset hfits
    have hnot : ¬(req.data = [] ∨ allocates = true) := not_or.mpr ⟨hdata, hfails⟩
    have hholds := kept.write_holds hreplaces allocates
    have hvalue := kept.lastAccepted_write hreplaces allocates
    rw [if_neg hnot] at hholds hvalue
    have hread := reads 0 0 none
    have hnext : ValueKept serviceID (appNext s.1 (.gattWriteRequest req mutexFree allocates), ([] : List UInt8)) :=
      ⟨(appNext_service s.1 _).trans kept.service, hholds⟩
    have hnothing := hnext.readsBack known 0 0 none
    have hsame : readAnswer 0 0 ([] : List UInt8) = readAnswer 0 0 s.2 := by
      have hlists := hnothing.symm.trans hread
      rw [valueStep, hvalue] at hlists
      exact List.head_eq_of_cons_eq hlists
    have hempty : s.2 = [] := by simpa [readAnswer] using hsame.symm
    exact hlength (by rw [kept.holds.length, hempty]; rfl)
  | _ => trivial

theorem attribute_of_offset {attr : Attribute} (h : attr.offset = writeAccessReqCharOffset) :
    attr = .writeAcceessReqCharAttr := by
  cases attr with
  | writeAcceessReqCharAttr => rfl
  | readRandomKeyCharAttr => exact absurd h (by decide)
  | readStatusCharAttr => exact absurd h (by decide)

theorem ValueKept.refusesHarmlessly (kept : ValueKept serviceID s) {op : AppOp}
    (allocates : AllocatesForData serviceID s op) : RefusesHarmlessly serviceID s op := by
  cases op with
  | gattWriteRequest req mutexFree allocated =>
    rintro hservice hoffset ⟨code, hcode⟩
    have hstep := appNext_storeStep s.1 (.gattWriteRequest req mutexFree allocated)
    generalize (appNext s.1 (.gattWriteRequest req mutexFree allocated)).store = next at hstep ⊢
    generalize (appStep s.1 (.gattWriteRequest req mutexFree allocated)).2 = calls at hstep hcode
    cases hstep with
    | idle _ _ _ _ => exact ⟨rfl, rfl, fun _ _ => rfl⟩
    | replaced _ _ _ attr released _ freed error hreplaces hreleased hstored =>
      obtain rfl := attribute_of_offset (hreplaces.offset.symm.trans hoffset)
      have hfreed : Call.errorResponse req.requestID code ∉ freed := by
        cases hreleased <;> simp
      cases hstored with
      | reset _ => simp [hfreed, errorResponse] at hcode
      | copied _ _ _ _ _ => simp [hfreed, errorResponse] at hcode
      | failed hdata hfails =>
        have hlength : (s.1.store.info .writeAcceessReqCharAttr).valueLength = 0 := by
          by_contra hlength
          have hallocated := allocates hreplaces.mutex hservice hoffset hdata (kept.fits hreplaces) hlength
          exact Bool.false_ne_true (hfails.symm.trans hallocated)
        have hvalue : (s.1.store.info .writeAcceessReqCharAttr).value = none := by
          rcases kept.holds.buffer with ⟨hnone, -⟩ | ⟨_, _, _, _, hstored, _⟩
          · exact hnone
          · exact absurd (List.length_eq_zero_iff.mp (kept.holds.length.symm.trans hlength)) hstored
        have hreleased := (kept.holds.released hreleased).2
        refine ⟨?_, ?_, ?_⟩
        · simpa [hlength] using hreleased
        · simp [hvalue]
        · simp [hvalue]
  | _ => trivial

/-- The writes that count as accepted are those that the program acknowledges. -/
theorem ValueKept.acknowledged_iff (known : serviceID ≠ 0) (kept : ValueKept serviceID s) (asked : req.requestID ≠ 0)
    (service : req.serviceID = serviceID) (offset : req.attributeOffset = writeAccessReqCharOffset) :
    Call.writeResponse req.requestID ∈ (appStep s.1 (.gattWriteRequest req mutexFree allocates)).2 ↔
      mutexFree = true ∧ req.data.length ≤ 512 ∧ (req.data = [] ∨ allocates = true) := by
  by_cases hreplaces : Replaces s.1.store req mutexFree .writeAcceessReqCharAttr
  · have hreleased := releaseValue_released .writeAcceessReqCharAttr s.1.store
    have hstored := storeValue_stored .writeAcceessReqCharAttr req.data allocates s.1.receiveDone
      (releaseValue .writeAcceessReqCharAttr s.1.store).1
    simp only [appStep, processWriteRequestEvent_replaces hreplaces]
    generalize releaseValue .writeAcceessReqCharAttr s.1.store = released at hreleased hstored ⊢
    have hfreed : Call.writeResponse req.requestID ∉ released.2 := by
      cases hreleased <;> simp
    generalize storeValue .writeAcceessReqCharAttr req.data allocates s.1.receiveDone released.1 = stored at hstored ⊢
    obtain ⟨error, next, receiveDone⟩ := stored
    have hmutex := hreplaces.mutex
    have hfits := kept.fits hreplaces
    cases hstored with
    | reset hempty => simp [asked, hmutex, hempty]
    | copied _ _ hallocates _ _ => simp [asked, hmutex, hfits, hallocates]
    | failed hdata hfails => simp [asked, hdata, hfails, hfreed, errorResponse]
  · have hnone : ∀ attr, ¬Replaces s.1.store req mutexFree attr := by
      intro attr h
      obtain rfl := attribute_of_offset (h.offset.symm.trans offset)
      exact hreplaces h
    obtain ⟨code, hrefused⟩ := processWriteRequestEvent_refused allocates s.1.receiveDone hnone
    have hnot : ¬(mutexFree = true ∧ req.data.length ≤ 512 ∧ (req.data = [] ∨ allocates = true)) := by
      rintro ⟨hmutex, hfits, -⟩
      exact hreplaces (kept.replaces known hmutex service offset hfits)
    simp [appStep, hrefused, hnot, asked, errorResponse]

end Steps

theorem bootState_valueKept (serviceID : Nat) (garbage : Nat → Nat → UInt8) :
    ValueKept serviceID (bootState serviceID garbage, []) :=
  ⟨rfl, rfl, rfl, .inl ⟨rfl, rfl⟩⟩

/-- In every run the characteristic reads back as it was written, and refused writes leave it alone,
exactly if no allocation fails for a write that replaces data. -/
theorem characteristic_reads_back_iff (serviceID : Nat) (registered : serviceID ≠ 0) (garbage : Nat → Nat → UInt8)
    (ops : List AppOp) :
    ((∀ past, past <+: ops →
        ReadsBack serviceID (past.foldl (valueStep serviceID) (bootState serviceID garbage, []))) ∧
      Along (valueStep serviceID) (RefusesHarmlessly serviceID) (bootState serviceID garbage, []) ops) ↔
      Along (valueStep serviceID) (AllocatesForData serviceID) (bootState serviceID garbage, []) ops := by
  have hstart := bootState_valueKept serviceID garbage
  have hkeep (t : AppState × List UInt8) (op : AppOp) (kept : ValueKept serviceID t)
      (h : AllocatesForData serviceID t op) : ValueKept serviceID (valueStep serviceID t op) := kept.step registered h
  have hreads : Along (valueStep serviceID) (AllocatesForData serviceID) (bootState serviceID garbage, []) ops ↔
      ∀ past, past <+: ops →
        ReadsBack serviceID (past.foldl (valueStep serviceID) (bootState serviceID garbage, [])) := by
    apply Along.iff_always hstart
    · intro t kept
      exact kept.readsBack registered
    · exact hkeep
    · intro t op kept reads
      exact kept.needed registered reads
  constructor
  · rintro ⟨hall, -⟩
    exact hreads.mpr hall
  · intro along
    refine ⟨hreads.mp along, along.mono hstart hkeep ?_⟩
    intro t op kept h
    exact kept.refusesHarmlessly h

def writeOf (data : List UInt8) (allocates : Bool) : AppOp :=
  .gattWriteRequest ⟨4, 1, writeAccessReqCharOffset, data⟩ true allocates

theorem characteristic_reads_back_iff_of_writes :
    (∀ past, past <+: [writeOf [] false, writeOf [5, 6] true, writeOf [7] true] →
      ReadsBack 1 (past.foldl (valueStep 1) (bootState 1 fun _ _ => 0, []))) ∧
      Along (valueStep 1) (RefusesHarmlessly 1) (bootState 1 fun _ _ => 0, [])
        [writeOf [] false, writeOf [5, 6] true, writeOf [7] true] := by
  apply (characteristic_reads_back_iff 1 (by decide) (fun _ _ => 0) _).mpr
  refine ⟨?_, ?_, ?_, trivial⟩
  · intro _ _ _ hdata
    exact absurd rfl hdata
  · exact fun _ _ _ _ _ _ => rfl
  · exact fun _ _ _ _ _ _ => rfl

/-- The old value is released before the new buffer is refused. -/
theorem refused_write_loses_value : ¬∀ ops : List AppOp,
    (∀ past, past <+: ops → ReadsBack 1 (past.foldl (valueStep 1) (bootState 1 fun _ _ => 0, []))) ∧
      Along (valueStep 1) (RefusesHarmlessly 1) (bootState 1 fun _ _ => 0, []) ops := by
  intro h
  obtain ⟨-, -, hrefused, -⟩ := h [writeOf [5, 6] true, writeOf [7] false]
  have hsame := hrefused rfl rfl ⟨.insufficientResources, by decide +kernel⟩
  exact absurd hsame.1 (by decide +kernel)

end NvrxFirmware.TestApp
