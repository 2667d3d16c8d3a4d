import NvrxFirmware.BTClientPhases

namespace NvrxFirmware.BTClient

variable {w : World} {e : Event} {addr : BdAddr}

def delivered (w : World) (e : Event) : Delivered := ⟨e, w.state.readRandomHandle, w.state.readStatusHandle⟩

theorem exists_delivered {P : Delivered → Prop} :
    (∃ d ∈ (deliver e w).round, P d) ↔ (∃ d ∈ w.round, P d) ∨ P (delivered w e) := by
  simp [deliver, delivered, or_and_right, exists_or]

theorem readResponse_state (s : ClientState) (handle : Nat) (value : List UInt8) :
    (readResponse handle value s).encRandomNo = (if s.isRandom handle value then randomOf value else s.encRandomNo) ∧
      (readResponse handle value s).userStatus =
        (if s.isStatus handle value then statusOf value else s.userStatus) ∧
      (readResponse handle value s).goAheadF = (s.goAheadF || s.isRandom handle value || s.isStatus handle value) ∧
      (readResponse handle value s).remoteBDAddr = s.remoteBDAddr ∧
      (readResponse handle value s).deviceName = s.deviceName := by
  have same (bytes : List UInt8) :
      ClientState.isStatus { s with encRandomNo := bytes, goAheadF := true } handle value = s.isStatus handle value :=
    rfl
  cases hr : s.isRandom handle value <;> cases hs : s.isStatus handle value <;> simp [readResponse, hr, hs, same]

theorem eventCallback_deviceName (s : ClientState) (e : Event) : (eventCallback s e).deviceName = s.deviceName := by
  cases e with
  | readResponse handle value => exact (readResponse_state s handle value).2.2.2.2
  | remoteDeviceFound deviceName addr => simp only [eventCallback]; split <;> rfl
  | remoteDevicePropertiesChanged state known => simp only [eventCallback]; split <;> rfl
  | _ => rfl

theorem eventCallback_goAheadF (s : ClientState) (e : Event) :
    (eventCallback s e).goAheadF = (s.goAheadF || sets s e) := by
  cases e with
  | readResponse handle value =>
    rw [eventCallback, (readResponse_state s handle value).2.2.1, sets, Bool.or_assoc]
  | remoteDeviceFound deviceName addr => simp only [eventCallback, sets]; split <;> simp [*]
  | remoteDevicePropertiesChanged state known => simp only [eventCallback, sets]; split <;> simp [*]
  | _ => simp [eventCallback, sets]

theorem eventCallback_of_not_sets {s : ClientState} (h : sets s e = false) : eventCallback s e = s := by
  cases e with
  | readResponse handle value =>
    simp only [sets, Bool.or_eq_false_iff] at h
    simp [eventCallback, readResponse, h]
  | remoteDeviceFound deviceName addr =>
    have hname : s.matchesName deviceName = false := h
    rw [eventCallback, hname]
    rfl
  | remoteDevicePropertiesChanged state known =>
    have hknown : (state && known) = false := h
    rw [eventCallback, hknown]
    rfl
  | scanStarted => rfl
  | scanStopped | gattConnected => cases h

theorem eventCallback_remoteBDAddr (s : ClientState) (h : ∀ deviceName addr, e ≠ .remoteDeviceFound deviceName addr) :
    (eventCallback s e).remoteBDAddr = s.remoteBDAddr := by
  cases e with
  | readResponse handle value => exact (readResponse_state s handle value).2.2.2.1
  | remoteDeviceFound deviceName addr => exact absurd rfl (h deviceName addr)
  | remoteDevicePropertiesChanged state known => simp only [eventCallback]; split <;> rfl
  | _ => rfl

/-- Events other than read responses leave the two values that `main` reads. -/
theorem eventCallback_values (s : ClientState) (h : ∀ handle value, e ≠ .readResponse handle value) :
    (eventCallback s e).encRandomNo = s.encRandomNo ∧ (eventCallback s e).userStatus = s.userStatus := by
  cases e with
  | readResponse handle value => exact absurd rfl (h handle value)
  | remoteDeviceFound deviceName addr => simp only [eventCallback]; split <;> exact ⟨rfl, rfl⟩
  | remoteDevicePropertiesChanged state known => simp only [eventCallback]; split <;> exact ⟨rfl, rfl⟩
  | _ => exact ⟨rfl, rfl⟩

theorem reported_deliver : Reported (deliver e w) addr ↔
    Reported w addr ∨ (delivered w e).reports w.state.deviceName addr = true := by
  rw [Reported, exists_delivered]
  simp only [deliver, eventCallback_deviceName, Reported]

theorem finds_device_iff (hs : sets w.state e = true) : Finds w e .device ↔ Holds (deliver e w) .device := by
  rw [Holds, reported_deliver]
  by_cases hfound : ∃ deviceName addr, e = .remoteDeviceFound deviceName addr
  · obtain ⟨deviceName, addr, rfl⟩ := hfound
    have hmatch : w.state.matchesName deviceName = true := hs
    have haddr : (deliver (.remoteDeviceFound deviceName addr) w).state.remoteBDAddr = addr := by
      simp [deliver, eventCallback, hmatch]
    rw [haddr]
    simp [Finds, hmatch, Delivered.reports, delivered, or_comm]
  · push Not at hfound
    have haddr : (deliver e w).state.remoteBDAddr = w.state.remoteBDAddr := eventCallback_remoteBDAddr _ hfound
    rw [haddr]
    cases e with
    | remoteDeviceFound deviceName addr => exact absurd rfl (hfound deviceName addr)
    | _ => simp [Finds, Delivered.reports, delivered]

theorem finds_random_iff : Finds w e .random ↔ Holds (deliver e w) .random := by
  rw [Holds, RandomReceived, exists_delivered]
  by_cases hresp : ∃ handle value, e = .readResponse handle value
  · obtain ⟨handle, value, rfl⟩ := hresp
    have henc : (deliver (.readResponse handle value) w).state.encRandomNo = _ :=
      (readResponse_state w.state handle value).1
    have hbrings (bytes : List UInt8) : (delivered w (.readResponse handle value)).brings bytes =
        (w.state.isRandom handle value && randomOf value = bytes) := rfl
    rw [henc, hbrings]
    cases hr : w.state.isRandom handle value <;> simp [Finds, hr, RandomReceived]
  · push Not at hresp
    have henc : (deliver e w).state.encRandomNo = w.state.encRandomNo := (eventCallback_values _ hresp).1
    rw [henc]
    cases e with
    | readResponse handle value => exact absurd rfl (hresp handle value)
    | _ => simp [Finds, Delivered.brings, delivered, RandomReceived]

theorem finds_status_iff : Finds w e .status ↔ Holds (deliver e w) .status := by
  rw [Holds, StatusReceived, exists_delivered]
  by_cases hresp : ∃ handle value, e = .readResponse handle value
  · obtain ⟨handle, value, rfl⟩ := hresp
    have hstatus : (deliver (.readResponse handle value) w).state.userStatus = _ :=
      (readResponse_state w.state handle value).2.1
    have htells (status : UInt8) : (delivered w (.readResponse handle value)).tells status =
        (w.state.isStatus handle value && statusOf value = status) := rfl
    rw [hstatus, htells]
    cases hs : w.state.isStatus handle value <;> simp [Finds, hs, StatusReceived]
  · push Not at hresp
    have hstatus : (deliver e w).state.userStatus = w.state.userStatus := (eventCallback_values _ hresp).2
    rw [hstatus]
    cases e with
    | readResponse handle value => exact absurd rfl (hresp handle value)
    | _ => simp [Finds, Delivered.tells, delivered, StatusReceived]

theorem finds_busy_iff : Finds w e .busy ↔ Holds (deliver e w) .busy := by
  by_cases hresp : ∃ handle value, e = .readResponse handle value
  · obtain ⟨handle, value, rfl⟩ := hresp
    have hstatus : (deliver (.readResponse handle value) w).state.userStatus = _ :=
      (readResponse_state w.state handle value).2.1
    rw [Holds, hstatus]
    cases hs : w.state.isStatus handle value <;> simp [Finds, hs]
  · push Not at hresp
    have hstatus : (deliver e w).state.userStatus = w.state.userStatus := (eventCallback_values _ hresp).2
    rw [Holds, hstatus]
    cases e with
    | readResponse handle value => exact absurd rfl (hresp handle value)
    | _ => rfl

/-- What an event that raises the flag finds is what holds after its delivery. -/
theorem finds_iff_holds (hs : sets w.state e = true) (f : Fact) : Finds w e f ↔ Holds (deliver e w) f := by
  cases f with
  | nothing => rfl
  | device => exact finds_device_iff hs
  | connection => exact Or.comm.trans exists_delivered.symm
  | random => exact finds_random_iff
  | status => exact finds_status_iff
  | busy => exact finds_busy_iff
  | never => rfl

theorem holds_deliver_of_not_sets {f : Fact} (hs : sets w.state e = false) (h : Holds w f) : Holds (deliver e w) f := by
  have hstate : (deliver e w).state = w.state := eventCallback_of_not_sets hs
  cases f with
  | nothing => trivial
  | device =>
    rw [Holds, hstate]
    exact reported_deliver.mpr (.inl h)
  | connection => exact exists_delivered.mpr (.inl h)
  | random =>
    rw [Holds, hstate]
    exact exists_delivered.mpr (.inl h)
  | status =>
    rw [Holds, hstate]
    exact exists_delivered.mpr (.inl h)
  | busy =>
    rw [Holds, hstate]
    exact h
  | never => exact h

theorem deliver_inPhase (h : InPhase w) (orderly : Orderly w (.deliver e)) : InPhase (deliver e w) := by
  cases hs : sets w.state e with
  | true =>
    obtain ⟨hraised, hpassed⟩ := orderly hs
    constructor
    · intro _
      exact (finds_iff_holds hs _).mp hraised
    · exact (finds_iff_holds hs _).mp hpassed
  | false =>
    constructor
    · intro hflag
      have hgo : (eventCallback w.state e).goAheadF = true := hflag
      rw [eventCallback_goAheadF, hs, Bool.or_false] at hgo
      exact holds_deliver_of_not_sets hs (h.raised hgo)
    · exact holds_deliver_of_not_sets hs h.passed

end NvrxFirmware.BTClient
