import NvrxFirmware.TestAppModel

namespace NvrxFirmware.TestApp

variable {s : AppState} {result : Int} {clock : Option Nat}

/-- A client is connected, can find the device, or `main` will try to advertise again. -/
def Findable (s : AppState) : Prop := s.btConnected = false → s.btAdvertised = false → s.startAdvtF = true

instance (s : AppState) : Decidable (Findable s) := inferInstanceAs (Decidable (_ → _ → _))

/-- The step does not take the device off the air with no connection and no retry pending. -/
def KeepsRetrying (s : AppState) : AppOp → Prop
  | .deviceAdvertisingStopped => s.btConnected = true ∨ s.startAdvtF = true
  | .advertisingTimeout result => result = 0 ∨ s.btConnected = true ∨ s.startAdvtF = true
  | .localDevicePropertiesChanged connectableMode result =>
    connectableMode = true ∨ result = 0 ∨ s.btConnected = true ∨ s.startAdvtF = true
  | .gattDisconnected result => result = 0 ∨ s.startAdvtF = true
  | _ => True

theorem startBtAdvertisement_findable : Findable (startBtAdvertisement result s) ↔
    result = 0 ∨ s.btConnected = true ∨ s.startAdvtF = true := by
  unfold startBtAdvertisement Findable
  split
  next h => simp [h]
  next h => cases hc : s.btConnected <;> simp [h]

theorem getSysTick_findable : Findable (getSysTick clock s).2 ↔ Findable s := by
  cases clock <;> rfl

theorem getSysTick_flags : (getSysTick clock s).2.btConnected = s.btConnected ∧
    (getSysTick clock s).2.btAdvertised = s.btAdvertised ∧ (getSysTick clock s).2.startAdvtF = s.startAdvtF := by
  cases clock <;> exact ⟨rfl, rfl, rfl⟩

theorem runBluetoothTask_findable : Findable (runBluetoothTask s).1 ↔ Findable s := by
  unfold runBluetoothTask
  split <;> rfl

theorem endSession_findable : Findable (endSession clock s).1 := fun _ _ => rfl

theorem retryAdvertisement_findable (h : s.startAdvtF = true) : Findable (retryAdvertisement clock result s).1 := by
  simp only [retryAdvertisement, startBtAdvertisement_findable, getSysTick_flags, h, or_true]

theorem checkTimers_findable {clock₁ clock₂ : Option Nat} (h : Findable s) :
    Findable (checkTimers clock₁ clock₂ result s).1 := by
  unfold checkTimers
  split
  next hc =>
    dsimp only
    split
    · exact endSession_findable
    · exact getSysTick_findable.mpr h
  next hc =>
    split
    next hf =>
      dsimp only
      split
      · exact retryAdvertisement_findable (getSysTick_flags.2.2.trans hf)
      · exact getSysTick_findable.mpr h
    next => exact h

theorem appNext_findable_iff (h : Findable s) (op : AppOp) : Findable (appNext s op) ↔ KeepsRetrying s op := by
  cases op with
  | mainIteration clock₁ clock₂ result =>
    simp only [KeepsRetrying, iff_true]
    exact runBluetoothTask_findable.mpr (checkTimers_findable h)
  | localDevicePropertiesChanged connectableMode result =>
    cases connectableMode with
    | true => simpa [appNext, appStep, KeepsRetrying] using h
    | false => simpa [appNext, appStep, KeepsRetrying] using startBtAdvertisement_findable
  | deviceAdvertisingStarted => simp [appNext, appStep, KeepsRetrying, Findable]
  | deviceAdvertisingStopped =>
    cases hc : s.btConnected <;> simp [appNext, appStep, KeepsRetrying, Findable, hc]
  | advertisingTimeout result => exact startBtAdvertisement_findable
  | gattConnected addr clock =>
    simp [appNext, appStep, KeepsRetrying, Findable, getSysTick_flags]
  | gattDisconnected result =>
    simp [appNext, appStep, KeepsRetrying, startBtAdvertisement_findable, clearWriteCharCommonBuff]
  | gattConnectionMTUUpdate => simp [appNext, appStep, KeepsRetrying, Findable]
  | gattWriteRequest req mutexFree allocates => simp [appNext, appStep, KeepsRetrying, Findable]
  | gattReadRequest req mutexFree clock =>
    simp only [appNext, appStep, KeepsRetrying, iff_true]
    split <;> simp [Findable, getSysTick_flags]

/-- From a successful start of the advertisement on, the device stays findable
exactly as long as every step keeps retrying. -/
theorem findable_iff_keeps_retrying (s : AppState) (ops : List AppOp) :
    (∀ past, past <+: ops → Findable (past.foldl appNext (startBtAdvertisement 0 s))) ↔
      Along appNext KeepsRetrying (startBtAdvertisement 0 s) ops := by
  symm
  apply Along.iff_always (P := Findable)
  · exact startBtAdvertisement_findable.mpr (.inl rfl)
  · intro t h
    exact h
  · intro t op h hkeeps
    exact (appNext_findable_iff h op).mpr hkeeps
  · intro t op h hfindable
    exact (appNext_findable_iff h op).mp hfindable

def startState : AppState where
  currentRemoteBdAddr := 0
  btAdvertised := false
  btConnected := false
  btReadReqTimerF := false
  sysTick := 0
  prevSysTick := 0
  receiveDone := false
  btTimerValue := 0
  startAdvtF := false
  store := initialStore 1 fun _ _ => 0

theorem client_leaves_and_restart_fails : ¬∀ (s : AppState) (ops : List AppOp),
    Findable (ops.foldl appNext (startBtAdvertisement 0 s)) := by
  intro h
  exact absurd (h startState [.gattConnected 7 (some 0), .gattDisconnected (-1)]) (by decide)

end NvrxFirmware.TestApp
