import NvrxFirmware.TestAppModel

namespace NvrxFirmware.TestApp

/-- The number of milliseconds after which the tick starts again. -/
def tickWrap : Nat := 0xFFFFFFFF

/-- An operation stands with the time at which it is over, a state with the time that has passed. -/
def timedStep (s : AppState × Nat) (op : AppOp × Nat) : AppState × Nat := (appNext s.1 op.1, op.2)

/-- Time does not run backwards, and every reading of the clock is the time at which it is made. -/
def Clocked (s : AppState × Nat) (op : AppOp × Nat) : Prop :=
  s.2 ≤ op.2 ∧ op.2 < tickWrap ∧
    match op.1 with
    | .mainIteration clock₁ clock₂ _ => ∃ t₁ ∈ clock₁, ∃ t₂ ∈ clock₂, s.2 ≤ t₁ ∧ t₁ ≤ t₂ ∧ t₂ ≤ op.2
    | .gattConnected _ clock => ∃ t ∈ clock, s.2 ≤ t ∧ t ≤ op.2
    | .gattReadRequest _ _ clock => ∃ t ∈ clock, s.2 ≤ t ∧ t ≤ op.2
    | _ => True

instance (s : AppState × Nat) : DecidablePred (Clocked s) := fun op =>
  match op with
  | (.mainIteration _ _ _, _) => inferInstanceAs (Decidable (_ ∧ _ ∧ ∃ t₁ ∈ _, ∃ t₂ ∈ _, _))
  | (.gattConnected _ _, _) => inferInstanceAs (Decidable (_ ∧ _ ∧ ∃ t ∈ _, _))
  | (.gattReadRequest _ _ _, _) => inferInstanceAs (Decidable (_ ∧ _ ∧ ∃ t ∈ _, _))
  | (.localDevicePropertiesChanged _ _, _) | (.deviceAdvertisingStarted, _) | (.deviceAdvertisingStopped, _)
  | (.advertisingTimeout _, _) | (.gattDisconnected _, _) | (.gattConnectionMTUUpdate, _)
  | (.gattWriteRequest _ _ _, _) => inferInstanceAs (Decidable (_ ∧ _ ∧ True))

/-- The iteration calls `DisconnectRemoteDevice`, right after reading the clock at `d`. -/
def DisconnectsAt (s : AppState) (op : AppOp) (d : Nat) : Prop :=
  (∃ clock₁ result, op = .mainIteration clock₁ (some d) result) ∧
    ∃ addr, Call.disconnectRemoteDevice addr ∈ (appStep s op).2

/-- The iteration sends the status notification for a write. -/
def Notifies (s : AppState) (op : AppOp) : Prop :=
  (∃ clock₁ clock₂ result, op = .mainIteration clock₁ clock₂ result) ∧
    ∃ serviceID addr value, Call.sendHandleValueNotification serviceID addr value ∈ (appStep s op).2

def SameConnection (ops : List (AppOp × Nat)) : Prop :=
  ∀ op ∈ ops, (∀ addr clock, op.1 ≠ .gattConnected addr clock) ∧ ∀ result, op.1 ≠ .gattDisconnected result

/-- Whatever comes next on this connection, `main` does not close it in the second after `t`. -/
def GivesSecond (t : Nat) (s : AppState × Nat) : Prop :=
  ∀ before op, Along timedStep Clocked s (before ++ [op]) → SameConnection before →
    ∀ d, DisconnectsAt (before.foldl timedStep s).1 op.1 d → t + 1000 ≤ d

variable {s : AppState} {t t₁ t₂ : Nat} {result : Int}

def tickOf (t : Nat) : UInt32 := UInt32.ofNat (t % 0xFFFFFFFF)

theorem tickOf_toNat (h : t < tickWrap) : (tickOf t).toNat = t := by
  have hmod : t % 0xFFFFFFFF = t := Nat.mod_eq_of_lt h
  have hsize : t < 2 ^ 32 := Nat.lt_trans h (by decide)
  rw [tickOf, hmod, UInt32.toNat_ofNat']
  exact Nat.mod_eq_of_lt hsize

/-- What the timers of `main` can do before `RunBluetoothTask`. -/
inductive TimersChecked (s : AppState) (t₁ t₂ : Nat) : AppState → List Call → Prop
  | ended (next : AppState) : s.btConnected = true → sessionTimer s ≤ tickOf t₁ - s.prevSysTick →
      next.prevSysTick = tickOf t₂ → next.receiveDone = false →
      TimersChecked s t₁ t₂ next [.disconnectRemoteDevice s.currentRemoteBdAddr]
  | retried (next : AppState) : s.btConnected = false → next.prevSysTick = tickOf t₂ →
      next.receiveDone = s.receiveDone → next.btConnected = false → TimersChecked s t₁ t₂ next [.startAdvertising]
  | waited (next : AppState) : next.prevSysTick = s.prevSysTick → next.receiveDone = s.receiveDone →
      next.btConnected = s.btConnected → TimersChecked s t₁ t₂ next []

theorem startBtAdvertisement_rest (result : Int) (s : AppState) :
    (startBtAdvertisement result s).prevSysTick = s.prevSysTick ∧
      (startBtAdvertisement result s).receiveDone = s.receiveDone ∧
      (startBtAdvertisement result s).btConnected = s.btConnected := by
  unfold startBtAdvertisement
  split <;> exact ⟨rfl, rfl, rfl⟩

theorem checkTimers_checked (s : AppState) (t₁ t₂ : Nat) (result : Int) :
    TimersChecked s t₁ t₂ (checkTimers (some t₁) (some t₂) result s).1
      (checkTimers (some t₁) (some t₂) result s).2 := by
  unfold checkTimers
  split
  next hconnected =>
    dsimp only
    split
    next hdue => exact .ended _ hconnected hdue rfl rfl
    next => exact .waited _ rfl rfl rfl
  next hconnected =>
    have hoff : s.btConnected = false := by simpa using hconnected
    split
    next =>
      dsimp only
      split
      next =>
        obtain ⟨hmark, hdone, hconn⟩ := startBtAdvertisement_rest result
          { s with sysTick := tickOf t₂, prevSysTick := tickOf t₂ }
        exact .retried _ hoff hmark hdone (hconn.trans hoff)
      next => exact .waited _ rfl rfl rfl
    next => exact .waited s rfl rfl rfl

theorem runBluetoothTask_rest (s : AppState) : (runBluetoothTask s).1.prevSysTick = s.prevSysTick ∧
    (runBluetoothTask s).1.btConnected = s.btConnected ∧ (runBluetoothTask s).1.receiveDone = false := by
  unfold runBluetoothTask
  split
  next => exact ⟨rfl, rfl, rfl⟩
  next hdone => exact ⟨rfl, rfl, by simpa using hdone⟩

theorem mainIteration_checked (s : AppState) (t₁ t₂ : Nat) (result : Int) :
    ∃ next calls, TimersChecked s t₁ t₂ next calls ∧ appStep s (.mainIteration (some t₁) (some t₂) result) =
      ((runBluetoothTask next).1, calls ++ (runBluetoothTask next).2) :=
  ⟨_, _, checkTimers_checked s t₁ t₂ result, rfl⟩

theorem mainIteration_mark (s : AppState) (t₁ t₂ : Nat) (result : Int) :
    (appNext s (.mainIteration (some t₁) (some t₂) result)).prevSysTick = s.prevSysTick ∨
      (appNext s (.mainIteration (some t₁) (some t₂) result)).prevSysTick = tickOf t₂ := by
  obtain ⟨next, calls, hchecked, hstep⟩ := mainIteration_checked s t₁ t₂ result
  have hmark : (appNext s (.mainIteration (some t₁) (some t₂) result)).prevSysTick = next.prevSysTick := by
    rw [appNext, hstep]
    exact (runBluetoothTask_rest next).1
  rw [hmark]
  cases hchecked with
  | ended _ _ hnext _ => exact .inr hnext
  | retried _ hnext _ _ => exact .inr hnext
  | waited hnext _ _ => exact .inl hnext

theorem mainIteration_disconnects {d : Nat} (h : DisconnectsAt s (.mainIteration (some t₁) (some t₂) result) d) :
    d = t₂ ∧ sessionTimer s ≤ tickOf t₁ - s.prevSysTick := by
  obtain ⟨⟨clock₁, result', hop⟩, addr, hcall⟩ := h
  obtain ⟨next, calls, hchecked, hstep⟩ := mainIteration_checked s t₁ t₂ result
  have hd : t₂ = d := by
    injection hop with _ hclock _
    exact Option.some.inj hclock
  refine ⟨hd.symm, ?_⟩
  rw [hstep, List.mem_append] at hcall
  have htask : Call.disconnectRemoteDevice addr ∉ (runBluetoothTask next).2 := by
    unfold runBluetoothTask
    split <;> simp
  have hcalls := hcall.resolve_right htask
  cases hchecked with
  | ended _ hdue _ _ => exact hdue
  | retried _ _ _ _ => simp at hcalls
  | waited _ _ _ => simp at hcalls

/-- A pending write belongs to a connection that the program knows of. -/
def PendingConnected (s : AppState) : Prop := s.receiveDone = true → s.btConnected = true

theorem mainIteration_notifies (pending : PendingConnected s)
    (h : Notifies s (.mainIteration (some t₁) (some t₂) result)) :
    let next := appNext s (.mainIteration (some t₁) (some t₂) result)
    next.prevSysTick = s.prevSysTick ∧ next.btConnected = true ∧ next.btReadReqTimerF = true := by
  obtain ⟨_, serviceID, addr, value, hcall⟩ := h
  obtain ⟨next, calls, hchecked, hstep⟩ := mainIteration_checked s t₁ t₂ result
  have hcalls : Call.sendHandleValueNotification serviceID addr value ∉ calls := by
    cases hchecked <;> simp
  rw [hstep, List.mem_append] at hcall
  have hcall := hcall.resolve_left hcalls
  have hdone : next.receiveDone = true := by
    by_contra hnone
    simp [runBluetoothTask, hnone] at hcall
  have hnext : appNext s (.mainIteration (some t₁) (some t₂) result) =
      { clearWriteCharCommonBuff next with btReadReqTimerF := true } := by
    rw [appNext, hstep]
    simp [runBluetoothTask, hdone]
  dsimp only
  rw [hnext]
  cases hchecked with
  | ended _ _ _ hnone => exact absurd hdone (by simp [hnone])
  | retried hoff _ hsame _ => exact absurd (pending (hsame.symm.trans hdone)) (by simp [hoff])
  | waited hmark hsame hconn => exact ⟨hmark, hconn.trans (pending (hsame.symm.trans hdone)), rfl⟩

theorem appNext_pendingConnected (op : AppOp) (h : PendingConnected s) : PendingConnected (appNext s op) := by
  have hadvert (result : Int) (u : AppState) (hu : PendingConnected u) :
      PendingConnected (startBtAdvertisement result u) := by
    obtain ⟨_, hdone, hconn⟩ := startBtAdvertisement_rest result u
    unfold PendingConnected
    rwa [hdone, hconn]
  cases op with
  | mainIteration clock₁ clock₂ result =>
    intro hdone
    have hnone := (runBluetoothTask_rest (checkTimers clock₁ clock₂ result s).1).2.2
    exact absurd (hnone.symm.trans hdone) Bool.false_ne_true
  | localDevicePropertiesChanged connectableMode result =>
    cases connectableMode with
    | true => exact h
    | false => exact hadvert result s h
  | deviceAdvertisingStarted => exact h
  | deviceAdvertisingStopped => exact h
  | advertisingTimeout result => exact hadvert result s h
  | gattConnected addr clock =>
    intro _
    cases clock <;> rfl
  | gattDisconnected result =>
    apply hadvert
    intro hdone
    exact absurd hdone Bool.false_ne_true
  | gattConnectionMTUUpdate => exact fun _ => rfl
  | gattWriteRequest req mutexFree allocates => exact fun _ => rfl
  | gattReadRequest req mutexFree clock =>
    intro _
    simp only [appNext, appStep]
    split
    · cases clock <;> rfl
    · rfl

/-- The mark of the session timer is the time of a reading, or as it was. -/
theorem timedStep_mark {s : AppState × Nat} {op : AppOp × Nat} (clocked : Clocked s op) :
    (timedStep s op).1.prevSysTick = s.1.prevSysTick ∨
      ∃ u, s.2 ≤ u ∧ u ≤ op.2 ∧ (timedStep s op).1.prevSysTick = tickOf u := by
  obtain ⟨op, now⟩ := op
  obtain ⟨hlast, hwrap, hreadings⟩ := clocked
  cases op with
  | mainIteration clock₁ clock₂ result =>
    obtain ⟨t₁, rfl, t₂, rfl, h₁, h₂, h₃⟩ := hreadings
    rcases mainIteration_mark s.1 t₁ t₂ result with hsame | hnew
    · exact .inl hsame
    · exact .inr ⟨t₂, by omega, h₃, hnew⟩
  | localDevicePropertiesChanged connectableMode result =>
    cases connectableMode with
    | true => exact .inl rfl
    | false => exact .inl (startBtAdvertisement_rest result s.1).1
  | deviceAdvertisingStarted => exact .inl rfl
  | deviceAdvertisingStopped => exact .inl rfl
  | advertisingTimeout result => exact .inl (startBtAdvertisement_rest result s.1).1
  | gattConnected addr clock =>
    obtain ⟨t, rfl, h₁, h₂⟩ := hreadings
    exact .inr ⟨t, h₁, h₂, rfl⟩
  | gattDisconnected result => exact .inl (startBtAdvertisement_rest result _).1
  | gattConnectionMTUUpdate => exact .inl rfl
  | gattWriteRequest req mutexFree allocates => exact .inl rfl
  | gattReadRequest req mutexFree clock =>
    obtain ⟨t, rfl, h₁, h₂⟩ := hreadings
    simp only [timedStep, appNext, appStep]
    split
    · exact .inr ⟨t, h₁, h₂, rfl⟩
    · exact .inl rfl

/-- The timer has been marked at `t` or later, and not in the future. -/
structure MarkedSince (t : Nat) (s : AppState × Nat) : Prop where
  since : t ≤ s.1.prevSysTick.toNat
  past : s.1.prevSysTick.toNat ≤ s.2

theorem MarkedSince.step {s : AppState × Nat} {op : AppOp × Nat} (h : MarkedSince t s) (clocked : Clocked s op) :
    MarkedSince t (timedStep s op) := by
  have hsince := h.since
  have hpast := h.past
  have htime : s.2 ≤ op.2 ∧ op.2 < tickWrap := ⟨clocked.1, clocked.2.1⟩
  rcases timedStep_mark clocked with hsame | ⟨u, hlow, hhigh, hnew⟩
  · refine ⟨?_, ?_⟩
    · rw [hsame]
      exact hsince
    · rw [hsame]
      exact Nat.le_trans hpast htime.1
  · have hu : (tickOf u).toNat = u := tickOf_toNat (by omega)
    refine ⟨?_, ?_⟩
    · rw [hnew, hu]
      omega
    · rw [hnew, hu]
      exact hhigh

theorem sessionTimer_ge (s : AppState) : 1000 ≤ (sessionTimer s).toNat := by
  unfold sessionTimer
  split <;> decide

/-- No session of either length, counted from the mark, runs out in the second after it. -/
theorem MarkedSince.disconnects_late {s : AppState × Nat} {op : AppOp × Nat} {d : Nat} (h : MarkedSince t s)
    (clocked : Clocked s op) (hdisconnects : DisconnectsAt s.1 op.1 d) : t + 1000 ≤ d := by
  obtain ⟨op, now⟩ := op
  obtain ⟨clock₁, result, hop⟩ := hdisconnects.1
  have hop : op = .mainIteration clock₁ (some d) result := hop
  subst hop
  obtain ⟨-, hwrap, t₁, rfl, t₂, hd, hfirst, horder, hlast⟩ := clocked
  obtain ⟨-, hdue⟩ := mainIteration_disconnects hdisconnects
  have hd : t₂ = d := (Option.some.inj hd).symm
  have hsince := h.since
  have hpast := h.past
  have hnow : (tickOf t₁).toNat = t₁ := tickOf_toNat (by omega)
  have hle : s.1.prevSysTick ≤ tickOf t₁ := by
    rw [UInt32.le_iff_toNat_le, hnow]
    omega
  have helapsed : (tickOf t₁ - s.1.prevSysTick).toNat = t₁ - s.1.prevSysTick.toNat := by
    rw [UInt32.toNat_sub_of_le _ _ hle, hnow]
  have hdue := UInt32.le_iff_toNat_le.mp hdue
  have htimer := sessionTimer_ge s.1
  omega

theorem MarkedSince.givesSecond {s : AppState × Nat} (h : MarkedSince t s) : GivesSecond t s := by
  intro before op along _ d hdisconnects
  obtain ⟨hbefore, hclocked⟩ := Along.concat_iff.mp along
  have hmark : MarkedSince t (before.foldl timedStep s) :=
    hbefore.invariant h (fun _ _ hm hc => hm.step hc)
  exact hmark.disconnects_late hclocked hdisconnects

theorem session_ends (t₂ : Nat) (result : Int) (connected : s.btConnected = true)
    (due : sessionTimer s ≤ tickOf t₁ - s.prevSysTick) :
    DisconnectsAt s (.mainIteration (some t₁) (some t₂) result) t₂ := by
  refine ⟨⟨_, _, rfl⟩, s.currentRemoteBdAddr, ?_⟩
  have hstep : appStep s (.mainIteration (some t₁) (some t₂) result) =
      mainIteration (some t₁) (some t₂) result s := rfl
  rw [hstep]
  unfold mainIteration checkTimers
  rw [if_pos connected]
  apply List.mem_append_left
  split
  next => exact List.mem_singleton.mpr rfl
  next hrunning => exact absurd due hrunning

/-- What holds of the timers and flags in every run in which time goes on. -/
structure SessionKept (s : AppState × Nat) : Prop where
  pending : PendingConnected s.1
  mark : MarkedSince 0 s

theorem SessionKept.step {s : AppState × Nat} {op : AppOp × Nat} (h : SessionKept s) (clocked : Clocked s op) :
    SessionKept (timedStep s op) :=
  ⟨appNext_pendingConnected op.1 h.pending, h.mark.step clocked⟩

/-- A session of one second that did not start just now is over before a second has passed. -/
theorem stale_session_ends {s : AppState × Nat} (connected : s.1.btConnected = true)
    (short : s.1.btReadReqTimerF = true) (wrap : s.2 < tickWrap) (stale : s.1.prevSysTick.toNat < s.2)
    (room : s.1.prevSysTick.toNat + 1000 < tickWrap) : ¬GivesSecond s.2 s := by
  intro gives
  -- the iteration after a second from the mark, or at once if that is over already
  let u := max s.2 (s.1.prevSysTick.toNat + 1000)
  have hu : u < tickWrap := by omega
  have hnow : (tickOf u).toNat = u := tickOf_toNat hu
  have hle : s.1.prevSysTick ≤ tickOf u := by
    rw [UInt32.le_iff_toNat_le, hnow]
    omega
  have hdue : sessionTimer s.1 ≤ tickOf u - s.1.prevSysTick := by
    rw [sessionTimer, if_pos short, UInt32.le_iff_toNat_le, UInt32.toNat_sub_of_le _ _ hle, hnow]
    have hthousand : (1000 : UInt32).toNat = 1000 := rfl
    omega
  have hends := session_ends u 0 connected hdue
  have hclocked : Clocked s (.mainIteration (some u) (some u) 0, u) :=
    ⟨Nat.le_max_left _ _, hu, u, rfl, u, rfl, Nat.le_max_left _ _, Nat.le_refl _, Nat.le_refl _⟩
  have hsecond := gives [] (.mainIteration (some u) (some u) 0, u) ⟨hclocked, trivial⟩ (by simp [SameConnection])
    u hends
  omega

theorem MarkedSince.givesSecond_of {s : AppState × Nat} {mark : Nat} (h : MarkedSince mark s)
    (fresh : mark = t ∨ tickWrap ≤ mark + 1000) : GivesSecond t s := by
  intro before op along same d hdisconnects
  have hd := h.givesSecond before op along same d hdisconnects
  rcases fresh with hfresh | hover
  · omega
  · obtain ⟨-, hclocked⟩ := Along.concat_iff.mp along
    have hend := hclocked.2.1
    obtain ⟨⟨clock₁, result, hop⟩, -⟩ := hdisconnects
    have hreadings := hclocked.2.2
    rw [hop] at hreadings
    obtain ⟨_, _, t₂, ht₂, _, _, hle⟩ := hreadings
    have ht₂ : t₂ = d := (Option.some.inj ht₂).symm
    omega

/-- The notification shortens the session but does not mark its start again. -/
theorem notified_givesSecond_iff {s : AppState × Nat} {op : AppOp × Nat} (kept : SessionKept s)
    (clocked : Clocked s op) (notifies : Notifies s.1 op.1) : GivesSecond op.2 (timedStep s op) ↔
      s.1.prevSysTick.toNat = op.2 ∨ tickWrap ≤ s.1.prevSysTick.toNat + 1000 := by
  have hpast := kept.mark.past
  obtain ⟨op, now⟩ := op
  obtain ⟨clock₁, clock₂, result, hop⟩ := notifies.1
  have hop : op = .mainIteration clock₁ clock₂ result := hop
  subst hop
  have hwrap : now < tickWrap := clocked.2.1
  have hlast : s.2 ≤ now := clocked.1
  obtain ⟨t₁, rfl, t₂, rfl, -⟩ := clocked.2.2
  obtain ⟨hmark, hconnected, hshort⟩ := mainIteration_notifies kept.pending notifies
  have hsame : (timedStep s (.mainIteration (some t₁) (some t₂) result, now)).1.prevSysTick.toNat =
      s.1.prevSysTick.toNat := congrArg UInt32.toNat hmark
  constructor
  · intro gives
    by_contra hnever
    obtain ⟨hlate, hroom⟩ := not_or.mp hnever
    dsimp only at hlate
    refine stale_session_ends hconnected hshort hwrap ?_ ?_ gives
    · show (timedStep s _).1.prevSysTick.toNat < now
      omega
    · omega
  · intro hfresh
    have hafter : MarkedSince s.1.prevSysTick.toNat (timedStep s (.mainIteration (some t₁) (some t₂) result, now)) := by
      refine ⟨Nat.le_of_eq hsame.symm, ?_⟩
      rw [hsame]
      exact Nat.le_trans hpast hlast
    exact hafter.givesSecond_of hfresh

theorem statusRead_givesSecond {s : AppState × Nat} {req : ReadRequest} {mutexFree : Bool} {now : Nat}
    (clocked : Clocked s (.gattReadRequest req mutexFree (some t), now))
    (status : req.attributeOffset = readStatusCharOffset) :
    GivesSecond t (timedStep s (.gattReadRequest req mutexFree (some t), now)) := by
  obtain ⟨-, hwrap, t', ht, -, hlast⟩ := clocked
  have ht : t' = t := (Option.some.inj ht).symm
  have hlast : t ≤ now := ht ▸ hlast
  have hmark : (timedStep s (.gattReadRequest req mutexFree (some t), now)).1.prevSysTick = tickOf t := by
    simp only [timedStep, appNext, appStep]
    rw [if_pos status]
    rfl
  have hnow : (tickOf t).toNat = t := tickOf_toNat (by omega)
  apply MarkedSince.givesSecond
  refine ⟨?_, ?_⟩
  · exact Nat.le_of_eq (hnow.symm.trans (congrArg UInt32.toNat hmark.symm))
  · rw [hmark, hnow]
    exact hlast

/-- From `t` on the client is to have its second: the iteration that ends at `t` sent
the notification, or the read of the status found the clock at `t`. -/
inductive OwesSecond (s : AppState) : AppOp × Nat → Nat → Prop
  | notified (op : AppOp) (t : Nat) : Notifies s op → OwesSecond s (op, t) t
  | statusRead (req : ReadRequest) (mutexFree : Bool) (t now : Nat) :
      req.attributeOffset = readStatusCharOffset → OwesSecond s (.gattReadRequest req mutexFree (some t), now) t

def KeepsPromise (s : AppState × Nat) (op : AppOp × Nat) : Prop :=
  ∀ t, OwesSecond s.1 op t → GivesSecond t (timedStep s op)

/-- The session is no older than the notification, or cannot run out before the tick starts again. -/
def NotifiesFresh (s : AppState × Nat) (op : AppOp × Nat) : Prop :=
  Notifies s.1 op.1 → s.1.prevSysTick.toNat = op.2 ∨ tickWrap ≤ s.1.prevSysTick.toNat + 1000

theorem keepsPromise_iff {s : AppState × Nat} {op : AppOp × Nat} (kept : SessionKept s) (clocked : Clocked s op) :
    KeepsPromise s op ↔ NotifiesFresh s op := by
  constructor
  · intro promise notifies
    exact (notified_givesSecond_iff kept clocked notifies).mp (promise op.2 (.notified op.1 op.2 notifies))
  · intro fresh t owes
    cases owes with
    | notified op t notifies => exact (notified_givesSecond_iff kept clocked notifies).mpr (fresh notifies)
    | statusRead req mutexFree t now status => exact statusRead_givesSecond clocked status

theorem bootState_kept (serviceID : Nat) (garbage : Nat → Nat → UInt8) :
    SessionKept (bootState serviceID garbage, 0) := by
  refine ⟨fun h => absurd h Bool.false_ne_true, ?_, ?_⟩
  · exact Nat.zero_le _
  · exact Nat.le_refl 0

/-- In every run the client gets its seconds, whatever happens afterwards, exactly if each
notification is sent in the millisecond in which the running session started. -/
theorem client_gets_second_iff (serviceID : Nat) (garbage : Nat → Nat → UInt8) (ops : List (AppOp × Nat))
    (clocked : Along timedStep Clocked (bootState serviceID garbage, 0) ops) :
    Along timedStep KeepsPromise (bootState serviceID garbage, 0) ops ↔
      Along timedStep NotifiesFresh (bootState serviceID garbage, 0) ops := by
  apply clocked.congr (bootState_kept serviceID garbage)
  · intro s op kept hop
    exact kept.step hop
  · intro s op kept hop
    exact keepsPromise_iff kept hop

def accessRequest : WriteRequest := ⟨1, 1, writeAccessReqCharOffset, [7]⟩

theorem client_gets_second_iff_of_quick_client :
    Along timedStep KeepsPromise (bootState 1 fun _ _ => 0, 0)
      [(.gattConnected 7 (some 40), 40), (.gattWriteRequest accessRequest true true, 40),
        (.mainIteration (some 40) (some 40) 0, 40)] := by
  refine (client_gets_second_iff 1 (fun _ _ => 0) _ (by decide)).mpr ⟨?_, ?_, ?_, trivial⟩
  · rintro ⟨⟨_, _, _, hop⟩, -⟩
    cases hop
  · rintro ⟨⟨_, _, _, hop⟩, -⟩
    cases hop
  · exact fun _ => .inl rfl

/-- A client that writes five seconds after connecting is notified and disconnected at once. -/
theorem notified_client_disconnected_at_once : ¬∀ ops : List (AppOp × Nat),
    Along timedStep Clocked (bootState 1 fun _ _ => 0, 0) ops →
      Along timedStep KeepsPromise (bootState 1 fun _ _ => 0, 0) ops := by
  intro h
  let past : List (AppOp × Nat) := [(.gattConnected 7 (some 0), 0), (.gattWriteRequest accessRequest true true, 5000)]
  let notification : AppOp × Nat := (.mainIteration (some 5000) (some 5000) 0, 5000)
  have hpromise := (Along.concat_iff.mp (h (past ++ [notification]) (by decide +kernel))).2
  have howes : OwesSecond (past.foldl timedStep (bootState 1 fun _ _ => 0, 0)).1 notification 5000 :=
    .notified _ _ ⟨⟨_, _, _, rfl⟩, 1, 7, readStsRespBytes, by decide +kernel⟩
  have hsecond := hpromise 5000 howes [] (.mainIteration (some 5001) (some 5001) 0, 5001) (by decide +kernel)
    (by simp [SameConnection]) 5001 ⟨⟨_, _, rfl⟩, 7, by decide +kernel⟩
  omega

end NvrxFirmware.TestApp
