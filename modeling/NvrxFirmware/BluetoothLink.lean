import NvrxFirmware.BTClientOrder
import NvrxFirmware.TestAppValues

namespace NvrxFirmware.BluetoothLink

open BTClient (BtOp ClientState Event Reply World)
open TestApp (AppOp AppState Store)

/-- The client and the test program as its peripheral, with the handles that wait to be read and the values that wait
for the client. -/
structure Link where
  client : World
  app : AppState
  reads : List Nat
  answers : List (Nat × List UInt8)

/-- Steps of the two programs. What the stack has been asked for it does in any order: `serve` brings a read to the
peripheral, `answer` brings a value to the client, and `event` and `app` are what else the two get from it. -/
inductive LinkOp
  | main (reply : Reply)
  | event (e : Event)
  | answer (i : Nat)
  | serve (i requestID serviceID attributeOffset : Nat) (mutexFree : Bool) (clock : Option Nat)
  | app (op : AppOp)

/-- What `main` reads with its next `GATM_ReadValue`, if that succeeds. -/
def asked (reply : Reply) (w : World) : List Nat :=
  match w.pc with
  | .readRandom => if 0 ≤ reply.result then [w.state.readRandomHandle] else []
  | .readStatus => if 0 ≤ reply.result then [w.state.readStatusHandle] else []
  | _ => []

def answered : TestApp.Call → Option (List UInt8)
  | .readResponse _ value => some value
  | _ => none

def clientOp (l : Link) : LinkOp → Option BtOp
  | .main reply => some (.main reply)
  | .event e => some (.deliver e)
  | .answer i => l.answers[i]?.map fun (handle, value) => .deliver (.readResponse handle value)
  | _ => none

/-- The client reads whole values. -/
def appOp (l : Link) : LinkOp → Option AppOp
  | .serve i requestID serviceID attributeOffset mutexFree clock =>
    l.reads[i]?.map fun _ => .gattReadRequest ⟨requestID, serviceID, attributeOffset, 0⟩ mutexFree clock
  | .app op => some op
  | _ => none

/-- The values with which the peripheral answers, if it is the client who reads. -/
def newAnswers (l : Link) (op : LinkOp) : List (Nat × List UInt8) :=
  match op, appOp l op with
  | .serve i .., some read => ((TestApp.appStep l.app read).2.filterMap answered).map fun value => (l.reads.getD i 0, value)
  | _, _ => []

def linkStep (l : Link) (op : LinkOp) : Link where
  client := (clientOp l op).elim l.client (BTClient.btStep l.client)
  app := (appOp l op).elim l.app (TestApp.appNext l.app)
  reads :=
    match op with
    | .main reply => l.reads ++ asked reply l.client
    | .serve i .. => l.reads.eraseIdx i
    | _ => l.reads
  answers :=
    match op with
    | .answer i => l.answers.eraseIdx i
    | op => l.answers ++ newAnswers l op

theorem linkStep_client (l : Link) (op : LinkOp) :
    (linkStep l op).client = (clientOp l op).elim l.client (BTClient.btStep l.client) := rfl

theorem linkStep_app (l : Link) (op : LinkOp) :
    (linkStep l op).app = (appOp l op).elim l.app (TestApp.appNext l.app) := rfl

def linkStart (s : ClientState) (serviceID : Nat) (garbage : Nat → Nat → UInt8) : Link :=
  ⟨BTClient.startWorld s, TestApp.bootState serviceID garbage, [], []⟩

def linkRun (s : ClientState) (serviceID : Nat) (garbage : Nat → Nat → UInt8) (ops : List LinkOp) : Link :=
  ops.foldl linkStep (linkStart s serviceID garbage)

/-- Values come from the peripheral, whose characteristics are read or written as their properties say. -/
def Forwarded : LinkOp → Prop
  | .event e => ∀ handle value, e ≠ .readResponse handle value
  | .serve _ _ _ attributeOffset _ _ => attributeOffset ≠ TestApp.writeAccessReqCharOffset
  | .app (.gattWriteRequest req _ _) => req.attributeOffset = TestApp.writeAccessReqCharOffset
  | _ => True

/-- The two static responses. -/
def staticResp : TestApp.Attribute → List UInt8
  | .writeAcceessReqCharAttr => []
  | .readRandomKeyCharAttr => TestApp.readRandRespBytes
  | .readStatusCharAttr => TestApp.readStsRespBytes

/-- The readable characteristics are as the program starts with them. -/
structure StaticsHeld (s : Store) : Prop where
  info : ∀ attr, attr ≠ .writeAcceessReqCharAttr → s.info attr = TestApp.initialInfo attr
  memory : ∀ attr b, attr ≠ .writeAcceessReqCharAttr → (TestApp.initialInfo attr).value = some b →
    ∀ i, s.memory b i = (staticResp attr).getD i 0

variable {s : Store} {a : AppState} {op : LinkOp} {l : Link} {w : World} {c : ClientState} {value : List UInt8}

theorem bootState_staticsHeld (serviceID : Nat) (garbage : Nat → Nat → UInt8) :
    StaticsHeld (TestApp.bootState serviceID garbage).store := by
  constructor
  · intro attr _
    rfl
  · intro attr b hattr hvalue i
    cases attr with
    | writeAcceessReqCharAttr => exact absurd rfl hattr
    | readRandomKeyCharAttr | readStatusCharAttr =>
      cases hvalue
      rfl

theorem static_ne_heap {attr : TestApp.Attribute} {b : TestApp.Buffer} (hattr : attr ≠ .writeAcceessReqCharAttr)
    (hvalue : (TestApp.initialInfo attr).value = some b) (n : Nat) : b ≠ .heap n := by
  cases attr with
  | writeAcceessReqCharAttr => exact absurd rfl hattr
  | readRandomKeyCharAttr | readStatusCharAttr =>
    cases hvalue
    exact TestApp.Buffer.noConfusion

theorem StaticsHeld.step (h : StaticsHeld a.store) {op : AppOp} (hop : Forwarded (.app op)) :
    StaticsHeld (TestApp.appNext a op).store := by
  have hstep := TestApp.appNext_storeStep a op
  generalize (TestApp.appNext a op).store = next at hstep ⊢
  generalize (TestApp.appStep a op).2 = calls at hstep
  cases hstep with
  | idle _ _ _ _ => exact h
  | replaced req mutexFree allocates attr released _ freed error hreplaces hreleased hstored =>
    obtain ⟨honly, -⟩ := TestApp.replaced_onlyAt hreleased hstored
    obtain rfl := TestApp.attribute_of_offset (hreplaces.offset.symm.trans hop)
    constructor
    · intro other hother
      rw [honly.others other hother]
      exact h.info other hother
    · intro other b hother hvalue i
      rw [honly.memory b (static_ne_heap hother hvalue _)]
      exact h.memory other b hother hvalue i

theorem StaticsHeld.readValue (h : StaticsHeld s) {attr : TestApp.Attribute} (hattr : attr ≠ .writeAcceessReqCharAttr) :
    TestApp.readValue s attr 0 = .ok (staticResp attr) := by
  obtain ⟨b, hvalue, hlength⟩ : ∃ b, (TestApp.initialInfo attr).value = some b ∧
      (TestApp.initialInfo attr).valueLength = (staticResp attr).length := by
    cases attr with
    | writeAcceessReqCharAttr => exact absurd rfl hattr
    | readRandomKeyCharAttr | readStatusCharAttr => exact ⟨_, rfl, rfl⟩
  have hbytes := TestApp.readBytes_drop (Nat.zero_le (staticResp attr).length) fun i _ => h.memory attr b hattr hvalue i
  unfold TestApp.readValue
  rw [h.info attr hattr]
  dsimp only
  rw [if_pos (Nat.zero_le _), hvalue, hlength]
  exact congrArg Except.ok hbytes

/-- One of the values that the peripheral answers with. -/
def FromPeripheral (value : List UInt8) : Prop := value = TestApp.readRandRespBytes ∨ value = TestApp.readStsRespBytes

theorem StaticsHeld.answered (h : StaticsHeld s) (req : TestApp.ReadRequest) (mutexFree : Bool)
    (hoffset : req.attributeOffset ≠ TestApp.writeAccessReqCharOffset) (hwhole : req.attributeValueOffset = 0)
    (hvalue : value ∈ (TestApp.processReadRequestEvent req mutexFree s).filterMap answered) : FromPeripheral value := by
  unfold TestApp.processReadRequestEvent at hvalue
  split at hvalue
  next =>
    split at hvalue
    next info hfound =>
      obtain ⟨-, -, hplace⟩ := TestApp.searchServiceListByOffset_some hfound
      have hattr : info.characteristic ≠ .writeAcceessReqCharAttr := by
        intro heq
        rw [heq] at hplace
        exact hoffset hplace
      rw [hwhole, h.readValue hattr] at hvalue
      split at hvalue
      next =>
        obtain rfl : value = staticResp info.characteristic := by simpa [BluetoothLink.answered] using hvalue
        cases hcharacteristic : info.characteristic with
        | writeAcceessReqCharAttr => exact absurd hcharacteristic hattr
        | readRandomKeyCharAttr => exact .inl rfl
        | readStatusCharAttr => exact .inr rfl
      next => cases hvalue
    next => cases hvalue
  next => cases hvalue

theorem newAnswers_fromPeripheral (h : StaticsHeld l.app.store) (hop : Forwarded op) :
    ∀ answer ∈ newAnswers l op, FromPeripheral answer.2 := by
  intro answer hmem
  unfold newAnswers at hmem
  split at hmem
  next i requestID serviceID attributeOffset mutexFree clock read happ =>
    obtain ⟨value, hvalue, rfl⟩ := List.mem_map.mp hmem
    obtain ⟨_, -, rfl⟩ := Option.map_eq_some_iff.mp happ
    rw [TestApp.appStep] at hvalue
    refine h.answered ⟨requestID, serviceID, attributeOffset, 0⟩ mutexFree hop rfl ?_
    dsimp only at hvalue ⊢
    split at hvalue <;> exact hvalue
  next => cases hmem

/-- What the client can have got from the peripheral. -/
structure Supplied (c : ClientState) (w : World) : Prop where
  userStatus : w.state.userStatus = c.userStatus
  encRandomNo : w.state.encRandomNo = c.encRandomNo ∨ w.state.encRandomNo = List.replicate 32 0
  round : ∀ d ∈ w.round, ∀ handle value, d.event = .readResponse handle value → FromPeripheral value

theorem foldl_fillHandles_userStatus (services : List (List Nat)) (s : ClientState) :
    (services.foldl BTClient.fillHandles s).userStatus = s.userStatus := by
  induction services generalizing s with
  | nil => rfl
  | cons characteristics services ih => exact ih (BTClient.fillHandles s characteristics)

theorem Supplied.mainStep (h : Supplied c w) (reply : Reply) : Supplied c (BTClient.mainStep reply w) := by
  obtain ⟨hstatus, hrandom, hround⟩ := h
  unfold BTClient.mainStep
  split
  · split
    · exact ⟨hstatus, hrandom, hround⟩
    · exact ⟨hstatus, hrandom, nofun⟩
  case h_7 =>
    split
    · refine ⟨(foldl_fillHandles_userStatus _ _).trans hstatus, ?_, hround⟩
      dsimp only
      rwa [(BTClient.foldl_fillHandles _ _).2]
    · exact ⟨hstatus, hrandom, hround⟩
  all_goals (repeat' split) <;> exact ⟨hstatus, hrandom, hround⟩

theorem FromPeripheral.not_status (hvalue : FromPeripheral value) (s : ClientState) (handle : Nat) :
    s.isStatus handle value = false := by
  rcases hvalue with rfl | rfl <;> simp [ClientState.isStatus, TestApp.readRandRespBytes, TestApp.readStsRespBytes]

theorem FromPeripheral.random (hvalue : FromPeripheral value) (hlength : value.length = 37) :
    BTClient.randomOf value = List.replicate 32 0 := by
  rcases hvalue with rfl | rfl
  · rfl
  · exact absurd hlength (by decide)

theorem Supplied.deliver {e : Event} (h : Supplied c w)
    (hvalue : ∀ handle value, e = .readResponse handle value → FromPeripheral value) :
    Supplied c (BTClient.deliver e w) := by
  have hround : ∀ d ∈ (BTClient.deliver e w).round, ∀ handle value, d.event = .readResponse handle value →
      FromPeripheral value := by
    intro d hd handle value hevent
    rcases List.mem_append.mp hd with hd | hd
    · exact h.round d hd handle value hevent
    · obtain rfl := List.mem_singleton.mp hd
      exact hvalue handle value hevent
  by_cases hread : ∃ handle value, e = .readResponse handle value
  · obtain ⟨handle, value, rfl⟩ := hread
    have hfrom := hvalue handle value rfl
    obtain ⟨hrandom, hstatus, -⟩ := BTClient.readResponse_state w.state handle value
    rw [hfrom.not_status] at hstatus
    refine ⟨hstatus.trans h.userStatus, ?_, hround⟩
    change (BTClient.readResponse handle value w.state).encRandomNo = _ ∨
      (BTClient.readResponse handle value w.state).encRandomNo = _
    rw [hrandom]
    split
    next hisRandom =>
      have hlength : value.length = 37 := by
        rw [ClientState.isRandom, Bool.and_eq_true, decide_eq_true_eq, decide_eq_true_eq] at hisRandom
        exact hisRandom.2
      exact .inr (hfrom.random hlength)
    next => exact h.encRandomNo
  · obtain ⟨hrandom, hstatus⟩ := BTClient.eventCallback_values w.state fun handle value heq => hread ⟨handle, value, heq⟩
    refine ⟨hstatus.trans h.userStatus, ?_, hround⟩
    change (BTClient.eventCallback w.state e).encRandomNo = _ ∨ (BTClient.eventCallback w.state e).encRandomNo = _
    rw [hrandom]
    exact h.encRandomNo

/-- What holds of the two programs and of the values under way. -/
structure Supplying (c : ClientState) (l : Link) : Prop where
  statics : StaticsHeld l.app.store
  answers : ∀ answer ∈ l.answers, FromPeripheral answer.2
  client : Supplied c l.client

theorem Supplying.clientOp (h : Supplying c l) (hop : Forwarded op) {b : BtOp}
    (hb : BluetoothLink.clientOp l op = some b) : Supplied c (BTClient.btStep l.client b) := by
  cases op with
  | main reply =>
    obtain rfl := Option.some.inj hb
    exact h.client.mainStep reply
  | event e =>
    obtain rfl := Option.some.inj hb
    exact h.client.deliver fun handle value heq => absurd heq (hop handle value)
  | answer i =>
    obtain ⟨⟨handle, value⟩, hanswer, rfl⟩ := Option.map_eq_some_iff.mp hb
    have hfrom := h.answers _ (List.mem_of_getElem? hanswer)
    refine h.client.deliver ?_
    rintro _ _ ⟨rfl, rfl⟩
    exact hfrom
  | serve i requestID serviceID attributeOffset mutexFree clock => cases hb
  | app op => cases hb

theorem Supplying.appOp (h : Supplying c l) (hop : Forwarded op) {read : AppOp}
    (hread : BluetoothLink.appOp l op = some read) : StaticsHeld (TestApp.appNext l.app read).store := by
  cases op with
  | serve i requestID serviceID attributeOffset mutexFree clock =>
    obtain ⟨_, -, rfl⟩ := Option.map_eq_some_iff.mp hread
    exact h.statics.step trivial
  | app op =>
    obtain rfl := Option.some.inj hread
    exact h.statics.step hop
  | main reply => cases hread
  | event e => cases hread
  | answer i => cases hread

theorem Supplying.step (h : Supplying c l) (hop : Forwarded op) : Supplying c (linkStep l op) := by
  refine ⟨?_, ?_, ?_⟩
  · rw [linkStep_app]
    cases happ : BluetoothLink.appOp l op with
    | none => exact h.statics
    | some read => exact h.appOp hop happ
  · have hnew : ∀ answer ∈ l.answers ++ newAnswers l op, FromPeripheral answer.2 := by
      intro answer hmem
      exact (List.mem_append.mp hmem).elim (h.answers answer) (newAnswers_fromPeripheral h.statics hop answer)
    unfold linkStep
    dsimp only
    split
    · exact fun answer hmem => h.answers answer (List.mem_of_mem_eraseIdx hmem)
    · exact hnew
  · rw [linkStep_client]
    cases hb : BluetoothLink.clientOp l op with
    | none => exact h.client
    | some b => exact h.clientOp hop hb

theorem linkRun_supplying (c : ClientState) (serviceID : Nat) (garbage : Nat → Nat → UInt8) {ops : List LinkOp}
    (forwarded : ∀ op ∈ ops, Forwarded op) : Supplying c (linkRun c serviceID garbage ops) := by
  refine List.foldlRecOn ops linkStep ?_ fun l h op hop => h.step (forwarded op hop)
  exact ⟨bootState_staticsHeld serviceID garbage, nofun, rfl, .inl rfl, nofun⟩

/-- An event of the client comes when its loop waits for it. -/
def InOrder (l : Link) (op : LinkOp) : Prop := (clientOp l op).elim True (BTClient.Orderly l.client)

theorem linkRun_inPhase (c : ClientState) (serviceID : Nat) (garbage : Nat → Nat → UInt8) {ops : List LinkOp}
    (ordered : Along linkStep InOrder (linkStart c serviceID garbage) ops) :
    BTClient.InPhase (linkRun c serviceID garbage ops).client := by
  refine ordered.invariant (P := fun l => BTClient.InPhase l.client) (BTClient.startWorld_inPhase c) ?_
  intro past op h horder
  rw [linkStep_client]
  rw [InOrder] at horder
  cases hb : clientOp (past.foldl linkStep (linkStart c serviceID garbage)) op with
  | none => exact h
  | some b =>
    rw [hb] at horder
    exact BTClient.btStep_inPhase h b horder

/-- Whatever the order of the steps, the client takes no status from this peripheral, and no random number but
thirty-two zeros. As long as its events come in order, it therefore never gets past the reading of the status. -/
theorem punch_stops_at_status (c : ClientState) (serviceID : Nat) (garbage : Nat → Nat → UInt8) (ops : List LinkOp)
    (forwarded : ∀ op ∈ ops, Forwarded op) :
    let w := (linkRun c serviceID garbage ops).client
    w.state.userStatus = c.userStatus ∧
      (w.state.encRandomNo = c.encRandomNo ∨ w.state.encRandomNo = List.replicate 32 0) ∧
      (Along linkStep InOrder (linkStart c serviceID garbage) ops →
        (w.pc = .decryptRandom → w.state.encRandomNo = List.replicate 32 0) ∧
          w.pc ≠ .clear .status ∧ w.pc ≠ .switchStatus ∧ w.pc ≠ .checkBusy) := by
  have hsupplied := (linkRun_supplying c serviceID garbage forwarded).client
  refine ⟨hsupplied.userStatus, hsupplied.encRandomNo, fun ordered => ?_⟩
  have hpassed := (linkRun_inPhase c serviceID garbage ordered).passed
  generalize (linkRun c serviceID garbage ops).client = w at hsupplied hpassed
  have hnone : ¬BTClient.StatusReceived w w.state.userStatus := by
    rintro ⟨d, hd, htells⟩
    unfold BTClient.Delivered.tells at htells
    split at htells
    next handle value hevent =>
      have hstatus := (hsupplied.round d hd handle value hevent).not_status
        { w.state with readStatusHandle := d.readStatusHandle } handle
      rw [ClientState.isStatus] at hstatus
      simp [hstatus] at htells
    next => cases htells
  refine ⟨fun hpc => ?_, fun hpc => ?_, fun hpc => ?_, fun hpc => ?_⟩
  · rw [hpc] at hpassed
    obtain ⟨d, hd, hbrings⟩ := hpassed
    unfold BTClient.Delivered.brings at hbrings
    split at hbrings
    next handle value hevent =>
      simp only [Bool.and_eq_true, decide_eq_true_eq] at hbrings
      rw [← hbrings.2]
      exact (hsupplied.round d hd handle value hevent).random hbrings.1.2
    next => cases hbrings
  all_goals
    rw [hpc] at hpassed
    exact hnone hpassed

/-- A punch up to the answer to the reading of the random number. -/
def randomRead : List LinkOp :=
  [.main { userid := "12" }, .main {}, .event (.remoteDeviceFound [86, 101, 103, 97] 5), .main {}, .main {}, .main {},
   .event .gattConnected, .main {}, .main {}, .main {}, .event (.remoteDevicePropertiesChanged true true), .main {},
   .main {}, .main { services := some [[2, 4, 6]] }, .main {}, .serve 0 7 1 3 true (some 0), .answer 0]

/-- The rest of it, with the status read as well. -/
def statusRead : List LinkOp :=
  [.main {}, .main {}, .main {}, .app (.gattWriteRequest ⟨0, 1, 1, [1, 0, 2]⟩ true true), .main {}, .main {},
   .serve 0 8 1 5 true (some 9), .answer 0]

theorem punch_forwarded : ∀ op ∈ randomRead ++ statusRead, Forwarded op := by
  simp [randomRead, statusRead, Forwarded, TestApp.writeAccessReqCharOffset]

theorem punch_inOrder :
    Along linkStep InOrder (linkStart BTClient.client 1 fun _ _ => 0) (randomRead ++ statusRead) := by
  refine ⟨trivial, trivial, fun _ => ⟨.inl rfl, trivial⟩, trivial, trivial, trivial, fun _ => ⟨.inl rfl, trivial⟩, trivial,
    trivial, trivial, fun _ => ⟨trivial, .inr ⟨⟨.gattConnected, 0, 0⟩, ?_, rfl⟩⟩, trivial, trivial, trivial, trivial, trivial,
    fun _ => ⟨.inl rfl, trivial⟩, trivial, trivial, trivial, trivial, trivial, trivial, trivial, fun h => ?_, trivial⟩
  · exact List.mem_of_getElem? (i := 1) rfl
  · exact absurd h (by decide +kernel)

theorem punch_stops_at_status_of_punch :
    (linkRun BTClient.client 1 (fun _ _ => 0) (randomRead ++ statusRead)).client.pc = .spin .status ∧
      (linkRun BTClient.client 1 (fun _ _ => 0) (randomRead ++ statusRead)).client.state.userStatus =
        BTClient.client.userStatus ∧
      (linkRun BTClient.client 1 (fun _ _ => 0) (randomRead ++ statusRead)).client.pc ≠ .clear .status := by
  obtain ⟨hstatus, -, hordered⟩ := punch_stops_at_status BTClient.client 1 (fun _ _ => 0) (randomRead ++ statusRead)
    punch_forwarded
  exact ⟨by decide +kernel, hstatus, (hordered punch_inOrder).2.1⟩

end NvrxFirmware.BluetoothLink
