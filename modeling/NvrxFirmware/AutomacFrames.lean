import NvrxFirmware.AutomacConversation
import NvrxFirmware.AutomacReceivedBytes
import NvrxFirmware.NetReceived

namespace NvrxFirmware.Automac

variable {p : Packet} {w : World} {n now : Nat} {sums : Net.Checksum} {net : Net.NetState} {m : Memory} {call : Net.UdpCall}

/-- What a server answers: the address, four characters that the client does not look at, and the id. -/
structure Answer where
  mac : Bytes 17
  gap : Bytes 4
  id : UInt32
  field : List UInt8
  text : ∀ c ∈ mac.val, c ≠ 0
  spells : Spells field id
  short : field.length < 256 - grantacceptMessageIdoffset

def Answer.message (a : Answer) : List UInt8 :=
  grantacceptMessageRx ++ (a.mac.val ++ (a.gap.val ++ (a.field ++ [0x0D, 0x0A])))

theorem Answer.message_length (a : Answer) : a.message.length = 11 + (17 + (4 + (a.field.length + 2))) := by
  simp only [Answer.message, List.length_append, a.mac.property, a.gap.property]
  rfl

/-- The parts of an answer at their places in a packet. -/
theorem Answer.parts {a : Answer} (h : p.bytes 0 a.message.length = a.message) :
    p.bytes 0 11 = grantacceptMessageRx ∧ p.bytes 11 17 = a.mac.val ∧ p.bytes 32 a.field.length = a.field ∧
      p.pkt (32 + a.field.length) = 0x0D := by
  rw [a.message_length, Packet.bytes_add, Packet.bytes_add, Packet.bytes_add, Packet.bytes_add, Answer.message] at h
  obtain ⟨hrx, h⟩ := List.append_inj h (before_length _ 11)
  obtain ⟨hmac, h⟩ := List.append_inj h ((before_length _ 17).trans a.mac.property.symm)
  obtain ⟨-, h⟩ := List.append_inj h ((before_length _ 4).trans a.gap.property.symm)
  obtain ⟨hfield, hend⟩ := List.append_inj h (before_length _ a.field.length)
  exact ⟨hrx, hmac, hfield, List.head_eq_of_cons_eq hend⟩

theorem Answer.isAccept {a : Answer} (h : p.bytes 0 a.message.length = a.message) : p.isAccept = true := by
  have hrx := (Answer.parts h).1
  simp only [Packet.bytes, before, Nat.zero_add] at hrx
  exact decide_eq_true hrx

theorem Answer.recvdMac {a : Answer} (h : p.bytes 0 a.message.length = a.message) : p.recvdMac = a.mac.val := by
  have hmac : (List.range 17).map (fun i => p.pkt (11 + i)) = a.mac.val := (Answer.parts h).2.1
  change ((List.range 17).map fun i => p.pkt (11 + i)).takeWhile (· ≠ 0) = _
  rw [hmac]
  exact List.takeWhile_eq_self_iff.mpr fun c hc => decide_eq_true (a.text c hc)

theorem HexDigit.not_lineEnd {c : UInt8} (h : HexDigit c) : ¬LineEnd c :=
  forall_byte (P := fun c => HexDigit c → ¬LineEnd c) (by decide +kernel) c h

theorem Answer.getTransactionId {a : Answer} (h : p.bytes 0 a.message.length = a.message) :
    p.getTransactionId = some a.id := by
  obtain ⟨-, -, hfield, hend⟩ := Answer.parts h
  have hshort : a.field.length < 224 := a.short
  have hstops : StopsAt LineEnd (fun i => p.pkt (grantacceptMessageIdoffset + i)) a.field.length := by
    constructor
    · exact .inr hend
    · intro i hi
      have hmem : p.pkt (32 + i) ∈ a.field := hfield ▸ mem_before.mpr ⟨i, hi, rfl⟩
      exact (a.spells.digits _ hmem).not_lineEnd
  have hended : p.Ended := ⟨32 + a.field.length, Nat.le_add_right .., by omega, .inr hend⟩
  have hid : p.idField = a.field := (hstops.takeWhile hshort).trans hfield
  rw [hended.getTransactionId, hid, a.spells.shortHex.value, a.spells.value]

/-- A frame as the driver hands it over: the number of the message in it, what the receive
buffer holds, and the length that was received. -/
structure Frame where
  message : Nat
  mem : Memory
  len : Int

def Frame.packet (f : Frame) (call : Net.UdpCall) : Packet where
  message := f.message
  dest := call.dport.toNat
  src := call.sport.toNat
  pkt := fun i => f.mem (call.pkt + i)

/-- What can happen next to a client on a link, where `net` holds the network settings that a frame finds. -/
inductive LinkOp
  | doAutomac (card : Nat)
  | netLoop (card : Nat) (ticks : UInt32) (fuel : Nat) (ethInit : EthInit) (now : Nat)
  | frame (net : Net.NetState) (f : Frame) (now : Nat)
  | poll (ctrlc expired : Bool) (first second : StartAgain) (now : Nat)

/-- What the client notices of it: of the frames the UDP datagrams that `net_process_received_packet` hands on. -/
def LinkOp.netOp (sums : Net.Checksum) : LinkOp → Option NetOp
  | .doAutomac card => some (.doAutomac card)
  | .netLoop card ticks fuel ethInit now => some (.netLoop card ticks fuel ethInit now)
  | .frame net f now =>
    match Net.netProcessReceivedPacket sums net f.mem f.len with
    | .udp call => some (.deliver (f.packet call) now)
    | _ => none
  | .poll ctrlc expired first second now => some (.poll ctrlc expired first second now)

def linkStep (sums : Net.Checksum) (w : World) (op : LinkOp) : World :=
  match op.netOp sums with
  | some op => netStep w op
  | none => w

def linkRun (sums : Net.Checksum) (env : Env) (ops : List LinkOp) : World := ops.foldl (linkStep sums) (bootWorld env)

/-- A run on a link is a run of the client. -/
theorem linkRun_eq (sums : Net.Checksum) (env : Env) (ops : List LinkOp) :
    linkRun sums env ops = netRun env (ops.filterMap (LinkOp.netOp sums)) := by
  apply foldl_history (f := linkStep sums) (Q := fun ops w => w = netRun env (ops.filterMap (LinkOp.netOp sums)))
  · rfl
  · intro ops w op h
    rw [List.filterMap_append, netRun, List.foldl_append, ← netRun, ← h, linkStep]
    cases hop : op.netOp sums <;> simp [hop]

theorem deliver_hung_iff (hid : p.getTransactionId.isSome) (now : Nat) :
    (netStep w (.deliver p now)).phase = .hung ↔ w.phase = .hung := by
  by_cases hloop : w.inLoop
  · have hw : ¬w.phase = .hung := by rcases hloop with h | h <;> simp [h]
    simp only [hw, iff_false, netStep, if_pos hloop]
    split
    · simp
    · obtain ⟨id, hid⟩ := Option.isSome_iff_exists.mp hid
      unfold autoMacHandler
      rw [hid]
      dsimp only
      split_ifs
      · dsimp only [grantMac]
        split <;> simp
      all_goals simp
  · rw [netStep, if_neg hloop]

/-- The client takes an answer to these ports with this id. -/
def World.Awaits (w : World) (dport sport : UInt16) (id : UInt32) : Prop :=
  w.inLoop ∧ w.udpHandler = .autoMacHandler ∧ dport.toNat = w.autoMacOurPort ∧
    (w.autoMacState = .broadcastigWait ∨ sport.toNat = w.autoMacServerPort) ∧ id = w.transactionId

theorem grants?_iff_awaits {a : Answer} (h : p.bytes 0 a.message.length = a.message) {dport sport : UInt16}
    (hdest : p.dest = dport.toNat) (hsrc : p.src = sport.toNat) : w.grants? p ↔ w.Awaits dport sport a.id := by
  rw [World.grants?, World.passes, World.Awaits, hdest, hsrc, Answer.isAccept h, Answer.getTransactionId h]
  simp only [not_and_or, not_not, ne_eq, true_and, Option.some.injEq, and_assoc]

/-- A server's answer that is transmitted through the same stack is applied exactly if the client hears the server, is
meant and awaits the answer; then the address in the answer goes to the next interface. It never makes the client hang. -/
theorem transmitted_answer_applied {sender receiver : Net.NetState} {later : Nat} {ether : Net.EthAddr} {dest : Net.InAddr}
    {dport sport : UInt16} {wire : List UInt8} (a : Answer) (f : Frame)
    (hsend : (Net.netSendUdpPacket sums later ether dest dport sport a.message.length (sender.withPayload a.message)).1 =
      .transmitted wire)
    (hmem : f.mem.bytes 0 wire.length = wire) (hlen : f.len = n) (hn : wire.length ≤ n) (hint : n < 2 ^ 31)
    (hpush : receiver.pushPacket = false) :
    (Net.Hears sender receiver ∧ Net.Addressed receiver (Net.newStyle dest) ∧ w.Awaits dport sport a.id →
        (linkStep sums w (.frame receiver f now)).ledger =
          w.ledger.grant ⟨w.autoMacState, sport.toNat, f.message, macVariable (w.macreceived + 1), a.mac.val⟩) ∧
      (¬(Net.Hears sender receiver ∧ Net.Addressed receiver (Net.newStyle dest) ∧ w.Awaits dport sport a.id) →
        (linkStep sums w (.frame receiver f now)).ledger = w.ledger) ∧
      ((linkStep sums w (.frame receiver f now)).phase = .hung ↔ w.phase = .hung) := by
  have hsize := a.message_length
  have hshort : a.field.length < 224 := a.short
  obtain ⟨hwire, hcopy⟩ := Net.received_copy hsend hmem
  have hpayload := Net.copy_payload hcopy
  have hreceived := Net.copy_received hcopy (by change 28 + _ < _; omega) (hwire ▸ hn) hint hpush
  rw [← hlen] at hreceived
  by_cases hreach : Net.Hears sender receiver ∧ Net.Addressed receiver (Net.newStyle dest)
  · rw [if_pos hreach] at hreceived
    have hstep : linkStep sums w (.frame receiver f now) = netStep w (.deliver (f.packet
        ⟨Net.netEthHdrSize sender + Net.ipUdpHdrSize, dport, sender.netIp, sport, .ofNat a.message.length⟩) now) := by
      rw [linkStep, LinkOp.netOp, hreceived]
    rw [hstep]
    generalize hp : f.packet _ = p
    have hbytes : p.bytes 0 a.message.length = a.message := by
      refine Eq.trans ?_ hpayload
      rw [← hp]
      simp only [Packet.bytes, Memory.bytes, Frame.packet, Nat.zero_add]
    have hawaits : w.grants? p ↔ w.Awaits dport sport a.id := grants?_iff_awaits hbytes (hp ▸ rfl) (hp ▸ rfl)
    have hgrant : grantOf w p = ⟨w.autoMacState, sport.toNat, f.message, macVariable (w.macreceived + 1), a.mac.val⟩ := by
      rw [grantOf, Answer.recvdMac hbytes, ← hp]
      rfl
    refine ⟨fun h => ?_, fun h => ?_, deliver_hung_iff (Answer.getTransactionId hbytes ▸ rfl) now⟩
    · rw [deliver_granted (hawaits.mpr h.2.2), grantMac_ledger, ← hgrant]
      rfl
    · obtain ⟨phase, hungranted, -⟩ := deliver_ungranted now fun hg => h ⟨hreach.1, hreach.2, hawaits.mp hg⟩
      rw [hungranted]
      rfl
  · rw [if_neg hreach] at hreceived
    have hstep : linkStep sums w (.frame receiver f now) = w := by
      rw [linkStep, LinkOp.netOp, hreceived]
    rw [hstep]
    exact ⟨fun h => absurd ⟨h.1, h.2.1⟩ hreach, fun _ => rfl, Iff.rfl⟩

/-- The answer to the first request after the timer seeded the generator with 1. -/
def firstAnswer : Answer where
  mac := ⟨bytesOf ['0', '0', ':', '1', 'B', ':', '0', '9', ':', '0', '0', ':', '0', '0', ':', '0', '1'], rfl⟩
  gap := ⟨bytesOf ['#', 'I', 'D', ':'], rfl⟩
  id := 0xE7F4
  field := bytesOf ['E', '7', 'F', '4']
  text := by decide +kernel
  spells := ⟨by decide, by decide +kernel, by decide⟩
  short := by decide

/-- The answer as 10.0.0.1 broadcasts it. -/
def firstFrame : Frame where
  message := 1
  mem := Net.sentPacket Net.inetChecksum Net.netNullEthaddr Net.inaddrAny 1024 65000 firstAnswer.message (Net.host 1 7)
  len := 84

def firstRequest : List LinkOp := [.doAutomac 0, .netLoop 0 1 5 ethUp 0]

theorem transmitted_answer_applied_to_request :
    (linkStep Net.inetChecksum (linkRun Net.inetChecksum (fun _ => none) firstRequest)
      (.frame (Net.host 2 7) firstFrame 0)).ledger =
      (linkRun Net.inetChecksum (fun _ => none) firstRequest).ledger.grant
        ⟨.broadcastigWait, 65000, 1, .ethaddr, firstAnswer.mac.val⟩ := by
  have hawaits : (linkRun Net.inetChecksum (fun _ => none) firstRequest).Awaits 1024 65000 firstAnswer.id := by
    refine ⟨by decide +kernel, by decide +kernel, by decide +kernel, .inl (by decide +kernel), by decide +kernel⟩
  exact (transmitted_answer_applied (n := 84) firstAnswer firstFrame
    (Net.netSendUdpPacket_fst Net.inetChecksum 0 Net.netNullEthaddr Net.inaddrAny 1024 65000 firstAnswer.message
      (Net.host 1 7))
    (by rw [Memory.bytes_length]; rfl) rfl (by rw [Memory.bytes_length]; decide) (by decide) rfl).1
    ⟨by decide, by decide, hawaits⟩

theorem netStep_grants {op : NetOp} (h : w.grants.length < (netStep w op).grants.length) :
    ∃ p now, op = .deliver p now ∧ w.grants? p ∧ (netStep w op).ledger = w.ledger.grant (grantOf w p) := by
  have hentered := netStep_entered w op
  have hmore : w.ledger.grants.length < (netStep w op).ledger.grants.length := h
  generalize (netStep w op).ledger = l at hentered hmore ⊢
  cases hentered with
  | kept calls => exact absurd hmore (Nat.lt_irrefl _)
  | started card env => exact absurd hmore (Nat.not_lt_zero _)
  | granted p now hop hgrant => exact ⟨p, now, hop, hgrant, rfl⟩

theorem netOp_deliver {op : LinkOp} (h : op.netOp sums = some (.deliver p now)) :
    ∃ net f call, op = .frame net f now ∧ Net.netProcessReceivedPacket sums net f.mem f.len = .udp call ∧
      p = f.packet call := by
  cases op with
  | doAutomac card => cases h
  | netLoop card ticks fuel ethInit now => cases h
  | frame net f now =>
    unfold LinkOp.netOp at h
    dsimp only at h
    split at h
    next call hreceived =>
      cases h
      exact ⟨net, f, call, rfl, hreceived, rfl⟩
    next => cases h
  | poll ctrlc expired first second now => cases h

/-- Whatever frames arrive and however the network settings change, an address is only applied in a step in which a
frame is received that passes every check of the stack, is for the client's port, carries the text of an answer and
the id of the last request that was sent; and it is the address in that frame. -/
theorem applied_address_was_received (sums : Net.Checksum) (env : Env) (ops : List LinkOp) (op : LinkOp)
    (h : (linkRun sums env ops).grants.length < (linkRun sums env (ops ++ [op])).grants.length) :
    ∃ net f now call, op = .frame net f now ∧ Net.Checked sums net f.mem f.len call ∧
      call.dport.toNat = (linkRun sums env ops).autoMacOurPort ∧ (f.packet call).isAccept = true ∧
      (f.packet call).getTransactionId = lastRequest (linkRun sums env ops).sent ∧
      (linkRun sums env (ops ++ [op])).ledger = (linkRun sums env ops).ledger.grant
        ⟨(linkRun sums env ops).autoMacState, call.sport.toNat, f.message,
          macVariable ((linkRun sums env ops).macreceived + 1), (f.packet call).recvdMac⟩ := by
  have hrun : linkRun sums env (ops ++ [op]) = linkStep sums (linkRun sums env ops) op := by
    simp [linkRun, List.foldl_append]
  have hconversation : Conversation (linkRun sums env ops) := linkRun_eq sums env ops ▸ netRun_conversation env _
  rw [hrun] at h ⊢
  generalize linkRun sums env ops = w at h hconversation ⊢
  unfold linkStep at h ⊢
  cases hop : op.netOp sums with
  | none =>
    rw [hop] at h
    exact absurd h (Nat.lt_irrefl _)
  | some netOp =>
    rw [hop] at h
    obtain ⟨p, now, rfl, hgrant, hledger⟩ := netStep_grants h
    obtain ⟨net, f, call, rfl, hreceived, rfl⟩ := netOp_deliver hop
    have hlast : lastRequest w.sent = some w.transactionId :=
      hconversation.latest.resolve_right fun hout => hout.2 hgrant.1
    refine ⟨net, f, now, call, rfl, Net.checked_of_received hreceived, hgrant.2.2.1.1, hgrant.2.2.2.1, ?_, hledger⟩
    rw [hlast]
    exact hgrant.2.2.2.2

theorem applied_address_was_received_in_frame : ∃ call,
    Net.Checked Net.inetChecksum (Net.host 2 7) firstFrame.mem firstFrame.len call ∧
      (firstFrame.packet call).getTransactionId =
        lastRequest (linkRun Net.inetChecksum (fun _ => none) firstRequest).sent := by
  obtain ⟨net, f, now, call, hop, hchecked, -, -, hid, -⟩ := applied_address_was_received Net.inetChecksum
    (fun _ => none) firstRequest (.frame (Net.host 2 7) firstFrame 0) (by decide +kernel)
  cases hop
  exact ⟨call, hchecked, hid⟩

end NvrxFirmware.Automac
