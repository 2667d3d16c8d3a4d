import NvrxFirmware.InternetChecksums
import NvrxFirmware.NetModel

namespace NvrxFirmware.Net

open Memory

variable {sums : Checksum} {net : NetState} {m : Memory} {ip len i : Nat} {ipId : UInt32} {dest source : InAddr}
  {dport sport : UInt16}

theorem netSetIpHeader_outside (h : i < ip ∨ ip + ipHdrSize ≤ i) : netSetIpHeader ipId ip dest source m i = m i := by
  change _ ∨ ip + 20 ≤ _ at h
  simp (disch := omega) only [netSetIpHeader, put_of_outside, store16_of_outside, store8_of_outside]

theorem netSetIpHeader_fields (ipId : UInt32) (ip : Nat) (dest source : InAddr) (m : Memory) :
    let m := netSetIpHeader ipId ip dest source m
    m ip = 0x45 ∧ ntohs (m.load16 (ip + 6)) = ipFlagsDfrag ∧ m.load16 (ip + 10) = 0 ∧ m.load (ip + 12) 4 = source ∧
      m.load (ip + 16) 4 = dest := by
  refine ⟨?_, ?_, ?_, ?_, ?_⟩
  · simp (disch := omega) only [netSetIpHeader, put_of_outside, store16_of_outside, store8_of_outside, store8_self]
  · simp (disch := omega) only [netSetIpHeader, load16_put_of_disjoint, load16_store16_of_disjoint,
      load16_store8_of_disjoint, load16_store16, ntohs_htons]
  · simp (disch := omega) only [netSetIpHeader, load16_put_of_disjoint, load16_store16]
  · simp (disch := omega) only [netSetIpHeader, load_put_of_disjoint, load_put]
  · simp (disch := omega) only [netSetIpHeader, load_put]

/-- The memory at the point where the checksum of the header is computed. -/
def unsummed (net : NetState) (ip : Nat) (dest : InAddr) (len : Nat) (m : Memory) : Memory :=
  let m := if len % 2 = 1 then m.store8 (ip + (ipUdpHdrSize + len)) 0 else m
  ((netSetIpHeader net.netIpId ip dest net.netIp m).store16 (ip + 2) (htons (.ofNat (ipUdpHdrSize + len)))).store8 (ip + 9)
    ipprotoUdp

theorem netSetUdpHeader_eq (sums : Checksum) (net : NetState) (ip : Nat) (dest : InAddr) (dport sport : UInt16)
    (len : Nat) (m : Memory) :
    netSetUdpHeader sums net ip dest dport sport len m =
      (((((unsummed net ip dest len m).store16 (ip + 10)
        (sums.computeIpChecksum ((unsummed net ip dest len m).load ip 20))).store16 (ip + 20) (htons sport)).store16
          (ip + 22) (htons dport)).store16 (ip + 24) (htons (.ofNat (udpHdrSize + len)))).store16 (ip + 26) 0 := rfl

theorem unsummed_outside (h : i < ip ∨ ip + ipUdpHdrSize ≤ i ∧ i < ip + (ipUdpHdrSize + len)) :
    unsummed net ip dest len m i = m i := by
  change _ ∨ ip + 28 ≤ _ ∧ i < ip + (28 + len) at h
  have hip : i < ip ∨ ip + ipHdrSize ≤ i := by
    change _ ∨ ip + 20 ≤ _
    omega
  have hpad : i < ip + (ipUdpHdrSize + len) ∨ ip + (ipUdpHdrSize + len) + 1 ≤ i := by
    change i < ip + (28 + len) ∨ _
    omega
  simp (disch := omega) only [unsummed, store8_of_outside, store16_of_outside]
  rw [netSetIpHeader_outside hip]
  split
  · exact store8_of_outside hpad
  · rfl

theorem netSetUdpHeader_outside (h : i < ip ∨ ip + ipUdpHdrSize ≤ i ∧ i < ip + (ipUdpHdrSize + len)) :
    netSetUdpHeader sums net ip dest dport sport len m i = m i := by
  have hoff : i < ip ∨ ip + 28 ≤ i := h.imp id And.left
  rw [netSetUdpHeader_eq]
  simp (disch := omega) only [store16_of_outside]
  exact unsummed_outside h

/-- What a receiver reads in the header that was written. -/
theorem netSetUdpHeader_read (sums : Checksum) (net : NetState) (ip : Nat) (dest : InAddr) (dport sport : UInt16)
    (len : Nat) (m : Memory) :
    ∃ summed, sums.ipChecksumOk summed = true ∧
      IpUdpHdr.read (netSetUdpHeader sums net ip dest dport sport len m) ip =
        { ipHlV := 0x45
          ipLen := .ofNat (ipUdpHdrSize + len)
          ipOff := ipFlagsDfrag
          ipP := ipprotoUdp
          ipSrc := net.netIp
          ipDst := dest
          udpSrc := sport
          udpDst := dport
          udpLen := .ofNat (udpHdrSize + len)
          summed := summed } := by
  obtain ⟨hhlv, hoff, hsum, hsrc, hdst⟩ := netSetIpHeader_fields net.netIpId ip dest net.netIp
    (if len % 2 = 1 then m.store8 (ip + (ipUdpHdrSize + len)) 0 else m)
  have hzero : (unsummed net ip dest len m).load16 (ip + 10) = 0 := by
    simp (disch := omega) only [unsummed, load16_store8_of_disjoint, load16_store16_of_disjoint, hsum]
  refine ⟨_, sums.computed_ok (unsummed net ip dest len m) ip hzero, ?_⟩
  rw [netSetUdpHeader_eq, IpUdpHdr.read, IpUdpHdr.mk.injEq]
  refine ⟨?_, ?_, ?_, ?_, ?_, ?_, ?_, ?_, ?_, ?_⟩
  · simp (disch := omega) only [unsummed, store16_of_outside, store8_of_outside, hhlv]
  · simp (disch := omega) only [unsummed, load16_store16_of_disjoint, load16_store8_of_disjoint, load16_store16, ntohs_htons]
  · simp (disch := omega) only [unsummed, load16_store16_of_disjoint, load16_store8_of_disjoint, hoff]
  · simp (disch := omega) only [unsummed, store16_of_outside, store8_self]
  · simp (disch := omega) only [unsummed, load_store16_of_disjoint, load_store8_of_disjoint, hsrc]
  · simp (disch := omega) only [unsummed, load_store16_of_disjoint, load_store8_of_disjoint, hdst]
  · simp (disch := omega) only [load16_store16_of_disjoint, load16_store16, ntohs_htons]
  · simp (disch := omega) only [load16_store16_of_disjoint, load16_store16, ntohs_htons]
  · simp (disch := omega) only [load16_store16_of_disjoint, load16_store16, ntohs_htons]
  · simp (disch := omega) only [load_store16_of_disjoint]

/-- The VLAN of a host, or `VLAN_NONE`. -/
def NetState.vlan (net : NetState) : UInt16 := vlanOf net.netOurVlan &&& vlanIdmask

def NetState.nativeVlan (net : NetState) : UInt16 := vlanOf net.netNativeVlan &&& vlanIdmask

theorem vlan_eq (net : NetState) : ntohs net.netOurVlan &&& vlanIdmask = net.vlan := by
  unfold NetState.vlan vlanOf
  split
  next h =>
    rw [h]
    decide
  next => rfl

theorem vlan_masked (net : NetState) : net.vlan &&& vlanIdmask = net.vlan := by
  rw [NetState.vlan, UInt16.and_assoc, UInt16.and_self]

theorem netEthHdrSize_of_none (h : net.vlan = vlanNone) : netEthHdrSize net = etherHdrSize := if_pos h

theorem netEthHdrSize_of_ne (h : net.vlan ≠ vlanNone) : netEthHdrSize net = vlanEtherHdrSize := if_neg h

theorem netEthHdrSize_le (net : NetState) : netEthHdrSize net ≤ vlanEtherHdrSize := by
  unfold netEthHdrSize
  split <;> decide

/-- As far as the VLANs go, the receiver takes what the sender puts on the link. -/
def Hears (sender receiver : NetState) : Prop :=
  sender.vlan = receiver.vlan ∨ sender.vlan = vlanNone ∧ receiver.nativeVlan = receiver.vlan

instance (sender receiver : NetState) : Decidable (Hears sender receiver) := inferInstanceAs (Decidable (_ ∨ _))

theorem vlanMatches_none_iff {sender receiver : NetState} (h : sender.vlan = vlanNone) :
    vlanMatches receiver vlanNone ↔ Hears sender receiver := by
  change (receiver.vlan ≠ vlanNone → (if vlanNone = vlanNone then receiver.nativeVlan else _) = receiver.vlan) ↔ _
  rw [if_pos rfl, Hears, h, ne_eq, imp_iff_not_or, not_not, eq_comm (a := vlanNone)]
  simp

theorem vlanMatches_tagged_iff {sender receiver : NetState} (h : sender.vlan ≠ vlanNone) (h' : receiver.vlan ≠ vlanNone) :
    vlanMatches receiver sender.vlan ↔ Hears sender receiver := by
  change (receiver.vlan ≠ vlanNone → (if sender.vlan = vlanNone then _ else sender.vlan) = receiver.vlan) ↔ _
  rw [if_neg h, Hears]
  simp [h, h']

theorem netEthHdrSize_ge (net : NetState) : etherHdrSize ≤ netEthHdrSize net := by
  unfold netEthHdrSize
  split <;> decide

theorem netSetEther_size (net : NetState) (xet : Nat) (ether : EthAddr) (prot : UInt16) (m : Memory) :
    (netSetEther net xet ether prot m).1 = netEthHdrSize net := by
  unfold netSetEther netEthHdrSize
  dsimp only
  split <;> rfl

theorem netSetEther_outside {ether : EthAddr} {prot : UInt16} (h : netEthHdrSize net ≤ i) :
    (netSetEther net 0 ether prot m).2 i = m i := by
  unfold netSetEther
  unfold netEthHdrSize at h
  dsimp only
  split
  next hv =>
    rw [if_pos hv] at h
    change 14 ≤ i at h
    simp (disch := omega) only [store16_of_outside, put_of_outside]
  next hv =>
    rw [if_neg hv] at h
    change 18 ≤ i at h
    simp (disch := omega) only [store16_of_outside, put_of_outside]

/-- The header that `net_set_ether` writes, found by a receiver in a copy of the frame. -/
theorem linkPayload_netSetEther {sender receiver : NetState} {ether : EthAddr} {mem : Memory} {n : Nat}
    (hmem : ∀ i < netEthHdrSize sender, mem i = (netSetEther sender 0 ether protIp m).2 i)
    (hn : netEthHdrSize sender ≤ n) (hint : n < 2 ^ 31) :
    linkPayload receiver mem n =
      if sender.vlan = vlanNone then some ⟨protIp, vlanNone, etherHdrSize, n - etherHdrSize⟩
      else if receiver.vlan = vlanNone then none
      else some ⟨protIp, sender.vlan, vlanEtherHdrSize, n - vlanEtherHdrSize⟩ := by
  by_cases hv : sender.vlan = vlanNone
  · rw [netEthHdrSize_of_none hv] at hmem hn
    have hprot : ntohs (mem.load16 12) = protIp := by
      rw [load16_congr (hmem 12 (by decide)) (hmem 13 (by decide))]
      unfold netSetEther
      rw [if_pos (show vlanOf sender.netOurVlan &&& vlanIdmask = vlanNone from hv)]
      simp (disch := omega) only [Nat.zero_add, load16_store16, ntohs_htons]
    rw [linkPayload, hprot, if_pos hv, if_neg (by decide), if_pos (by decide)]
  · rw [netEthHdrSize_of_ne hv] at hmem hn
    have hset : (netSetEther sender 0 ether protIp m).2 =
        ((((m.put 0 ether).put 6 sender.netEthaddr).store16 12 (htons protVlan)).store16 14
          (htons ((0 : UInt16) <<< 5 ||| sender.vlan))).store16 16 (htons protIp) := by
      unfold netSetEther
      rw [if_neg (show ¬vlanOf sender.netOurVlan &&& vlanIdmask = vlanNone from hv)]
      rfl
    rw [hset] at hmem
    have htype : ntohs (mem.load16 12) = protVlan := by
      rw [load16_congr (hmem 12 (by decide)) (hmem 13 (by decide))]
      simp (disch := omega) only [load16_store16_of_disjoint, load16_store16, ntohs_htons]
    have htag : ntohs (mem.load16 14) &&& vlanIdmask = sender.vlan := by
      rw [load16_congr (hmem 14 (by decide)) (hmem 15 (by decide))]
      simp (disch := omega) only [load16_store16_of_disjoint, load16_store16, ntohs_htons]
      rw [show (0 : UInt16) <<< 5 = 0 from rfl, UInt16.zero_or, vlan_masked]
    have hprot : ntohs (mem.load16 16) = protIp := by
      rw [load16_congr (hmem 16 (by decide)) (hmem 17 (by decide))]
      simp only [load16_store16, ntohs_htons]
    have hsize : ¬sizeT n < vlanEtherHdrSize := by
      change ¬((n : Int) % 2 ^ 64).toNat < 18
      change 18 ≤ n at hn
      omega
    rw [linkPayload, htype, htag, hprot, vlan_eq, if_neg hv, if_neg (by decide), if_neg (by decide), if_neg hsize]

def Addressed (net : NetState) (dest : InAddr) : Prop :=
  net.netIp = inaddrAny ∨ dest = net.netIp ∨ dest = inaddrBroadcast

instance (net : NetState) (dest : InAddr) : Decidable (Addressed net dest) := inferInstanceAs (Decidable (_ ∨ _ ∨ _))

theorem not_addressed_iff : ¬Addressed net dest ↔
    net.netIp ≠ inaddrAny ∧ dest ≠ net.netIp ∧ dest ≠ inaddrBroadcast := by
  rw [Addressed, not_or, not_or]

theorem udpLen_sub (h : udpHdrSize + len < 2 ^ 16) :
    (UInt16.ofNat (udpHdrSize + len)).toUInt32 - UInt32.ofNat udpHdrSize = UInt32.ofNat len := by
  change 8 + len < 2 ^ 16 at h
  apply UInt32.toNat.inj
  rw [UInt32.toNat_sub_of_le, UInt16.toNat_toUInt32, UInt16.toNat_ofNat', UInt32.toNat_ofNat', UInt32.toNat_ofNat']
  · change (8 + len) % 2 ^ 16 - 8 % 2 ^ 32 = len % 2 ^ 32
    omega
  · rw [UInt32.le_iff_toNat_le, UInt16.toNat_toUInt32, UInt16.toNat_ofNat', UInt32.toNat_ofNat']
    change 8 % 2 ^ 32 ≤ (8 + len) % 2 ^ 16
    omega

theorem IpUdpHdr.read_congr {mem : Memory} (h : ∀ i, ip ≤ i → i < ip + 28 → mem i = m i) :
    IpUdpHdr.read mem ip = IpUdpHdr.read m ip := by
  have hload16 (k : Nat) (hk : k < 27) : mem.load16 (ip + k) = m.load16 (ip + k) :=
    load16_congr (h _ (by omega) (by omega)) (h _ (by omega) (by omega))
  have hload (k n : Nat) (hk : k + n ≤ 28) : mem.load (ip + k) n = m.load (ip + k) n :=
    load_congr fun i hle hlt => h i (by omega) (by omega)
  rw [IpUdpHdr.read, IpUdpHdr.read, IpUdpHdr.mk.injEq]
  exact ⟨h ip (by omega) (by omega), congrArg ntohs (hload16 2 (by omega)), congrArg ntohs (hload16 6 (by omega)),
    h _ (by omega) (by omega), hload 12 4 (by omega), hload 16 4 (by omega), congrArg ntohs (hload16 20 (by omega)),
    congrArg ntohs (hload16 22 (by omega)), congrArg ntohs (hload16 24 (by omega)), hload 0 20 (by omega)⟩

theorem receiveIp_of_read {receiver : NetState} {source : InAddr} {summed : Bytes 20} {n : Int}
    (hread : IpUdpHdr.read m ip = ⟨0x45, .ofNat (ipUdpHdrSize + len), ipFlagsDfrag, ipprotoUdp, source, dest, sport,
      dport, .ofNat (udpHdrSize + len), summed⟩)
    (hsum : sums.ipChecksumOk summed = true) (hshort : ipUdpHdrSize + len < 2 ^ 16) (hn : (ipUdpHdrSize + len : Nat) ≤ n)
    (hint : n < 2 ^ 31) :
    receiveIp sums receiver m ip n =
      if Addressed receiver dest then .udp ⟨ip + ipUdpHdrSize, dport, source, sport, .ofNat len⟩ else .dropped := by
  change 28 + len < 2 ^ 16 at hshort
  have hlen : (UInt16.ofNat (ipUdpHdrSize + len)).toNat = ipUdpHdrSize + len := by
    rw [UInt16.toNat_ofNat']
    exact Nat.mod_eq_of_lt hshort
  have hsize : ¬sizeT n < ipUdpHdrSize := by
    change ¬(n % 2 ^ 64).toNat < 28
    change ((28 + len : Nat) : Int) ≤ n at hn
    omega
  have hfits : ¬n < ((ipUdpHdrSize + len : Nat) : Int) := by omega
  unfold receiveIp
  simp only [hread, hlen, if_neg hsize, if_neg hfits, hsum]
  rw [if_neg (by decide), if_neg (by decide), if_neg (by decide)]
  by_cases haddr : Addressed receiver dest
  · rw [if_pos haddr, if_neg fun h => not_addressed_iff.mpr h haddr, netDefragment,
      if_pos (show ipFlagsDfrag &&& (ipOffs ||| ipFlagsMfrag) = 0 by decide)]
    dsimp only
    rw [if_neg (by decide), if_neg (by decide), udpLen_sub (by change 8 + len < 2 ^ 16; omega)]
  · rw [if_neg haddr, if_pos (not_addressed_iff.mp haddr)]

theorem received_of_link {receiver : NetState} {mem : Memory} {n : Nat} {link : LinkPayload}
    (hpush : receiver.pushPacket = false) (hn : etherHdrSize ≤ n) (hint : n < 2 ^ 31)
    (hlink : linkPayload receiver mem n = some link) (hproto : link.ethProto = protIp) :
    netProcessReceivedPacket sums receiver mem n =
      if vlanMatches receiver link.vlanid then receiveIp sums receiver mem link.ip link.len else .dropped := by
  have hsize : ¬sizeT n < etherHdrSize := by
    change ¬((n : Int) % 2 ^ 64).toNat < 14
    change 14 ≤ n at hn
    omega
  rw [netProcessReceivedPacket, if_neg hsize, hpush, if_neg Bool.false_ne_true, hlink]
  dsimp only
  rw [hproto, ite_not, if_neg (show protIp ≠ protArp by decide), if_pos rfl]

theorem received_of_no_link {receiver : NetState} {mem : Memory} {n : Nat} (hpush : receiver.pushPacket = false)
    (hlink : linkPayload receiver mem n = none) : netProcessReceivedPacket sums receiver mem n = .dropped := by
  rw [netProcessReceivedPacket, hpush, if_neg Bool.false_ne_true, hlink, ite_self]

/-- The sender with the payload in its place in `net_tx_packet`. -/
def NetState.withPayload (net : NetState) (payload : List UInt8) : NetState :=
  { net with netTxPacket := net.netTxPacket.store (netEthHdrSize net + ipUdpHdrSize) payload }

/-- The transmit buffer after `net_send_udp_packet`. -/
def sentPacket (sums : Checksum) (ether : EthAddr) (dest : InAddr) (dport sport : UInt16) (payload : List UInt8)
    (net : NetState) : Memory :=
  netSetUdpHeader sums net (netEthHdrSize net) (newStyle dest) dport sport payload.length
    (netSetEther net 0 (etherFor ether (newStyle dest)) protIp (net.withPayload payload).netTxPacket).2

theorem netSendUdpPacket_fst (sums : Checksum) (now : Nat) (ether : EthAddr) (dest : InAddr) (dport sport : UInt16)
    (payload : List UInt8) (net : NetState) :
    (netSendUdpPacket sums now ether dest dport sport payload.length (net.withPayload payload)).1 =
      if etherFor ether (newStyle dest) = netNullEthaddr then .waiting
      else .transmitted ((sentPacket sums ether dest dport sport payload net).bytes 0
        (netEthHdrSize net + ipUdpHdrSize + payload.length)) := by
  have hsize (ether : EthAddr) (m : Memory) :
      (netSetEther (net.withPayload payload) 0 ether protIp m).1 = netEthHdrSize net := netSetEther_size ..
  unfold netSendUdpPacket
  simp only [hsize]
  split <;> rfl

theorem sentPacket_payload {ether : EthAddr} {payload : List UInt8} :
    (sentPacket sums ether dest dport sport payload net).bytes (netEthHdrSize net + ipUdpHdrSize) payload.length =
      payload := by
  have hkept : ∀ i, netEthHdrSize net + ipUdpHdrSize ≤ i → i < netEthHdrSize net + ipUdpHdrSize + payload.length →
      sentPacket sums ether dest dport sport payload net i = (net.withPayload payload).netTxPacket i := by
    intro i hle hlt
    rw [sentPacket, netSetUdpHeader_outside (by omega)]
    exact netSetEther_outside (by omega)
  rw [bytes_congr hkept]
  exact bytes_store ..

theorem received_copy {sender : NetState} {now : Nat} {ether : EthAddr} {mem : Memory} {payload frame : List UInt8}
    (hsend : (netSendUdpPacket sums now ether dest dport sport payload.length (sender.withPayload payload)).1 =
      .transmitted frame)
    (hmem : mem.bytes 0 frame.length = frame) :
    frame.length = netEthHdrSize sender + ipUdpHdrSize + payload.length ∧
      ∀ i < netEthHdrSize sender + ipUdpHdrSize + payload.length,
        mem i = sentPacket sums ether dest dport sport payload sender i := by
  rw [netSendUdpPacket_fst] at hsend
  split at hsend
  · cases hsend
  have hframe := (Sending.transmitted.inj hsend).symm
  have hlen : frame.length = netEthHdrSize sender + ipUdpHdrSize + payload.length := by
    rw [hframe, bytes_length]
  refine ⟨hlen, fun i hi => ?_⟩
  rw [hlen] at hmem
  exact bytes_inj (hmem.trans hframe) hi

theorem copy_payload {sender : NetState} {ether : EthAddr} {mem : Memory} {payload : List UInt8}
    (hcopy : ∀ i < netEthHdrSize sender + ipUdpHdrSize + payload.length,
      mem i = sentPacket sums ether dest dport sport payload sender i) :
    mem.bytes (netEthHdrSize sender + ipUdpHdrSize) payload.length = payload := by
  rw [bytes_congr fun i _ hlt => hcopy i hlt]
  exact sentPacket_payload

theorem copy_received {sender receiver : NetState} {n : Nat} {ether : EthAddr} {mem : Memory} {payload : List UInt8}
    (hcopy : ∀ i < netEthHdrSize sender + ipUdpHdrSize + payload.length,
      mem i = sentPacket sums ether dest dport sport payload sender i)
    (hshort : ipUdpHdrSize + payload.length < 2 ^ 16)
    (hn : netEthHdrSize sender + ipUdpHdrSize + payload.length ≤ n) (hint : n < 2 ^ 31)
    (hpush : receiver.pushPacket = false) :
    netProcessReceivedPacket sums receiver mem n =
      if Hears sender receiver ∧ Addressed receiver (newStyle dest) then
        .udp ⟨netEthHdrSize sender + ipUdpHdrSize, dport, sender.netIp, sport, .ofNat payload.length⟩
      else .dropped := by
  have hsize := netEthHdrSize_le sender
  change _ ≤ 18 at hsize
  change 28 + payload.length < 2 ^ 16 at hshort
  change _ + 28 + payload.length ≤ n at hn
  have hset : ∀ i < netEthHdrSize sender, mem i =
      (netSetEther sender 0 (etherFor ether (newStyle dest)) protIp (sender.withPayload payload).netTxPacket).2 i :=
    fun i hi => (hcopy i (by omega)).trans (netSetUdpHeader_outside (.inl hi))
  have hlink : linkPayload receiver mem n = _ := linkPayload_netSetEther hset (by omega) hint
  obtain ⟨summed, hsum, hread⟩ := netSetUdpHeader_read sums sender (netEthHdrSize sender) (newStyle dest) dport sport
    payload.length (netSetEther sender 0 (etherFor ether (newStyle dest)) protIp (sender.withPayload payload).netTxPacket).2
  have hmemRead := (IpUdpHdr.read_congr fun i _ hlt => hcopy i (by change _ < _ + 28 + _; omega)).trans hread
  have hip : receiveIp sums receiver mem (netEthHdrSize sender) (n - netEthHdrSize sender) = _ :=
    receiveIp_of_read hmemRead hsum hshort (by change ((28 + payload.length : Nat) : Int) ≤ _; omega) (by omega)
  have hether : etherHdrSize ≤ n := Nat.le_trans (netEthHdrSize_ge sender) (by omega)
  by_cases hnone : sender.vlan = vlanNone
  · rw [if_pos hnone] at hlink
    rw [netEthHdrSize_of_none hnone] at hip ⊢
    rw [received_of_link hpush hether hint hlink rfl, hip, ite_and]
    simp only [vlanMatches_none_iff hnone]
  · rw [if_neg hnone] at hlink
    rw [netEthHdrSize_of_ne hnone] at hip ⊢
    by_cases hreceiver : receiver.vlan = vlanNone
    · have hdeaf : ¬Hears sender receiver := fun h => h.elim (fun h => hnone (h.trans hreceiver)) fun h => hnone h.1
      rw [if_pos hreceiver] at hlink
      rw [received_of_no_link hpush hlink, if_neg fun h => hdeaf h.1]
    · rw [if_neg hreceiver] at hlink
      rw [received_of_link hpush hether hint hlink rfl, hip, ite_and]
      simp only [vlanMatches_tagged_iff hnone hreceiver]

/-- A datagram that is transmitted reaches the handler of another host exactly if the two are on one VLAN
and the host is meant, and then with its payload, its ports and the address of the sender, whatever the
receive buffer holds after the frame. -/
theorem datagram_received_iff {sender receiver : NetState} {now n : Nat} {ether : EthAddr} {mem : Memory}
    {payload frame : List UInt8}
    (hsend : (netSendUdpPacket sums now ether dest dport sport payload.length (sender.withPayload payload)).1 =
      .transmitted frame)
    (hshort : ipUdpHdrSize + payload.length < 2 ^ 16) (hmem : mem.bytes 0 frame.length = frame)
    (hn : frame.length ≤ n) (hint : n < 2 ^ 31) (hpush : receiver.pushPacket = false) :
    netProcessReceivedPacket sums receiver mem n =
        (if Hears sender receiver ∧ Addressed receiver (newStyle dest) then
          .udp ⟨netEthHdrSize sender + ipUdpHdrSize, dport, sender.netIp, sport, .ofNat payload.length⟩
        else .dropped) ∧
      mem.bytes (netEthHdrSize sender + ipUdpHdrSize) payload.length = payload := by
  obtain ⟨hlen, hcopy⟩ := received_copy hsend hmem
  exact ⟨copy_received hcopy hshort (hlen ▸ hn) hint hpush, copy_payload hcopy⟩

theorem inetSum_ok (m : Memory) (ip : Nat) (hzero : m.load16 (ip + 10) = 0) :
    inetSum ((m.store16 (ip + 10) (inetSum (m.load ip 20))).load ip 20) &&& 0xfffe = 0 := by
  have hlt : foldSum (wordSum (m.load ip 20).val) < 65536 := Nat.mod_lt _ (by decide)
  have hsum : (inetSum (m.load ip 20)).toNat = 65535 - foldSum (wordSum (m.load ip 20).val) := by
    rw [inetSum, UInt16.toNat_ofNat']
    omega
  have hfold : foldSum (wordSum ((m.store16 (ip + 10) (inetSum (m.load ip 20))).load ip 20).val) = 65535 := by
    rw [wordSum_store16 _ hzero, hsum]
    exact foldSum_complement (wordSum_load_le m ip)
  rw [inetSum, hfold]
  decide

def inetChecksum : Checksum where
  computeIpChecksum := inetSum
  ipChecksumOk hdr := inetSum hdr &&& 0xfffe = 0
  computed_ok m ip hzero := decide_eq_true (inetSum_ok m ip hzero)

/-- A host with the address 10.0.0.`n`, and the VLAN of that number. -/
def host (n : UInt8) (vlan : UInt16) : NetState where
  netEthaddr := ⟨[0, 27, 9, 1, 2, n], rfl⟩
  netIp := ⟨[10, 0, 0, n], rfl⟩
  netOurVlan := htons vlan
  netNativeVlan := 0xFFFF
  netIpId := 0
  netTxPacket := fun _ => 0
  pushPacket := false
  netArpWaitPacketIp := inaddrAny
  arpWaitPacketEthaddr := netNullEthaddr
  arpWaitTxPacketSize := 0
  arpWaitTry := 0
  arpWaitTimerStart := 0

theorem datagram_received_iff_of_tagged :
    let mem := sentPacket inetChecksum netNullEthaddr inaddrAny 65000 1024 [77, 65, 67] (host 1 7)
    netProcessReceivedPacket inetChecksum (host 2 7) mem 49 = .udp ⟨46, 65000, ⟨[10, 0, 0, 1], rfl⟩, 1024, 3⟩ ∧
      mem.bytes 46 3 = [77, 65, 67] := by
  have h : netProcessReceivedPacket inetChecksum (host 2 7) _ (49 : Nat) = _ ∧ _ :=
    datagram_received_iff (netSendUdpPacket_fst inetChecksum 0 netNullEthaddr inaddrAny 65000 1024 [77, 65, 67] (host 1 7))
      (by decide) (by rw [bytes_length]) (by rw [bytes_length]; decide) (by decide) rfl
  rwa [if_pos (by decide)] at h

end NvrxFirmware.Net
