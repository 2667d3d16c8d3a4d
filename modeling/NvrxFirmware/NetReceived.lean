import NvrxFirmware.NetDatagrams

namespace NvrxFirmware.Net

open Memory

variable {sums : Checksum} {net : NetState} {m m' : Memory} {ip n : Nat} {len : Int} {link : LinkPayload} {call : UdpCall}

theorem netDefragment_eq_some {hdr : IpUdpHdr} {k : Nat} (h : netDefragment hdr ip = some k) : k = ip := by
  unfold netDefragment at h
  split at h
  · exact (Option.some.inj h).symm
  · cases h

theorem netDefragment_whole {hdr : IpUdpHdr} {k : Nat} (h : netDefragment hdr ip = some k) :
    hdr.ipOff &&& (ipOffs ||| ipFlagsMfrag) = 0 := by
  unfold netDefragment at h
  split at h
  next hwhole => exact hwhole
  next => cases h

theorem receiveIcmp_congr (h : ∀ i, ip ≤ i → i < ip + 28 → m i = m' i) (len : Int) (srcIp : InAddr) :
    receiveIcmp m ip len srcIp = receiveIcmp m' ip len srcIp := by
  have htype : m (ip + 20) = m' (ip + 20) := h _ (by omega) (by omega)
  have hcode : m (ip + 21) = m' (ip + 21) := h _ (by omega) (by omega)
  have hgateway : m.load (ip + 24) 4 = m'.load (ip + 24) 4 := load_congr fun i hle hlt => h i (by omega) (by omega)
  rw [receiveIcmp, receiveIcmp, htype, hcode, hgateway, IpUdpHdr.read_congr h]

theorem receiveIp_congr (h : ∀ i, ip ≤ i → i < ip + 28 → m i = m' i) (len : Int) :
    receiveIp sums net m ip len = receiveIp sums net m' ip len := by
  unfold receiveIp
  rw [IpUdpHdr.read_congr h]
  dsimp only
  cases hwhole : netDefragment (IpUdpHdr.read m' ip) ip with
  | none => rfl
  | some k =>
    obtain rfl := netDefragment_eq_some hwhole
    dsimp only
    rw [receiveIcmp_congr h]

theorem receiveIp_negative (h : len < 0) (hint : -2 ^ 31 ≤ len) : receiveIp sums net m ip len = .dropped := by
  have hsize : ¬sizeT len < ipUdpHdrSize := by
    change ¬(len % 2 ^ 64).toNat < 28
    omega
  unfold receiveIp
  rw [if_neg hsize, if_pos (by omega)]

theorem receiveIp_short {k : Nat} (h : k < ipUdpHdrSize) : receiveIp sums net m ip k = .dropped := by
  have hsize : sizeT k < ipUdpHdrSize := by
    change k < 28 at h
    change ((k : Int) % 2 ^ 64).toNat < 28
    omega
  unfold receiveIp
  rw [if_pos hsize]

theorem receiveIp_received (h : ∀ i < n, m i = m' i) (hint : n < 2 ^ 31) (hip : ip ≤ e802HdrSize) :
    receiveIp sums net m ip (n - ip) = receiveIp sums net m' ip (n - ip) := by
  change ip ≤ 22 at hip
  by_cases hneg : n < ip
  · rw [receiveIp_negative (by omega) (by omega), receiveIp_negative (by omega) (by omega)]
  · obtain ⟨k, rfl⟩ : ∃ k, n = ip + k := ⟨n - ip, by omega⟩
    have hk : ((ip + k : Nat) : Int) - ip = k := by omega
    rw [hk]
    by_cases hshort : k < ipUdpHdrSize
    · rw [receiveIp_short hshort, receiveIp_short hshort]
    · change ¬k < 28 at hshort
      exact receiveIp_congr (fun i _ hlt => h i (by omega)) k

/-- Where the link header ends. -/
structure LinkEnd (n : Nat) (link : LinkPayload) : Prop where
  ip : link.ip = etherHdrSize ∨ link.ip = vlanEtherHdrSize ∨ link.ip = e802HdrSize
  len : link.len = n - link.ip

theorem LinkEnd.ip_le (h : LinkEnd n link) : link.ip ≤ e802HdrSize := by
  rcases h.ip with h | h | h <;> rw [h] <;> decide

theorem linkPayload_end (h : linkPayload net m n = some link) : LinkEnd n link := by
  unfold linkPayload at h
  dsimp only at h
  split_ifs at h
  · cases h
    exact ⟨.inr (.inr rfl), rfl⟩
  · cases h
    exact ⟨.inl rfl, rfl⟩
  · cases h
    exact ⟨.inr (.inl rfl), rfl⟩

/-- A frame of the 802.2 kind that ends before its protocol. -/
def CutShort (m : Memory) (n : Nat) : Prop := n < e802HdrSize ∧ ntohs (m.load16 12) < 1514

theorem linkPayload_congr (h : ∀ i < n, m i = m' i) (hn : etherHdrSize ≤ n) (hwhole : ¬CutShort m n) :
    linkPayload net m n = linkPayload net m' n := by
  change 14 ≤ n at hn
  have hprot : m.load16 12 = m'.load16 12 := load16_congr (h _ (by omega)) (h _ (by omega))
  unfold linkPayload
  simp only [← hprot]
  split
  next hlow =>
    have hlong : e802HdrSize ≤ n := Nat.le_of_not_lt fun hlt => hwhole ⟨hlt, hlow⟩
    change 22 ≤ n at hlong
    rw [load16_congr (h 20 (by omega)) (h 21 (by omega))]
  next =>
    split
    · rfl
    · split
      · rfl
      next hsize =>
        have hlong : 18 ≤ n := by
          change ¬((n : Int) % 2 ^ 64).toNat < 18 at hsize
          omega
        rw [load16_congr (h 16 (by omega)) (h 17 (by omega)), load16_congr (h 14 (by omega)) (h 15 (by omega))]

/-- What may become of a frame that is cut short. -/
def Stray (n : Nat) (r : Received) : Prop := r = .dropped ∨ r = .arpReceive e802HdrSize (n - e802HdrSize)

theorem cutShort_stray (hpush : net.pushPacket = false) (h : CutShort m n) :
    Stray n (netProcessReceivedPacket sums net m n) := by
  obtain ⟨hn, hlow⟩ := h
  have hlink : linkPayload net m n = some ⟨ntohs (m.load16 20), vlanNone, e802HdrSize, n - e802HdrSize⟩ := if_pos hlow
  change n < 22 at hn
  unfold netProcessReceivedPacket
  rw [hpush, if_neg Bool.false_ne_true, hlink]
  dsimp only
  have hneg : receiveIp sums net m e802HdrSize (n - e802HdrSize) = .dropped :=
    receiveIp_negative (by change (n : Int) - (22 : Nat) < 0; omega) (by change _ ≤ (n : Int) - (22 : Nat); omega)
  rw [hneg]
  unfold Stray
  split_ifs <;> simp

/-- Only the received bytes matter, but for a frame of the 802.2 kind that ends before its protocol: that one is
dropped or counts, with a negative length, for ARP. -/
theorem received_bytes_decide (sums : Checksum) (net : NetState) (h : ∀ i < n, m i = m' i) (hint : n < 2 ^ 31) :
    netProcessReceivedPacket sums net m n = netProcessReceivedPacket sums net m' n ∨
      n < e802HdrSize ∧ Stray n (netProcessReceivedPacket sums net m n) ∧
        Stray n (netProcessReceivedPacket sums net m' n) := by
  by_cases hether : sizeT n < etherHdrSize
  · exact .inl (by rw [netProcessReceivedPacket, netProcessReceivedPacket, if_pos hether, if_pos hether])
  cases hpush : net.pushPacket with
  | true =>
    refine .inl ?_
    rw [netProcessReceivedPacket, netProcessReceivedPacket, if_neg hether, if_neg hether, hpush, if_pos rfl, if_pos rfl]
  | false =>
    have hn : 14 ≤ n := by
      change ¬((n : Int) % 2 ^ 64).toNat < 14 at hether
      omega
    by_cases hcut : CutShort m n
    · have hcut' : CutShort m' n := by
        rw [CutShort, ← load16_congr (h 12 (by omega)) (h 13 (by omega))]
        exact hcut
      exact .inr ⟨hcut.1, cutShort_stray hpush hcut, cutShort_stray hpush hcut'⟩
    · refine .inl ?_
      have hlink : linkPayload net m n = linkPayload net m' n := linkPayload_congr h hn hcut
      cases hsome : linkPayload net m' n with
      | none => rw [received_of_no_link hpush (hlink.trans hsome), received_of_no_link hpush hsome]
      | some link =>
        have hip : receiveIp sums net m link.ip link.len = receiveIp sums net m' link.ip link.len := by
          rw [(linkPayload_end hsome).len]
          exact receiveIp_received h hint (linkPayload_end hsome).ip_le
        unfold netProcessReceivedPacket
        rw [hlink, hsome]
        dsimp only
        rw [hip]

theorem received_bytes_decide_of_stale_bytes :
    let m := sentPacket inetChecksum netNullEthaddr inaddrAny 65000 1024 [77] (host 1 7)
    netProcessReceivedPacket inetChecksum (host 2 7) m (47 : Nat) =
      netProcessReceivedPacket inetChecksum (host 2 7) (m.store 47 [1, 2, 3]) (47 : Nat) := by
  intro m
  have hsame : ∀ i < 47, m i = m.store 47 [1, 2, 3] i := fun i hi => (store_of_lt hi).symm
  exact (received_bytes_decide inetChecksum (host 2 7) hsame (by decide)).resolve_right fun h => absurd h.1 (by decide)

theorem receiveIcmp_ne_udp (m : Memory) (ip : Nat) (len : Int) (srcIp : InAddr) :
    receiveIcmp m ip len srcIp ≠ .udp call := by
  unfold receiveIcmp
  dsimp only
  split_ifs <;> simp

theorem not_dropped {c : Prop} [Decidable c] {r : Received} (h : (if c then .dropped else r) = .udp call) :
    ¬c ∧ r = .udp call := by
  split at h
  next => cases h
  next hc => exact ⟨hc, h⟩

/-- What has been checked of a datagram by the time that its handler is called. -/
theorem receiveIp_udp (h : receiveIp sums net m ip len = .udp call) :
    ¬sizeT len < ipUdpHdrSize ∧ ((IpUdpHdr.read m ip).ipLen.toNat ≤ len ∧ (IpUdpHdr.read m ip).ipHlV &&& 0xf0 = 0x40 ∧
      sums.ipChecksumOk (IpUdpHdr.read m ip).summed = true ∧ Addressed net (IpUdpHdr.read m ip).ipDst ∧
      (IpUdpHdr.read m ip).ipOff &&& (ipOffs ||| ipFlagsMfrag) = 0 ∧ (IpUdpHdr.read m ip).ipP = ipprotoUdp) ∧
      call = ⟨ip + ipUdpHdrSize, (IpUdpHdr.read m ip).udpDst, (IpUdpHdr.read m ip).ipSrc, (IpUdpHdr.read m ip).udpSrc,
        (IpUdpHdr.read m ip).udpLen.toUInt32 - UInt32.ofNat udpHdrSize⟩ := by
  unfold receiveIp at h
  obtain ⟨hsize, h⟩ := not_dropped h
  obtain ⟨hfits, h⟩ := not_dropped h
  obtain ⟨hversion, h⟩ := not_dropped h
  obtain ⟨-, h⟩ := not_dropped h
  obtain ⟨hsum, h⟩ := not_dropped h
  obtain ⟨haddr, h⟩ := not_dropped h
  cases hd : netDefragment (IpUdpHdr.read m ip) ip with
  | none =>
    rw [hd] at h
    cases h
  | some k =>
    obtain rfl := netDefragment_eq_some hd
    rw [hd] at h
    dsimp only at h
    split at h
    next => exact (receiveIcmp_ne_udp m _ _ _ h).elim
    next =>
      obtain ⟨hudp, h⟩ := not_dropped h
      refine ⟨hsize, ⟨Int.not_lt.mp hfits, not_not.mp hversion, (Bool.not_eq_false _).mp hsum, ?_, netDefragment_whole hd,
        not_not.mp hudp⟩, (Received.udp.inj h).symm⟩
      exact not_not.mp fun hn => haddr (not_addressed_iff.mp hn)

theorem received_udp (h : netProcessReceivedPacket sums net m len = .udp call) :
    net.pushPacket = false ∧ ∃ link, linkPayload net m len = some link ∧ vlanMatches net link.vlanid ∧
      link.ethProto = protIp ∧ receiveIp sums net m link.ip link.len = .udp call := by
  unfold netProcessReceivedPacket at h
  obtain ⟨-, h⟩ := not_dropped h
  cases hlink : linkPayload net m len with
  | none =>
    rw [hlink] at h
    split at h <;> cases h
  | some link =>
    rw [hlink] at h
    split at h
    next => cases h
    next hpush =>
      obtain ⟨hvlan, h⟩ := not_dropped h
      split at h
      next => cases h
      next =>
        split at h
        next hproto => exact ⟨Bool.eq_false_iff.mpr hpush, link, rfl, not_not.mp hvlan, hproto, h⟩
        next => cases h

/-- The datagram passed every check on its way to the handler. -/
structure Checked (sums : Checksum) (net : NetState) (m : Memory) (len : Int) (call : UdpCall) : Prop where
  unpushed : net.pushPacket = false
  link : ∃ link, linkPayload net m len = some link ∧ vlanMatches net link.vlanid ∧ link.ethProto = protIp ∧
    (IpUdpHdr.read m link.ip).ipLen.toNat ≤ link.len ∧
    (IpUdpHdr.read m link.ip).ipHlV &&& 0xf0 = 0x40 ∧
    sums.ipChecksumOk (IpUdpHdr.read m link.ip).summed = true ∧
    Addressed net (IpUdpHdr.read m link.ip).ipDst ∧
    (IpUdpHdr.read m link.ip).ipOff &&& (ipOffs ||| ipFlagsMfrag) = 0 ∧
    (IpUdpHdr.read m link.ip).ipP = ipprotoUdp ∧
    call.sip = (IpUdpHdr.read m link.ip).ipSrc ∧ call.sport = (IpUdpHdr.read m link.ip).udpSrc ∧
    call.dport = (IpUdpHdr.read m link.ip).udpDst ∧ call.pkt = link.ip + ipUdpHdrSize

theorem checked_of_received (h : netProcessReceivedPacket sums net m len = .udp call) : Checked sums net m len call := by
  obtain ⟨hpush, link, hlink, hvlan, hproto, hip⟩ := received_udp h
  obtain ⟨-, ⟨hfits, hversion, hsum, haddr, hwhole, hudp⟩, rfl⟩ := receiveIp_udp hip
  exact ⟨hpush, link, hlink, hvlan, hproto, hfits, hversion, hsum, haddr, hwhole, hudp, rfl, rfl, rfl, rfl⟩

theorem udpLen_toNat (x : UInt16) : (x.toUInt32 - UInt32.ofNat udpHdrSize).toNat =
    if udpHdrSize ≤ x.toNat then x.toNat - udpHdrSize else 2 ^ 32 - udpHdrSize + x.toNat := by
  have hx := x.toNat_lt
  rw [UInt32.toNat_sub, UInt16.toNat_toUInt32, UInt32.toNat_ofNat']
  change (2 ^ 32 - 8 % 2 ^ 32 + x.toNat) % 2 ^ 32 = if 8 ≤ x.toNat then x.toNat - 8 else 2 ^ 32 - 8 + x.toNat
  split <;> omega

/-- A handler is called for a datagram whose headers have been received, but its length is taken from the UDP header
alone: what the handler may read has been received exactly if that length covers its header and ends in the frame. -/
theorem handler_window_received_iff (h : netProcessReceivedPacket sums net m n = .udp call) (hint : n < 2 ^ 31) :
    ∃ link, linkPayload net m n = some link ∧ call.pkt = link.ip + ipUdpHdrSize ∧ call.pkt ≤ n ∧
      (call.pkt + call.len.toNat ≤ n ↔ udpHdrSize ≤ (IpUdpHdr.read m link.ip).udpLen.toNat ∧
        link.ip + ipHdrSize + (IpUdpHdr.read m link.ip).udpLen.toNat ≤ n) := by
  obtain ⟨-, link, hlink, -, -, hreceived⟩ := received_udp h
  have hend := linkPayload_end hlink
  have hip := hend.ip_le
  rw [hend.len] at hreceived
  obtain ⟨hsize, ⟨hfits, -⟩, rfl⟩ := receiveIp_udp hreceived
  change link.ip ≤ 22 at hip
  change ¬(((n : Int) - link.ip) % 2 ^ 64).toNat < 28 at hsize
  refine ⟨link, hlink, rfl, ?_, ?_⟩
  · change link.ip + 28 ≤ n
    omega
  · dsimp only
    rw [udpLen_toNat]
    change _ ↔ 8 ≤ _ ∧ link.ip + 20 + _ ≤ n
    have hudp := (IpUdpHdr.read m link.ip).udpLen.toNat_lt
    split
    next hlong =>
      change 8 ≤ _ at hlong
      change link.ip + 28 + (_ - 8) ≤ n ↔ _
      omega
    next hshort =>
      change ¬8 ≤ _ at hshort
      change link.ip + 28 + (2 ^ 32 - 8 + _) ≤ n ↔ _
      omega

/-- The UDP header claims 200 bytes in a frame of 47. -/
theorem handler_window_received_iff_of_long_length :
    let m := (sentPacket inetChecksum netNullEthaddr inaddrAny 65000 1024 [77] (host 1 7)).store16 42 (htons 200)
    ∃ link, linkPayload (host 2 7) m (47 : Nat) = some link ∧ 46 = link.ip + ipUdpHdrSize ∧ 46 ≤ 47 ∧
      (46 + 192 ≤ 47 ↔ udpHdrSize ≤ (IpUdpHdr.read m link.ip).udpLen.toNat ∧
        link.ip + ipHdrSize + (IpUdpHdr.read m link.ip).udpLen.toNat ≤ 47) := by
  intro m
  have h : netProcessReceivedPacket inetChecksum (host 2 7) m (47 : Nat) =
      .udp ⟨46, 65000, ⟨[10, 0, 0, 1], rfl⟩, 1024, 192⟩ := by decide +kernel
  exact handler_window_received_iff h (by decide)

/-- The addresses in the reply, whose protocol is written at `k`. -/
theorem reply_addresses {addr own : EthAddr} {prot : UInt16} {k : Nat} (hk : 12 ≤ k) :
    (((m.put 0 addr).put 6 own).store16 k prot).load 0 6 = addr ∧
      (((m.put 0 addr).put 6 own).store16 k prot).load 6 6 = own := by
  constructor
  · simp (disch := omega) only [load_store16_of_disjoint, load_put_of_disjoint, load_put]
  · simp (disch := omega) only [load_store16_of_disjoint, load_put]

theorem reply_kept {addr own : EthAddr} {prot : UInt16} {k i : Nat} (hk : 12 ≤ k) (hi : k + 2 ≤ i) :
    ((m.put 0 addr).put 6 own).store16 k prot i = m i := by
  simp (disch := omega) only [store16_of_outside, put_of_outside]

theorem reply_load16 {addr own : EthAddr} {prot : UInt16} {k j : Nat} (hj : 12 ≤ j) (hk : j + 2 ≤ k ∨ k + 2 ≤ j) :
    (((m.put 0 addr).put 6 own).store16 k prot).load16 j = m.load16 j := by
  simp (disch := omega) only [load16_store16_of_disjoint, load16_put_of_disjoint]

/-- A reply in the place of a packet that was taken for ARP or IP: `net_update_ether` leaves what follows the link
header alone, and the reply is on the same kind of link and on the same VLAN. -/
theorem reply_keeps_link {addr : EthAddr} {prot : UInt16} (h : linkPayload net m n = some link)
    (htaken : link.ethProto = protArp ∨ link.ethProto = protIp) (hprot : 1514 ≤ prot) (hvlan : prot ≠ protVlan) :
    let reply := netUpdateEther net 0 addr prot m
    reply.1 = link.ip ∧ (∀ i, link.ip ≤ i → reply.2 i = m i) ∧
      linkPayload net reply.2 n = some { link with ethProto := prot } ∧
      reply.2.load 0 6 = addr ∧ reply.2.load 6 6 = net.netEthaddr := by
  have hprotlen : ((m.put 0 addr).put 6 net.netEthaddr).load16 (0 + 12) = m.load16 12 := by
    simp (disch := omega) only [load16_put_of_disjoint]
  unfold netUpdateEther
  dsimp only
  rw [hprotlen]
  unfold linkPayload at h
  dsimp only at h
  split_ifs at h with hlow hnormal hsize hactive
  · obtain rfl := (Option.some.inj h).symm
    have hne : ntohs (m.load16 12) ≠ protVlan := fun heq => absurd (heq ▸ hlow) (by decide)
    rw [if_neg hne, if_neg (UInt16.lt_asymm hlow)]
    refine ⟨rfl, fun i hi => reply_kept (by omega) hi, ?_, reply_addresses (by omega)⟩
    dsimp only
    rw [linkPayload, reply_load16 (by omega) (by omega), load16_store16, ntohs_htons, if_pos hlow]
  · obtain rfl := (Option.some.inj h).symm
    have hlarge : 1514 < ntohs (m.load16 12) := by
      dsimp only at htaken
      rcases htaken with h | h <;> rw [h] <;> decide
    rw [if_neg hnormal, if_pos hlarge]
    refine ⟨rfl, fun i hi => reply_kept (by omega) hi, ?_, reply_addresses (by omega)⟩
    dsimp only
    rw [linkPayload, load16_store16, ntohs_htons, if_neg (UInt16.not_lt.mpr hprot), if_pos hvlan]
  · obtain rfl := (Option.some.inj h).symm
    have hvlanType : ntohs (m.load16 12) = protVlan := not_not.mp hnormal
    rw [if_pos hvlanType]
    refine ⟨rfl, fun i hi => reply_kept (by omega) hi, ?_, reply_addresses (by omega)⟩
    dsimp only
    rw [linkPayload, reply_load16 (j := 12) (by omega) (by omega), reply_load16 (j := 14) (by omega) (by omega),
      load16_store16, ntohs_htons,
      if_neg hlow, if_neg hnormal, if_neg hsize, if_neg hactive]

theorem reply_keeps_link_of_tagged :
    let m := sentPacket inetChecksum netNullEthaddr inaddrAny 65000 1024 [77] (host 1 7)
    let reply := netUpdateEther (host 2 7) 0 ⟨[0, 27, 9, 1, 2, 1], rfl⟩ protArp m
    reply.1 = 18 ∧ (∀ i, 18 ≤ i → reply.2 i = m i) ∧ linkPayload (host 2 7) reply.2 (47 : Nat) = some ⟨protArp, 7, 18, 29⟩ ∧
      reply.2.load 0 6 = ⟨[0, 27, 9, 1, 2, 1], rfl⟩ ∧ reply.2.load 6 6 = ⟨[0, 27, 9, 1, 2, 2], rfl⟩ := by
  intro m
  have h : linkPayload (host 2 7) m (47 : Nat) = some ⟨protIp, 7, 18, 29⟩ := by decide +kernel
  exact reply_keeps_link h (.inr rfl) (by decide) (by decide)

end NvrxFirmware.Net
