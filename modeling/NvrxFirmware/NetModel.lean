import NvrxFirmware.Memories
import Mathlib.Algebra.Ring.Int.Defs

namespace NvrxFirmware.Net

abbrev EthAddr := Bytes 6

/-- `struct in_addr`, in the order of the network. -/
abbrev InAddr := Bytes 4

def netBcastEthaddr : EthAddr := ⟨List.replicate 6 0xFF, rfl⟩
def netNullEthaddr : EthAddr := ⟨List.replicate 6 0, rfl⟩
def inaddrAny : InAddr := ⟨List.replicate 4 0, rfl⟩
def inaddrBroadcast : InAddr := ⟨List.replicate 4 0xFF, rfl⟩

def etherHdrSize : Nat := 14
def e802HdrSize : Nat := 22
def vlanEtherHdrSize : Nat := 18
def ipHdrSize : Nat := 20
def ipUdpHdrSize : Nat := 28
def udpHdrSize : Nat := ipUdpHdrSize - ipHdrSize

def protIp : UInt16 := 0x0800
def protArp : UInt16 := 0x0806
def protVlan : UInt16 := 0x8100
def ipprotoIcmp : UInt8 := 1
def ipprotoUdp : UInt8 := 17
def icmpRedirect : UInt8 := 5
def icmpRedirHost : UInt8 := 1
def ipOffs : UInt16 := 0x1fff
def ipFlagsDfrag : UInt16 := 0x4000
def ipFlagsMfrag : UInt16 := 0x2000
def vlanNone : UInt16 := 4095
def vlanIdmask : UInt16 := 0x0fff

/-- The variables of `net.c` and `arp.c` that the datagrams pass by; `pushPacket` says whether an EFI
application takes the packets. -/
structure NetState where
  netEthaddr : EthAddr
  netIp : InAddr
  netOurVlan : UInt16
  netNativeVlan : UInt16
  netIpId : UInt32
  netTxPacket : Memory
  pushPacket : Bool
  netArpWaitPacketIp : InAddr
  arpWaitPacketEthaddr : EthAddr
  arpWaitTxPacketSize : Nat
  arpWaitTry : Nat
  arpWaitTimerStart : Nat

/-- The functions for the checksum of a header of `IP_HDR_SIZE` bytes: with the computed sum
in its place, the header passes. -/
structure Checksum where
  computeIpChecksum : Bytes 20 → UInt16
  ipChecksumOk : Bytes 20 → Bool
  computed_ok : ∀ (m : Memory) (ip : Nat), m.load16 (ip + 10) = 0 →
    ipChecksumOk ((m.store16 (ip + 10) (computeIpChecksum (m.load ip 20))).load ip 20) = true

/-- `myvlanid` and `mynvlanid`, from a variable in the order of the network. -/
def vlanOf (vlan : UInt16) : UInt16 := if ntohs vlan = 0xFFFF then vlanNone else ntohs vlan

def netEthHdrSize (net : NetState) : Nat :=
  if vlanOf net.netOurVlan &&& vlanIdmask = vlanNone then etherHdrSize else vlanEtherHdrSize

def netSetEther (net : NetState) (xet : Nat) (destEthaddr : EthAddr) (prot : UInt16) (m : Memory) : Nat × Memory :=
  let myvlanid := vlanOf net.netOurVlan
  let m := (m.put xet destEthaddr).put (xet + 6) net.netEthaddr
  if myvlanid &&& vlanIdmask = vlanNone then (etherHdrSize, m.store16 (xet + 12) (htons prot))
  else
    let m := m.store16 (xet + 12) (htons protVlan)
    let m := m.store16 (xet + 14) (htons ((0 : UInt16) <<< 5 ||| (myvlanid &&& vlanIdmask)))
    (vlanEtherHdrSize, m.store16 (xet + 16) (htons prot))

/-- `net_update_ether` on a packet that begins at `et`. -/
def netUpdateEther (net : NetState) (et : Nat) (addr : EthAddr) (prot : UInt16) (m : Memory) : Nat × Memory :=
  let m := (m.put et addr).put (et + 6) net.netEthaddr
  let protlen := ntohs (m.load16 (et + 12))
  if protlen = protVlan then (vlanEtherHdrSize, m.store16 (et + 16) (htons prot))
  else if 1514 < protlen then (etherHdrSize, m.store16 (et + 12) (htons prot))
  else (e802HdrSize, m.store16 (et + 20) (htons prot))

/-- `net_set_ip_header`, which leaves the protocol to its caller; `ipId` is the id that it takes. -/
def netSetIpHeader (ipId : UInt32) (ip : Nat) (dest source : InAddr) (m : Memory) : Memory :=
  let m := (m.store8 ip 0x45).store8 (ip + 1) 0
  let m := m.store16 (ip + 2) (htons (.ofNat ipHdrSize))
  let m := m.store16 (ip + 4) (htons ipId.toUInt16)
  let m := m.store16 (ip + 6) (htons ipFlagsDfrag)
  let m := m.store8 (ip + 8) 255
  let m := m.store16 (ip + 10) 0
  (m.put (ip + 12) source).put (ip + 16) dest

def netSetUdpHeader (sums : Checksum) (net : NetState) (ip : Nat) (dest : InAddr) (dport sport : UInt16) (len : Nat)
    (m : Memory) : Memory :=
  let m := if len % 2 = 1 then m.store8 (ip + (ipUdpHdrSize + len)) 0 else m
  let m := netSetIpHeader net.netIpId ip dest net.netIp m
  let m := m.store16 (ip + 2) (htons (.ofNat (ipUdpHdrSize + len)))
  let m := m.store8 (ip + 9) ipprotoUdp
  let m := m.store16 (ip + 10) (sums.computeIpChecksum (m.load ip ipHdrSize))
  let m := m.store16 (ip + 20) (htons sport)
  let m := m.store16 (ip + 22) (htons dport)
  let m := m.store16 (ip + 24) (htons (.ofNat (udpHdrSize + len)))
  m.store16 (ip + 26) 0

/-- The "new style broadcast". -/
def newStyle (dest : InAddr) : InAddr := if dest = inaddrAny then inaddrBroadcast else dest

/-- A broadcast goes to the broadcast address of the link. -/
def etherFor (ether : EthAddr) (dest : InAddr) : EthAddr := if dest = inaddrBroadcast then netBcastEthaddr else ether

/-- What `net_send_udp_packet` does with the packet it has made. -/
inductive Sending
  | waiting
  | transmitted (frame : List UInt8)
  deriving DecidableEq, Repr

/-- `net_send_udp_packet` after `net_init`; the payload already lies in its place. -/
def netSendUdpPacket (sums : Checksum) (now : Nat) (ether : EthAddr) (dest : InAddr) (dport sport : UInt16)
    (payloadLen : Nat) (net : NetState) : Sending × NetState :=
  let dest := newStyle dest
  let ether := etherFor ether dest
  let (ethHdrSize, m) := netSetEther net 0 ether protIp net.netTxPacket
  let m := netSetUdpHeader sums net ethHdrSize dest dport sport payloadLen m
  let net := { net with netTxPacket := m, netIpId := net.netIpId + 1 }
  let pktHdrSize := ethHdrSize + ipUdpHdrSize
  if ether = netNullEthaddr then
    (.waiting, { net with
      netArpWaitPacketIp := dest
      arpWaitPacketEthaddr := ether
      arpWaitTxPacketSize := pktHdrSize + payloadLen
      arpWaitTry := 1
      arpWaitTimerStart := now })
  else (.transmitted (m.bytes 0 (pktHdrSize + payloadLen)), net)

/-- `struct ip_udp_hdr`, the fields that are looked at, in the order of the host, and the bytes under the checksum. -/
structure IpUdpHdr where
  ipHlV : UInt8
  ipLen : UInt16
  ipOff : UInt16
  ipP : UInt8
  ipSrc : InAddr
  ipDst : InAddr
  udpSrc : UInt16
  udpDst : UInt16
  udpLen : UInt16
  summed : Bytes 20
  deriving DecidableEq

def IpUdpHdr.read (m : Memory) (ip : Nat) : IpUdpHdr where
  ipHlV := m ip
  ipLen := ntohs (m.load16 (ip + 2))
  ipOff := ntohs (m.load16 (ip + 6))
  ipP := m (ip + 9)
  ipSrc := m.load (ip + 12) 4
  ipDst := m.load (ip + 16) 4
  udpSrc := ntohs (m.load16 (ip + 20))
  udpDst := ntohs (m.load16 (ip + 22))
  udpLen := ntohs (m.load16 (ip + 24))
  summed := m.load ip 20

/-- The call of the UDP handler. -/
structure UdpCall where
  pkt : Nat
  dport : UInt16
  sip : InAddr
  sport : UInt16
  len : UInt32
  deriving DecidableEq

/-- The call of the ICMP handler, which comes after that of `ping_receive`. -/
structure IcmpCall where
  type : UInt8
  code : UInt8
  dport : UInt16
  sip : InAddr
  sport : UInt16
  pkt : Nat
  len : UInt16
  deriving DecidableEq

/-- What `net_process_received_packet` calls. -/
inductive Received
  | dropped
  | pushed
  | arpReceive (ip : Nat) (len : Int)
  | redirect (gateway : InAddr)
  | pingReceive (ip : Nat) (len : Int) (call : IcmpCall)
  | udp (call : UdpCall)
  deriving DecidableEq

/-- An `int` where it is compared with a `sizeof`. -/
def sizeT (n : Int) : Nat := (n % 2 ^ 64).toNat

/-- The packet after its link header. -/
structure LinkPayload where
  ethProto : UInt16
  vlanid : UInt16
  ip : Nat
  len : Int
  deriving DecidableEq, Repr

/-- The part of `net_process_received_packet` that finds the end of the link header. -/
def linkPayload (net : NetState) (m : Memory) (len : Int) : Option LinkPayload :=
  let ethProto := ntohs (m.load16 12)
  if ethProto < 1514 then some ⟨ntohs (m.load16 20), vlanNone, e802HdrSize, len - e802HdrSize⟩
  else if ethProto ≠ protVlan then some ⟨ethProto, vlanNone, etherHdrSize, len - etherHdrSize⟩
  else if sizeT len < vlanEtherHdrSize then none
  else if ntohs net.netOurVlan &&& vlanIdmask = vlanNone then none
  else some ⟨ntohs (m.load16 16), ntohs (m.load16 14) &&& vlanIdmask, vlanEtherHdrSize, len - vlanEtherHdrSize⟩

def vlanMatches (net : NetState) (vlanid : UInt16) : Prop :=
  let myvlanid := vlanOf net.netOurVlan &&& vlanIdmask
  myvlanid ≠ vlanNone →
    (if vlanid = vlanNone then vlanOf net.netNativeVlan &&& vlanIdmask else vlanid) = myvlanid

instance (net : NetState) (vlanid : UInt16) : Decidable (vlanMatches net vlanid) :=
  inferInstanceAs (Decidable (_ → _))

/-- `receive_icmp`. -/
def receiveIcmp (m : Memory) (ip : Nat) (len : Int) (srcIp : InAddr) : Received :=
  let type := m (ip + 20)
  let code := m (ip + 21)
  if type = icmpRedirect then
    if code ≠ icmpRedirHost then .dropped else .redirect (m.load (ip + 24) 4)
  else
    let hdr := IpUdpHdr.read m ip
    .pingReceive ip len ⟨type, code, hdr.udpDst, srcIp, hdr.udpSrc, ip + 24, hdr.udpLen⟩

/-- `net_defragment` without `CONFIG_IP_DEFRAG`. -/
def netDefragment (hdr : IpUdpHdr) (ip : Nat) : Option Nat :=
  if hdr.ipOff &&& (ipOffs ||| ipFlagsMfrag) = 0 then some ip else none

/-- The case `PROT_IP` of `net_process_received_packet`. -/
def receiveIp (sums : Checksum) (net : NetState) (m : Memory) (ip : Nat) (len : Int) : Received :=
  if sizeT len < ipUdpHdrSize then .dropped
  else
    let hdr := IpUdpHdr.read m ip
    if len < hdr.ipLen.toNat then .dropped
    else
      let len : Int := hdr.ipLen.toNat
      if hdr.ipHlV &&& 0xf0 ≠ 0x40 then .dropped
      else if 0x05 < hdr.ipHlV &&& 0x0f then .dropped
      else if sums.ipChecksumOk hdr.summed = false then .dropped
      else if net.netIp ≠ inaddrAny ∧ hdr.ipDst ≠ net.netIp ∧ hdr.ipDst ≠ inaddrBroadcast then .dropped
      else
        match netDefragment hdr ip with
        | none => .dropped
        | some ip =>
          if hdr.ipP = ipprotoIcmp then receiveIcmp m ip len hdr.ipSrc
          else if hdr.ipP ≠ ipprotoUdp then .dropped
          else .udp ⟨ip + ipUdpHdrSize, hdr.udpDst, hdr.ipSrc, hdr.udpSrc, hdr.udpLen.toUInt32 - UInt32.ofNat udpHdrSize⟩

def netProcessReceivedPacket (sums : Checksum) (net : NetState) (inPacket : Memory) (len : Int) : Received :=
  if sizeT len < etherHdrSize then .dropped
  else if net.pushPacket then .pushed
  else
    match linkPayload net inPacket len with
    | none => .dropped
    | some link =>
      if ¬vlanMatches net link.vlanid then .dropped
      else if link.ethProto = protArp then .arpReceive link.ip link.len
      else if link.ethProto = protIp then receiveIp sums net inPacket link.ip link.len
      else .dropped

end NvrxFirmware.Net
