import NvrxFirmware.Memories

namespace NvrxFirmware.UsbStorage

/-- `USB_STOR_TRANSPORT_FAILED` -/
def transportFailed : Int := -1

def cbwSignature : UInt32 := 0x43425355
def cswSignature : UInt32 := 0x53425355
def cbwFlagsIn : UInt8 := 0x80
def cbwFlagsOut : UInt8 := 0x00
def cswStatusFailed : UInt8 := 1
def cswStatusPhase : UInt8 := 2
def scsiReqSense : UInt8 := 0x03
def scsiRead10 : UInt8 := 0x28
def scsiWrite10 : UInt8 := 0x2A

/-- `us_direction`, with a 1 for each command that brings data in -/
def usDirection : List UInt8 :=
  [0x28, 0x81, 0x14, 0x14, 0x20, 0x01, 0x90, 0x77, 0x0C, 0x20, 0x00, 0x04, 0x00, 0x00, 0x00, 0x00,
    0x00, 0x00, 0x00, 0x00, 0x00, 0x01, 0x00, 0x01, 0x00, 0x00, 0x00, 0x00, 0x00, 0x00, 0x00, 0x00]

def dirIn (command : UInt8) : Bool := (usDirection.getD (command.toNat / 8) 0).toNat.testBit (command.toNat % 8)

/-- `struct umass_bbb_cbw`, with the bytes of the command that are set -/
structure Cbw where
  dCBWSignature : UInt32
  dCBWTag : UInt32
  dCBWDataTransferLength : UInt32
  bCBWFlags : UInt8
  bCBWLUN : UInt8
  bCDBLength : UInt8
  cbwCdb : Bytes 12
  deriving DecidableEq

/-- `struct umass_bbb_csw` -/
structure Csw where
  dCSWSignature : UInt32
  dCSWTag : UInt32
  dCSWDataResidue : UInt32
  bCSWStatus : UInt8
  deriving DecidableEq

/-- What the core reports of a message: its result, whether the device has stalled, and how many bytes have gone. -/
structure Message where
  result : Int
  stalled : Bool
  actlen : Nat

inductive Endpoint
  | epIn
  | epOut
  deriving DecidableEq

/-- The messages to the control pipe. -/
inductive Control
  | bbbReset
  | clearHalt (endpoint : Endpoint)
  | clearEndptStall (endpoint : Endpoint)

/-- The bus with the device on it. What a status message leaves in the structure for it is any status at all. -/
structure Bus (σ : Type) where
  command : Cbw → σ → Message × σ
  dataIn : Nat → σ → Message × List UInt8 × σ
  dataOut : List UInt8 → σ → Message × σ
  status : σ → Message × Csw × σ
  control : Control → σ → Message × σ
  dataIn_length : ∀ n s, (dataIn n s).2.1.length ≤ n

/-- What the driver keeps of its own. -/
structure Host where
  cbwTag : UInt32
  senseBuf : Memory

/-- `struct scsi_cmd`, whose `cmdlen` is 12 in every command of the driver -/
structure ScsiCmd where
  lun : UInt8
  cmd : Bytes 12
  datalen : Nat

def ScsiCmd.dirIn (srb : ScsiCmd) : Bool := UsbStorage.dirIn (srb.cmd.val.getD 0 0)

def ScsiCmd.endpoint (srb : ScsiCmd) : Endpoint := if srb.dirIn then .epIn else .epOut

def ScsiCmd.cbw (srb : ScsiCmd) (cbwTag : UInt32) : Cbw where
  dCBWSignature := cbwSignature
  dCBWTag := cbwTag
  dCBWDataTransferLength := .ofNat srb.datalen
  bCBWFlags := if srb.dirIn then cbwFlagsIn else cbwFlagsOut
  bCBWLUN := srb.lun
  bCDBLength := 12
  cbwCdb := srb.cmd

variable {σ : Type} (bus : Bus σ)

/-- `usb_stor_BBB_reset`, which gives up when the reset stalls, and does not look at the other results -/
def bbbReset (s : σ) : σ :=
  let (m, s) := bus.control .bbbReset s
  if m.result < 0 ∧ m.stalled = true then s
  else (bus.control (.clearHalt .epOut) (bus.control (.clearHalt .epIn) s).2).2

/-- The data message of a command, with the bytes received. -/
def dataMsg (srb : ScsiCmd) (out : List UInt8) (s : σ) : Message × List UInt8 × σ :=
  if srb.dirIn then bus.dataIn srb.datalen s
  else
    let (m, s) := bus.dataOut out s
    (m, [], s)

/-- The DATA phase, with the length that is reported unless the transport fails in it, and the bytes received. -/
def dataPhase (srb : ScsiCmd) (out : List UInt8) (s : σ) : Option Nat × List UInt8 × σ :=
  if srb.datalen = 0 then (some 0, [], s)
  else
    let (m, bytes, s) := dataMsg bus srb out s
    if m.result < 0 ∧ m.stalled = true then
      let (c, s) := bus.control (.clearEndptStall srb.endpoint) s
      if 0 ≤ c.result then (some m.actlen, bytes, s) else (none, bytes, bbbReset bus s)
    else if m.result < 0 then (none, bytes, bbbReset bus s)
    else (some m.actlen, bytes, s)

/-- The STATUS phase, with the retries that are left after a stall. -/
def statusPhase : Nat → σ → Option (Int × Csw) × σ
  | 0, s =>
    let (m, csw, s) := bus.status s
    if m.result < 0 then (none, bbbReset bus s) else (some (m.result, csw), s)
  | retries + 1, s =>
    let (m, csw, s) := bus.status s
    if m.result < 0 ∧ m.stalled = true then
      let (c, s) := bus.control (.clearEndptStall .epIn) s
      if 0 ≤ c.result then statusPhase retries s else (none, bbbReset bus s)
    else if m.result < 0 then (none, bbbReset bus s)
    else (some (m.result, csw), s)

/-- What is made of a status: the residue in it is computed with, but not looked at. -/
def checkStatus (cbwTag : UInt32) (datalen actlen : Nat) (result : Int) (csw : Csw) (s : σ) : Int × σ :=
  if cswSignature ≠ csw.dCSWSignature then (transportFailed, bbbReset bus s)
  else if cbwTag - 1 ≠ csw.dCSWTag then (transportFailed, bbbReset bus s)
  else if cswStatusPhase < csw.bCSWStatus then (transportFailed, bbbReset bus s)
  else if csw.bCSWStatus = cswStatusPhase then (transportFailed, bbbReset bus s)
  else if datalen < actlen then (transportFailed, s)
  else if csw.bCSWStatus = cswStatusFailed then (transportFailed, s)
  else (result, s)

/-- What a transport comes to, with the bytes that it has brought to `pdata`. -/
structure Transport (σ : Type) where
  result : Int
  data : List UInt8
  host : Host
  bus : σ

/-- `usb_stor_BBB_transport`, with the bytes at `pdata` for a command that takes data out -/
def bbbTransport (srb : ScsiCmd) (out : List UInt8) (host : Host) (s : σ) : Transport σ :=
  let (m, s) := bus.command (srb.cbw host.cbwTag) s
  let host := { host with cbwTag := host.cbwTag + 1 }
  if m.result < 0 then ⟨transportFailed, [], host, bbbReset bus s⟩
  else
    match dataPhase bus srb out s with
    | (none, data, s) => ⟨transportFailed, data, host, s⟩
    | (some actlen, data, s) =>
      match statusPhase bus 1 s with
      | (none, s) => ⟨transportFailed, data, host, s⟩
      | (some (result, csw), s) =>
        let (result, s) := checkStatus bus host.cbwTag srb.datalen actlen result csw s
        ⟨result, data, host, s⟩

/-- The command of `usb_read_10` and `usb_write_10`. -/
def cmd10 (command lun : UInt8) (start blocks : Nat) : Bytes 12 :=
  ⟨[command, lun <<< 5, .ofNat (start >>> 24), .ofNat (start >>> 16), .ofNat (start >>> 8), .ofNat start, 0,
    .ofNat (blocks >>> 8), .ofNat blocks, 0, 0, 0], rfl⟩

/-- What the transfers use of the block device and of `struct us_data`. At least one block goes at a time, as a driver
of the bus moves no less than 512 bytes, and what goes at a time has a length that is an `int`. -/
structure BlkDesc where
  lun : UInt8
  blksz : Nat
  maxXferBlk : Nat
  maxXferBlk_pos : 0 < maxXferBlk
  maxXferBlk_lt : maxXferBlk < 2 ^ 16
  length_lt : blksz * maxXferBlk < 2 ^ 31

/-- `usb_stor_set_max_xfer_blk`, with what `usb_get_max_xfer_size` gives -/
def setMaxXferBlk (ret : Int) (size : Nat) : Nat :=
  if ret < 0 then 20 else (if 65535 * 512 < size then 65535 * 512 else size) / 512

theorem setMaxXferBlk_bounds {ret : Int} {size : Nat} (h : ret < 0 ∨ 512 ≤ size) :
    0 < setMaxXferBlk ret size ∧ setMaxXferBlk ret size < 2 ^ 16 := by
  unfold setMaxXferBlk
  split_ifs <;> omega

/-- The blocks that go in one piece when so many are left. -/
def BlkDesc.smallblks (dev : BlkDesc) (blks : Nat) : Nat := if dev.maxXferBlk < blks then dev.maxXferBlk else blks

theorem BlkDesc.smallblks_bounds (dev : BlkDesc) {blks : Nat} (h : blks ≠ 0) :
    0 < dev.smallblks blks ∧ dev.smallblks blks ≤ dev.maxXferBlk ∧ dev.smallblks blks ≤ blks ∧
      (dev.smallblks blks = dev.maxXferBlk ∨ dev.smallblks blks = blks) := by
  have hpos := dev.maxXferBlk_pos
  unfold BlkDesc.smallblks
  split <;> omega

/-- The driver, the memory of the machine and the bus. -/
structure World (σ : Type) where
  host : Host
  memory : Memory
  bus : σ

variable (dev : BlkDesc)

def readSrb (start smallblks : Nat) : ScsiCmd :=
  ⟨dev.lun, cmd10 scsiRead10 dev.lun start smallblks, dev.blksz * smallblks⟩

def writeSrb (start smallblks : Nat) : ScsiCmd :=
  ⟨dev.lun, cmd10 scsiWrite10 dev.lun start smallblks, dev.blksz * smallblks⟩

def senseSrb : ScsiCmd := ⟨dev.lun, ⟨[scsiReqSense, dev.lun <<< 5, 0, 0, 18, 0, 0, 0, 0, 0, 0, 0], rfl⟩, 18⟩

/-- `usb_read_10` to an address -/
def read10 (addr start smallblks : Nat) (w : World σ) : Int × World σ :=
  let t := bbbTransport bus (readSrb dev start smallblks) [] w.host w.bus
  (t.result, ⟨t.host, w.memory.store addr t.data, t.bus⟩)

/-- `usb_write_10` from an address -/
def write10 (addr start smallblks : Nat) (w : World σ) : Int × World σ :=
  let t := bbbTransport bus (writeSrb dev start smallblks) (w.memory.bytes addr (dev.blksz * smallblks)) w.host w.bus
  (t.result, ⟨t.host, w.memory, t.bus⟩)

/-- `usb_request_sense`, whose result is always 0 -/
def requestSense (w : World σ) : World σ :=
  let t := bbbTransport bus (senseSrb dev) [] w.host w.bus
  ⟨{ t.host with senseBuf := t.host.senseBuf.store 0 t.data }, w.memory, t.bus⟩

variable (xfer10 : Nat → Nat → Nat → World σ → Int × World σ)

/-- One command of `usb_stor_read` or `usb_stor_write` until it succeeds, with the retries that are left. -/
def retryIt (addr start smallblks : Nat) : Nat → World σ → Bool × World σ
  | retry, w =>
    let (result, w) := xfer10 addr start smallblks w
    if result = 0 then (true, w)
    else
      let w := requestSense bus dev w
      match retry with
      | 0 => (false, w)
      | retry + 1 => retryIt addr start smallblks retry w

/-- The loop of `usb_stor_read` and `usb_stor_write`, with the blocks that are left in the end. -/
def xferLoop (addr start blks : Nat) (w : World σ) : Nat × World σ :=
  if blks = 0 then (0, w)
  else
    let smallblks := dev.smallblks blks
    let (ok, w) := retryIt bus dev xfer10 addr start smallblks 2 w
    if ok then xferLoop (addr + dev.blksz * smallblks) (start + smallblks) (blks - smallblks) w else (blks, w)
termination_by blks
decreasing_by
  have := dev.smallblks_bounds ‹¬blks = 0›
  omega

/-- `usb_stor_read`, with the number of blocks read -/
def storRead (blknr blkcnt buffer : Nat) (w : World σ) : Nat × World σ :=
  let (left, w) := xferLoop bus dev (read10 bus dev) buffer blknr blkcnt w
  (blkcnt - left, w)

/-- `usb_stor_write`, with the number of blocks written -/
def storWrite (blknr blkcnt buffer : Nat) (w : World σ) : Nat × World σ :=
  let (left, w) := xferLoop bus dev (write10 bus dev) buffer blknr blkcnt w
  (blkcnt - left, w)

end NvrxFirmware.UsbStorage
