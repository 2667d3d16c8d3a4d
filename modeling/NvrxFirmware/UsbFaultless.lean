import NvrxFirmware.UsbBlocks

namespace NvrxFirmware.UsbStorage

variable {blksz : Nat}

/-- A disk with these bytes in place of the blocks from one on. -/
def overwrite (disk : Nat → Bytes blksz) (lba blocks : Nat) (bytes : List UInt8) (h : bytes.length = blksz * blocks) :
    Nat → Bytes blksz := fun block =>
  if hin : lba ≤ block ∧ block < lba + blocks then
    ⟨(bytes.drop (blksz * (block - lba))).take blksz, by
      have hle : blksz * (block - lba + 1) ≤ blksz * blocks := Nat.mul_le_mul_left blksz (by omega)
      rw [List.length_take, List.length_drop, h]
      rw [Nat.mul_succ] at hle
      omega⟩
  else disk block

theorem overwrite_of_outside {disk : Nat → Bytes blksz} {lba blocks block : Nat} {bytes : List UInt8}
    (h : bytes.length = blksz * blocks) (hout : ¬(lba ≤ block ∧ block < lba + blocks)) :
    overwrite disk lba blocks bytes h block = disk block := dif_neg hout

theorem blockBytes_overwrite {disk : Nat → Bytes blksz} {lba blocks : Nat} {bytes : List UInt8}
    (h : bytes.length = blksz * blocks) : blockBytes (overwrite disk lba blocks bytes h) lba blocks = bytes := by
  have hpart : ∀ k, k ≤ blocks → blockBytes (overwrite disk lba blocks bytes h) lba k = bytes.take (blksz * k) := by
    intro k hk
    induction k with
    | zero => simp [blockBytes]
    | succ k ih =>
      have hin : lba ≤ lba + k ∧ lba + k < lba + blocks := by omega
      rw [blockBytes_succ, ih (by omega), overwrite, dif_pos hin]
      dsimp only
      rw [Nat.add_sub_cancel_left, Nat.mul_succ, List.take_add]
  rw [hpart blocks le_rfl, ← h, List.take_length]

/-- A device with its disk and the command under way. -/
structure Faultless (blksz : Nat) where
  disk : Nat → Bytes blksz
  job : Option Job

/-- What the device makes of a command: its status, and its disk. -/
def carryOut (disk : Nat → Bytes blksz) (j : Job) : UInt8 × (Nat → Bytes blksz) :=
  if j.cbw.cbwCdb.val.getD 0 0 = scsiRead10 then
    (if j.cbw.dCBWDataTransferLength.toNat = blksz * j.cbw.blocks ∧ j.moved = blockBytes disk j.cbw.lba j.cbw.blocks then 0
      else cswStatusFailed, disk)
  else if j.cbw.cbwCdb.val.getD 0 0 = scsiWrite10 then
    if h : j.moved.length = blksz * j.cbw.blocks then (0, overwrite disk j.cbw.lba j.cbw.blocks j.moved h)
    else (cswStatusFailed, disk)
  else (0, disk)

theorem carryOut_of_not_writes {disk : Nat → Bytes blksz} {j : Job} {block : Nat} (h : ¬j.cbw.Writes block) :
    (carryOut disk j).2 block = disk block := by
  unfold carryOut
  split
  · rfl
  · split
    next hwrite =>
      split
      next hlength => exact overwrite_of_outside hlength fun hin => h ⟨hwrite, hin⟩
      next => rfl
    next => rfl

def sentBy (s : Faultless blksz) (n : Nat) : List UInt8 :=
  match s.job with
  | some j => if j.cbw.cbwCdb.val.getD 0 0 = scsiRead10 then (blockBytes s.disk j.cbw.lba j.cbw.blocks).take n else []
  | none => []

/-- A bus with such a device, on which nothing fails. -/
def faultlessBus (blksz : Nat) : Bus (Faultless blksz) where
  command c s := (⟨0, false, 31⟩, { s with job := some ⟨c, []⟩ })
  dataIn n s := (⟨0, false, (sentBy s n).length⟩, sentBy s n,
    { s with job := s.job.map fun j => ⟨j.cbw, j.moved ++ sentBy s n⟩ })
  dataOut out s := (⟨0, false, out.length⟩, { s with job := s.job.map fun j => ⟨j.cbw, j.moved ++ out⟩ })
  status s :=
    match s.job with
    | some j => (⟨0, false, 13⟩, ⟨cswSignature, j.cbw.dCBWTag, 0, (carryOut s.disk j).1⟩, ⟨(carryOut s.disk j).2, none⟩)
    | none => (⟨-1, false, 0⟩, ⟨0, 0, 0, 0⟩, s)
  control _ s := (⟨0, false, 0⟩, s)
  dataIn_length n s := by
    show (sentBy s n).length ≤ n
    unfold sentBy
    split
    · split
      · rw [List.length_take]
        exact Nat.min_le_left _ _
      · exact Nat.zero_le n
    · exact Nat.zero_le n

theorem faultless_status {s : Faultless blksz} {j : Job} (h : j ∈ s.job) : (faultlessBus blksz).status s =
    (⟨0, false, 13⟩, ⟨cswSignature, j.cbw.dCBWTag, 0, (carryOut s.disk j).1⟩, ⟨(carryOut s.disk j).2, none⟩) := by
  obtain ⟨disk, job⟩ := s
  obtain rfl : job = some j := h
  rfl

def faultlessStick (blksz : Nat) : Stick (faultlessBus blksz) blksz where
  disk := Faultless.disk
  job := Faultless.job
  command_disk _ _ := rfl
  command_job _ _ := .inl rfl
  dataIn_disk _ _ _ _ := rfl
  dataIn_job _ _ := rfl
  dataOut_disk _ _ _ _ := rfl
  dataOut_job _ _ := rfl
  control_disk _ _ _ _ := rfl
  control_job _ _ := rfl
  status_disk s block h := by
    cases hjob : s.job with
    | none =>
      obtain ⟨disk, job⟩ := s
      obtain rfl : job = none := hjob
      rfl
    | some j =>
      rw [faultless_status hjob]
      exact carryOut_of_not_writes (h j hjob)
  status_fails s h := by
    cases hjob : s.job with
    | none =>
      obtain ⟨disk, job⟩ := s
      obtain rfl : job = none := hjob
      rfl
    | some j =>
      rw [faultless_status hjob] at h
      cases h
  status_ends s h := by
    cases hjob : s.job with
    | none =>
      obtain ⟨disk, job⟩ := s
      obtain rfl : job = none := hjob
      cases h
    | some j => rw [faultless_status hjob]
  passed_read s j hj _ hpasses hread := by
    rw [faultless_status hj] at hpasses ⊢
    have hpassed : (carryOut s.disk j).1 = 0 := hpasses.2.2
    unfold carryOut at hpassed
    rw [if_pos hread] at hpassed
    split at hpassed
    next hall => exact hall.2 ▸ List.take_prefix _ _
    next => cases hpassed
  passed_write s j hj _ hpasses hwrite := by
    rw [faultless_status hj] at hpasses ⊢
    have hread : ¬j.cbw.cbwCdb.val.getD 0 0 = scsiRead10 := by
      rw [hwrite]
      decide
    have hpassed : (carryOut s.disk j).1 = 0 := hpasses.2.2
    show List.take _ j.moved <+: blockBytes (carryOut s.disk j).2 j.cbw.lba j.cbw.blocks
    unfold carryOut at hpassed ⊢
    rw [if_neg hread, if_pos hwrite] at hpassed ⊢
    split at hpassed
    next hlength =>
      rw [dif_pos hlength, blockBytes_overwrite]
      exact List.take_prefix _ _
    next => cases hpassed

theorem faultlessStick_whole (blksz : Nat) : (faultlessStick blksz).Whole := by
  intro s j hj _ _
  rw [faultless_status hj]

variable {srb : ScsiCmd} {out : List UInt8} {c : Cbw} {disk : Nat → Bytes blksz} {dev : BlkDesc} {start n : Nat}

theorem sentBy_length (s : Faultless blksz) (n : Nat) : (sentBy s n).length ≤ n := (faultlessBus blksz).dataIn_length n s

/-- The data that come in with a command. -/
def dataOf (srb : ScsiCmd) (c : Cbw) (disk : Nat → Bytes blksz) : List UInt8 :=
  if srb.dirIn then sentBy ⟨disk, some ⟨c, []⟩⟩ srb.datalen else []

theorem faultless_dataPhase (c : Cbw) (disk : Nat → Bytes blksz) (hout : out.length ≤ srb.datalen) : ∃ actlen ≤ srb.datalen,
    dataPhase (faultlessBus blksz) srb out ⟨disk, some ⟨c, []⟩⟩ = (some actlen, dataOf srb c disk,
      ⟨disk, some ⟨c, if srb.dirIn then dataOf srb c disk else out⟩⟩) := by
  unfold dataPhase dataMsg dataOf
  by_cases hnone : srb.datalen = 0
  · have hnothing : sentBy ⟨disk, some ⟨c, []⟩⟩ 0 = [] := List.eq_nil_of_length_eq_zero (Nat.le_zero.mp (sentBy_length _ 0))
    obtain rfl : out = [] := List.eq_nil_of_length_eq_zero (by omega)
    rw [if_pos hnone, hnone, hnothing, ite_self, ite_self]
    exact ⟨0, le_rfl, rfl⟩
  · rw [if_neg hnone]
    cases hdir : srb.dirIn with
    | true => exact ⟨_, sentBy_length ⟨disk, some ⟨c, []⟩⟩ srb.datalen, rfl⟩
    | false => exact ⟨_, hout, rfl⟩

/-- A command that the device can carry out succeeds. -/
theorem faultless_result (srb : ScsiCmd) {host : Host} {s : Faultless blksz} (hout : out.length ≤ srb.datalen)
    (hcarried : (carryOut s.disk ⟨srb.cbw host.cbwTag,
      if srb.dirIn then dataOf srb (srb.cbw host.cbwTag) s.disk else out⟩).1 = 0) :
    (bbbTransport (faultlessBus blksz) srb out host s).result = 0 := by
  obtain ⟨actlen, hactlen, hdata⟩ := faultless_dataPhase (srb.cbw host.cbwTag) s.disk hout
  unfold bbbTransport
  rw [show (faultlessBus blksz).command (srb.cbw host.cbwTag) s = (⟨0, false, 31⟩, ⟨s.disk, some ⟨srb.cbw host.cbwTag, []⟩⟩)
    from rfl]
  dsimp only
  rw [if_neg (by decide), hdata]
  dsimp only
  unfold statusPhase
  rw [faultless_status rfl]
  dsimp only
  rw [if_neg (by decide), if_neg (by decide), hcarried]
  show (checkStatus _ _ _ _ _ _ _).1 = 0
  rw [checkStatus_of_passes (c := srb.cbw host.cbwTag) ⟨rfl, rfl, rfl⟩ (UInt32.add_sub_cancel host.cbwTag 1) hactlen]

theorem faultless_read10 (fits : dev.Fits start n) (addr : Nat) (w : World (Faultless dev.blksz)) :
    (read10 (faultlessBus dev.blksz) dev addr start n w).1 = 0 := by
  obtain ⟨hlba, hblocks⟩ : ((readSrb dev start n).cbw w.host.cbwTag).lba = start ∧
      ((readSrb dev start n).cbw w.host.cbwTag).blocks = n := fits.lba _ _ _ _
  have hlen : ((readSrb dev start n).cbw w.host.cbwTag).dCBWDataTransferLength.toNat = dev.blksz * n := fits.length
  have hdir : (readSrb dev start n).dirIn = true := (by decide : dirIn scsiRead10 = true)
  have hread : ((readSrb dev start n).cbw w.host.cbwTag).cbwCdb.val.getD 0 0 = scsiRead10 := rfl
  refine faultless_result (readSrb dev start n) (Nat.zero_le _) ?_
  have hdata : dataOf (readSrb dev start n) ((readSrb dev start n).cbw w.host.cbwTag) w.bus.disk =
      blockBytes w.bus.disk start n := by
    rw [dataOf, if_pos hdir, sentBy]
    dsimp only
    rw [if_pos hread, hlba, hblocks]
    exact List.take_of_length_le (le_of_eq blockBytes_length)
  rw [if_pos hdir, hdata, carryOut, if_pos hread]
  dsimp only
  rw [hlba, hblocks, hlen, if_pos ⟨rfl, rfl⟩]

theorem faultless_write10 (fits : dev.Fits start n) (addr : Nat) (w : World (Faultless dev.blksz)) :
    (write10 (faultlessBus dev.blksz) dev addr start n w).1 = 0 := by
  obtain ⟨-, hblocks⟩ : ((writeSrb dev start n).cbw w.host.cbwTag).lba = start ∧
      ((writeSrb dev start n).cbw w.host.cbwTag).blocks = n := fits.lba _ _ _ _
  have hdir : (writeSrb dev start n).dirIn = false := (by decide : dirIn scsiWrite10 = false)
  have hwrite : ((writeSrb dev start n).cbw w.host.cbwTag).cbwCdb.val.getD 0 0 = scsiWrite10 := rfl
  have hread : ¬((writeSrb dev start n).cbw w.host.cbwTag).cbwCdb.val.getD 0 0 = scsiRead10 := by
    rw [hwrite]
    decide
  refine faultless_result (writeSrb dev start n) (le_of_eq (Memory.bytes_length ..)) ?_
  rw [hdir, if_neg (by decide), carryOut, if_neg hread, if_pos hwrite, dif_pos]
  rw [hblocks]
  exact Memory.bytes_length ..

end NvrxFirmware.UsbStorage
