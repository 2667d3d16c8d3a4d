import NvrxFirmware.UsbTransports

namespace NvrxFirmware.UsbStorage

variable {σ : Type} {bus : Bus σ} {dev : BlkDesc} {stick : Stick bus dev.blksz} {R : Set Nat} {w : World σ}
  {addr start n : Nat}

section BlockBytes

variable {blksz : Nat} {disk disk' : Nat → Bytes blksz} {lba k : Nat}

theorem blockBytes_succ : blockBytes disk lba (k + 1) = blockBytes disk lba k ++ (disk (lba + k)).val := by
  simp [blockBytes, List.range_succ]

theorem blockBytes_length : (blockBytes disk lba k).length = blksz * k := by
  induction k with
  | zero => rfl
  | succ k ih => rw [blockBytes_succ, List.length_append, ih, (disk (lba + k)).property, Nat.mul_succ]

theorem blockBytes_add (i : Nat) : blockBytes disk lba (k + i) = blockBytes disk lba k ++ blockBytes disk (lba + k) i := by
  induction i with
  | zero => simp [blockBytes]
  | succ i ih => rw [← Nat.add_assoc, blockBytes_succ, ih, List.append_assoc, ← Nat.add_assoc, ← blockBytes_succ]

theorem blockBytes_congr (h : ∀ block, lba ≤ block → block < lba + k → disk block = disk' block) :
    blockBytes disk lba k = blockBytes disk' lba k := by
  induction k with
  | zero => rfl
  | succ k ih =>
    rw [blockBytes_succ, blockBytes_succ, h (lba + k) (by omega) (by omega), ih fun block hle hlt => h block hle (by omega)]

/-- Blocks that are the same bytes as some in memory are so in every part. -/
theorem blockBytes_part {m : Memory} {a i : Nat} (h : blockBytes disk lba n = m.bytes a (blksz * n)) (hle : i + k ≤ n) :
    blockBytes disk (lba + i) k = m.bytes (a + blksz * i) (blksz * k) := by
  obtain ⟨rest, rfl⟩ := Nat.exists_eq_add_of_le hle
  rw [blockBytes_add, blockBytes_add, Nat.mul_add, Nat.mul_add, Memory.bytes_add, Memory.bytes_add] at h
  have hfirst := (List.append_inj h (by simp [blockBytes_length])).1
  exact (List.append_inj hfirst (by simp [blockBytes_length])).2

end BlockBytes

/-- The blocks from one on, so many. -/
def region (lba n : Nat) : Set Nat := { block | lba ≤ block ∧ block < lba + n }

/-- The blocks of a transfer can be addressed, and there are no more of them than go at a time. -/
structure BlkDesc.Fits (dev : BlkDesc) (start n : Nat) : Prop where
  addressed : start + n ≤ 2 ^ 32
  pos : 0 < n
  le : n ≤ dev.maxXferBlk

theorem BlkDesc.Fits.lba (h : dev.Fits start n) (command lun : UInt8) (datalen : Nat) (tag : UInt32) :
    (ScsiCmd.cbw ⟨lun, cmd10 command lun start n, datalen⟩ tag).lba = start ∧
      (ScsiCmd.cbw ⟨lun, cmd10 command lun start n, datalen⟩ tag).blocks = n := by
  obtain ⟨haddressed, hpos, hle⟩ := h
  have hlt := dev.maxXferBlk_lt
  simp only [Cbw.lba, Cbw.blocks, ScsiCmd.cbw, cmd10, List.getD_cons_succ, List.getD_cons_zero, UInt8.toNat_ofNat',
    Nat.shiftRight_eq_div_pow]
  omega

theorem BlkDesc.Fits.length (h : dev.Fits start n) : (UInt32.ofNat (dev.blksz * n)).toNat = dev.blksz * n := by
  have hle := Nat.mul_le_mul_left dev.blksz h.le
  have hlt := dev.length_lt
  rw [UInt32.toNat_ofNat', Nat.mod_eq_of_lt (by omega)]

theorem readSrb_not_writes (tag : UInt32) (block : Nat) : ¬((readSrb dev start n).cbw tag).Writes block :=
  fun h => absurd (show scsiRead10 = scsiWrite10 from h.1) (by decide)

theorem read10_keeps (h : stick.Within R w.bus) (addr start n : Nat) :
    stick.Keeps R w.bus (read10 bus dev addr start n w).2.bus :=
  bbbTransport_keeps h (readSrb dev start n) [] w.host fun block hwrites => absurd hwrites (readSrb_not_writes _ block)

theorem read10_memory (addr start n : Nat) (w : World σ) {i : Nat} (h : i < addr ∨ addr + dev.blksz * n ≤ i) :
    (read10 bus dev addr start n w).2.memory i = w.memory i := by
  have hlength := bbbTransport_length bus (readSrb dev start n) [] w.host w.bus
  refine Memory.store_of_outside (h.imp_right fun h => ?_)
  exact le_trans (Nat.add_le_add_left hlength addr) h

/-- Data that are read whole are those on the device. -/
theorem read10_ok (whole : stick.Whole) (h : stick.Within R w.bus) (fits : dev.Fits start n)
    (free : ∀ block ∈ region start n, block ∉ R) (hok : (read10 bus dev addr start n w).1 = 0) :
    (read10 bus dev addr start n w).2.memory.bytes addr (dev.blksz * n) = blockBytes (stick.disk w.bus) start n := by
  have hlength := bbbTransport_length bus (readSrb dev start n) [] w.host w.bus
  have hdir : (readSrb dev start n).dirIn = true := (by decide : dirIn scsiRead10 = true)
  obtain ⟨t, hkeeps, hjob, hends, hpasses, -⟩ := bbbTransport_passed h
    (fun block hwrites => absurd hwrites (readSrb_not_writes _ block)) (.inr hdir) hok
  have hread := stick.passed_read t _ hjob hends hpasses rfl
  have hresidue := whole t _ hjob hends hpasses
  obtain ⟨hlba, hblocks⟩ : ((readSrb dev start n).cbw w.host.cbwTag).lba = start ∧
      ((readSrb dev start n).cbw w.host.cbwTag).blocks = n := fits.lba _ _ _ _
  have hlen : ((readSrb dev start n).cbw w.host.cbwTag).dCBWDataTransferLength.toNat = dev.blksz * n := fits.length
  rw [hresidue, hlen, hlba, hblocks, if_pos hdir, UInt32.toNat_zero, Nat.sub_zero,
    List.take_of_length_le (le_of_eq blockBytes_length)] at hread
  have hsame : blockBytes (stick.disk t) start n = blockBytes (stick.disk w.bus) start n :=
    blockBytes_congr fun block hle hlt => hkeeps.disk block (free block ⟨hle, hlt⟩)
  have hdata : (bbbTransport bus (readSrb dev start n) [] w.host w.bus).data = blockBytes (stick.disk w.bus) start n :=
    (hread.eq_of_length_le (by rwa [blockBytes_length])).symm.trans hsame
  have hstored := Memory.bytes_store w.memory addr (bbbTransport bus (readSrb dev start n) [] w.host w.bus).data
  rw [hdata, blockBytes_length, ← hdata] at hstored
  exact hstored.trans hdata

theorem write10_keeps (h : stick.Within R w.bus) (addr : Nat) (fits : dev.Fits start n)
    (target : ∀ block ∈ region start n, block ∈ R) : stick.Keeps R w.bus (write10 bus dev addr start n w).2.bus := by
  refine bbbTransport_keeps h (writeSrb dev start n) _ w.host fun block hwrites => ?_
  obtain ⟨hlba, hblocks⟩ : ((writeSrb dev start n).cbw w.host.cbwTag).lba = start ∧
      ((writeSrb dev start n).cbw w.host.cbwTag).blocks = n := fits.lba _ _ _ _
  obtain ⟨-, hle, hlt⟩ := hwrites
  rw [hlba] at hle hlt
  rw [hblocks] at hlt
  exact target block ⟨hle, hlt⟩

/-- Data that are written whole are on the device, which is done with them. -/
theorem write10_ok (whole : stick.Whole) (h : stick.Within R w.bus) (fits : dev.Fits start n)
    (target : ∀ block ∈ region start n, block ∈ R) (hok : (write10 bus dev addr start n w).1 = 0) :
    blockBytes (stick.disk (write10 bus dev addr start n w).2.bus) start n = w.memory.bytes addr (dev.blksz * n) ∧
      stick.job (write10 bus dev addr start n w).2.bus = none := by
  obtain ⟨hlba, hblocks⟩ : ((writeSrb dev start n).cbw w.host.cbwTag).lba = start ∧
      ((writeSrb dev start n).cbw w.host.cbwTag).blocks = n := fits.lba _ _ _ _
  have hdir : (writeSrb dev start n).dirIn = false := (by decide : dirIn scsiWrite10 = false)
  have hwrites : ∀ block, ((writeSrb dev start n).cbw w.host.cbwTag).Writes block → block ∈ R := by
    rintro block ⟨-, hle, hlt⟩
    rw [hlba] at hle hlt
    rw [hblocks] at hlt
    exact target block ⟨hle, hlt⟩
  obtain ⟨t, -, hjob, hends, hpasses, hdone⟩ := bbbTransport_passed h hwrites
    (.inl (Memory.bytes_length w.memory addr (dev.blksz * n))) hok
  have hwritten := stick.passed_write t _ hjob hends hpasses rfl
  have hresidue := whole t _ hjob hends hpasses
  have hlen : ((writeSrb dev start n).cbw w.host.cbwTag).dCBWDataTransferLength.toNat = dev.blksz * n := fits.length
  rw [hresidue, hlen, hlba, hblocks, hdir, if_neg (by decide), UInt32.toNat_zero, Nat.sub_zero,
    List.take_of_length_le (by rw [Memory.bytes_length]), hdone] at hwritten
  have hidle := stick.status_ends t hends
  rw [hdone] at hidle
  exact ⟨(hwritten.eq_of_length (by rw [Memory.bytes_length, blockBytes_length])).symm, hidle⟩

end NvrxFirmware.UsbStorage
