import NvrxFirmware.UsbCommands

namespace NvrxFirmware.UsbStorage

variable {σ : Type} {bus : Bus σ} {dev : BlkDesc}

/-- The same bus with a device that reports other residues. -/
def Bus.withResidue (bus : Bus σ) (f : Csw → UInt32) : Bus σ :=
  { bus with status := fun s =>
      let (m, csw, s) := bus.status s
      (m, { csw with dCSWDataResidue := f csw }, s) }

theorem statusPhase_withResidue (f : Csw → UInt32) (retries : Nat) (s : σ) : statusPhase (bus.withResidue f) retries s =
    ((statusPhase bus retries s).1.map fun found => (found.1, { found.2 with dCSWDataResidue := f found.2 }),
      (statusPhase bus retries s).2) := by
  induction retries generalizing s with
  | zero =>
    unfold statusPhase
    dsimp only [Bus.withResidue]
    split <;> rfl
  | succ retries ih =>
    unfold statusPhase
    dsimp only [Bus.withResidue]
    split
    · split
      · exact ih _
      · rfl
    · split <;> rfl

theorem bbbTransport_withResidue (f : Csw → UInt32) (srb : ScsiCmd) (out : List UInt8) (host : Host) (s : σ) :
    bbbTransport (bus.withResidue f) srb out host s = bbbTransport bus srb out host s := by
  unfold bbbTransport
  rw [show (bus.withResidue f).command = bus.command from rfl, show dataPhase (bus.withResidue f) = dataPhase bus from rfl,
    show bbbReset (bus.withResidue f) = bbbReset bus from rfl]
  dsimp only
  split
  · rfl
  · split
    · rfl
    next actlen data after _ =>
      rw [statusPhase_withResidue]
      cases statusPhase bus 1 after with
      | mk found last =>
        cases found with
        | none => rfl
        | some found => rfl

variable {xfer10 : Nat → Nat → Nat → World σ → Int × World σ}

theorem requestSense_withResidue (f : Csw → UInt32) : requestSense (bus.withResidue f) dev = requestSense bus dev := by
  funext w
  rw [requestSense, bbbTransport_withResidue]
  rfl

theorem retryIt_withResidue (f : Csw → UInt32) (addr start n retry : Nat) (w : World σ) :
    retryIt (bus.withResidue f) dev xfer10 addr start n retry w = retryIt bus dev xfer10 addr start n retry w := by
  induction retry generalizing w with
  | zero =>
    unfold retryIt
    rw [requestSense_withResidue]
  | succ retry ih =>
    unfold retryIt
    rw [requestSense_withResidue]
    simp only [ih]

theorem xferLoop_withResidue (f : Csw → UInt32) (addr start blks : Nat) (w : World σ) :
    xferLoop (bus.withResidue f) dev xfer10 addr start blks w = xferLoop bus dev xfer10 addr start blks w := by
  induction blks using Nat.strongRecOn generalizing addr start w with
  | ind blks ih =>
    rw [xferLoop, xferLoop]
    split
    · rfl
    next hblks =>
      have hbounds := dev.smallblks_bounds hblks
      dsimp only
      rw [retryIt_withResidue]
      split
      · exact ih _ (by omega) _ _ _
      · rfl

/-- A device that answers every command and passes it, and sends no more than is read. -/
structure Answers (recorder : Recorder bus) : Prop where
  command : ∀ c s, 0 ≤ (bus.command c s).1.result
  dataIn : ∀ n s, 0 ≤ (bus.dataIn n s).1.result ∧ (bus.dataIn n s).1.actlen ≤ n
  status : ∀ s, ∀ c ∈ (recorder.sent s).getLast?, (bus.status s).1.result = 0 ∧ (bus.status s).2.1.Passes c

variable {recorder : Recorder bus}

theorem Answers.dataPhase (h : Answers recorder) {srb : ScsiCmd} (hdir : srb.dirIn = true) (out : List UInt8) (s : σ) :
    ∃ actlen data after, dataPhase bus srb out s = (some actlen, data, after) ∧ actlen ≤ srb.datalen := by
  obtain ⟨hends, hshort⟩ := h.dataIn srb.datalen s
  have hnot : ¬(bus.dataIn srb.datalen s).1.result < 0 := Int.not_lt.mpr hends
  unfold UsbStorage.dataPhase dataMsg
  rw [if_pos hdir]
  dsimp only
  split
  · exact ⟨0, [], s, rfl, Nat.zero_le _⟩
  · rw [if_neg fun hstalled => hnot hstalled.1]
    exact ⟨_, _, _, rfl, hshort⟩

/-- However few bytes have come, a transport that brings data in succeeds. -/
theorem Answers.transport (h : Answers recorder) {srb : ScsiCmd} (hdir : srb.dirIn = true) (out : List UInt8)
    (host : Host) (s : σ) : (bbbTransport bus srb out host s).result = 0 := by
  obtain ⟨actlen, data, after, hphase, hshort⟩ :=
    h.dataPhase hdir out (bus.command (srb.cbw host.cbwTag) s).2
  have hsent := dataPhase_sent recorder srb out (bus.command (srb.cbw host.cbwTag) s).2
  rw [hphase, recorder.command_sent] at hsent
  obtain ⟨hends, hpasses⟩ := h.status after (srb.cbw host.cbwTag) (by rw [hsent]; simp)
  have hstatus : statusPhase bus 1 after = (some (0, (bus.status after).2.1), (bus.status after).2.2) := by
    unfold statusPhase
    dsimp only
    rw [hends, if_neg (fun hstalled => absurd hstalled.1 (by decide)), if_neg (by decide)]
  unfold bbbTransport
  dsimp only
  rw [if_neg (Int.not_lt.mpr (h.command _ s)), hphase]
  dsimp only
  rw [hstatus]
  dsimp only
  rw [checkStatus_of_passes hpasses (UInt32.add_sub_cancel host.cbwTag 1) hshort]

theorem Answers.storRead (h : Answers recorder) (blknr blkcnt buffer : Nat) (w : World σ) :
    (storRead bus dev blknr blkcnt buffer w).1 = blkcnt := by
  have hretry (addr start n retry : Nat) (w : World σ) :
      (retryIt bus dev (read10 bus dev) addr start n retry w).1 = true := by
    have hdir : (readSrb dev start n).dirIn = true := (by decide : dirIn scsiRead10 = true)
    have hread : (read10 bus dev addr start n w).1 = 0 := h.transport hdir [] w.host w.bus
    unfold retryIt
    dsimp only
    rw [if_pos hread]
  have hloop (addr start blks : Nat) (w : World σ) : (xferLoop bus dev (read10 bus dev) addr start blks w).1 = 0 := by
    induction blks using Nat.strongRecOn generalizing addr start w with
    | ind blks ih =>
      rw [xferLoop]
      split
      · rfl
      next hblks =>
        have hbounds := dev.smallblks_bounds hblks
        dsimp only
        rw [hretry, if_pos rfl]
        exact ih _ (by omega) _ _ _
  unfold UsbStorage.storRead
  dsimp only
  rw [hloop, Nat.sub_zero]

/-- What a device says is missing of the data makes no difference to any transfer, to its count or to what it leaves in
memory, and one that passes every command is taken to have sent all that is read, however few bytes it has sent. -/
theorem residue_ignored (bus : Bus σ) (dev : BlkDesc) :
    (∀ f, UsbStorage.storRead (bus.withResidue f) dev = UsbStorage.storRead bus dev ∧
      storWrite (bus.withResidue f) dev = storWrite bus dev) ∧
      ∀ recorder : Recorder bus, Answers recorder → ∀ blknr blkcnt buffer w,
        (UsbStorage.storRead bus dev blknr blkcnt buffer w).1 = blkcnt := by
  refine ⟨fun f => ?_, fun recorder answers => answers.storRead⟩
  have hread : read10 (bus.withResidue f) dev = read10 bus dev := by
    funext addr start n w
    rw [read10, bbbTransport_withResidue]
    rfl
  have hwrite : write10 (bus.withResidue f) dev = write10 bus dev := by
    funext addr start n w
    rw [write10, bbbTransport_withResidue]
    rfl
  constructor
  · funext blknr blkcnt buffer w
    rw [UsbStorage.storRead, UsbStorage.storRead, hread, xferLoop_withResidue]
  · funext blknr blkcnt buffer w
    rw [storWrite, storWrite, hwrite, xferLoop_withResidue]

/-- A device that passes every command and says that all of the data is missing, as it is. -/
def emptyBus : Bus (List Cbw) where
  command c s := (⟨0, false, 31⟩, s ++ [c])
  dataIn _ s := (⟨0, false, 0⟩, [], s)
  dataOut out s := (⟨0, false, out.length⟩, s)
  status s :=
    match s.getLast? with
    | some c => (⟨0, false, 13⟩, ⟨cswSignature, c.dCBWTag, c.dCBWDataTransferLength, 0⟩, s)
    | none => (⟨-1, false, 0⟩, ⟨0, 0, 0, 0⟩, s)
  control _ s := (⟨0, false, 0⟩, s)
  dataIn_length _ _ := Nat.zero_le _

def emptyRecorder : Recorder emptyBus where
  sent := id
  command_sent _ _ := rfl
  dataIn_sent _ _ := rfl
  dataOut_sent _ _ := rfl
  status_sent s := by
    unfold emptyBus
    dsimp only
    split <;> rfl
  control_sent _ _ := rfl

theorem emptyRecorder_answers : Answers emptyRecorder where
  command _ _ := Int.le_refl 0
  dataIn n _ := ⟨Int.le_refl 0, Nat.zero_le n⟩
  status s c hc := by
    have hlast : s.getLast? = some c := hc
    simp only [emptyBus, hlast]
    exact ⟨trivial, rfl, rfl, rfl⟩

theorem residue_ignored_of_empty :
    (storRead emptyBus tinyDev 1 3 100 ⟨⟨7, fun _ => 0⟩, fun i => .ofNat i, []⟩).1 = 3 :=
  (residue_ignored emptyBus tinyDev).2 emptyRecorder emptyRecorder_answers 1 3 100 _

end NvrxFirmware.UsbStorage
