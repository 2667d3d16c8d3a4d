import NvrxFirmware.UsbTransfers

namespace NvrxFirmware.UsbStorage

variable {σ : Type} {bus : Bus σ} {dev : BlkDesc}

/-- The commands that have been sent so far. -/
structure Recorder (bus : Bus σ) where
  sent : σ → List Cbw
  command_sent : ∀ c s, sent (bus.command c s).2 = sent s ++ [c]
  dataIn_sent : ∀ n s, sent (bus.dataIn n s).2.2 = sent s
  dataOut_sent : ∀ out s, sent (bus.dataOut out s).2 = sent s
  status_sent : ∀ s, sent (bus.status s).2.2 = sent s
  control_sent : ∀ c s, sent (bus.control c s).2 = sent s

/-- Any bus with a record of the commands on it. -/
def Bus.recorded (bus : Bus σ) : Bus (σ × List Cbw) where
  command c s := ((bus.command c s.1).1, ((bus.command c s.1).2, s.2 ++ [c]))
  dataIn n s := ((bus.dataIn n s.1).1, (bus.dataIn n s.1).2.1, ((bus.dataIn n s.1).2.2, s.2))
  dataOut out s := ((bus.dataOut out s.1).1, ((bus.dataOut out s.1).2, s.2))
  status s := ((bus.status s.1).1, (bus.status s.1).2.1, ((bus.status s.1).2.2, s.2))
  control c s := ((bus.control c s.1).1, ((bus.control c s.1).2, s.2))
  dataIn_length n s := bus.dataIn_length n s.1

def Bus.recorder (bus : Bus σ) : Recorder bus.recorded :=
  ⟨Prod.snd, fun _ _ => rfl, fun _ _ => rfl, fun _ _ => rfl, fun _ => rfl, fun _ _ => rfl⟩

variable (recorder : Recorder bus) {s : σ}

theorem bbbReset_sent (s : σ) : recorder.sent (bbbReset bus s) = recorder.sent s := by
  unfold bbbReset
  dsimp only
  split <;> simp only [recorder.control_sent]

theorem dataPhase_sent (srb : ScsiCmd) (out : List UInt8) (s : σ) :
    recorder.sent (dataPhase bus srb out s).2.2 = recorder.sent s := by
  have hmsg : recorder.sent (dataMsg bus srb out s).2.2 = recorder.sent s := by
    unfold dataMsg
    split
    · exact recorder.dataIn_sent _ s
    · exact recorder.dataOut_sent out s
  unfold dataPhase
  dsimp only
  split_ifs <;> simp only [bbbReset_sent, recorder.control_sent, hmsg]

theorem statusPhase_sent (retries : Nat) (s : σ) : recorder.sent (statusPhase bus retries s).2 = recorder.sent s ∧
    ∀ found ∈ (statusPhase bus retries s).1, ∃ t, recorder.sent t = recorder.sent s ∧ 0 ≤ (bus.status t).1.result ∧
      (bus.status t).2.1 = found.2 := by
  induction retries generalizing s with
  | zero =>
    unfold statusPhase
    dsimp only
    split
    · exact ⟨by rw [bbbReset_sent, recorder.status_sent], fun found hfound => absurd hfound (by simp)⟩
    next hends =>
      refine ⟨recorder.status_sent s, fun found hfound => ⟨s, rfl, Int.not_lt.mp hends, ?_⟩⟩
      obtain rfl := Option.some.inj hfound
      rfl
  | succ retries ih =>
    unfold statusPhase
    dsimp only
    split
    · split
      · obtain ⟨hsent, hfound⟩ := ih (bus.control (.clearEndptStall .epIn) (bus.status s).2.2).2
        rw [recorder.control_sent, recorder.status_sent] at hsent hfound
        exact ⟨hsent, hfound⟩
      · exact ⟨by rw [bbbReset_sent, recorder.control_sent, recorder.status_sent], fun found hfound =>
          absurd hfound (by simp)⟩
    · split
      · exact ⟨by rw [bbbReset_sent, recorder.status_sent], fun found hfound => absurd hfound (by simp)⟩
      next hends =>
        refine ⟨recorder.status_sent s, fun found hfound => ⟨s, rfl, Int.not_lt.mp hends, ?_⟩⟩
        obtain rfl := Option.some.inj hfound
        rfl

theorem checkStatus_sent (cbwTag : UInt32) (datalen actlen : Nat) (result : Int) (csw : Csw) (s : σ) :
    recorder.sent (checkStatus bus cbwTag datalen actlen result csw s).2 = recorder.sent s := by
  unfold checkStatus
  split_ifs <;> first | rfl | exact bbbReset_sent recorder s

/-- A transport sends one command, and succeeds on a status with its tag only. -/
theorem bbbTransport_sent (srb : ScsiCmd) (out : List UInt8) (host : Host) (s : σ) :
    recorder.sent (bbbTransport bus srb out host s).bus = recorder.sent s ++ [srb.cbw host.cbwTag] ∧
      (bbbTransport bus srb out host s).host.cbwTag = host.cbwTag + 1 ∧
      ((bbbTransport bus srb out host s).result = 0 → ∃ t, recorder.sent t = recorder.sent s ++ [srb.cbw host.cbwTag] ∧
        0 ≤ (bus.status t).1.result ∧ (bus.status t).2.1.dCSWTag = host.cbwTag) := by
  have hcommand := recorder.command_sent (srb.cbw host.cbwTag) s
  have hdata := dataPhase_sent recorder srb out (bus.command (srb.cbw host.cbwTag) s).2
  unfold bbbTransport
  dsimp only
  split
  · exact ⟨by rw [bbbReset_sent, hcommand], rfl, fun h => absurd (show transportFailed = 0 from h) (by decide)⟩
  · split
    next data after hphase =>
      rw [hphase] at hdata
      exact ⟨hdata.trans hcommand, rfl, fun h => absurd (show transportFailed = 0 from h) (by decide)⟩
    next actlen data after hphase =>
      rw [hphase] at hdata
      obtain ⟨hstatus, hfound⟩ := statusPhase_sent recorder 1 after
      split
      next last hlast =>
        rw [hlast] at hstatus
        exact ⟨hstatus.trans (hdata.trans hcommand), rfl, fun h => absurd (show transportFailed = 0 from h) (by decide)⟩
      next result csw last hlast =>
        rw [hlast] at hstatus hfound
        refine ⟨by rw [checkStatus_sent, hstatus, hdata, hcommand], rfl, fun hresult => ?_⟩
        obtain ⟨t, ht, hends, hcsw⟩ := hfound _ rfl
        refine ⟨t, ht.trans (hdata.trans hcommand), hends, ?_⟩
        rw [hcsw, (checkStatus_zero hresult).2.1]
        exact UInt32.add_sub_cancel host.cbwTag 1

/-- The status that a transport looks at, where it comes to that. -/
def foundStatus (bus : Bus σ) (srb : ScsiCmd) (out : List UInt8) (host : Host) (s : σ) : Option (Int × Csw) :=
  let (m, s) := bus.command (srb.cbw host.cbwTag) s
  if m.result < 0 then none
  else
    match dataPhase bus srb out s with
    | (none, _, _) => none
    | (some _, _, s) => (statusPhase bus 1 s).1

theorem checkStatus_result {cbwTag : UInt32} {datalen actlen : Nat} {result : Int} {csw : Csw}
    (h : (checkStatus bus cbwTag datalen actlen result csw s).1 = 0) : result = 0 := by
  unfold checkStatus at h
  split_ifs at h <;> first | exact h | cases h

theorem bbbTransport_found {srb : ScsiCmd} {out : List UInt8} {host : Host}
    (h : (bbbTransport bus srb out host s).result = 0) :
    ∃ csw, foundStatus bus srb out host s = some (0, csw) ∧ csw.dCSWTag = host.cbwTag := by
  unfold bbbTransport at h
  unfold foundStatus
  dsimp only at h ⊢
  by_cases hcommand : (bus.command (srb.cbw host.cbwTag) s).1.result < 0
  · rw [if_pos hcommand] at h
    cases h
  rw [if_neg hcommand] at h ⊢
  cases hphase : dataPhase bus srb out (bus.command (srb.cbw host.cbwTag) s).2 with
  | mk actlen moved =>
    obtain ⟨data, after⟩ := moved
    rw [hphase] at h
    cases actlen with
    | none => cases h
    | some actlen =>
      dsimp only at h ⊢
      cases hlast : statusPhase bus 1 after with
      | mk found last =>
        rw [hlast] at h
        cases found with
        | none => cases h
        | some found =>
          obtain ⟨result, csw⟩ := found
          dsimp only at h ⊢
          have hresult : result = 0 := checkStatus_result h
          refine ⟨csw, by rw [hresult], ?_⟩
          rw [(checkStatus_zero h).2.1]
          exact UInt32.add_sub_cancel host.cbwTag 1

variable {recorder} {Ok : Cbw → Prop} {w w' w'' : World σ} {k k' : Nat} {addr start n blknr blkcnt buffer : Nat}
  {xfer10 : Nat → Nat → Nat → World σ → Int × World σ}

/-- At most so many commands have been sent in between, of this kind and with tags that go on by one. -/
def Sent (recorder : Recorder bus) (Ok : Cbw → Prop) (k : Nat) (w w' : World σ) : Prop :=
  ∃ sent, recorder.sent w'.bus = recorder.sent w.bus ++ sent ∧ sent.length ≤ k ∧
    w'.host.cbwTag = w.host.cbwTag + .ofNat sent.length ∧
    sent.map Cbw.dCBWTag = (List.range sent.length).map (fun i => w.host.cbwTag + .ofNat i) ∧ ∀ c ∈ sent, Ok c

theorem Sent.none : Sent recorder Ok 0 w w := ⟨[], by simp, le_rfl, by simp, rfl, by simp⟩

theorem Sent.mono (h : Sent recorder Ok k w w') (hle : k ≤ k') : Sent recorder Ok k' w w' := by
  obtain ⟨sent, hsent, hlength, hrest⟩ := h
  exact ⟨sent, hsent, hlength.trans hle, hrest⟩

theorem Sent.trans (h : Sent recorder Ok k w w') (h' : Sent recorder Ok k' w' w'') : Sent recorder Ok (k + k') w w'' := by
  obtain ⟨sent, hsent, hlength, htag, htags, hok⟩ := h
  obtain ⟨later, hlater, hlength', htag', htags', hok'⟩ := h'
  refine ⟨sent ++ later, ?_, ?_, ?_, ?_, ?_⟩
  · rw [hlater, hsent, List.append_assoc]
  · rw [List.length_append]
    omega
  · rw [htag', htag, List.length_append, UInt32.ofNat_add, UInt32.add_assoc]
  · rw [List.map_append, htags, htags', List.length_append, List.range_add, List.map_append, List.map_map, htag]
    refine congrArg _ (List.map_congr_left fun i _ => ?_)
    rw [Function.comp_apply, UInt32.ofNat_add, UInt32.add_assoc]
  · intro c hc
    exact (List.mem_append.mp hc).elim (hok c) (hok' c)

/-- A command of this kind for these blocks, with the length of their data. -/
def Cbw.Moves (c : Cbw) (dev : BlkDesc) (command : UInt8) (R : Set Nat) : Prop :=
  c.cbwCdb.val.getD 0 0 = command ∧ c.dCBWDataTransferLength.toNat = dev.blksz * c.blocks ∧
    ∀ block ∈ region c.lba c.blocks, block ∈ R

def Cbw.Senses (c : Cbw) : Prop := c.cbwCdb.val.getD 0 0 = scsiReqSense

theorem sent_one {srb : ScsiCmd} (hsrb : Ok (srb.cbw w.host.cbwTag)) (h : recorder.sent w'.bus =
      recorder.sent w.bus ++ [srb.cbw w.host.cbwTag]) (htag : w'.host.cbwTag = w.host.cbwTag + 1) :
    Sent recorder Ok 1 w w' :=
  ⟨[srb.cbw w.host.cbwTag], h, le_rfl, htag, by simp [ScsiCmd.cbw], fun c hc => by rwa [List.mem_singleton.mp hc]⟩

theorem requestSense_sent (hsense : ∀ c : Cbw, c.Senses → Ok c) : Sent recorder Ok 1 w (requestSense bus dev w) := by
  obtain ⟨hsent, htag, -⟩ := bbbTransport_sent recorder (senseSrb dev) [] w.host w.bus
  exact sent_one (hsense ((senseSrb dev).cbw w.host.cbwTag) rfl) hsent htag

theorem retryIt_sent (hsense : ∀ c : Cbw, c.Senses → Ok c)
    (command : ∀ w, Sent recorder Ok 1 w (xfer10 addr start n w).2) (retry : Nat) (w : World σ) :
    Sent recorder Ok (2 * (retry + 1)) w (retryIt bus dev xfer10 addr start n retry w).2 := by
  induction retry generalizing w with
  | zero =>
    unfold retryIt
    dsimp only
    split
    · exact (command w).mono (by omega)
    · exact (command w).trans (requestSense_sent hsense)
  | succ retry ih =>
    unfold retryIt
    dsimp only
    split
    · exact (command w).mono (by omega)
    · exact (((command w).trans (requestSense_sent hsense)).trans (ih _)).mono (by omega)

/-- A transfer sends at most six commands for each of its pieces. -/
theorem xferLoop_sent (hsense : ∀ c : Cbw, c.Senses → Ok c) (addressed : blknr + blkcnt ≤ 2 ^ 32)
    (command : ∀ done n w, dev.Fits (blknr + done) n → done + n ≤ blkcnt →
      Sent recorder Ok 1 w (xfer10 (buffer + dev.blksz * done) (blknr + done) n w).2) (w : World σ) :
    Sent recorder Ok (6 * ((blkcnt + dev.maxXferBlk - 1) / dev.maxXferBlk)) w
      (xferLoop bus dev xfer10 buffer blknr blkcnt w).2 := by
  have hpos := dev.maxXferBlk_pos
  have hpieces {pieces : Nat} (h : dev.maxXferBlk * pieces < blkcnt + dev.maxXferBlk) :
      6 * pieces ≤ 6 * ((blkcnt + dev.maxXferBlk - 1) / dev.maxXferBlk) :=
    Nat.mul_le_mul_left 6 ((Nat.le_div_iff_mul_le hpos).mpr (by rw [Nat.mul_comm]; omega))
  obtain ⟨-, hdone, hfailed⟩ := xferLoop_rule bus xfer10 buffer blknr w
    (P := fun done w' => ∃ pieces, dev.maxXferBlk * pieces < done + dev.maxXferBlk ∧
      (done = blkcnt ∨ done = dev.maxXferBlk * pieces) ∧ Sent recorder Ok (6 * pieces) w w')
    (F := fun _ w' => ∃ pieces, dev.maxXferBlk * pieces < blkcnt + dev.maxXferBlk ∧
      Sent recorder Ok (6 * pieces) w w') blkcnt
    (by
      rintro done n w' hpos hmax hlast hlong ⟨pieces, hfew, hfull, hsent⟩
      have hretry : Sent recorder Ok (2 * (2 + 1)) w'
          (retryIt bus dev xfer10 (buffer + dev.blksz * done) (blknr + done) n 2 w').2 :=
        retryIt_sent hsense (fun v => command done n v ⟨by omega, hpos, hmax⟩ hlast) 2 w'
      have hnext := hsent.trans hretry
      rw [show 6 * pieces + 2 * (2 + 1) = 6 * (pieces + 1) by omega] at hnext
      obtain rfl : done = dev.maxXferBlk * pieces := hfull.resolve_left (by omega)
      cases hok : (retryIt bus dev xfer10 (buffer + dev.blksz * (dev.maxXferBlk * pieces))
          (blknr + dev.maxXferBlk * pieces) n 2 w').1 with
      | true =>
        refine .inl ⟨rfl, pieces + 1, by rw [Nat.mul_succ]; omega, ?_, hnext⟩
        rw [Nat.mul_succ]
        omega
      | false => exact .inr ⟨rfl, pieces + 1, by rw [Nat.mul_succ]; omega, hnext⟩)
    ⟨0, by omega, .inr rfl, Sent.none⟩
  rcases Nat.eq_zero_or_pos (xferLoop bus dev xfer10 buffer blknr blkcnt w).1 with hleft | hleft
  · obtain ⟨pieces, hfew, -, hsent⟩ := hdone hleft
    exact hsent.mono (hpieces hfew)
  · obtain ⟨pieces, hfew, hsent⟩ := hfailed hleft
    exact hsent.mono (hpieces hfew)

theorem moves_of_fits {command lun : UInt8} (fits : dev.Fits start n) {R : Set Nat}
    (hin : ∀ block ∈ region start n, block ∈ R)
    (tag : UInt32) :
    Cbw.Moves (ScsiCmd.cbw ⟨lun, cmd10 command lun start n, dev.blksz * n⟩ tag) dev command R := by
  obtain ⟨hlba, hblocks⟩ := fits.lba command lun (dev.blksz * n) tag
  refine ⟨rfl, ?_, ?_⟩
  · rw [hblocks]
    exact fits.length
  · rw [hlba, hblocks]
    exact hin

/-- Whatever the device does, a transfer sends reads, or writes, of blocks that it is asked for and requests for sense
between them, all with tags that go on from the last, and at most six of them for each of the longest pieces that the
blocks make. -/
theorem transfers_send (recorder : Recorder bus) (dev : BlkDesc) (blknr blkcnt buffer : Nat)
    (addressed : blknr + blkcnt ≤ 2 ^ 32)
    (w : World σ) :
    Sent recorder (fun c => c.Senses ∨ c.Moves dev scsiRead10 (region blknr blkcnt))
        (6 * ((blkcnt + dev.maxXferBlk - 1) / dev.maxXferBlk)) w (storRead bus dev blknr blkcnt buffer w).2 ∧
      Sent recorder (fun c => c.Senses ∨ c.Moves dev scsiWrite10 (region blknr blkcnt))
        (6 * ((blkcnt + dev.maxXferBlk - 1) / dev.maxXferBlk)) w (storWrite bus dev blknr blkcnt buffer w).2 := by
  have hin {done n : Nat} (hlast : done + n ≤ blkcnt) : ∀ block ∈ region (blknr + done) n, block ∈ region blknr blkcnt :=
    fun block hblock => ⟨(Nat.le_add_right _ _).trans hblock.1, lt_of_lt_of_le hblock.2 (by omega)⟩
  constructor
  · refine xferLoop_sent (fun c hc => .inl hc) addressed (fun done n w fits hlast => ?_) w
    obtain ⟨hsent, htag, -⟩ := bbbTransport_sent recorder (readSrb dev (blknr + done) n) [] w.host w.bus
    exact sent_one (.inr (moves_of_fits fits (hin hlast) _)) hsent htag
  · refine xferLoop_sent (fun c hc => .inl hc) addressed (fun done n w fits hlast => ?_) w
    obtain ⟨hsent, htag, -⟩ := bbbTransport_sent recorder (writeSrb dev (blknr + done) n)
      (w.memory.bytes (buffer + dev.blksz * done) (dev.blksz * n)) w.host w.bus
    exact sent_one (.inr (moves_of_fits fits (hin hlast) _)) hsent htag

theorem transfers_send_of_tiny :
    Sent (faultlessBus 2).recorder (fun c => c.Senses ∨ c.Moves tinyDev scsiRead10 (region 1 3)) 12
      ⟨tinyWorld.host, tinyWorld.memory, (tinyWorld.bus, [])⟩
      (storRead (faultlessBus 2).recorded tinyDev 1 3 100 ⟨tinyWorld.host, tinyWorld.memory, (tinyWorld.bus, [])⟩).2 :=
  (transfers_send (faultlessBus 2).recorder tinyDev 1 3 100 (by decide) _).1

/-- A device all of whose statuses are for commands before the last. -/
def Late (recorder : Recorder bus) : Prop :=
  ∀ s, 0 ≤ (bus.status s).1.result → ∃ c ∈ (recorder.sent s).dropLast, (bus.status s).2.1.dCSWTag = c.dCBWTag

/-- A device that is one status behind. -/
def lateBus : Bus (List Cbw) where
  command c s := (⟨0, false, 31⟩, s ++ [c])
  dataIn n s := (⟨0, false, n⟩, List.replicate n 0, s)
  dataOut out s := (⟨0, false, out.length⟩, s)
  status s :=
    match s.dropLast.getLast? with
    | some c => (⟨0, false, 13⟩, ⟨cswSignature, c.dCBWTag, 0, 0⟩, s)
    | none => (⟨-1, false, 0⟩, ⟨0, 0, 0, 0⟩, s)
  control _ s := (⟨0, false, 0⟩, s)
  dataIn_length n _ := by rw [List.length_replicate]

def lateRecorder : Recorder lateBus where
  sent := id
  command_sent _ _ := rfl
  dataIn_sent _ _ := rfl
  dataOut_sent _ _ := rfl
  status_sent s := by
    unfold lateBus
    dsimp only
    split <;> rfl
  control_sent _ _ := rfl

theorem lateRecorder_late : Late lateRecorder := by
  intro s hends
  cases hlast : s.dropLast.getLast? with
  | some c =>
    refine ⟨c, List.mem_of_getLast? hlast, ?_⟩
    simp only [lateBus, hlast]
  | none =>
    simp only [lateBus, hlast] at hends
    cases hends

/-- Every command so far has a tag of its own. -/
def Counted (recorder : Recorder bus) (first : UInt32) (w : World σ) : Prop :=
  (recorder.sent w.bus).map Cbw.dCBWTag = (List.range (recorder.sent w.bus).length).map (fun i => first + .ofNat i) ∧
    w.host.cbwTag = first + .ofNat (recorder.sent w.bus).length

theorem Counted.sent {first : UInt32} (h : Counted recorder first w) (hsent : Sent recorder Ok k w w') :
    Counted recorder first w' ∧ (recorder.sent w'.bus).length ≤ (recorder.sent w.bus).length + k := by
  obtain ⟨htags, hnext⟩ := h
  obtain ⟨sent, hlog, hlength, htag, hlater, -⟩ := hsent
  refine ⟨⟨?_, ?_⟩, ?_⟩
  · rw [hlog, List.map_append, htags, hlater, List.length_append, List.range_add, List.map_append, List.map_map, hnext]
    refine congrArg _ (List.map_congr_left fun i _ => ?_)
    rw [Function.comp_apply, UInt32.ofNat_add, UInt32.add_assoc]
  · rw [htag, hnext, hlog, List.length_append, UInt32.ofNat_add, UInt32.add_assoc]
  · rw [hlog, List.length_append]
    omega

/-- The next tag has not been used. -/
theorem Counted.fresh {first : UInt32} (h : Counted recorder first w) (hfew : (recorder.sent w.bus).length < 2 ^ 32) :
    ∀ c ∈ recorder.sent w.bus, w.host.cbwTag ≠ c.dCBWTag := by
  intro c hc heq
  have hmem : c.dCBWTag ∈ (recorder.sent w.bus).map Cbw.dCBWTag := List.mem_map_of_mem hc
  rw [h.1] at hmem
  obtain ⟨i, hi, hsame⟩ := List.mem_map.mp hmem
  have hlt := List.mem_range.mp hi
  rw [← hsame, h.2] at heq
  have hnat := congrArg UInt32.toNat ((UInt32.add_right_inj first).mp heq)
  rw [UInt32.toNat_ofNat', UInt32.toNat_ofNat', Nat.mod_eq_of_lt hfew, Nat.mod_eq_of_lt (by omega)] at hnat
  omega

/-- A status for an earlier command is not taken for one of the command that has been sent. -/
theorem late_refused {first : UInt32} (late : Late recorder) (h : Counted recorder first w)
    (hfew : (recorder.sent w.bus).length < 2 ^ 32) (srb : ScsiCmd) (out : List UInt8) :
    (bbbTransport bus srb out w.host w.bus).result ≠ 0 := by
  intro hresult
  obtain ⟨-, -, hfound⟩ := bbbTransport_sent recorder srb out w.host w.bus
  obtain ⟨t, ht, hends, htag⟩ := hfound hresult
  obtain ⟨c, hc, hlate⟩ := late t hends
  rw [ht, List.dropLast_concat] at hc
  exact h.fresh hfew c hc (htag.symm.trans hlate)

theorem retryIt_refused {first : UInt32} (command : ∀ w, Sent recorder (fun _ => True) 1 w (xfer10 addr start n w).2)
    (refused : ∀ w, Counted recorder first w → (recorder.sent w.bus).length < 2 ^ 32 → (xfer10 addr start n w).1 ≠ 0)
    (retry : Nat) (h : Counted recorder first w) (hfew : (recorder.sent w.bus).length + 2 * retry < 2 ^ 32) :
    (retryIt bus dev xfer10 addr start n retry w).1 = false := by
  induction retry generalizing w with
  | zero =>
    unfold retryIt
    dsimp only
    rw [if_neg (refused w h (by omega))]
  | succ retry ih =>
    have hsense : Sent recorder (fun _ => True) 1 (xfer10 addr start n w).2
      (requestSense bus dev (xfer10 addr start n w).2) :=
      requestSense_sent fun _ _ => trivial
    obtain ⟨hnext, hlength⟩ := h.sent ((command w).trans hsense)
    unfold retryIt
    dsimp only
    rw [if_neg (refused w h (by omega))]
    exact ih hnext (by omega)

theorem xferLoop_refused {first : UInt32}
    (command : ∀ addr start n w, Sent recorder (fun _ => True) 1 w (xfer10 addr start n w).2)
    (refused : ∀ addr start n w, Counted recorder first w → (recorder.sent w.bus).length < 2 ^ 32 →
      (xfer10 addr start n w).1 ≠ 0) (h : Counted recorder first w) (hfew : (recorder.sent w.bus).length + 4 < 2 ^ 32) :
    (xferLoop bus dev xfer10 buffer blknr blkcnt w).1 = blkcnt := by
  rw [xferLoop]
  split
  next hnone => exact hnone.symm
  next =>
    dsimp only
    rw [retryIt_refused (command _ _ _) (refused _ _ _) 2 h hfew, if_neg (by decide)]

/-- As long as no tag has been used twice, no transport takes a status for an earlier command for its own, and from a
device that gives no other every read and write comes back with no block. -/
theorem late_statuses_refused (recorder : Recorder bus) (dev : BlkDesc) (first : UInt32) (w : World σ)
    (counted : Counted recorder first w) (few : (recorder.sent w.bus).length + 4 < 2 ^ 32) :
    (∀ srb out, (bbbTransport bus srb out w.host w.bus).result = 0 → ∃ csw,
      foundStatus bus srb out w.host w.bus = some (0, csw) ∧ csw.dCSWTag = w.host.cbwTag ∧
        ∀ c ∈ recorder.sent w.bus, csw.dCSWTag ≠ c.dCBWTag) ∧
      (Late recorder → ∀ blknr blkcnt buffer,
        (storRead bus dev blknr blkcnt buffer w).1 = 0 ∧ (storWrite bus dev blknr blkcnt buffer w).1 = 0) := by
  refine ⟨fun srb out hresult => ?_, fun late blknr blkcnt buffer => ?_⟩
  · obtain ⟨csw, hfound, htag⟩ := bbbTransport_found hresult
    refine ⟨csw, hfound, htag, ?_⟩
    rw [htag]
    exact counted.fresh (by omega)
  · have hread : (xferLoop bus dev (read10 bus dev) buffer blknr blkcnt w).1 = blkcnt := by
      refine xferLoop_refused (fun addr start n w => ?_) (fun addr start n w h hfew => late_refused late h hfew _ _)
        counted few
      obtain ⟨hsent, htag, -⟩ := bbbTransport_sent recorder (readSrb dev start n) [] w.host w.bus
      exact sent_one trivial hsent htag
    have hwrite : (xferLoop bus dev (write10 bus dev) buffer blknr blkcnt w).1 = blkcnt := by
      refine xferLoop_refused (fun addr start n w => ?_) (fun addr start n w h hfew => late_refused late h hfew _ _)
        counted few
      obtain ⟨hsent, htag, -⟩ := bbbTransport_sent recorder (writeSrb dev start n)
        (w.memory.bytes addr (dev.blksz * n)) w.host w.bus
      exact sent_one trivial hsent htag
    unfold storRead storWrite
    dsimp only
    rw [hread, hwrite, Nat.sub_self]
    exact ⟨rfl, rfl⟩

theorem late_statuses_refused_of_first :
    (storRead lateBus tinyDev 1 3 100 ⟨⟨7, fun _ => 0⟩, fun i => .ofNat i, []⟩).1 = 0 :=
  ((late_statuses_refused lateRecorder tinyDev 7 ⟨⟨7, fun _ => 0⟩, fun i => .ofNat i, []⟩ ⟨rfl, rfl⟩
    (by decide)).2 lateRecorder_late 1 3 100).1

end NvrxFirmware.UsbStorage
