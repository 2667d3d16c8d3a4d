import NvrxFirmware.UsbSticks

namespace NvrxFirmware.UsbStorage

variable {σ : Type} {bus : Bus σ} {blksz : Nat} {stick : Stick bus blksz} {R : Set Nat} {s s' : σ} {c : Cbw}
  {srb : ScsiCmd} {out data : List UInt8} {host : Host}

theorem dataMsg_length (bus : Bus σ) (srb : ScsiCmd) (out : List UInt8) (s : σ) :
    (dataMsg bus srb out s).2.1.length ≤ srb.datalen := by
  unfold dataMsg
  split
  · exact bus.dataIn_length srb.datalen s
  · exact Nat.zero_le _

theorem dataMsg_keeps (h : stick.Within R s) (srb : ScsiCmd) (out : List UInt8) :
    stick.Keeps R s (dataMsg bus srb out s).2.2 := by
  unfold dataMsg
  split
  · exact Stick.dataIn_keeps h srb.datalen
  · exact Stick.dataOut_keeps h out

theorem dataMsg_job (stick : Stick bus blksz) (h : stick.job s = some ⟨c, []⟩) (srb : ScsiCmd) (out : List UInt8) :
    stick.job (dataMsg bus srb out s).2.2 = some ⟨c, if srb.dirIn then (dataMsg bus srb out s).2.1 else out⟩ := by
  unfold dataMsg
  split
  · rw [stick.dataIn_job, h]
    rfl
  · dsimp only
    rw [stick.dataOut_job, h]
    rfl

theorem dataPhase_length (bus : Bus σ) (srb : ScsiCmd) (out : List UInt8) (s : σ) :
    (dataPhase bus srb out s).2.1.length ≤ srb.datalen := by
  have hlength := dataMsg_length bus srb out s
  unfold dataPhase
  dsimp only
  split_ifs <;> first | exact Nat.zero_le _ | exact hlength

theorem dataPhase_keeps (h : stick.Within R s) (srb : ScsiCmd) (out : List UInt8) :
    stick.Keeps R s (dataPhase bus srb out s).2.2 := by
  have hmsg := dataMsg_keeps h srb out
  have hstall := hmsg.trans (Stick.control_keeps hmsg.within (.clearEndptStall srb.endpoint))
  unfold dataPhase
  dsimp only
  split
  · exact h.keeps
  · split
    · split
      · exact hstall
      · exact hstall.trans (Stick.bbbReset_keeps hstall.within)
    · split
      · exact hmsg.trans (Stick.bbbReset_keeps hmsg.within)
      · exact hmsg

/-- Unless the transport fails in it, the DATA phase has moved what it says for the command under way. -/
theorem dataPhase_job (stick : Stick bus blksz) (h : stick.job s = some ⟨c, []⟩)
    (hout : out.length = srb.datalen ∨ srb.dirIn)
    {actlen : Nat} (hphase : dataPhase bus srb out s = (some actlen, data, s')) :
    stick.job s' = some ⟨c, if srb.dirIn then data else out⟩ := by
  have hmsg := dataMsg_job stick h srb out
  unfold dataPhase at hphase
  dsimp only at hphase
  split_ifs at hphase with hnone hstalled hcleared hfailed <;>
    obtain ⟨-, rfl, rfl⟩ := hphase
  · rw [h]
    rcases hout with hout | hdir
    · rw [List.eq_nil_of_length_eq_zero (hout.trans hnone), ite_self]
    · rw [if_pos hdir]
  · rw [stick.control_job, hmsg]
  · exact hmsg

theorem statusPhase_keeps (h : stick.Within R s) (retries : Nat) : stick.Keeps R s (statusPhase bus retries s).2 := by
  induction retries generalizing s with
  | zero =>
    have hstatus := Stick.status_keeps h
    unfold statusPhase
    dsimp only
    split
    · exact hstatus.trans (Stick.bbbReset_keeps hstatus.within)
    · exact hstatus
  | succ retries ih =>
    have hstatus := Stick.status_keeps h
    have hstall := hstatus.trans (Stick.control_keeps hstatus.within (.clearEndptStall .epIn))
    unfold statusPhase
    dsimp only
    split
    · split
      · exact hstall.trans (ih hstall.within)
      · exact hstall.trans (Stick.bbbReset_keeps hstall.within)
    · split
      · exact hstatus.trans (Stick.bbbReset_keeps hstatus.within)
      · exact hstatus

/-- The status that is looked at ends the command that was under way. -/
theorem statusPhase_status {retries : Nat} {result : Int} {csw : Csw} (h : stick.Within R s)
    (hphase : statusPhase bus retries s = (some (result, csw), s')) :
    ∃ t, stick.Keeps R s t ∧ stick.job t = stick.job s ∧ 0 ≤ (bus.status t).1.result ∧
      (bus.status t).2 = (csw, s') := by
  induction retries generalizing s with
  | zero =>
    unfold statusPhase at hphase
    dsimp only at hphase
    split_ifs at hphase with hfails
    · cases hphase
    · cases hphase
      exact ⟨s, h.keeps, rfl, Int.not_lt.mp hfails, rfl⟩
  | succ retries ih =>
    unfold statusPhase at hphase
    dsimp only at hphase
    split_ifs at hphase with hstalled hcleared hfails
    · have hstatus := Stick.status_keeps h
      have hclear := Stick.control_keeps hstatus.within (.clearEndptStall .epIn)
      obtain ⟨t, hkeeps, hjob, hends, ht⟩ := ih hclear.within hphase
      refine ⟨t, hstatus.trans (hclear.trans hkeeps), ?_, hends, ht⟩
      rw [hjob, stick.control_job, stick.status_fails s hstalled.1]
    · cases hphase
    · cases hphase
    · cases hphase
      exact ⟨s, h.keeps, rfl, Int.not_lt.mp hfails, rfl⟩

theorem checkStatus_zero {cbwTag : UInt32} {datalen actlen : Nat} {result : Int} {csw : Csw}
    (h : (checkStatus bus cbwTag datalen actlen result csw s).1 = 0) :
    csw.dCSWSignature = cswSignature ∧ csw.dCSWTag = cbwTag - 1 ∧ csw.bCSWStatus = 0 ∧
      (checkStatus bus cbwTag datalen actlen result csw s).2 = s := by
  unfold checkStatus at h ⊢
  split_ifs at h ⊢ with hsignature htag habove hphase hlength hfailed <;> try cases h
  refine ⟨(not_not.mp hsignature).symm, (not_not.mp htag).symm, ?_, rfl⟩
  have hle : ¬cswStatusPhase < csw.bCSWStatus := habove
  simp only [cswStatusPhase, cswStatusFailed, UInt8.lt_iff_toNat_lt, ← UInt8.toNat_inj] at hle hphase hfailed ⊢
  have htwo : (2 : UInt8).toNat = 2 := rfl
  have hone : (1 : UInt8).toNat = 1 := rfl
  have hzero : (0 : UInt8).toNat = 0 := rfl
  omega

theorem checkStatus_of_passes {cbwTag : UInt32} {datalen actlen : Nat} {csw : Csw} (hpasses : csw.Passes c)
    (htag : cbwTag - 1 = c.dCBWTag) (hlength : actlen ≤ datalen) (result : Int) (s : σ) :
    checkStatus bus cbwTag datalen actlen result csw s = (result, s) := by
  obtain ⟨hsignature, hsent, hstatus⟩ := hpasses
  unfold checkStatus
  rw [hsignature, htag, hsent, hstatus, if_neg (not_not_intro rfl), if_neg (not_not_intro rfl), if_neg (by decide),
    if_neg (by decide), if_neg (Nat.not_lt.mpr hlength), if_neg (by decide)]

theorem checkStatus_keeps (h : stick.Within R s) (cbwTag : UInt32) (datalen actlen : Nat) (result : Int) (csw : Csw) :
    stick.Keeps R s (checkStatus bus cbwTag datalen actlen result csw s).2 := by
  unfold checkStatus
  split_ifs <;> first | exact h.keeps | exact Stick.bbbReset_keeps h

theorem bbbTransport_length (bus : Bus σ) (srb : ScsiCmd) (out : List UInt8) (host : Host) (s : σ) :
    (bbbTransport bus srb out host s).data.length ≤ srb.datalen := by
  have hlength := dataPhase_length bus srb out (bus.command (srb.cbw host.cbwTag) s).2
  unfold bbbTransport
  dsimp only
  split
  · exact Nat.zero_le _
  · split
    next data after hphase =>
      rw [hphase] at hlength
      exact hlength
    next actlen data after hphase =>
      rw [hphase] at hlength
      split <;> exact hlength

theorem bbbTransport_keeps (h : stick.Within R s) (srb : ScsiCmd) (out : List UInt8) (host : Host)
    (hwrites : ∀ block, (srb.cbw host.cbwTag).Writes block → block ∈ R) :
    stick.Keeps R s (bbbTransport bus srb out host s).bus := by
  have hcommand := Stick.command_keeps h hwrites
  have hdata := hcommand.trans (dataPhase_keeps hcommand.within srb out)
  unfold bbbTransport
  dsimp only
  split
  · exact hcommand.trans (Stick.bbbReset_keeps hcommand.within)
  · split
    next data after hphase =>
      rw [hphase] at hdata
      exact hdata
    next actlen data after hphase =>
      rw [hphase] at hdata
      have hstatus := hdata.trans (statusPhase_keeps hdata.within 1)
      split
      next last hlast =>
        rw [hlast] at hstatus
        exact hstatus
      next result csw last hlast =>
        rw [hlast] at hstatus
        exact hstatus.trans (checkStatus_keeps hstatus.within _ _ _ _ _)

/-- A transport succeeds on a status that passes the command that it has sent, after its data. -/
theorem bbbTransport_passed (h : stick.Within R s) (hwrites : ∀ block, (srb.cbw host.cbwTag).Writes block → block ∈ R)
    (hout : out.length = srb.datalen ∨ srb.dirIn) (hresult : (bbbTransport bus srb out host s).result = 0) :
    ∃ t, stick.Keeps R s t ∧
      stick.job t = some ⟨srb.cbw host.cbwTag, if srb.dirIn then (bbbTransport bus srb out host s).data else out⟩ ∧
      0 ≤ (bus.status t).1.result ∧ (bus.status t).2.1.Passes (srb.cbw host.cbwTag) ∧
      (bus.status t).2.2 = (bbbTransport bus srb out host s).bus := by
  have hcommand := Stick.command_keeps h hwrites
  have hdata := hcommand.trans (dataPhase_keeps hcommand.within srb out)
  unfold bbbTransport at hresult ⊢
  dsimp only at hresult ⊢
  by_cases hsent : (bus.command (srb.cbw host.cbwTag) s).1.result < 0
  · rw [if_pos hsent] at hresult
    cases hresult
  have hjob : stick.job (bus.command (srb.cbw host.cbwTag) s).2 = some ⟨srb.cbw host.cbwTag, []⟩ :=
    (stick.command_job _ s).resolve_right fun hfails => hsent hfails.1
  rw [if_neg hsent] at hresult ⊢
  cases hphase : dataPhase bus srb out (bus.command (srb.cbw host.cbwTag) s).2 with
  | mk actlen moved =>
    obtain ⟨data, after⟩ := moved
    rw [hphase] at hresult hdata
    cases actlen with
    | none => cases hresult
    | some actlen =>
      dsimp only at hresult hdata ⊢
      have hmoved := dataPhase_job stick hjob hout hphase
      cases hlast : statusPhase bus 1 after with
      | mk found last =>
        rw [hlast] at hresult
        cases found with
        | none => cases hresult
        | some found =>
          obtain ⟨result, csw⟩ := found
          dsimp only at hresult ⊢
          obtain ⟨t, hkeeps, hsame, hends, ht⟩ := statusPhase_status hdata.within hlast
          obtain ⟨hsignature, htag, hpassed, hchecked⟩ := checkStatus_zero hresult
          refine ⟨t, hdata.trans hkeeps, hsame.trans hmoved, hends, ⟨?_, ?_, ?_⟩, ?_⟩
          · rw [ht]
            exact hsignature
          · rw [ht]
            refine htag.trans ?_
            show host.cbwTag + 1 - 1 = host.cbwTag
            rw [UInt32.add_sub_cancel]
          · rw [ht]
            exact hpassed
          · rw [ht]
            exact hchecked.symm

end NvrxFirmware.UsbStorage
