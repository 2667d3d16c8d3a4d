import NvrxFirmware.AutomacSaves

namespace NvrxFirmware.Automac

variable {u v w : World} {now : Nat} {ret : Int} {again first second : StartAgain} {p : Packet} {id : UInt32}
  {log : List Sent}

def Sent.request : Sent → Option UInt32
  | .macRequest id => some id
  | _ => none

def Sent.success : Sent → Option UInt32
  | .successMac id => some id
  | _ => none

/-- The id of the last request in a log. -/
def lastRequest (log : List Sent) : Option UInt32 := (log.filterMap Sent.request).getLast?

@[simp] theorem lastRequest_request (log : List Sent) (id : UInt32) : lastRequest (log ++ [.macRequest id]) = some id := by
  simp [lastRequest, List.filterMap_append, Sent.request]

@[simp] theorem lastRequest_success (log : List Sent) (id : UInt32) :
    lastRequest (log ++ [.successMac id]) = lastRequest log := by
  simp [lastRequest, List.filterMap_append, Sent.request]

/-- Successes answer the last request, and nothing else is sent. -/
structure InOrder (log : List Sent) : Prop where
  answers : ∀ earlier later id, log = earlier ++ .successMac id :: later → lastRequest earlier = some id
  talks : .nothing ∉ log

theorem InOrder.nil : InOrder [] := by
  constructor
  · intro earlier later id h
    simp at h
  · exact List.not_mem_nil

theorem InOrder.concat {s : Sent} (h : InOrder log) (hs : ∀ id, s = .successMac id → lastRequest log = some id)
    (htalks : s ≠ .nothing) : InOrder (log ++ [s]) := by
  constructor
  · intro earlier later id heq
    rcases List.eq_nil_or_concat later with rfl | ⟨later, s', rfl⟩
    · obtain ⟨rfl, hlast⟩ := List.append_inj' heq rfl
      exact hs id (List.singleton_inj.mp hlast)
    · rw [List.concat_eq_append, ← List.cons_append, ← List.append_assoc] at heq
      exact h.answers earlier later id (List.append_inj_left' heq rfl)
  · rw [List.mem_append, List.mem_singleton, not_or]
    exact ⟨h.talks, htalks.symm⟩

theorem InOrder.request (h : InOrder log) (id : UInt32) : InOrder (log ++ [.macRequest id]) :=
  h.concat (fun _ h => by cases h) (by simp)

theorem InOrder.success (h : InOrder log) (hlast : lastRequest log = some id) : InOrder (log ++ [.successMac id]) :=
  h.concat (fun _ h => Sent.successMac.inj h ▸ hlast) (by simp)

/-- The client has sent nothing but requests, the last of them with the id it keeps. -/
inductive Asked (w : World) : World → Prop
  | same {v : World} : v.sent = w.sent → v.transactionId = w.transactionId → Asked w v
  | more {u v : World} : Asked w u → v.sent = u.sent ++ [.macRequest v.transactionId] → Asked w v

theorem Asked.refl (w : World) : Asked w w := .same rfl rfl

theorem Asked.trans (h : Asked w u) (h' : Asked u v) : Asked w v := by
  induction h' with
  | same hsent hid =>
    cases h with
    | same hsent' hid' => exact .same (hsent.trans hsent') (hid.trans hid')
    | more h hmore => exact .more h (by rw [hsent, hid, hmore])
  | more _ hmore ih => exact .more ih hmore

theorem Asked.since (h : Asked u v) (hsent : u.sent = w.sent) (hid : u.transactionId = w.transactionId) : Asked w v :=
  .trans (.same hsent hid) h

theorem Asked.inOrder (h : Asked w v) (hw : InOrder w.sent) : InOrder v.sent := by
  induction h with
  | same hsent _ => rwa [hsent]
  | more _ hmore ih =>
    rw [hmore]
    exact ih.request _

theorem Asked.keepsLast (h : Asked w v) (hw : lastRequest w.sent = some w.transactionId) :
    lastRequest v.sent = some v.transactionId := by
  cases h with
  | same hsent hid => rwa [hsent, hid]
  | more _ hmore => rw [hmore, lastRequest_request]

theorem Asked.successes (h : Asked w v) : v.sent.filterMap Sent.success = w.sent.filterMap Sent.success := by
  induction h with
  | same hsent _ => rw [hsent]
  | more _ hmore ih =>
    rw [hmore, List.filterMap_append, ih]
    exact List.append_nil _

theorem autoMacSend_asks (h : w.autoMacState = .broadcastig) :
    (autoMacSend w).sent = w.sent ++ [.macRequest (autoMacSend w).transactionId] := by
  simp [autoMacSend, h]

theorem automacStart_asks : (automacStart now w).sent = w.sent ++ [.macRequest (automacStart now w).transactionId] :=
  autoMacSend_asks rfl

theorem automacStart_asked : Asked w (automacStart now w) := .more (.refl w) automacStart_asks

theorem restart_asks : (restart now w).sent = w.sent ++ [.macRequest (restart now w).transactionId] := autoMacSend_asks rfl

theorem restart_asked : Asked w (restart now w) := .more (.refl w) restart_asks

theorem StartedAgain.asked (h : StartedAgain w v) : Asked w v := by
  cases h <;> exact .same rfl rfl

theorem TimedOut.asked (h : TimedOut w v) : Asked w v := by
  cases h with
  | ignored _ => exact .refl _
  | silent _ _ _ => exact .same rfl rfl
  | again _ _ _ h => exact h.asked.since rfl rfl
  | retried _ _ => exact .more (.refl _) (autoMacSend_asks rfl)

theorem runTimeHandler_asked : Asked w (runTimeHandler again w) := by
  unfold runTimeHandler
  split
  · exact .refl w
  · exact autoMacTimeout_timedOut.asked.since rfl rfl
  · exact .same rfl rfl

theorem dispatch_asked : Asked w (dispatch ret now w) := by
  unfold dispatch
  split
  · exact restart_asked.since rfl rfl
  · exact .same rfl rfl
  · exact .same rfl rfl
  · exact .same rfl rfl

theorem endIteration_asked : Asked w (endIteration second now w) := by
  unfold endIteration
  split
  · exact netStartAgain_cases.asked.trans dispatch_asked
  · exact dispatch_asked

theorem poll_asked (ctrlc expired : Bool) : Asked w (poll ctrlc expired first second now w) := by
  unfold poll
  split
  · exact .same rfl rfl
  · refine Asked.trans ?_ endIteration_asked
    split
    · exact runTimeHandler_asked
    · exact .refl w

/-- A grant is answered with a success before anything else is sent. -/
theorem grantMac_asked (p : Packet) (now : Nat) :
    ∃ u, Asked u (grantMac p now w) ∧ u.sent = w.sent ++ [.successMac w.transactionId] ∧
      u.transactionId = w.transactionId := by
  refine ⟨{ w with sent := w.sent ++ [.successMac w.transactionId] }, ?_, rfl, rfl⟩
  dsimp only [grantMac]
  split
  · exact .same rfl rfl
  · exact automacStart_asked.since rfl rfl

theorem automacInit_sent (card : Nat) (ticks : UInt32) (fuel : Nat) : (automacInit card ticks fuel w).sent = [] := by
  dsimp only [automacInit]
  split <;> rfl

/-- `net_loop` starts a new conversation. -/
theorem netLoop_asked (card : Nat) (ticks : UInt32) (fuel : Nat) (ethInit : EthInit) (now : Nat) :
    ∃ u, Asked u (netLoop card ticks fuel ethInit now w) ∧ u.sent = [] := by
  refine ⟨automacInit card ticks fuel { w with netRestarted := false, netDevExists := false, netTryCount := 1 }, ?_,
    automacInit_sent card ticks fuel⟩
  dsimp only [netLoop]
  split
  · exact .refl _
  · split
    · exact .same rfl rfl
    · exact restart_asked.since rfl rfl

/-- What an operation makes the client send. -/
inductive Said (w : World) (op : NetOp) : World → Prop
  | asked {v : World} : Asked w v → v.macreceived = w.macreceived → Said w op v
  | began {u v : World} : Asked u v → u.sent = [] → v.macreceived = 0 → Said w op v
  | succeeded {u v : World} : w.inLoop → Asked u v → u.sent = w.sent ++ [.successMac w.transactionId] →
      u.transactionId = w.transactionId → v.macreceived = w.macreceived + 1 → Said w op v

theorem netStep_said (w : World) (op : NetOp) : Said w op (netStep w op) := by
  cases op with
  | doAutomac card =>
    rw [netStep]
    split
    · refine .asked ?_ (congrArg Ledger.macreceived (doAutomac_ledger card))
      unfold doAutomac
      split <;> split <;> exact .same rfl rfl
    · exact .asked (.refl w) rfl
  | netLoop card ticks fuel ethInit now =>
    rw [netStep]
    split
    · obtain ⟨u, hasked, hsent⟩ := netLoop_asked (w := w) card ticks fuel ethInit now
      obtain ⟨env, hledger⟩ := netLoop_ledger (w := w) card ticks fuel ethInit now
      exact .began hasked hsent (congrArg Ledger.macreceived hledger)
    · exact .asked (.refl w) rfl
  | deliver p now =>
    by_cases hgrant : w.grants? p
    · rw [deliver_granted hgrant]
      obtain ⟨u, hasked, hsent, hid⟩ := grantMac_asked (w := { w with phase := .receiving }) p now
      exact .succeeded hgrant.1 hasked hsent hid (congrArg Ledger.macreceived grantMac_ledger)
    · obtain ⟨phase, h, _⟩ := deliver_ungranted now hgrant
      rw [h]
      exact .asked (.same rfl rfl) rfl
  | poll ctrlc expired first second now =>
    rw [netStep]
    split
    · obtain ⟨calls, hledger⟩ := poll_ledger ctrlc expired first second now w
      exact .asked (poll_asked ctrlc expired) (congrArg Ledger.macreceived hledger)
    · exact .asked (.refl w) rfl

/-- The invariant of what the client has sent since the last `automac_init`. -/
structure Conversation (w : World) : Prop where
  inOrder : InOrder w.sent
  successes : (w.sent.filterMap Sent.success).length = w.macreceived
  latest : lastRequest w.sent = some w.transactionId ∨ w.sent = [] ∧ ¬w.inLoop

theorem Asked.latest (h : Asked w v) (hw : w.sent = []) : lastRequest v.sent = some v.transactionId ∨ v.sent = [] := by
  cases h with
  | same hsent _ => exact .inr (hsent.trans hw)
  | more _ hmore => exact .inl (by rw [hmore, lastRequest_request])

theorem Asked.sent_ne_nil (h : Asked w v) (hw : w.sent ≠ []) : v.sent ≠ [] := by
  cases h with
  | same hsent _ => rwa [hsent]
  | more _ hmore => simp [hmore]

/-- In the reception loop a request has been sent. -/
theorem Loops.sent {op : NetOp} (h : Loops w op v) (hw : w.inLoop → w.sent ≠ []) : v.sent ≠ [] := by
  cases h with
  | kept hloop => exact hw hloop
  | entered _ => simp [restart_asks]
  | granted _ =>
    obtain ⟨u, hasked, hsent, -⟩ := grantMac_asked _ _
    exact hasked.sent_ne_nil (by simp [hsent])
  | ungranted hloop => exact hw hloop
  | polled hloop =>
    refine endIteration_asked.sent_ne_nil ?_
    split
    · exact runTimeHandler_asked.sent_ne_nil (hw hloop)
    · exact hw hloop

theorem Conversation.step (h : Conversation w) (op : NetOp) : Conversation (netStep w op) := by
  have hstarted : w.inLoop → w.sent ≠ [] := by
    intro hloop hnil
    rcases h.latest with hlast | ⟨-, hout⟩
    · simp [hnil, lastRequest] at hlast
    · exact hout hloop
  have hnil : (netStep w op).sent = [] → ¬(netStep w op).inLoop := fun hnil hloop =>
    (netStep_loops w op hloop).sent hstarted hnil
  have hsaid := netStep_said w op
  generalize netStep w op = v at hsaid hnil ⊢
  cases hsaid with
  | asked hasked hcount =>
    refine ⟨hasked.inOrder h.inOrder, ?_, ?_⟩
    · rw [hasked.successes, h.successes, hcount]
    · rcases h.latest with hlast | ⟨hsent, -⟩
      · exact .inl (hasked.keepsLast hlast)
      · exact (hasked.latest hsent).imp id fun hv => ⟨hv, hnil hv⟩
  | began hasked hsent hcount =>
    refine ⟨hasked.inOrder (hsent ▸ .nil), ?_, ?_⟩
    · rw [hasked.successes, hsent, hcount]
      rfl
    · exact (hasked.latest hsent).imp id fun hv => ⟨hv, hnil hv⟩
  | succeeded hloop hasked hsent hid hcount =>
    have hlast : lastRequest w.sent = some w.transactionId := h.latest.resolve_right fun hout => hout.2 hloop
    refine ⟨hasked.inOrder ?_, ?_, .inl (hasked.keepsLast ?_)⟩
    · rw [hsent]
      exact h.inOrder.success hlast
    · rw [hasked.successes, hsent, List.filterMap_append, List.length_append, h.successes, hcount]
      rfl
    · rw [hsent, hid, lastRequest_success, hlast]

theorem netRun_conversation (env : Env) (ops : List NetOp) : Conversation (netRun env ops) := by
  apply foldl_history (f := netStep) (Q := fun _ w => Conversation w)
  · exact ⟨.nil, rfl, .inr ⟨rfl, by simp [World.inLoop, bootWorld]⟩⟩
  · intro _ w op h
    exact h.step op

/-- Since the last `automac_init` the client has sent nothing but requests and successes, one success for each
address it has applied, and each success with the id of the last request before it. -/
theorem successes_answer_requests (env : Env) (ops : List NetOp) :
    (∀ earlier later id, (netRun env ops).sent = earlier ++ .successMac id :: later → lastRequest earlier = some id) ∧
      .nothing ∉ (netRun env ops).sent ∧
      ((netRun env ops).sent.filterMap Sent.success).length = (netRun env ops).macreceived ∧
      ((netRun env ops).inLoop → lastRequest (netRun env ops).sent = some (netRun env ops).transactionId) := by
  obtain ⟨horder, hcount, hlatest⟩ := netRun_conversation env ops
  exact ⟨horder.answers, horder.talks, hcount, fun hloop => hlatest.resolve_right fun hout => hout.2 hloop⟩

end NvrxFirmware.Automac
