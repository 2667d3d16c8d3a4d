import NvrxFirmware.GpioResetPulses

namespace NvrxFirmware.MxGpio

variable {op : DriverOp} {line : ResetLine}

/-- The lines that calls have been made for. -/
def resetRequests (ops : List ResetOp) : List ResetLine :=
  ops.filterMap fun
    | .request op => resetRequest op
    | .advance _ => none

/-- A call that does not wait moves on, whatever else it does. -/
theorem advance_moves (s : Resets) (call : Nat) (c : ResetCall) :
    s.advance call c = s ∨
      ∃ (t : Resets) (phase : ResetPhase), s.advance call c = t.goTo call phase ∧ t.calls = s.calls := by
  unfold Resets.advance
  split
  · split
    · exact .inl rfl
    · exact .inr ⟨{ s with locked := Function.update s.locked c.line true }, _, rfl, rfl⟩
  · exact .inr ⟨s, _, rfl, rfl⟩
  · exact .inr ⟨s.drive c, _, rfl, rfl⟩
  · exact .inr ⟨s.drive c, _, rfl, rfl⟩
  · exact .inr ⟨{ s with
      driver := { s.driver with resetDone := Function.update s.driver.resetDone c.line true } }, _, rfl, rfl⟩
  · exact .inr ⟨{ s with
      locked := if c.mutex then Function.update s.locked c.line false else s.locked }, _, rfl, rfl⟩
  · exact .inl rfl

theorem advance_lines (s : Resets) (call : Nat) (c : ResetCall) :
    (s.advance call c).calls.map ResetCall.line = s.calls.map ResetCall.line := by
  obtain hsame | ⟨t, phase, hnext, ht⟩ := advance_moves s call c
  · rw [hsame]
  · rw [hnext, ← ht]
    refine List.ext_getElem? fun other => ?_
    rw [Resets.goTo, List.getElem?_map, List.getElem?_map, List.getElem?_modify]
    cases t.calls[other]? with
    | none => rfl
    | some c => by_cases h : call = other <;> simp [h]

theorem resetsRun_lines (gpio : Nat → Bool) (ops : List ResetOp) :
    (resetsRun gpio ops).calls.map ResetCall.line = resetRequests ops := by
  refine foldl_history (f := resetsStep) (s := resetsInit gpio)
    (Q := fun history s => s.calls.map ResetCall.line = resetRequests history) rfl (fun history s op hlines => ?_) ops
  rw [resetRequests, List.filterMap_append, ← resetRequests, ← hlines]
  cases op with
  | request op =>
    rw [resetsStep]
    cases hop : resetRequest op with
    | none => simp [hop]
    | some line => simp [hop]
  | advance call =>
    rw [resetsStep]
    cases s.calls[call]? with
    | none => simp
    | some c => simp [advance_lines]

/-- The flag is set once a call has been through, and by a call only. -/
structure FlagFollows (line : ResetLine) (s : Resets) : Prop where
  left : ∀ c ∈ s.calls, c.line = line → (c.phase = .leaves ∨ c.phase = .returned) → s.driver.resetDone line = true
  made : s.driver.resetDone line = true → line ∈ s.calls.map ResetCall.line

theorem mem_goTo {s : Resets} {call : Nat} {c c' : ResetCall} (h : s.calls[call]? = some c) {phase : ResetPhase}
    (hc' : c' ∈ (s.goTo call phase).calls) : c' ∈ s.calls ∨ c' = { c with phase := phase } := by
  obtain ⟨other, hother⟩ := List.mem_iff_getElem?.mp hc'
  rw [Resets.goTo, List.getElem?_modify] at hother
  by_cases hcall : call = other
  · subst hcall
    simp only [h, if_true, Option.map_eq_map, Option.map_some, Option.some.injEq] at hother
    exact .inr hother.symm
  · simp only [hcall, if_false, id_map'] at hother
    exact .inl (List.mem_of_getElem? hother)

theorem advance_flag (s : Resets) (call : Nat) (c : ResetCall) :
    (s.advance call c).driver.resetDone = s.driver.resetDone ∨
      c.phase = .pulses .setsFlag ∧
        (s.advance call c).driver.resetDone = Function.update s.driver.resetDone c.line true := by
  unfold Resets.advance
  split
  · split <;> exact .inl rfl
  all_goals first | exact .inl rfl | exact .inr ⟨‹_›, rfl⟩

/-- A call that has just been through knows that the flag is set. -/
theorem advance_passed {s : Resets} {call : Nat} {c c' : ResetCall} (h : s.calls[call]? = some c)
    (hc' : c' ∈ (s.advance call c).calls) (hphase : c'.phase = .leaves ∨ c'.phase = .returned) :
    c' ∈ s.calls ∨ c'.line = c.line ∧ (c.phase = .leaves ∨ (s.advance call c).driver.resetDone c.line = true) := by
  have hmoved {t : Resets} {phase : ResetPhase} (ht : t.calls = s.calls) (hmem : c' ∈ (t.goTo call phase).calls) :
      c' ∈ s.calls ∨ c' = { c with phase := phase } := by
    rw [← ht] at h ⊢
    exact mem_goTo h hmem
  unfold Resets.advance at hc' ⊢
  split at hc'
  · split at hc'
    · exact .inl hc'
    · obtain hold | rfl := hmoved rfl hc'
      · exact .inl hold
      · simp at hphase
  next htests =>
    obtain hold | rfl := hmoved rfl hc'
    · exact .inl hold
    · cases hdone : s.driver.resetDone c.line with
      | true => exact .inr ⟨rfl, .inr hdone⟩
      | false => simp [hdone] at hphase
  next =>
    obtain hold | rfl := hmoved (t := s.drive c) rfl hc'
    · exact .inl hold
    · simp at hphase
  next =>
    obtain hold | rfl := hmoved (t := s.drive c) rfl hc'
    · exact .inl hold
    · simp at hphase
  next =>
    obtain hold | rfl := hmoved rfl hc'
    · exact .inl hold
    · exact .inr ⟨rfl, .inr (Function.update_self _ _ _)⟩
  next hleaves =>
    obtain hold | rfl := hmoved rfl hc'
    · exact .inl hold
    · exact .inr ⟨rfl, .inl hleaves⟩
  next => exact .inl hc'

theorem FlagFollows.advance {s : Resets} {call : Nat} {c : ResetCall} (hs : FlagFollows line s)
    (h : s.calls[call]? = some c) : FlagFollows line (s.advance call c) := by
  have hmem := List.mem_of_getElem? h
  have hkeep (hdone : s.driver.resetDone line = true) : (s.advance call c).driver.resetDone line = true := by
    obtain hsame | ⟨-, hset⟩ := advance_flag s call c
    · rw [hsame]
      exact hdone
    · rw [hset]
      by_cases hline : line = c.line
      · rw [hline, Function.update_self]
      · rw [Function.update_of_ne hline]
        exact hdone
  refine ⟨fun c' hc' hline hphase => ?_, fun hdone => ?_⟩
  · obtain hold | ⟨hsame, hleaves | hdone⟩ := advance_passed h hc' hphase
    · exact hkeep (hs.left c' hold hline hphase)
    · exact hkeep (hs.left c hmem (hsame.symm.trans hline) (.inl hleaves))
    · rwa [← hsame, hline] at hdone
  · rw [advance_lines]
    obtain hsame | ⟨-, hset⟩ := advance_flag s call c
    · rw [hsame] at hdone
      exact hs.made hdone
    · by_cases hline : line = c.line
      · exact hline ▸ List.mem_map_of_mem hmem
      · rw [hset, Function.update_of_ne hline] at hdone
        exact hs.made hdone

theorem resetsRun_flag (gpio : Nat → Bool) (ops : List ResetOp) (line : ResetLine) :
    FlagFollows line (resetsRun gpio ops) := by
  refine foldl_history (f := resetsStep) (s := resetsInit gpio) (Q := fun _ s => FlagFollows line s)
    ⟨nofun, nofun⟩ (fun _ s op hs => ?_) ops
  cases op with
  | request op =>
    rw [resetsStep]
    cases hop : resetRequest op with
    | none =>
      have hother : resetRequest op ≠ some line := by simp [hop]
      obtain ⟨-, hdone⟩ := driverStep_reset_other (d := s.driver) hother
      exact ⟨by rw [hdone]; exact hs.left, by rw [hdone]; exact hs.made⟩
    | some other =>
      refine ⟨fun c hc hline hphase => ?_, fun hdone => ?_⟩
      · obtain hold | hnew := List.mem_append.mp hc
        · exact hs.left c hold hline hphase
        · rw [List.mem_singleton.mp hnew] at hphase
          dsimp only at hphase
          split at hphase <;> simp at hphase
      · rw [List.map_append]
        exact List.mem_append_left _ (hs.made hdone)
  | advance call =>
    rw [resetsStep]
    cases hcall : s.calls[call]? with
    | none => exact hs
    | some c => exact hs.advance hcall

/-- The call is between the lock of the mutex and its return. -/
def insideOn (line : ResetLine) (c : ResetCall) : Option Unit :=
  if c.line = line ∧ c.phase ≠ .locks ∧ c.phase ≠ .returned then some () else none

/-- The mutex is held by the one call that is inside. -/
structure Exclusive (line : ResetLine) (s : Resets) : Prop where
  mutex : ∀ c ∈ s.calls, c.line = line → c.mutex = true
  holder : s.locked line = true → ∃ call, s.view (insideOn line) = Function.update (fun _ => none) call (some ())
  free : s.locked line = false → s.view (insideOn line) = fun _ => none

theorem insideOn_other {c : ResetCall} (h : c.line ≠ line) : insideOn line c = none := if_neg fun hinside => h hinside.1

theorem insideOn_inside {c : ResetCall} (hline : c.line = line) (hlocks : c.phase ≠ .locks)
    (hreturned : c.phase ≠ .returned) : insideOn line c = some () := if_pos ⟨hline, hlocks, hreturned⟩

theorem advance_mutex {s : Resets} {call : Nat} {c c' : ResetCall} (h : s.calls[call]? = some c)
    (hc' : c' ∈ (s.advance call c).calls) : c' ∈ s.calls ∨ c'.line = c.line ∧ c'.mutex = c.mutex := by
  obtain hsame | ⟨t, phase, hnext, ht⟩ := advance_moves s call c
  · rw [hsame] at hc'
    exact .inl hc'
  · rw [hnext] at hc'
    rw [← ht] at h ⊢
    obtain hold | rfl := mem_goTo h hc'
    · exact .inl hold
    · exact .inr ⟨rfl, rfl⟩

theorem advance_other_mutex {s : Resets} {call : Nat} {c : ResetCall} (h : s.calls[call]? = some c)
    (hline : c.line ≠ line) :
    (s.advance call c).view (insideOn line) = s.view (insideOn line) ∧ (s.advance call c).locked line = s.locked line := by
  have hview {t : Resets} {phase : ResetPhase} (ht : t.calls = s.calls) :
      (t.goTo call phase).view (insideOn line) = s.view (insideOn line) :=
    view_goTo_keeps h ht ((insideOn_other (c := { c with phase := phase }) hline).trans (insideOn_other hline).symm)
  have hlocked (b : Bool) : Function.update s.locked c.line b line = s.locked line :=
    Function.update_of_ne hline.symm _ _
  unfold Resets.advance
  split
  · split
    · exact ⟨rfl, rfl⟩
    · exact ⟨hview rfl, hlocked true⟩
  next => exact ⟨hview rfl, rfl⟩
  next => exact ⟨hview (t := s.drive c) rfl, rfl⟩
  next => exact ⟨hview (t := s.drive c) rfl, rfl⟩
  next => exact ⟨hview rfl, rfl⟩
  next =>
    refine ⟨hview rfl, ?_⟩
    dsimp only
    split
    · exact hlocked false
    · rfl
  next => exact ⟨rfl, rfl⟩

theorem Exclusive.same {s t : Resets} (hs : Exclusive line s)
    (hmutex : ∀ c ∈ t.calls, c.line = line → c.mutex = true)
    (hsame : t.view (insideOn line) = s.view (insideOn line) ∧ t.locked line = s.locked line) : Exclusive line t := by
  obtain ⟨hview, hlocked⟩ := hsame
  refine ⟨hmutex, ?_, ?_⟩
  · rw [hview, hlocked]
    exact hs.holder
  · rw [hview, hlocked]
    exact hs.free

theorem Exclusive.mutex_advance {s : Resets} {call : Nat} {c : ResetCall} (hs : Exclusive line s)
    (h : s.calls[call]? = some c) : ∀ c' ∈ (s.advance call c).calls, c'.line = line → c'.mutex = true := by
  intro c' hc' hline
  obtain hold | ⟨hsame, hmutex⟩ := advance_mutex h hc'
  · exact hs.mutex c' hold hline
  · rw [hmutex]
    exact hs.mutex c (List.mem_of_getElem? h) (hsame.symm.trans hline)

/-- A call that waits for the mutex is let in if no other call is inside. -/
theorem Exclusive.locks {s : Resets} {call : Nat} {c : ResetCall} (hs : Exclusive c.line s)
    (h : s.calls[call]? = some c) (hphase : c.phase = .locks) : Exclusive c.line (s.advance call c) := by
  cases hlocked : s.locked c.line with
  | true =>
    have hnext : s.advance call c = s := by
      rw [Resets.advance, hphase]
      exact if_pos hlocked
    rw [hnext]
    exact hs
  | false =>
    have hnext : s.advance call c = { s.goTo call .tests with locked := Function.update s.locked c.line true } := by
      rw [Resets.advance, hphase]
      exact if_neg (by rw [hlocked]; exact Bool.false_ne_true)
    have hview : (s.advance call c).view (insideOn c.line) = Function.update (fun _ => none) call (some ()) := by
      rw [hnext]
      refine (view_goTo (t := s) h rfl .tests).trans ?_
      rw [hs.free hlocked, insideOn_inside (c := { c with phase := .tests }) rfl (by simp) (by simp)]
    have hheld : (s.advance call c).locked c.line = true := by
      rw [hnext]
      exact Function.update_self _ _ _
    exact ⟨hs.mutex_advance h, fun _ => ⟨call, hview⟩,
      fun hfree => (Bool.false_ne_true (hfree.symm.trans hheld)).elim⟩

/-- A call inside that does not leave stays inside. -/
theorem advance_stays {s : Resets} {call : Nat} {c : ResetCall} (h : s.calls[call]? = some c)
    (hphase : c.phase = .tests ∨ ∃ pulse, c.phase = .pulses pulse) :
    (s.advance call c).view (insideOn c.line) = s.view (insideOn c.line) ∧
      (s.advance call c).locked c.line = s.locked c.line := by
  have hlocks : c.phase ≠ .locks := by
    intro hlocks
    simp [hlocks] at hphase
  have hreturned : c.phase ≠ .returned := by
    intro hreturned
    simp [hreturned] at hphase
  have hstays {t : Resets} {phase : ResetPhase} (ht : t.calls = s.calls) (hlocks' : phase ≠ .locks)
      (hreturned' : phase ≠ .returned) : (t.goTo call phase).view (insideOn c.line) = s.view (insideOn c.line) :=
    view_goTo_keeps h ht ((insideOn_inside (c := { c with phase := phase }) rfl hlocks' hreturned').trans
      (insideOn_inside rfl hlocks hreturned).symm)
  obtain htests | ⟨pulse, hpulse⟩ := hphase
  · rw [Resets.advance, htests]
    refine ⟨hstays rfl ?_ ?_, rfl⟩ <;> split <;> decide
  · rw [Resets.advance, hpulse]
    cases pulse with
    | drivesLow | drivesHigh => exact ⟨hstays (t := s.drive c) rfl (by decide) (by decide), rfl⟩
    | setsFlag => exact ⟨hstays rfl (by decide) (by decide), rfl⟩

/-- The call that leaves is the holder, and nobody is inside after it. -/
theorem Exclusive.leaves {s : Resets} {call : Nat} {c : ResetCall} (hs : Exclusive c.line s)
    (h : s.calls[call]? = some c) (hphase : c.phase = .leaves) : Exclusive c.line (s.advance call c) := by
  have hinside : s.view (insideOn c.line) call = some () :=
    (view_call h).trans (insideOn_inside rfl (by rw [hphase]; decide) (by rw [hphase]; decide))
  have hheld : s.locked c.line = true := by
    by_contra hfree
    rw [hs.free (Bool.eq_false_iff.mpr hfree)] at hinside
    cases hinside
  obtain ⟨holder, hholder⟩ := hs.holder hheld
  have hcall : call = holder := by
    by_contra hne
    rw [hholder, Function.update_of_ne hne] at hinside
    cases hinside
  have hview : (s.advance call c).view (insideOn c.line) = fun _ => none := by
    rw [Resets.advance, hphase]
    refine (view_goTo (t := s) h rfl .returned).trans ?_
    rw [hholder, ← hcall, Function.update_idem]
    exact Function.update_eq_self_iff.mpr (if_neg fun hin => hin.2.2 rfl)
  have hfree : (s.advance call c).locked c.line = false := by
    rw [Resets.advance, hphase]
    dsimp only
    rw [hs.mutex c (List.mem_of_getElem? h) rfl, if_pos rfl, Function.update_self]
  exact ⟨hs.mutex_advance h, fun hlocked => (Bool.false_ne_true (hfree.symm.trans hlocked)).elim, fun _ => hview⟩

theorem Exclusive.advance {s : Resets} {call : Nat} {c : ResetCall} (hs : Exclusive line s)
    (h : s.calls[call]? = some c) : Exclusive line (s.advance call c) := by
  by_cases hline : c.line = line
  · subst hline
    cases hphase : c.phase with
    | locks => exact hs.locks h hphase
    | tests => exact hs.same (hs.mutex_advance h) (advance_stays h (.inl hphase))
    | pulses pulse => exact hs.same (hs.mutex_advance h) (advance_stays h (.inr ⟨pulse, hphase⟩))
    | leaves => exact hs.leaves h hphase
    | returned =>
      have hnext : s.advance call c = s := by rw [Resets.advance, hphase]
      rw [hnext]
      exact hs
  · exact hs.same (hs.mutex_advance h) (advance_other_mutex h hline)

/-- All calls for the line are made through its attribute. -/
def AttributeOnly (line : ResetLine) (ops : List ResetOp) : Prop :=
  ∀ op, .request op ∈ ops → resetRequest op = some line → locksMutex op = true

theorem Exclusive.request {s : Resets} (hs : Exclusive line s) {op : DriverOp}
    (hop : resetRequest op = some line → locksMutex op = true) : Exclusive line (resetsStep s (.request op)) := by
  rw [resetsStep]
  cases hrequest : resetRequest op with
  | none => exact ⟨hs.mutex, hs.holder, hs.free⟩
  | some other =>
    dsimp only
    have hview : Resets.view (insideOn line) { s with calls := s.calls ++
        [⟨other, locksMutex op, if locksMutex op then .locks else .tests⟩] } = s.view (insideOn line) := by
      refine view_concat rfl (if_neg fun hinside => ?_)
      obtain ⟨hline, hlocks, -⟩ := hinside
      rw [hrequest] at hop
      exact hlocks (if_pos (hop (congrArg some hline)))
    refine ⟨fun c hc hline => ?_, ?_, ?_⟩
    · obtain hold | hnew := List.mem_append.mp hc
      · exact hs.mutex c hold hline
      · rw [List.mem_singleton.mp hnew] at hline ⊢
        exact hop (hrequest.trans (congrArg some hline))
    · rw [hview]
      exact hs.holder
    · rw [hview]
      exact hs.free

theorem Exclusive.not_overtakes {s : Resets} (hs : Exclusive line s) (op : ResetOp) : ¬ Overtakes line s op := by
  intro hover
  cases op with
  | request op => exact hover
  | advance call =>
    obtain ⟨-, ⟨c, hc, hpulse⟩, tester, htester, hline, htests⟩ := hover
    obtain ⟨other, hother⟩ := List.mem_iff_getElem?.mp hc
    obtain ⟨pulse, hpulse⟩ := Option.isSome_iff_exists.mp hpulse
    have hpulses := pulseOn_eq_some hpulse
    have hcaller : s.view (insideOn line) call = some () :=
      (view_call htester).trans (insideOn_inside hline (by rw [htests]; decide) (by rw [htests]; decide))
    have hpulser : s.view (insideOn line) other = some () :=
      (view_call hother).trans (insideOn_inside hpulses.1 (by rw [hpulses.2]; nofun) (by rw [hpulses.2]; nofun))
    have hheld : s.locked line = true := by
      by_contra hfree
      rw [hs.free (Bool.eq_false_iff.mpr hfree)] at hcaller
      cases hcaller
    obtain ⟨holder, hholder⟩ := hs.holder hheld
    have honly {inside : Nat} (hinside : s.view (insideOn line) inside = some ()) : inside = holder := by
      by_contra hne
      rw [hholder, Function.update_of_ne hne] at hinside
      cases hinside
    have hsame : tester = c := by
      rw [Option.mem_def, honly hcaller, ← honly hpulser, hother] at htester
      exact (Option.some.inj htester).symm
    rw [hsame, hpulses.2] at htests
    cases htests

/-- The mutex keeps the calls that are made through the attribute from overtaking each other. -/
theorem attributeOnly_along (gpio : Nat → Bool) {ops : List ResetOp} (h : AttributeOnly line ops) :
    Along resetsStep (fun s op => ¬ Overtakes line s op) (resetsInit gpio) ops := by
  suffices hboth : Exclusive line (resetsRun gpio ops) ∧
      Along resetsStep (fun s op => ¬ Overtakes line s op) (resetsInit gpio) ops from hboth.2
  induction ops using List.reverseRecOn with
  | nil => exact ⟨⟨nofun, nofun, fun _ => rfl⟩, trivial⟩
  | append_singleton ops op ih =>
    obtain ⟨hs, along⟩ := ih fun op hop => h op (List.mem_append_left _ hop)
    rw [Along.concat_iff, resetsRun, List.foldl_append, ← resetsRun, List.foldl_cons, List.foldl_nil]
    refine ⟨?_, along, hs.not_overtakes op⟩
    cases op with
    | request op => exact hs.request (h op (by simp))
    | advance call =>
      rw [resetsStep]
      cases hcall : (resetsRun gpio ops).calls[call]? with
      | none => exact hs
      | some c => exact hs.advance hcall

theorem modify_last {α : Type} (xs : List α) (x : α) (f : α → α) : (xs ++ [x]).modify xs.length f = xs ++ [f x] := by
  induction xs with
  | nil => rfl
  | cons a xs ih => simp [ih]

/-- The call made last is the only one to go on. -/
theorem resetsStep_last (driver : Driver) (locked : ResetLine → Bool) (cs : List ResetCall) (c : ResetCall) :
    resetsStep ⟨driver, locked, cs ++ [c]⟩ (.advance cs.length) =
      Resets.advance ⟨driver, locked, cs ++ [c]⟩ cs.length c := by
  rw [resetsStep]
  simp

theorem goTo_last (driver : Driver) (locked : ResetLine → Bool) (cs : List ResetCall) (c : ResetCall)
    (phase : ResetPhase) : Resets.goTo ⟨driver, locked, cs ++ [c]⟩ cs.length phase =
      ⟨driver, locked, cs ++ [{ c with phase := phase }]⟩ := by
  rw [Resets.goTo, modify_last]

/-- A call that nothing comes between does what `powerOnOff` does at once. -/
theorem call_alone {s : Resets} (hop : resetRequest op = some line) (hfree : s.locked line = false) :
    (.request op :: List.replicate 6 (.advance s.calls.length)).foldl resetsStep s =
      ⟨driverStep s.driver op, s.locked, s.calls ++ [⟨line, locksMutex op, .returned⟩]⟩ := by
  obtain ⟨driver, locked, cs⟩ := s
  change locked line = false at hfree
  have hrequest : resetsStep ⟨driver, locked, cs⟩ (.request op) =
      ⟨driver, locked, cs ++ [⟨line, locksMutex op, if locksMutex op then .locks else .tests⟩]⟩ := by
    rw [resetsStep, hop]
  have hunlocked : Function.update (Function.update locked line true) line false = locked := by
    rw [Function.update_idem, ← hfree, Function.update_eq_self]
  rw [driverStep_reset hop, List.foldl_cons, hrequest]
  cases hdone : driver.resetDone line with
  | true =>
    have hkept : (powerOnOff line 0 driver).2 = driver := by
      have hset : Function.update driver.resetDone line true = driver.resetDone := by
        rw [← hdone, Function.update_eq_self]
      rw [powerOnOff, resetWrites, if_neg (by rw [hdone]; decide), hset]
      rfl
    rw [hkept]
    cases locksMutex op <;>
      simp only [List.replicate, List.foldl_cons, List.foldl_nil, resetsStep_last, Resets.advance, goTo_last, hdone,
        hfree, if_true, if_false, Bool.false_eq_true, Bool.true_eq_false, hunlocked]
  | false =>
    have hpulsed : (powerOnOff line 0 driver).2 =
        { driver with
          drv := (driver.drv.write [(resetPin line, false)]).write [(resetPin line, true)]
          resetDone := Function.update driver.resetDone line true } := by
      rw [powerOnOff, resetWrites, if_pos hdone]
      rfl
    rw [hpulsed]
    cases locksMutex op <;>
      simp only [List.replicate, List.foldl_cons, List.foldl_nil, resetsStep_last, Resets.advance, goTo_last, hdone,
        hfree, if_true, if_false, Bool.false_eq_true, hunlocked, Resets.drive] <;> rfl

/-- No call for the line is under way. -/
def Idle (line : ResetLine) (s : Resets) : Prop := ∀ c ∈ s.calls, c.line = line → c.phase = .returned

theorem Idle.quiet {s : Resets} (h : Idle line s) (call : Nat) : (lineState line s).pulse call = none := by
  by_contra hcall
  obtain ⟨pulse, hpulse⟩ := Option.ne_none_iff_exists'.mp hcall
  obtain ⟨c, hc, hon⟩ := Option.bind_eq_some_iff.mp hpulse
  obtain ⟨hline, hphase⟩ := pulseOn_eq_some hon
  rw [h c (List.mem_of_getElem? hc) hline] at hphase
  cases hphase

/-- Calls that reset a line may come between each other's steps. The line is low during a pulse only. Once no call for
it is under way, its first request has pulsed it and no other one has, exactly if no call has tested the flag while
another was pulsing the line, which the attribute's mutex sees to as far as the attribute alone is used. A call that
nothing comes between is one step of the driver. -/
theorem reset_line_pulsed_once (gpio : Nat → Bool) (ops : List ResetOp) (line : ResetLine) :
    ((resetsRun gpio ops).driver.drv.gpio (resetPin line) = false →
        ∃ c ∈ (resetsRun gpio ops).calls, c.line = line ∧ c.phase = .pulses .drivesHigh) ∧
      (Idle line (resetsRun gpio ops) →
        (outputs resetsStep (resetLevels line) (resetsInit gpio) ops =
            (if line ∈ resetRequests ops then [false, true] else []) ↔
          Along resetsStep (fun s op => ¬ Overtakes line s op) (resetsInit gpio) ops)) ∧
      (AttributeOnly line ops → Along resetsStep (fun s op => ¬ Overtakes line s op) (resetsInit gpio) ops) ∧
      ∀ op, resetRequest op = some line → (resetsRun gpio ops).locked line = false →
        (.request op :: List.replicate 6 (.advance (resetsRun gpio ops).calls.length)).foldl resetsStep
            (resetsRun gpio ops) =
          ⟨driverStep (resetsRun gpio ops).driver op, (resetsRun gpio ops).locked,
            (resetsRun gpio ops).calls ++ [⟨line, locksMutex op, .returned⟩]⟩ := by
  refine ⟨fun hlow => ?_, fun hidle => ?_, attributeOnly_along gpio, fun op hop hfree => call_alone hop hfree⟩
  · obtain ⟨call, hcall⟩ := resetsRun_lowHeld gpio ops line hlow
    obtain ⟨c, hc, hpulse⟩ := Option.bind_eq_some_iff.mp hcall
    exact ⟨c, List.mem_of_getElem? hc, pulseOn_eq_some hpulse⟩
  · have hdone : (lineState line (resetsRun gpio ops)).done = true ↔ line ∈ resetRequests ops := by
      have hflag := resetsRun_flag gpio ops line
      rw [← resetsRun_lines gpio ops]
      refine ⟨hflag.made, fun hmem => ?_⟩
      obtain ⟨c, hc, hline⟩ := List.mem_map.mp hmem
      exact hflag.left c hc hline (.inr (hidle c hc hline))
    obtain ⟨along, honce⟩ | ⟨hnot, htwice⟩ := resetsRun_pulses gpio ops line
    · refine iff_of_true ?_ along
      rw [honce.levels_of_quiet hidle.quiet]
      exact if_congr hdone rfl rfl
    · refine iff_of_false (fun hlevels => ?_) hnot
      have hlows := htwice.lows_of_quiet hidle.quiet
      rw [hlevels] at hlows
      split at hlows <;> simp at hlows

/-- Two requests by `GpioIoctl`, each of which tests the flag before the other has set it. -/
def twoRequests : List ResetOp :=
  [.request (.gpioIoctl .setClrPhy (some 1)), .request (.gpioIoctl .setClrPhy (some 1)), .advance 0, .advance 0,
    .advance 1, .advance 0, .advance 1, .advance 0, .advance 0, .advance 1, .advance 1, .advance 1]

theorem reset_line_pulsed_once_of_twoRequests :
    outputs resetsStep (resetLevels .phy) (resetsInit fun _ => false) twoRequests = [false, true, false, true] ∧
      ¬ Along resetsStep (fun s op => ¬ Overtakes .phy s op) (resetsInit fun _ => false) twoRequests := by
  have hlevels : outputs resetsStep (resetLevels .phy) (resetsInit fun _ => false) twoRequests =
      [false, true, false, true] := by decide
  refine ⟨hlevels, fun along => ?_⟩
  have honce := ((reset_line_pulsed_once (fun _ => false) twoRequests .phy).2.1 (by unfold Idle; decide)).mpr along
  rw [hlevels] at honce
  revert honce
  decide

end NvrxFirmware.MxGpio
