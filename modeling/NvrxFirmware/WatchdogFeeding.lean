import NvrxFirmware.WatchdogModel
import Mathlib.Data.List.Basic
import Mathlib.Tactic.Common

namespace NvrxFirmware

universe u

variable {α : Type u} {p : α → Bool} {xs : List α} {a : α}

/-- The part of a history after the last event that satisfies `p`. -/
def sinceLast (p : α → Bool) (xs : List α) : List α := (xs.reverse.takeWhile fun x => !p x).reverse

theorem sinceLast_concat_of_pos (h : p a = true) : sinceLast p (xs ++ [a]) = [] := by
  simp [sinceLast, h]

theorem sinceLast_concat_of_neg (h : p a = false) : sinceLast p (xs ++ [a]) = sinceLast p xs ++ [a] := by
  simp [sinceLast, h]

theorem splitOnP_concat_of_pos (h : p a = true) : (xs ++ [a]).splitOnP p = xs.splitOnP p ++ [[]] := by
  induction xs with
  | nil => simp [List.splitOnP_cons_eq_if_modifyHead, h]
  | cons x xs ih =>
    rw [List.cons_append, List.splitOnP_cons_eq_if_modifyHead, List.splitOnP_cons_eq_if_modifyHead, ih]
    split
    · rfl
    · cases hs : xs.splitOnP p with
      | nil => exact absurd hs (List.splitOnP_ne_nil p xs)
      | cons s rest => rfl

theorem splitOnP_concat_of_neg (xs : List α) (h : p a = false) : ∃ earlier last,
    xs.splitOnP p = earlier ++ [last] ∧ (xs ++ [a]).splitOnP p = earlier ++ [last ++ [a]] := by
  induction xs with
  | nil => exact ⟨[], [], rfl, by simp [List.splitOnP_cons_eq_if_modifyHead, h]⟩
  | cons x xs ih =>
    obtain ⟨earlier, last, hxs, hcat⟩ := ih
    rw [List.cons_append, List.splitOnP_cons_eq_if_modifyHead, List.splitOnP_cons_eq_if_modifyHead, hxs, hcat]
    split
    · exact ⟨[] :: earlier, last, rfl, rfl⟩
    · cases earlier with
      | nil => exact ⟨[], x :: last, rfl, rfl⟩
      | cons s rest => exact ⟨(x :: s) :: rest, last, rfl, rfl⟩

end NvrxFirmware

namespace NvrxFirmware.Watchdog

variable {s : WdtState} {history : List WdtOp} {op : WdtOp}

def isOpen (op : WdtOp) : Bool := op = .watchdogOpen

def isFeed (op : WdtOp) : Bool := op = .watchdogOpen ∨ op = .watchdogIoctl ioctlWatchdogToggle

/-- The numbers of ticks between the feeds since the most recent open; the
last entry counts those since the last feed. -/
def feedGaps (history : List WdtOp) : List Nat :=
  ((sinceLast isOpen history).splitOnP isFeed).map (List.count WdtOp.wdtTasklet)

/-- No feed since the most recent open came late, and the next one is not late yet. -/
def Fed (history : List WdtOp) : Prop := ∀ gap ∈ feedGaps history, gap < watchdogTimeout

instance (history : List WdtOp) : Decidable (Fed history) := inferInstanceAs (Decidable (∀ gap ∈ feedGaps history, _))

theorem feedGaps_open : feedGaps (history ++ [.watchdogOpen]) = [0] := by
  rw [feedGaps, sinceLast_concat_of_pos (by decide)]
  rfl

theorem feedGaps_toggle : feedGaps (history ++ [.watchdogIoctl ioctlWatchdogToggle]) = feedGaps history ++ [0] := by
  rw [feedGaps, sinceLast_concat_of_neg (by decide), splitOnP_concat_of_pos (by decide)]
  simp [feedGaps]

theorem feedGaps_other (history : List WdtOp) (h : isFeed op = false) :
    ∃ earlier current, feedGaps history = earlier ++ [current] ∧
      feedGaps (history ++ [op]) = earlier ++ [current + [op].count .wdtTasklet] := by
  have hopen : isOpen op = false := by
    cases op with
    | watchdogOpen => exact h
    | _ => rfl
  obtain ⟨earlier, last, hxs, hcat⟩ := splitOnP_concat_of_neg (sinceLast isOpen history) h
  refine ⟨earlier.map (List.count .wdtTasklet), last.count .wdtTasklet, by simp [feedGaps, hxs], ?_⟩
  rw [feedGaps, sinceLast_concat_of_neg hopen, hcat]
  simp

theorem not_fed_concat (h : ¬Fed history) (hop : op ≠ .watchdogOpen) : ¬Fed (history ++ [op]) := by
  by_cases hfeed : isFeed op = true
  · have htoggle : op = .watchdogIoctl ioctlWatchdogToggle := by simpa [isFeed, hop] using hfeed
    intro hfed
    rw [Fed, htoggle, feedGaps_toggle] at hfed
    apply h
    intro gap hgap
    exact hfed gap (List.mem_append_left _ hgap)
  · obtain ⟨earlier, current, hbefore, hafter⟩ := feedGaps_other history (by simpa using hfeed)
    intro hfed
    rw [Fed, hafter, List.forall_mem_append, List.forall_mem_singleton] at hfed
    obtain ⟨hearlier, hlast⟩ := hfed
    apply h
    rw [Fed, hbefore, List.forall_mem_append, List.forall_mem_singleton]
    exact ⟨hearlier, by omega⟩

structure Ticked (s t : WdtState) : Prop where
  timer : t.wdtTimer = s.isSystemRunning
  status : t.wdtPinStatus = (s.wdtPinStatus ^^ s.isSystemRunning)
  pin : t.gpio wdtKickPin = if s.isSystemRunning then !s.wdtPinStatus else s.gpio wdtKickPin
  running : t.isSystemRunning = (s.isSystemRunning && s.wdtTimeOutCount != 1)
  count : t.wdtTimeOutCount = if s.wdtTimeOutCount = 1 then watchdogTimeout else s.wdtTimeOutCount - 1

theorem kickIfRunning_gpio : (kickIfRunning s).gpio wdtKickPin =
    if s.isSystemRunning then !s.wdtPinStatus else s.gpio wdtKickPin := by
  unfold kickIfRunning gpioSetValue
  cases s.isSystemRunning <;> cases s.wdtPinStatus <;> simp

theorem kickIfRunning_rest : (kickIfRunning s).isSystemRunning = s.isSystemRunning ∧
    (kickIfRunning s).wdtTimeOutCount = s.wdtTimeOutCount ∧
    (kickIfRunning s).wdtPinStatus = (s.wdtPinStatus ^^ s.isSystemRunning) ∧
    (kickIfRunning s).wdtTimer = (s.wdtTimer || s.isSystemRunning) := by
  unfold kickIfRunning gpioSetValue
  cases hrun : s.isSystemRunning <;> cases hpin : s.wdtPinStatus <;> simp [hrun, hpin]

theorem wdtTasklet_ticked (h : 0 < s.wdtTimeOutCount) : Ticked s (wdtTasklet s) := by
  obtain ⟨hrun, hcount, hstatus, htimer⟩ := kickIfRunning_rest (s := { s with wdtTimer := false })
  have hpin := kickIfRunning_gpio (s := { s with wdtTimer := false })
  have hcounting : (kickIfRunning { s with wdtTimer := false }).wdtTimeOutCount ≠ 0 := by
    rw [hcount]
    exact Nat.ne_of_gt h
  unfold wdtTasklet countDown
  rw [if_pos hcounting]
  by_cases hone : s.wdtTimeOutCount = 1
  · have hexpired : (kickIfRunning { s with wdtTimer := false }).wdtTimeOutCount - 1 = 0 := by
      rw [hcount, hone]
    rw [if_pos hexpired]
    exact ⟨htimer, hstatus, hpin, by simp [hone], by simp [hone]⟩
  · have hmore : ¬(kickIfRunning { s with wdtTimer := false }).wdtTimeOutCount - 1 = 0 := by
      rw [hcount]
      dsimp only
      omega
    rw [if_neg hmore]
    exact ⟨htimer, hstatus, hpin, by simp [hrun, hone], by simp [hcount, hone]⟩

structure Feeding (history : List WdtOp) (s : WdtState) : Prop where
  unopened : .watchdogOpen ∉ history → s.wdtTimer = false
  running : .watchdogOpen ∈ history → (s.isSystemRunning = true ↔ Fed history)
  count_pos : .watchdogOpen ∈ history → 0 < s.wdtTimeOutCount
  count_le : s.wdtTimeOutCount ≤ watchdogTimeout
  gap : .watchdogOpen ∈ history → s.isSystemRunning = true →
    (feedGaps history).getLast? = some (watchdogTimeout - s.wdtTimeOutCount)
  pin : .watchdogOpen ∈ history → s.gpio wdtKickPin = s.wdtPinStatus

theorem mem_concat_of_ne {a b : WdtOp} (history : List WdtOp) (h : a ≠ b) : a ∈ history ++ [b] ↔ a ∈ history := by
  simp [h]

theorem watchdogOpen_feeding : Feeding (history ++ [.watchdogOpen]) (watchdogOpen s).2 where
  unopened h := absurd (List.mem_append_right _ List.mem_cons_self) h
  running _ := by simp [watchdogOpen, wdtInit, gpioSetValue, Fed, feedGaps_open, watchdogTimeout]
  count_pos _ := by simp [watchdogOpen, wdtInit, gpioSetValue, watchdogTimeout]
  count_le := Nat.le_refl _
  gap _ _ := by simp [watchdogOpen, wdtInit, gpioSetValue, feedGaps_open]
  pin _ := by simp [watchdogOpen, wdtInit, gpioSetValue]

theorem toggle_feeding (h : Feeding history s) :
    Feeding (history ++ [.watchdogIoctl ioctlWatchdogToggle]) { s with wdtTimeOutCount := watchdogTimeout } := by
  have hne : WdtOp.watchdogOpen ≠ .watchdogIoctl ioctlWatchdogToggle := by simp
  have hmem := mem_concat_of_ne history hne
  have hpos : 0 < watchdogTimeout := by decide
  constructor
  · intro hn
    exact h.unopened (mt hmem.mpr hn)
  · intro hm
    rw [h.running (hmem.mp hm), Fed, Fed, feedGaps_toggle, List.forall_mem_append, List.forall_mem_singleton]
    simp [hpos]
  · intro _
    exact hpos
  · exact Nat.le_refl _
  · intro _ _
    rw [feedGaps_toggle, List.getLast?_concat, Nat.sub_self]
  · intro hm
    exact h.pin (hmem.mp hm)

theorem idle_feeding (h : Feeding history s) (hfeed : isFeed op = false) (htick : op ≠ .wdtTasklet) :
    Feeding (history ++ [op]) s := by
  have hne : WdtOp.watchdogOpen ≠ op := by
    rintro rfl
    exact absurd hfeed (by decide)
  have hmem := mem_concat_of_ne history hne
  obtain ⟨earlier, current, hbefore, hafter⟩ := feedGaps_other history hfeed
  have hsame : feedGaps (history ++ [op]) = feedGaps history := by
    rw [hafter, hbefore, List.count_singleton, if_neg (by simpa using htick), Nat.add_zero]
  constructor
  · intro hn
    exact h.unopened (mt hmem.mpr hn)
  · intro hm
    rw [Fed, hsame]
    exact h.running (hmem.mp hm)
  · intro hm
    exact h.count_pos (hmem.mp hm)
  · exact h.count_le
  · intro hm
    rw [hsame]
    exact h.gap (hmem.mp hm)
  · intro hm
    exact h.pin (hmem.mp hm)

theorem Feeding.opened (h : Feeding history s) (armed : s.wdtTimer = true) : .watchdogOpen ∈ history := by
  by_contra hn
  simp [h.unopened hn] at armed

theorem tasklet_feeding (h : Feeding history s) (armed : s.wdtTimer = true) :
    Feeding (history ++ [.wdtTasklet]) (wdtTasklet s) := by
  have hopen := h.opened armed
  have hcount := h.count_pos hopen
  have hle := h.count_le
  have ticked := wdtTasklet_ticked hcount
  obtain ⟨earlier, current, hbefore, hafter⟩ := feedGaps_other history (show isFeed .wdtTasklet = false by decide)
  have hcurrent : s.isSystemRunning = true → current + s.wdtTimeOutCount = watchdogTimeout := by
    intro hrun
    have hgap := h.gap hopen hrun
    rw [hbefore, List.getLast?_concat] at hgap
    have hcount := Option.some.inj hgap
    omega
  have hone : [WdtOp.wdtTasklet].count .wdtTasklet = 1 := rfl
  rw [hone] at hafter
  constructor
  · intro hn
    exact absurd (List.mem_append_left _ hopen) hn
  · intro _
    rw [Fed, hafter, List.forall_mem_append, List.forall_mem_singleton, ticked.running]
    have hrun := h.running hopen
    rw [Fed, hbefore, List.forall_mem_append, List.forall_mem_singleton] at hrun
    constructor
    · intro hboth
      simp only [Bool.and_eq_true, bne_iff_ne] at hboth
      obtain ⟨hrunning, hmore⟩ := hboth
      have hsum := hcurrent hrunning
      exact ⟨(hrun.mp hrunning).1, by omega⟩
    · intro hfed
      obtain ⟨hearlier, hlt⟩ := hfed
      have hrunning := hrun.mpr ⟨hearlier, by omega⟩
      have hsum := hcurrent hrunning
      simp only [Bool.and_eq_true, bne_iff_ne]
      exact ⟨hrunning, by omega⟩
  · intro _
    rw [ticked.count]
    split
    · decide
    · omega
  · rw [ticked.count]
    split <;> omega
  · intro _ hrun
    rw [ticked.running] at hrun
    simp only [Bool.and_eq_true, bne_iff_ne] at hrun
    obtain ⟨hrunning, hmore⟩ := hrun
    have hsum := hcurrent hrunning
    rw [hafter, List.getLast?_concat, ticked.count, if_neg hmore]
    congr 1
    omega
  · intro _
    rw [ticked.pin, ticked.status, h.pin hopen]
    cases s.isSystemRunning <;> cases s.wdtPinStatus <;> rfl

theorem wdtStep_feeding (h : Feeding history s) (possible : CanOccur s op) :
    Feeding (history ++ [op]) (wdtStep s op) := by
  cases op with
  | watchdogOpen => exact watchdogOpen_feeding
  | watchdogIoctl cmd =>
    by_cases hcmd : cmd = ioctlWatchdogToggle
    · subst hcmd
      exact toggle_feeding h
    · have hidle : isFeed (.watchdogIoctl cmd) = false := by simpa [isFeed] using hcmd
      simp only [wdtStep, watchdogIoctl, if_neg hcmd]
      exact idle_feeding h hidle (by simp)
  | wdtClose => exact idle_feeding h (by decide) (by simp)
  | wdtTasklet => exact tasklet_feeding h (possible rfl)

theorem wdtRun_feeding (gpio : Nat → Bool) (ops : List WdtOp)
    (possible : Along wdtStep CanOccur (watchdogInit gpio) ops) : Feeding ops (wdtRun gpio ops) := by
  apply possible.history (Q := Feeding)
  · have hnone : WdtOp.watchdogOpen ∉ [] := List.not_mem_nil
    exact ⟨fun _ => rfl, fun h => absurd h hnone, fun h => absurd h hnone, Nat.zero_le _,
      fun h => absurd h hnone, fun h => absurd h hnone⟩
  · intro past op h hp
    exact wdtStep_feeding h hp

theorem Feeding.tick (h : Feeding history s) (armed : s.wdtTimer = true) :
    ((wdtTasklet s).gpio wdtKickPin ≠ s.gpio wdtKickPin ↔ Fed history) ∧
      ((wdtTasklet s).wdtTimer = true ↔ Fed history) := by
  have hopen := h.opened armed
  have ticked := wdtTasklet_ticked (h.count_pos hopen)
  rw [ticked.timer, ticked.pin, h.pin hopen, ← h.running hopen]
  cases s.isSystemRunning <;> simp

/-- After a missed feed at most one more tick runs, and it kicks nothing, until the next open. -/
theorem starved_rest (gpio : Nat → Bool) {before rest : List WdtOp}
    (possible : Along wdtStep CanOccur (watchdogInit gpio) (before ++ rest)) (starved : ¬Fed before)
    (unopened : .watchdogOpen ∉ rest) :
    ¬Fed (before ++ rest) ∧ (wdtRun gpio (before ++ rest)).gpio wdtKickPin = (wdtRun gpio before).gpio wdtKickPin ∧
      rest.count .wdtTasklet ≤ 1 ∧
      (rest.count .wdtTasklet = 1 → (wdtRun gpio (before ++ rest)).wdtTimer = false) := by
  induction rest using List.reverseRecOn with
  | nil => simpa using starved
  | append_singleton rest op ih =>
    rw [← List.append_assoc] at possible ⊢
    obtain ⟨hprev, hcan⟩ := Along.concat_iff.mp possible
    have hunopened : .watchdogOpen ∉ rest := mt (List.mem_append_left _) unopened
    obtain ⟨hstarved, hpin, hcount, htimer⟩ := ih hprev hunopened
    have hop : op ≠ .watchdogOpen := by
      rintro rfl
      simp at unopened
    have hrun : wdtRun gpio (before ++ rest ++ [op]) = wdtStep (wdtRun gpio (before ++ rest)) op := by
      simp [wdtRun, List.foldl_append]
    have hfeeding := wdtRun_feeding gpio _ hprev
    refine ⟨not_fed_concat hstarved hop, ?_⟩
    rw [hrun, ← hpin, List.count_append]
    cases op with
    | watchdogOpen => exact absurd rfl hop
    | watchdogIoctl cmd =>
      by_cases hcmd : cmd = ioctlWatchdogToggle <;>
        simpa [wdtStep, watchdogIoctl, hcmd] using ⟨hcount, htimer⟩
    | wdtClose => simpa [wdtStep, wdtClose] using ⟨hcount, htimer⟩
    | wdtTasklet =>
      have armed : (wdtRun gpio (before ++ rest)).wdtTimer = true := hcan rfl
      have hnone : rest.count .wdtTasklet = 0 := by
        by_contra hsome
        have hoff := htimer (by omega)
        simp [hoff] at armed
      obtain ⟨hkick, hrearm⟩ := hfeeding.tick armed
      have hnokick := mt hkick.mp hstarved
      have hnotimer := mt hrearm.mp hstarved
      have hone : [WdtOp.wdtTasklet].count .wdtTasklet = 1 := rfl
      refine ⟨by simpa [wdtStep] using hnokick, by omega, ?_⟩
      intro _
      simpa [wdtStep] using hnotimer

structure FeedingLaw (gpio : Nat → Bool) (ops : List WdtOp) : Prop where
  kicks : ∀ before rest, ops = before ++ .wdtTasklet :: rest →
    ((wdtRun gpio (before ++ [.wdtTasklet])).gpio wdtKickPin ≠ (wdtRun gpio before).gpio wdtKickPin ↔ Fed before) ∧
      ((wdtRun gpio (before ++ [.wdtTasklet])).wdtTimer = true ↔ Fed before)
  starves : ∀ before rest, ops = before ++ rest → (∃ gap ∈ feedGaps before, watchdogTimeout ≤ gap) →
    .watchdogOpen ∉ rest → rest.count .wdtTasklet ≤ 1 ∧ ∀ upto, upto <+: rest →
      (wdtRun gpio (before ++ upto)).gpio wdtKickPin = (wdtRun gpio before).gpio wdtKickPin

theorem watchdog_feeding_law (gpio : Nat → Bool) (ops : List WdtOp)
    (possible : Along wdtStep CanOccur (watchdogInit gpio) ops) : FeedingLaw gpio ops := by
  constructor
  · rintro before rest rfl
    obtain ⟨hbefore, hcan, _⟩ := Along.append_iff.mp possible
    have hstep : wdtRun gpio (before ++ [.wdtTasklet]) = wdtTasklet (wdtRun gpio before) := by
      simp [wdtRun, List.foldl_append, wdtStep]
    have hfeeding := wdtRun_feeding gpio before hbefore
    rw [hstep]
    exact hfeeding.tick (hcan rfl)
  · rintro before rest rfl ⟨gap, hgap, hlate⟩ unopened
    have starved : ¬Fed before := by
      intro hfed
      have hlt := hfed gap hgap
      omega
    obtain ⟨_, _, hcount, _⟩ := starved_rest gpio possible starved unopened
    refine ⟨hcount, ?_⟩
    rintro upto ⟨later, rfl⟩
    rw [← List.append_assoc] at possible
    obtain ⟨hupto, _⟩ := Along.append_iff.mp possible
    have hunopened : .watchdogOpen ∉ upto := mt (List.mem_append_left _) unopened
    obtain ⟨_, hpin, _, _⟩ := starved_rest gpio hupto starved hunopened
    exact hpin

theorem watchdog_feeding_law_opened : FeedingLaw (fun _ => false)
    [.watchdogOpen, .wdtTasklet, .watchdogIoctl ioctlWatchdogToggle, .wdtTasklet, .wdtClose, .wdtTasklet] :=
  watchdog_feeding_law _ _ (by decide)

end NvrxFirmware.Watchdog
