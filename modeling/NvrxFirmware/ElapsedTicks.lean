import NvrxFirmware.TestAppSessions
import Mathlib.Algebra.Group.Nat.Defs
import Mathlib.Tactic.Common

namespace NvrxFirmware

variable {wrap size a b : Nat}

/-- Times that are less than a wrap apart lie in one cycle of the counter or in two that follow each other. -/
theorem counter_cases (hab : a ≤ b) (hlt : b - a < wrap) :
    (a / wrap = b / wrap ∧ b % wrap = a % wrap + (b - a)) ∨
    (b / wrap = a / wrap + 1 ∧ b % wrap + wrap = a % wrap + (b - a)) := by
  have hpos : 0 < wrap := by omega
  have hr := Nat.mod_lt a hpos
  have hb : b = a % wrap + (b - a) + wrap * (a / wrap) := by
    have ha := Nat.mod_add_div a wrap
    omega
  have hmod : b % wrap = (a % wrap + (b - a)) % wrap := by
    conv => lhs; rw [hb, Nat.add_mul_mod_self_left]
  have hdiv : b / wrap = (a % wrap + (b - a)) / wrap + a / wrap := by
    conv => lhs; rw [hb, Nat.add_mul_div_left _ _ hpos]
  by_cases h : a % wrap + (b - a) < wrap
  · left
    rw [hmod, hdiv, Nat.mod_eq_of_lt h, Nat.div_eq_of_lt h, Nat.zero_add]
    exact ⟨rfl, rfl⟩
  · right
    have hone : (a % wrap + (b - a)) / wrap = 1 := Nat.div_eq_of_lt_le (by omega) (by omega)
    have hrest : (a % wrap + (b - a)) % wrap + wrap = a % wrap + (b - a) := by
      rw [Nat.mod_eq_sub_mod (by omega), Nat.mod_eq_of_lt (by omega)]
      omega
    rw [hmod, hdiv, hone, hrest]
    exact ⟨Nat.add_comm _ _, rfl⟩

/-- The difference of two readings of the counter, where the later one can be the smaller one. -/
def counterDiff (wrap tick mark : Nat) : Nat := if tick < mark then tick + (wrap - mark) else tick - mark

theorem counterDiff_eq (hab : a ≤ b) (hlt : b - a < wrap) : counterDiff wrap (b % wrap) (a % wrap) = b - a := by
  have hr := Nat.mod_lt a (show 0 < wrap by omega)
  unfold counterDiff
  obtain ⟨-, h⟩ | ⟨-, h⟩ := counter_cases hab hlt
  · rw [if_neg (by omega)]
    omega
  · rw [if_pos (by omega)]
    omega

/-- A subtraction in words that hold more than the counter counts to gains the difference when the counter
starts again. -/
theorem sub_mod_eq (hab : a ≤ b) (hlt : b - a < wrap) (hsize : wrap ≤ size) :
    (size - a % wrap + b % wrap) % size = if a / wrap = b / wrap then b - a else b - a + (size - wrap) := by
  have hr := Nat.mod_lt a (show 0 < wrap by omega)
  obtain ⟨hq, h⟩ | ⟨hq, h⟩ := counter_cases hab hlt
  · rw [if_pos hq, h, Nat.mod_eq_sub_mod (by omega), Nat.mod_eq_of_lt (by omega)]
    omega
  · rw [if_neg (by omega), Nat.mod_eq_of_lt (by omega)]
    omega

end NvrxFirmware

namespace NvrxFirmware

/-- What `clock_gettime` reads: a monotonic time with its milliseconds in the range of the 64-bit `time_t`. -/
structure Timespec where
  tvSec : Nat
  tvNsec : Nat
  tvNsec_lt : tvNsec < 1000000000
  ms_lt : tvSec * 1000 + tvNsec / 1000000 < 2 ^ 63

def Timespec.ms (timeVal : Timespec) : Nat := timeVal.tvSec * 1000 + timeVal.tvNsec / 1000000

/-- `currMsecCnt` of `GetSysTick`, in the arithmetic of 64-bit words. -/
def currMsecCnt (timeVal : Timespec) : UInt64 :=
  UInt64.ofNat timeVal.tvSec * 1000 + UInt64.ofNat timeVal.tvNsec / 1000000

theorem currMsecCnt_toNat (timeVal : Timespec) : (currMsecCnt timeVal).toNat = timeVal.ms := by
  have hnsec := timeVal.tvNsec_lt
  have hms := timeVal.ms_lt
  unfold currMsecCnt Timespec.ms
  rw [UInt64.toNat_add, UInt64.toNat_mul, UInt64.toNat_div, UInt64.toNat_ofNat', UInt64.toNat_ofNat']
  show (timeVal.tvSec % 2 ^ 64 * 1000 % 2 ^ 64 + timeVal.tvNsec % 2 ^ 64 / 1000000) % 2 ^ 64 = _
  omega

namespace BTClient

/-- `GetAbsTickDiff`. -/
def getAbsTickDiff (tick1 tick2 : UInt32) : UInt32 :=
  if tick1 < tick2 then tick1 + (0xFFFFFFFF - tick2) else tick1 - tick2

/-- `GetSysTick`, which returns the global that it sets; `none` is a failing `clock_gettime`. -/
def getSysTick (clock : Option Timespec) (sysTick : UInt32) : UInt32 :=
  match clock with
  | some timeVal => (currMsecCnt timeVal % 0xFFFFFFFF).toUInt32
  | none => sysTick

/-- `ElapsedTick`, with the `sysTick` that it leaves. -/
def elapsedTick (clock : Option Timespec) (markTick sysTick : UInt32) : UInt32 × UInt32 :=
  let sysTick := getSysTick clock sysTick
  (getAbsTickDiff sysTick markTick, sysTick)

end BTClient

namespace TestApp

/-- `ElapsedTick`, which spells `GetAbsTickDiff` out. -/
def elapsedTick (clock : Option Nat) (markTick : UInt32) (s : AppState) : UInt32 × AppState :=
  let (_, s) := getSysTick clock s
  (if s.sysTick < markTick then s.sysTick + (0xFFFFFFFF - markTick) else s.sysTick - markTick, s)

/-- The milliseconds of a reading of the clock. -/
def readClock (timeVal : Timespec) : Option Nat := some (currMsecCnt timeVal).toNat

end TestApp

variable {timeA timeB : Timespec}

theorem getAbsTickDiff_toNat (tick1 tick2 : UInt32) :
    (BTClient.getAbsTickDiff tick1 tick2).toNat = counterDiff 0xFFFFFFFF tick1.toNat tick2.toNat := by
  have h1 := tick1.toNat_lt
  have h2 := tick2.toNat_lt
  have hmax : (0xFFFFFFFF : UInt32).toNat = 0xFFFFFFFF := rfl
  unfold BTClient.getAbsTickDiff counterDiff
  split
  next h =>
    rw [UInt32.lt_iff_toNat_lt] at h
    rw [if_pos h, UInt32.toNat_add, UInt32.toNat_sub, hmax]
    omega
  next h =>
    rw [UInt32.lt_iff_toNat_lt] at h
    rw [if_neg h, UInt32.toNat_sub]
    omega

theorem btClient_getSysTick_toNat (timeVal : Timespec) (sysTick : UInt32) :
    (BTClient.getSysTick (some timeVal) sysTick).toNat = timeVal.ms % 0xFFFFFFFF := by
  have hlt := Nat.mod_lt timeVal.ms (show 0 < 0xFFFFFFFF by decide)
  show (currMsecCnt timeVal % 0xFFFFFFFF).toNat % 2 ^ 32 = _
  rw [UInt64.toNat_mod, currMsecCnt_toNat]
  show timeVal.ms % 0xFFFFFFFF % 2 ^ 32 = _
  omega

theorem testApp_getSysTick_toNat (timeVal : Timespec) (s : TestApp.AppState) :
    (TestApp.getSysTick (TestApp.readClock timeVal) s).1.toNat = timeVal.ms % 0xFFFFFFFF := by
  have hlt := Nat.mod_lt timeVal.ms (show 0 < 0xFFFFFFFF by decide)
  show (UInt32.ofNat ((currMsecCnt timeVal).toNat % 0xFFFFFFFF)).toNat = _
  rw [currMsecCnt_toNat, UInt32.toNat_ofNat']
  omega

theorem testApp_elapsedTick_fst (clock : Option Nat) (markTick : UInt32) (s : TestApp.AppState) :
    (TestApp.elapsedTick clock markTick s).1 =
      BTClient.getAbsTickDiff (TestApp.getSysTick clock s).1 markTick := by
  cases clock <;> rfl

/-- The sum that the branch for a started-again counter computes has room in 32 bits. -/
def SumFits (tick mark : UInt32) : Prop := tick < mark → tick.toNat + (0xFFFFFFFF - mark.toNat) < 2 ^ 32

theorem sumFits (tick mark : UInt32) : SumFits tick mark := by
  intro h
  have hmark := mark.toNat_lt
  rw [UInt32.lt_iff_toNat_lt] at h
  omega

/-- Both programs measure times that are less than a wrap of the tick apart exactly, whatever they read in between. -/
theorem elapsedTick_exact (hab : timeA.ms ≤ timeB.ms) (hlt : timeB.ms - timeA.ms < 0xFFFFFFFF) :
    (∀ sysTick sysTick' : UInt32,
      let markTick := BTClient.getSysTick (some timeA) sysTick
      let elapsed := BTClient.elapsedTick (some timeB) markTick sysTick'
      elapsed.1.toNat = timeB.ms - timeA.ms ∧ SumFits elapsed.2 markTick ∧
        markTick.toNat = timeA.ms % 0xFFFFFFFF ∧ elapsed.2.toNat = timeB.ms % 0xFFFFFFFF) ∧
    (∀ s s' : TestApp.AppState,
      let markTick := (TestApp.getSysTick (TestApp.readClock timeA) s).1
      let elapsed := TestApp.elapsedTick (TestApp.readClock timeB) markTick s'
      elapsed.1.toNat = timeB.ms - timeA.ms ∧ SumFits elapsed.2.sysTick markTick ∧
        markTick.toNat = timeA.ms % 0xFFFFFFFF ∧ elapsed.2.sysTick.toNat = timeB.ms % 0xFFFFFFFF) := by
  constructor
  · intro sysTick sysTick'
    refine ⟨?_, sumFits _ _, btClient_getSysTick_toNat timeA sysTick, btClient_getSysTick_toNat timeB sysTick'⟩
    show (BTClient.getAbsTickDiff _ _).toNat = _
    rw [getAbsTickDiff_toNat, btClient_getSysTick_toNat, btClient_getSysTick_toNat, counterDiff_eq hab hlt]
  · intro s s'
    refine ⟨?_, sumFits _ _, testApp_getSysTick_toNat timeA s, testApp_getSysTick_toNat timeB s'⟩
    show (TestApp.elapsedTick _ _ _).1.toNat = _
    rw [testApp_elapsedTick_fst, getAbsTickDiff_toNat, testApp_getSysTick_toNat, testApp_getSysTick_toNat,
      counterDiff_eq hab hlt]

/-- One minute before and one minute after the tick has started again for the first time. -/
theorem elapsedTick_exact_of_two_minutes : ∃ timeA timeB : Timespec, timeB.ms - timeA.ms = 120000 ∧
    (BTClient.elapsedTick (some timeB) (BTClient.getSysTick (some timeA) 0) 0).1.toNat = timeB.ms - timeA.ms := by
  refine ⟨⟨4294907, 295000000, by decide, by decide⟩, ⟨4295027, 295000000, by decide, by decide⟩, rfl, ?_⟩
  exact ((elapsedTick_exact (by decide) (by decide)).1 0 0).1

namespace TestApp

variable {s₀ s : AppState}

/-- The difference that `main` compares with its timers. -/
def sinceMark (clock : Option Nat) (s : AppState) : UInt32 := (getSysTick clock s).1 - s.prevSysTick

/-- The milliseconds after which `main` closes a session, or advertises again. -/
def timeout (s : AppState) : Nat := if s.btConnected then (sessionTimer s).toNat else 10000

theorem timeout_le_of_mem_calls {clock₁ clock₂ : Option Nat} {result : Int} {call : Call}
    (h : call ∈ (checkTimers clock₁ clock₂ result s).2) : timeout s ≤ (sinceMark clock₁ s).toNat := by
  have htick (v : UInt32) : (getSysTick clock₁ { s with btTimerValue := v }).1 = (getSysTick clock₁ s).1 := by
    cases clock₁ <;> rfl
  have hkept (v : UInt32) : (getSysTick clock₁ { s with btTimerValue := v }).2.btTimerValue = v ∧
      (getSysTick clock₁ { s with btTimerValue := v }).2.prevSysTick = s.prevSysTick := by
    cases clock₁ <;> exact ⟨rfl, rfl⟩
  have hmark : (getSysTick clock₁ s).2.prevSysTick = s.prevSysTick := by
    cases clock₁ <;> rfl
  unfold checkTimers at h
  split at h
  next hconnected =>
    dsimp only at h
    rw [htick, (hkept _).1, (hkept _).2] at h
    split at h
    next hdue =>
      rw [timeout, if_pos hconnected]
      exact UInt32.le_iff_toNat_le.mp hdue
    next => cases h
  next hconnected =>
    split at h
    next =>
      dsimp only at h
      rw [hmark] at h
      split at h
      next hdue =>
        rw [timeout, if_neg hconnected]
        exact UInt32.le_iff_toNat_le.mp hdue
      next => cases h
    next => cases h

/-- The difference gains a millisecond when the tick has started again since the mark. -/
theorem sinceMark_toNat (hab : timeA.ms ≤ timeB.ms) (hlt : timeB.ms - timeA.ms < 0xFFFFFFFF)
    (hmark : s.prevSysTick = (getSysTick (readClock timeA) s₀).1) :
    (sinceMark (readClock timeB) s).toNat =
      if timeA.ms / 0xFFFFFFFF = timeB.ms / 0xFFFFFFFF then timeB.ms - timeA.ms else timeB.ms - timeA.ms + 1 := by
  rw [sinceMark, UInt32.toNat_sub, hmark, testApp_getSysTick_toNat, testApp_getSysTick_toNat]
  exact sub_mod_eq hab hlt (by decide)

/-- The difference is the one that `ElapsedTick` computes, the true one, and nothing times out before it is due. -/
def TimerAgrees (timeA timeB : Timespec) (s : AppState) : Prop :=
  sinceMark (readClock timeB) s = (elapsedTick (readClock timeB) s.prevSysTick s).1 ∧
    (sinceMark (readClock timeB) s).toNat = timeB.ms - timeA.ms ∧
    ∀ clock₂ result, ∀ call ∈ (checkTimers (readClock timeB) clock₂ result s).2, timeout s ≤ timeB.ms - timeA.ms

/-- The timers of `main` are right as long as the tick has not started again since the mark. -/
theorem timerAgrees_iff (hab : timeA.ms ≤ timeB.ms) (hlt : timeB.ms - timeA.ms < 0xFFFFFFFF)
    (hmark : s.prevSysTick = (getSysTick (readClock timeA) s₀).1) :
    TimerAgrees timeA timeB s ↔ timeA.ms / 0xFFFFFFFF = timeB.ms / 0xFFFFFFFF := by
  have hsince := sinceMark_toNat hab hlt hmark
  constructor
  · rintro ⟨-, htrue, -⟩
    rw [htrue] at hsince
    by_contra hwrap
    rw [if_neg hwrap] at hsince
    omega
  · intro hcycle
    rw [if_pos hcycle] at hsince
    refine ⟨?_, hsince, ?_⟩
    · apply UInt32.toNat_inj.mp
      rw [hsince, testApp_elapsedTick_fst, getAbsTickDiff_toNat, hmark, testApp_getSysTick_toNat,
        testApp_getSysTick_toNat, counterDiff_eq hab hlt]
    · intro clock₂ result call hcall
      rw [← hsince]
      exact timeout_le_of_mem_calls hcall

/-- The state of a connection with the mark taken at the time. -/
def connectedAt (timeVal : Timespec) : AppState :=
  { bootState 0 fun _ _ => 0 with btConnected := true, prevSysTick := tickOf timeVal.ms }

theorem connectedAt_marked (timeVal : Timespec) (s : AppState) :
    (connectedAt timeVal).prevSysTick = (getSysTick (readClock timeVal) s).1 := by
  show tickOf timeVal.ms = tickOf (currMsecCnt timeVal).toNat
  rw [currMsecCnt_toNat]

theorem timerAgrees_iff_of_ten_seconds : ∃ timeA timeB : Timespec,
    (TimerAgrees timeA timeB (connectedAt timeA) ↔ timeA.ms / 0xFFFFFFFF = timeB.ms / 0xFFFFFFFF) ∧
      timeA.ms = 10000 ∧ timeB.ms = 20000 := by
  refine ⟨⟨10, 0, by decide, by decide⟩, ⟨20, 0, by decide, by decide⟩, ?_, rfl, rfl⟩
  exact timerAgrees_iff (by decide) (by decide) (connectedAt_marked _ (bootState 0 fun _ _ => 0))

/-- A session that is closed a millisecond early. -/
theorem session_closed_early : ∃ timeA timeB : Timespec, timeB.ms - timeA.ms = 9999 ∧
    (connectedAt timeA).prevSysTick = (getSysTick (readClock timeA) (connectedAt timeA)).1 ∧
    (elapsedTick (readClock timeB) (connectedAt timeA).prevSysTick (connectedAt timeA)).1 = 9999 ∧
    sinceMark (readClock timeB) (connectedAt timeA) = 10000 ∧ timeout (connectedAt timeA) = 10000 ∧
    (checkTimers (readClock timeB) (readClock timeB) 0 (connectedAt timeA)).2 = [.disconnectRemoteDevice 0] ∧
    ¬ TimerAgrees timeA timeB (connectedAt timeA) := by
  refine ⟨⟨4294967, 290000000, by decide, by decide⟩, ⟨4294977, 289000000, by decide, by decide⟩, rfl,
    connectedAt_marked _ _, by decide, by decide, by decide, by decide, ?_⟩
  rintro ⟨-, htrue, -⟩
  exact absurd htrue (by decide)

end TestApp

end NvrxFirmware
