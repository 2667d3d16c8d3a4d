import Mathlib.Data.List.Basic
import Mathlib.Data.Nat.Find

namespace NvrxFirmware

universe u v

variable {α : Type u} {β : Type v} {stop : α → Prop} {s : Nat → α} {n : Nat}

def before (s : Nat → α) (n : Nat) : List α := (List.range n).map s

@[simp] theorem before_zero (s : Nat → α) : before s 0 = [] := rfl

@[simp] theorem before_length (s : Nat → α) (n : Nat) : (before s n).length = n := by
  simp [before]

theorem before_succ (s : Nat → α) (n : Nat) : before s (n + 1) = s 0 :: before (fun i => s (i + 1)) n := by
  simp [before, List.range_succ_eq_map, Function.comp_def]

theorem before_add (s : Nat → α) (m n : Nat) : before s (m + n) = before s m ++ before (fun i => s (m + i)) n := by
  simp [before, List.range_add, Function.comp_def]

theorem before_congr {t : Nat → α} (h : ∀ i, i < n → s i = t i) : before s n = before t n := by
  apply List.map_congr_left
  intro i hi
  exact h i (List.mem_range.mp hi)

theorem mem_before {a : α} : a ∈ before s n ↔ ∃ i, i < n ∧ s i = a := by
  simp [before]

theorem before_getD (l : List α) (d : α) : before (fun i => l.getD i d) l.length = l := by
  apply List.ext_getElem
  · rw [before_length]
  · intro i hi hi'
    simp [before, List.getElem?_eq_getElem hi']

/-- The stream holds its first stopping symbol at place `n`. -/
structure StopsAt (stop : α → Prop) (s : Nat → α) (n : Nat) : Prop where
  stops : stop (s n)
  goesOn : ∀ i, i < n → ¬stop (s i)

theorem stopsAt_exists_iff : (∃ n, StopsAt stop s n) ↔ ∃ i, stop (s i) := by
  classical
  constructor
  · rintro ⟨n, hn⟩
    exact ⟨n, hn.stops⟩
  · intro h
    exact ⟨Nat.find h, Nat.find_spec h, fun i hi => Nat.find_min h hi⟩

theorem exists_stopsAt_le (s : Nat → α) {i : Nat} (h : stop (s i)) : ∃ n, n ≤ i ∧ StopsAt stop s n := by
  obtain ⟨n, hn⟩ := stopsAt_exists_iff.mpr ⟨i, h⟩
  exact ⟨n, Nat.le_of_not_lt fun hlt => hn.goesOn i hlt h, hn⟩

theorem StopsAt.unique {m : Nat} (hm : StopsAt stop s m) (hn : StopsAt stop s n) : m = n := by
  rcases Nat.lt_trichotomy m n with h | h | h
  · exact absurd hm.stops (hn.goesOn m h)
  · exact h
  · exact absurd hn.stops (hm.goesOn n h)

theorem StopsAt.congr {t : Nat → α} (hs : StopsAt stop s n) (h : ∀ i, i ≤ n → s i = t i) : StopsAt stop t n := by
  constructor
  · rw [← h n (Nat.le_refl n)]
    exact hs.stops
  · intro i hi
    rw [← h i (Nat.le_of_lt hi)]
    exact hs.goesOn i hi

theorem stopsAt_succ_iff : StopsAt stop s (n + 1) ↔ ¬stop (s 0) ∧ StopsAt stop (fun i => s (i + 1)) n := by
  constructor
  · intro h
    exact ⟨h.goesOn 0 (Nat.succ_pos n), h.stops, fun i hi => h.goesOn (i + 1) (Nat.succ_lt_succ hi)⟩
  · rintro ⟨hfirst, hrest⟩
    refine ⟨hrest.stops, fun i hi => ?_⟩
    cases i with
    | zero => exact hfirst
    | succ i => exact hrest.goesOn i (Nat.lt_of_succ_lt_succ hi)

theorem StopsAt.takeWhile [DecidablePred stop] {m : Nat} (hs : StopsAt stop s n) (hm : n < m) :
    (before s m).takeWhile (fun a => ¬stop a) = before s n := by
  have hsplit : before s m = before s n ++ s n :: before (fun i => s (n + (i + 1))) (m - n - 1) := by
    have hlen : m = n + (m - n - 1 + 1) := by omega
    rw [hlen, before_add, before_succ]
    simp
  rw [hsplit, List.takeWhile_append_of_pos]
  · simp [hs.stops]
  · intro a ha
    obtain ⟨i, hi, rfl⟩ := mem_before.mp ha
    simpa using hs.goesOn i hi

/-- A stream that repeats itself stops within its first period or nowhere. -/
theorem StopsAt.lt_period {m : Nat} (hs : StopsAt stop s n) (period : ∀ i, s (i + m) = s i) (hm : 0 < m) : n < m := by
  apply Nat.lt_of_not_le
  intro hle
  have hback : s n = s (n - m) := by
    rw [← period (n - m), Nat.sub_add_cancel hle]
  exact hs.goesOn (n - m) (by omega) (hback ▸ hs.stops)

/-- Reading a stream up to its first stopping symbol, given up after `fuel` symbols. -/
def scan (stop : α → Prop) [DecidablePred stop] (add : β → α → β) : Nat → (Nat → α) → β → Option β
  | 0, _, _ => none
  | fuel + 1, s, acc => if stop (s 0) then some acc else scan stop add fuel (fun i => s (i + 1)) (add acc (s 0))

theorem scan_eq_some_iff [DecidablePred stop] {add : β → α → β} {fuel : Nat} {acc v : β} :
    scan stop add fuel s acc = some v ↔ ∃ n, n < fuel ∧ StopsAt stop s n ∧ (before s n).foldl add acc = v := by
  induction fuel generalizing s acc with
  | zero => simp [scan]
  | succ fuel ih =>
    rw [scan]
    by_cases hstop : stop (s 0)
    · have hzero : StopsAt stop s 0 := ⟨hstop, fun i hi => absurd hi (Nat.not_lt_zero i)⟩
      rw [if_pos hstop]
      constructor
      · intro h
        exact ⟨0, Nat.succ_pos fuel, hzero, Option.some.inj h⟩
      · rintro ⟨n, -, hn, hv⟩
        obtain rfl := hzero.unique hn
        exact congrArg some hv
    · rw [if_neg hstop, ih]
      constructor
      · rintro ⟨n, hlt, hn, hv⟩
        refine ⟨n + 1, Nat.succ_lt_succ hlt, stopsAt_succ_iff.mpr ⟨hstop, hn⟩, ?_⟩
        rw [before_succ]
        exact hv
      · rintro ⟨n, hlt, hn, hv⟩
        cases n with
        | zero => exact absurd hn.stops hstop
        | succ n =>
          rw [before_succ] at hv
          exact ⟨n, Nat.lt_of_succ_lt_succ hlt, (stopsAt_succ_iff.mp hn).2, hv⟩

end NvrxFirmware
