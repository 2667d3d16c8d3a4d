import Mathlib.Data.List.Basic
import Mathlib.Data.Nat.Bitwise
import Mathlib.Tactic.Common

namespace NvrxFirmware

universe u

variable {α : Type u} {n : Nat} {x y z : α} {xs ys older : List α}

/-- The sample repeated in the most recent window of `n` equal consecutive samples of a
history, which lists the newest sample first. -/
def recentWindow [DecidableEq α] (n : Nat) : List α → Option α
  | [] => none
  | x :: older => if List.replicate n x <+: x :: older then some x else recentWindow n older

/-- A window of `n` samples `x` starts in the history, and none starts in what is newer. -/
def MostRecentWindow (n : Nat) (x : α) (xs : List α) : Prop :=
  ∃ newer older, xs = newer ++ older ∧ List.replicate n x <+: older ∧
    ∀ k < newer.length, ∀ y, ¬List.replicate n y <+: xs.drop k

theorem replicate_prefix_cons (h : List.replicate (n + 1) y <+: x :: older) : y = x := by
  rw [List.replicate_succ] at h
  exact (List.cons_prefix_cons.mp h).1

theorem replicate_prefix_iff : List.replicate n x <+: xs ↔ ∀ i < n, xs[i]? = some x := by
  constructor
  · rintro ⟨ys, rfl⟩ i hi
    rw [List.getElem?_append_left (by simpa using hi)]
    simp [hi]
  · intro h
    rw [List.prefix_iff_eq_take]
    apply List.ext_getElem?
    intro i
    by_cases hi : i < n
    · simp [hi, h i hi]
    · rw [List.length_replicate, List.getElem?_take, if_neg hi, List.getElem?_replicate, if_neg hi]

theorem mostRecentWindow_head {y : α} {ys : List α} (hy : List.replicate (n + 1) y <+: y :: ys) :
    MostRecentWindow (n + 1) x (y :: ys) ↔ y = x := by
  constructor
  · rintro ⟨newer, older, hxs, hwindow, hnewest⟩
    cases newer with
    | nil =>
      rw [List.nil_append] at hxs
      rw [← hxs] at hwindow
      exact (replicate_prefix_cons hwindow).symm
    | cons a newer => exact absurd hy (hnewest 0 (by simp) y)
  · rintro rfl
    refine ⟨[], y :: ys, rfl, hy, ?_⟩
    intro k hk
    exact absurd hk (Nat.not_lt_zero k)

theorem mostRecentWindow_cons {y : α} {ys : List α} (hy : ¬List.replicate (n + 1) y <+: y :: ys) :
    MostRecentWindow (n + 1) x (y :: ys) ↔ MostRecentWindow (n + 1) x ys := by
  constructor
  · rintro ⟨newer, older, hxs, hwindow, hnewest⟩
    cases newer with
    | nil =>
      rw [List.nil_append] at hxs
      rw [← hxs] at hwindow
      have heq := replicate_prefix_cons hwindow
      rw [heq] at hwindow
      exact absurd hwindow hy
    | cons a newer =>
      refine ⟨newer, older, (List.cons.inj hxs).2, hwindow, ?_⟩
      intro k hk b
      exact hnewest (k + 1) (by simpa using hk) b
  · rintro ⟨newer, older, hys, hwindow, hnewest⟩
    refine ⟨y :: newer, older, by rw [hys]; rfl, hwindow, ?_⟩
    intro k hk a
    cases k with
    | zero =>
      intro ha
      have heq := replicate_prefix_cons ha
      rw [heq] at ha
      exact hy ha
    | succ k => exact hnewest k (by simpa using hk) a

section DecidableEq

variable [DecidableEq α]

theorem recentWindow_eq_some_iff : recentWindow (n + 1) xs = some x ↔ MostRecentWindow (n + 1) x xs := by
  induction xs with
  | nil =>
    constructor
    · intro h
      exact absurd h (by simp [recentWindow])
    · rintro ⟨newer, older, hxs, hwindow, _⟩
      obtain ⟨_, rfl⟩ := List.append_eq_nil_iff.mp hxs.symm
      simp at hwindow
  | cons y ys ih =>
    unfold recentWindow
    split
    next hy => rw [mostRecentWindow_head hy, Option.some_inj]
    next hy => rw [mostRecentWindow_cons hy, ih]

theorem recentWindow_eq_none_iff : recentWindow (n + 1) xs = none ↔ ∀ x, ¬List.replicate (n + 1) x <:+: xs := by
  induction xs with
  | nil => simp [recentWindow]
  | cons y ys ih =>
    unfold recentWindow
    split
    next hy =>
      constructor
      · intro h
        exact absurd h (by simp)
      · intro h
        exact absurd hy.isInfix (h y)
    next hy =>
      rw [ih]
      apply forall_congr'
      intro x
      rw [List.infix_cons_iff, not_or, iff_and_self]
      intro _ hx
      have heq := replicate_prefix_cons hx
      rw [heq] at hx
      exact hy hx

theorem recentWindow_of_length (h : xs.length < n + 1) : recentWindow (n + 1) xs = none := by
  rw [recentWindow_eq_none_iff]
  intro x hx
  have hlen := hx.length_le
  rw [List.length_replicate] at hlen
  omega

end DecidableEq

/-- A window that reaches from the samples into the padding repeats the padding. -/
theorem eq_of_replicate_prefix_padded (h : List.replicate (n + 1) x <+: x :: older ++ List.replicate n z)
    (hw : ¬List.replicate (n + 1) x <+: x :: older) :
    older.length < n ∧ x = z ∧ (x :: older).getLast? = some z := by
  rw [replicate_prefix_iff] at h hw
  have hshort : older.length < n := by
    by_contra hlong
    apply hw
    intro i hi
    have hat := h i hi
    rwa [List.getElem?_append_left (by simp; omega)] at hat
  have hpad : x = z := by
    have hat := h (older.length + 1) (by omega)
    rw [List.getElem?_append_right (by simp)] at hat
    simp only [List.length_cons, Nat.sub_self, List.getElem?_replicate] at hat
    rw [if_pos (by omega)] at hat
    exact (Option.some.inj hat).symm
  refine ⟨hshort, hpad, ?_⟩
  have hat := h older.length (by omega)
  rw [List.getElem?_append_left (by simp), hpad] at hat
  rw [List.getLast?_eq_getElem?, ← hat]
  simp [hpad]

/-- A register that starts filled with `z` sees one window more than the samples have: as long
as they have none, a window of the oldest sample and the filling if that sample is `z`. -/
theorem recentWindow_padded [DecidableEq α] : recentWindow (n + 1) (xs ++ List.replicate n z) =
    (recentWindow (n + 1) xs).or (if xs.getLast? = some z then some z else none) := by
  induction xs with
  | nil => simp [recentWindow_of_length]
  | cons x older ih =>
    have hpadded : x :: older ++ List.replicate n z = x :: (older ++ List.replicate n z) := rfl
    rw [hpadded, recentWindow, recentWindow]
    by_cases hw : List.replicate (n + 1) x <+: x :: older
    · have hlong : List.replicate (n + 1) x <+: x :: (older ++ List.replicate n z) :=
        hw.trans (List.prefix_append _ _)
      rw [if_pos hw, if_pos hlong]
      rfl
    · rw [if_neg hw]
      split
      next hp =>
        obtain ⟨hshort, heq, hlast⟩ := eq_of_replicate_prefix_padded hp hw
        rw [recentWindow_of_length (by omega), if_pos hlast, heq]
        rfl
      next hp =>
        rw [ih]
        cases older with
        | nil =>
          have hne : x ≠ z := by
            rintro rfl
            exact hp (List.prefix_refl _)
          simp [hne]
        | cons y older => rfl

/-- The register of a shift of `level` into `v`, as its bits. -/
theorem testBit_shift (v width i : Nat) (level : Bool) : ((v <<< 1 ||| level.toNat) % 2 ^ width).testBit i =
    (decide (i < width) && if i = 0 then level else v.testBit (i - 1)) := by
  rw [Nat.testBit_mod_two_pow, Nat.testBit_or, Nat.testBit_shiftLeft]
  cases i with
  | zero => cases level <;> simp
  | succ i =>
    have hlow : level.toNat.testBit (i + 1) = false := by
      apply Nat.testBit_lt_two_pow
      have hle := Bool.toNat_le level
      have hpow := Nat.one_lt_two_pow (Nat.succ_ne_zero i)
      omega
    simp [hlow]

theorem land_mask_eq_iff (v n : Nat) (level : Bool) :
    v &&& (2 ^ n - 1) = (if level then 2 ^ n - 1 else 0) ↔ ∀ i < n, v.testBit i = level := by
  rw [Nat.and_two_pow_sub_one_eq_mod]
  constructor
  · intro h i hi
    have hbit := congrArg (fun m => m.testBit i) h
    cases level <;> simpa [hi] using hbit
  · intro h
    apply Nat.eq_of_testBit_eq
    intro i
    by_cases hi : i < n
    · cases level <;> simp [hi, h i hi]
    · cases level <;> simp [hi]

end NvrxFirmware
