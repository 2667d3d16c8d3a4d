import Mathlib.Data.Finset.Erase
import Mathlib.Data.Finset.Insert
import Mathlib.Tactic.Common

namespace NvrxFirmware

universe u

variable {ρ : Type u} [DecidableEq ρ]

/-- What a program holds, and what it has released without holding it. -/
structure Holdings (ρ : Type u) where
  held : Finset ρ
  stray : List ρ

def Holdings.empty : Holdings ρ := ⟨∅, []⟩

def Holdings.acquire (h : Holdings ρ) (r : ρ) : Holdings ρ := { h with held := insert r h.held }

def Holdings.release (h : Holdings ρ) (r : ρ) : Holdings ρ :=
  if r ∈ h.held then { h with held := h.held.erase r } else { h with stray := r :: h.stray }

theorem acquires_stray (h : Holdings ρ) (rs : List ρ) : (rs.foldl Holdings.acquire h).stray = h.stray := by
  induction rs generalizing h with
  | nil => rfl
  | cons r rs ih =>
    rw [List.foldl_cons, ih]
    rfl

theorem mem_acquires {h : Holdings ρ} {rs : List ρ} {r : ρ} :
    r ∈ (rs.foldl Holdings.acquire h).held ↔ r ∈ rs ∨ r ∈ h.held := by
  induction rs generalizing h with
  | nil => simp
  | cons a rs ih =>
    rw [List.foldl_cons, ih]
    simp only [Holdings.acquire, Finset.mem_insert, List.mem_cons]
    tauto

theorem release_held (h : Holdings ρ) (r : ρ) : (h.release r).held = h.held.erase r := by
  unfold Holdings.release
  split
  next => rfl
  next hr => exact (Finset.erase_eq_of_notMem hr).symm

theorem mem_releases {h : Holdings ρ} {rs : List ρ} {r : ρ} :
    r ∈ (rs.foldl Holdings.release h).held ↔ r ∉ rs ∧ r ∈ h.held := by
  induction rs generalizing h with
  | nil => simp
  | cons a rs ih =>
    rw [List.foldl_cons, ih, release_held, Finset.mem_erase, List.mem_cons]
    tauto

theorem release_clean {h : Holdings ρ} {r : ρ} : (h.release r).stray = [] ↔ h.stray = [] ∧ r ∈ h.held := by
  unfold Holdings.release
  split
  next hr => simp [hr]
  next hr => simp [hr]

/-- Releases of different things go astray only where one of them is not held. -/
theorem releases_clean {h : Holdings ρ} {rs : List ρ} (distinct : rs.Nodup) :
    (rs.foldl Holdings.release h).stray = [] ↔ h.stray = [] ∧ ∀ r ∈ rs, r ∈ h.held := by
  induction rs generalizing h with
  | nil => simp
  | cons a rs ih =>
    obtain ⟨hnew, hrest⟩ := List.nodup_cons.mp distinct
    rw [List.foldl_cons, ih hrest, release_clean, release_held, List.forall_mem_cons]
    have hsame : (∀ r ∈ rs, r ∈ h.held.erase a) ↔ ∀ r ∈ rs, r ∈ h.held := by
      apply forall_congr'
      intro r
      apply imp_congr_right
      intro hr
      have hne : r ≠ a := by
        rintro rfl
        exact hnew hr
      simp [hne]
    rw [hsame, and_assoc]

end NvrxFirmware
