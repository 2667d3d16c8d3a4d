import Mathlib.Data.List.Basic

namespace NvrxFirmware

universe u v

variable {α : Type u} {β : Type v}

section Joining

variable (sep : α)

theorem length_joined (gs : List (List α)) (h : gs ≠ []) :
    ([sep].intercalate gs).length = gs.flatten.length + (gs.length - 1) := by
  induction gs with
  | nil => exact absurd rfl h
  | cons g gs ih =>
    cases gs with
    | nil => simp
    | cons g' gs =>
      rw [List.intercalate_cons_cons, List.length_append, List.length_append, ih (List.cons_ne_nil _ _)]
      simp only [List.flatten_cons, List.length_append, List.length_cons, List.length_nil]
      omega

theorem joined_concat (gs : List (List α)) (h : gs ≠ []) (g : List α) :
    [sep].intercalate (gs ++ [g]) = [sep].intercalate gs ++ sep :: g := by
  induction gs with
  | nil => exact absurd rfl h
  | cons first gs ih =>
    cases gs with
    | nil => simp
    | cons g' gs =>
      rw [List.cons_append, List.cons_append, List.intercalate_cons_cons, ← List.cons_append, ih (List.cons_ne_nil _ _),
        List.intercalate_cons_cons]
      simp only [List.append_assoc]

/-- Joined groups read backwards are the groups, each read backwards, from the last to the first. -/
theorem reverse_joined (gs : List (List α)) :
    ([sep].intercalate gs).reverse = [sep].intercalate (gs.map List.reverse).reverse := by
  induction gs with
  | nil => rfl
  | cons g gs ih =>
    cases gs with
    | nil => simp
    | cons g' gs =>
      have hne : ((g' :: gs).map List.reverse).reverse ≠ [] := by simp
      calc ([sep].intercalate (g :: g' :: gs)).reverse
        _ = [sep].intercalate ((g' :: gs).map List.reverse).reverse ++ sep :: g.reverse := by
          rw [List.intercalate_cons_cons, List.reverse_append, ih]
          simp
        _ = [sep].intercalate (((g' :: gs).map List.reverse).reverse ++ [g.reverse]) := (joined_concat sep _ hne _).symm
        _ = [sep].intercalate ((g :: g' :: gs).map List.reverse).reverse := by
          simp only [List.map_cons, List.reverse_cons]

theorem flatten_reversed (gs : List (List α)) : (gs.map List.reverse).reverse.flatten = gs.flatten.reverse := by
  induction gs with
  | nil => rfl
  | cons g gs ih => simp [ih]

theorem mem_joined {c : α} (gs : List (List α)) (h : c ∈ [sep].intercalate gs) : c = sep ∨ c ∈ gs.flatten := by
  induction gs with
  | nil => cases h
  | cons g gs ih =>
    cases gs with
    | nil => exact .inr (by simpa using h)
    | cons g' gs =>
      rw [List.intercalate_cons_cons, List.mem_append, List.mem_append, List.mem_singleton] at h
      rw [List.flatten_cons, List.mem_append]
      rcases h with (hg | hsep) | hrest
      · exact .inr (.inl hg)
      · exact .inl hsep
      · exact (ih hrest).imp_right .inr

/-- What takes the separator away undoes the joining. -/
theorem filterMap_joined {sep : α} {f : α → Option β} (hsep : f sep = none) (gs : List (List α)) :
    ([sep].intercalate gs).filterMap f = gs.flatten.filterMap f := by
  induction gs with
  | nil => rfl
  | cons g gs ih =>
    cases gs with
    | nil => simp
    | cons g' gs =>
      rw [List.intercalate_cons_cons, List.filterMap_append, List.filterMap_append, ih, List.filterMap_cons_none hsep,
        List.flatten_cons, List.filterMap_append]
      simp

end Joining

variable (sep : α) (n step : Nat)

/-- A separator comes after each symbol with which the steps get to `n`, unless it is the last. -/
def spread : Nat → List α → List α
  | _, [] => []
  | k, c :: l =>
    if n ≤ k + step ∧ 0 < l.length then c :: sep :: spread (k + step - n) l else c :: spread (k + step) l

theorem length_le_spread (k : Nat) (l : List α) : l.length ≤ (spread sep n step k l).length := by
  induction l generalizing k with
  | nil => exact Nat.zero_le _
  | cons c l ih =>
    unfold spread
    split
    · exact Nat.succ_le_succ (Nat.le_trans (ih _) (Nat.le_succ _))
    · exact Nat.succ_le_succ (ih _)

variable {n step}

/-- Steps that add up to so many separators make groups of about the same size, here with `g` symbols of the first
one gone before. -/
theorem spread_groups (lo hi : Nat) {c : Nat} (hlo : lo * step ≤ n) (hhi : n ≤ hi * step) (hstep : step ≤ n) (l : List α)
    {k first g r : Nat} (hne : l ≠ []) (hk : k < n) (hfirst : first < step) (hg : k = first + g * step)
    (hsum : l.length * step + k = n * (r + 1) + c) (hc : c < step) : ∃ head rest,
      spread sep n step k l = [sep].intercalate (head :: rest) ∧ (head :: rest).flatten = l ∧ rest.length = r ∧
      (lo ≤ g + head.length ∧ g + head.length ≤ hi) ∧ ∀ x ∈ rest, lo ≤ x.length ∧ x.length ≤ hi := by
  induction l generalizing k first g r with
  | nil => exact absurd rfl hne
  | cons s l ih =>
    rw [List.length_cons, Nat.succ_mul] at hsum
    have hbounds (hcross : n ≤ k + step) : lo ≤ g + 1 ∧ g + 1 ≤ hi := by
      constructor
      · by_contra hlt
        have hmul := Nat.mul_le_mul_right step (show g + 2 ≤ lo by omega)
        rw [Nat.add_mul] at hmul
        omega
      · by_contra hlt
        have hmul := Nat.mul_le_mul_right step (show hi ≤ g by omega)
        omega
    rcases Nat.eq_zero_or_pos l.length with hlast | hmore
    · obtain rfl := List.eq_nil_of_length_eq_zero hlast
      have hr : r = 0 := by
        by_contra hr
        have hmul := Nat.mul_le_mul_left n (show 2 ≤ r + 1 by omega)
        rw [List.length_nil, Nat.zero_mul] at hsum
        omega
      rw [hr, List.length_nil, Nat.zero_mul] at hsum
      refine ⟨[s], [], by simp [spread], rfl, hr.symm, hbounds (by omega), by simp⟩
    · by_cases hcross : n ≤ k + step
      · obtain ⟨r', rfl⟩ : ∃ r', r = r' + 1 := by
          refine Nat.exists_eq_succ_of_ne_zero fun hr => ?_
          have hmul := Nat.mul_le_mul_right step hmore
          rw [hr] at hsum
          omega
        rw [Nat.mul_succ] at hsum
        obtain ⟨head, rest, hspread, hflat, hlength, hhead, hrest⟩ := ih (List.ne_nil_of_length_pos hmore)
          (show k + step - n < n by omega) (show k + step - n < step by omega) (show _ = _ + 0 * step by omega)
          (show l.length * step + (k + step - n) = n * (r' + 1) + c by omega)
        refine ⟨[s], head :: rest, ?_, by simpa using hflat, by rw [List.length_cons, hlength], hbounds hcross, ?_⟩
        · rw [spread, if_pos ⟨hcross, hmore⟩, hspread, List.intercalate_cons_cons]
          rfl
        · rintro x (_ | ⟨_, hx⟩)
          · rwa [Nat.zero_add] at hhead
          · exact hrest x hx
      · obtain ⟨head, rest, hspread, hflat, hlength, hhead, hrest⟩ := ih (List.ne_nil_of_length_pos hmore)
          (show k + step < n by omega) hfirst (show k + step = first + (g + 1) * step by rw [Nat.add_mul]; omega)
          (show l.length * step + (k + step) = n * (r + 1) + c by omega)
        refine ⟨s :: head, rest, ?_, by simpa using hflat, hlength, ?_, hrest⟩
        · rw [spread, if_neg fun h => hcross h.1, hspread, List.intercalate_cons_cons_left]
        · rw [List.length_cons]
          omega

end NvrxFirmware
