import Mathlib.Data.List.Induction
import Mathlib.Data.List.Infix
import Mathlib.Tactic.Common

namespace NvrxFirmware

universe u v w

variable {σ : Type u} {α : Type v} {β : Type w}

variable {f : σ → α → σ} {out : σ → α → List β}

/-- A relation between the operations performed so far and the state reached
holds after every run once it holds initially and each operation extends it. -/
theorem foldl_history {Q : List α → σ → Prop} {s : σ} (start : Q [] s)
    (extend : ∀ history t a, Q history t → Q (history ++ [a]) (f t a)) (ops : List α) :
    Q ops (ops.foldl f s) := by
  induction ops using List.reverseRecOn with
  | nil => exact start
  | append_singleton ops a ih =>
    rw [List.foldl_append]
    exact extend ops _ a ih

/-- A relation to an abstract run that every step keeps holds where a run that may stop has got to. -/
theorem foldlM_simulates {τ : Type w} {g : σ → α → Option σ} (abs : τ → α → τ) {R : τ → σ → Prop}
    (keep : ∀ c s a t, R c s → g s a = some t → R (abs c a) t) {c : τ} {s t : σ} {ops : List α}
    (start : R c s) (h : ops.foldlM g s = some t) : R (ops.foldl abs c) t := by
  induction ops generalizing c s with
  | nil =>
    obtain rfl := Option.some.inj h
    exact start
  | cons a ops ih =>
    rw [List.foldlM_cons] at h
    obtain ⟨next, hstep, hrest⟩ := Option.bind_eq_some_iff.mp h
    exact ih (keep c s a next start hstep) hrest

/-- A property that every step keeps holds where a run that may stop has got to. -/
theorem foldlM_invariant {g : σ → α → Option σ} {P : σ → Prop} (keep : ∀ s a t, P s → g s a = some t → P t)
    {s t : σ} {ops : List α} (start : P s) (h : ops.foldlM g s = some t) : P t :=
  foldlM_simulates (fun (c : Unit) _ => c) (R := fun _ s => P s) (fun _ s a t hs hstep => keep s a t hs hstep)
    (c := ()) start h

/-- A run does not stop if no step does. -/
theorem foldlM_runs {g : σ → α → Option σ} (total : ∀ s a, ∃ t, g s a = some t) (s : σ) (ops : List α) :
    ∃ t, ops.foldlM g s = some t := by
  induction ops generalizing s with
  | nil => exact ⟨s, rfl⟩
  | cons a ops ih =>
    obtain ⟨next, hstep⟩ := total s a
    obtain ⟨t, ht⟩ := ih next
    exact ⟨t, by rw [List.foldlM_cons, hstep]; exact ht⟩

def outputs (f : σ → α → σ) (out : σ → α → List β) : σ → List α → List β
  | _, [] => []
  | s, a :: ops => out s a ++ outputs f out (f s a) ops

theorem outputs_append (s : σ) (xs ys : List α) :
    outputs f out s (xs ++ ys) = outputs f out s xs ++ outputs f out (xs.foldl f s) ys := by
  induction xs generalizing s with
  | nil => rfl
  | cons a xs ih => simp [outputs, ih]

theorem outputs_concat (s : σ) (xs : List α) (a : α) :
    outputs f out s (xs ++ [a]) = outputs f out s xs ++ out (xs.foldl f s) a := by
  simp [outputs_append, outputs]

theorem outputs_invariant {Q : List β → σ → Prop} {s : σ} {ops : List α} (start : Q [] s)
    (extend : ∀ made t, Q made t → ∀ a ∈ ops, Q (made ++ out t a) (f t a)) :
    Q (outputs f out s ops) (ops.foldl f s) := by
  induction ops using List.reverseRecOn with
  | nil => exact start
  | append_singleton ops a ih =>
    rw [List.foldl_append, outputs_concat]
    apply extend _ _ _ a (by simp)
    exact ih (fun made t hq b hb => extend made t hq b (List.mem_append_left _ hb))

section Rankings

variable {P G : σ → Prop} {m : σ → Nat} {w : α → Bool} {s : σ} {ops : List α}

/-- As long as the goal is not reached, no step raises the rank `m`, and those that work lower it. -/
theorem rank_sinks (start : P s) (keep : ∀ t, P t → ∀ a ∈ ops, P (f t a))
    (sinks : ∀ t, P t → ¬G t → ∀ a ∈ ops, m (f t a) + (if w a then 1 else 0) ≤ m t) :
    (∃ past later, ops = past ++ later ∧ G (past.foldl f s)) ∨ m (ops.foldl f s) + ops.countP w ≤ m s := by
  induction ops generalizing s with
  | nil => exact .inr (Nat.le_refl _)
  | cons a ops ih =>
    by_cases hs : G s
    · exact .inl ⟨[], a :: ops, rfl, hs⟩
    · have hstep := sinks s start hs a (List.mem_cons_self ..)
      have hrest := ih (keep s start a (List.mem_cons_self ..)) (fun t ht b hb => keep t ht b (List.mem_cons_of_mem a hb))
        (fun t ht hg b hb => sinks t ht hg b (List.mem_cons_of_mem a hb))
      rcases hrest with ⟨past, later, hops, hg⟩ | hrank
      · exact .inl ⟨a :: past, later, by rw [hops, List.cons_append], hg⟩
      · refine .inr ?_
        rw [List.countP_cons, List.foldl_cons]
        omega

/-- A goal that stays is reached in as many steps that work as the rank says. -/
theorem reached_of_rank (start : P s) (keep : ∀ t, P t → ∀ a ∈ ops, P (f t a))
    (sinks : ∀ t, P t → ¬G t → ∀ a ∈ ops, m (f t a) + (if w a then 1 else 0) ≤ m t)
    (stays : ∀ t, P t → G t → ∀ a ∈ ops, G (f t a)) (zero : ∀ t, P t → m t = 0 → G t)
    (long : m s ≤ ops.countP w) : G (ops.foldl f s) := by
  rcases rank_sinks start keep sinks with ⟨past, later, rfl, hg⟩ | hrank
  · have hpast : P (past.foldl f s) := List.foldlRecOn past f start fun t ht a ha =>
      keep t ht a (List.mem_append_left later ha)
    rw [List.foldl_append]
    exact (List.foldlRecOn (motive := fun t => P t ∧ G t) later f ⟨hpast, hg⟩ fun t ht a ha =>
      ⟨keep t ht.1 a (List.mem_append_right past ha), stays t ht.1 ht.2 a (List.mem_append_right past ha)⟩).2
  · exact zero _ (List.foldlRecOn ops f start keep) (by omega)

end Rankings

/-- Each operation of the run meets the condition in the state that it finds. -/
def Along (f : σ → α → σ) (guard : σ → α → Prop) : σ → List α → Prop
  | _, [] => True
  | s, a :: ops => guard s a ∧ Along f guard (f s a) ops

instance Along.decidable {guard : σ → α → Prop} [∀ s a, Decidable (guard s a)] :
    (s : σ) → (ops : List α) → Decidable (Along f guard s ops)
  | _, [] => .isTrue trivial
  | s, a :: ops => @instDecidableAnd _ _ _ (Along.decidable (f s a) ops)

theorem Along.append_iff {guard : σ → α → Prop} {s : σ} {xs ys : List α} :
    Along f guard s (xs ++ ys) ↔ Along f guard s xs ∧ Along f guard (xs.foldl f s) ys := by
  induction xs generalizing s with
  | nil => simp [Along]
  | cons b xs ih => simp [Along, ih, and_assoc]

theorem Along.concat_iff {guard : σ → α → Prop} {s : σ} {ops : List α} {a : α} :
    Along f guard s (ops ++ [a]) ↔ Along f guard s ops ∧ guard (ops.foldl f s) a := by
  rw [Along.append_iff]
  simp [Along]

theorem Along.history {guard : σ → α → Prop} {Q : List α → σ → Prop} {s : σ} {ops : List α}
    (h : Along f guard s ops) (start : Q [] s)
    (extend : ∀ (past : List α) (a : α), Q past (past.foldl f s) → guard (past.foldl f s) a →
      Q (past ++ [a]) (f (past.foldl f s) a)) : Q ops (ops.foldl f s) := by
  induction ops using List.reverseRecOn with
  | nil => exact start
  | append_singleton ops a ih =>
    obtain ⟨hops, ha⟩ := Along.concat_iff.mp h
    rw [List.foldl_append]
    exact extend ops a (ih hops) ha

theorem Along.invariant {guard : σ → α → Prop} {P : σ → Prop} {s : σ} {ops : List α}
    (h : Along f guard s ops) (start : P s)
    (preserve : ∀ (past : List α) (a : α), P (past.foldl f s) → guard (past.foldl f s) a →
      P (f (past.foldl f s) a)) : P (ops.foldl f s) :=
  h.history (Q := fun _ t => P t) start preserve

/-- Where an invariant `P` of the runs that meet the condition gives the property `S`, and no step
from it reaches `S` without meeting the condition, the runs along which the condition is met are
exactly those whose every state has the property. -/
theorem Along.iff_always {guard : σ → α → Prop} {P S : σ → Prop} {s : σ} {ops : List α} (start : P s)
    (safe : ∀ t, P t → S t) (keep : ∀ t a, P t → guard t a → P (f t a))
    (needed : ∀ t a, P t → S (f t a) → guard t a) :
    Along f guard s ops ↔ ∀ past, past <+: ops → S (past.foldl f s) := by
  constructor
  · rintro along past ⟨later, rfl⟩
    have hpast := (Along.append_iff.mp along).1
    exact safe _ (hpast.invariant start fun _ _ hp hg => keep _ _ hp hg)
  · intro hall
    induction ops using List.reverseRecOn with
    | nil => trivial
    | append_singleton ops a ih =>
      have hops := ih fun past hpast => hall past (hpast.trans (List.prefix_append _ _))
      refine Along.concat_iff.mpr ⟨hops, needed _ a (hops.invariant start fun _ _ hp hg => keep _ _ hp hg) ?_⟩
      have hlast := hall (ops ++ [a]) (List.prefix_refl _)
      rwa [List.foldl_append] at hlast

theorem Along.mono {guard G : σ → α → Prop} {P : σ → Prop} {s : σ} {ops : List α} (h : Along f guard s ops)
    (start : P s) (keep : ∀ t a, P t → guard t a → P (f t a)) (gives : ∀ t a, P t → guard t a → G t a) :
    Along f G s ops := by
  induction ops generalizing s with
  | nil => trivial
  | cons a ops ih =>
    obtain ⟨ha, hops⟩ := h
    exact ⟨gives s a start ha, ih hops (keep s a start ha)⟩

theorem Along.congr {guard G H : σ → α → Prop} {P : σ → Prop} {s : σ} {ops : List α}
    (h : Along f guard s ops) (start : P s) (keep : ∀ t a, P t → guard t a → P (f t a))
    (same : ∀ t a, P t → guard t a → (G t a ↔ H t a)) : Along f G s ops ↔ Along f H s ops := by
  induction ops generalizing s with
  | nil => exact Iff.rfl
  | cons a ops ih =>
    obtain ⟨ha, hops⟩ := h
    exact and_congr (same s a start ha) (ih hops (keep s a start ha))

end NvrxFirmware
