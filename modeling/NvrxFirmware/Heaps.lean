import Mathlib.Logic.Function.Basic

namespace NvrxFirmware

universe u

variable {α : Type u} {a b : Nat} {v : α}

/-- The blocks that are allocated. Addresses from `next` on have never been used. -/
structure Heap (α : Type u) where
  block : Nat → Option α
  next : Nat
  fresh : ∀ a, next ≤ a → block a = none

def Heap.empty : Heap α := ⟨fun _ => none, 0, fun _ _ => rfl⟩

def Heap.Live (h : Heap α) (a : Nat) : Prop := (h.block a).isSome = true

instance (h : Heap α) (a : Nat) : Decidable (h.Live a) := inferInstanceAs (Decidable ((h.block a).isSome = true))

def Heap.malloc (v : α) (h : Heap α) : Nat × Heap α :=
  (h.next, {
    block := Function.update h.block h.next (some v)
    next := h.next + 1
    fresh := by
      intro a ha
      rw [Function.update_of_ne (by omega)]
      exact h.fresh a (by omega) })

/-- Only what is allocated can be freed. -/
def Heap.free (a : Nat) (h : Heap α) : Option (Heap α) :=
  if h.Live a then
    some {
      block := Function.update h.block a none
      next := h.next
      fresh := by
        intro b hb
        by_cases hba : b = a
        · rw [hba, Function.update_self]
        · rw [Function.update_of_ne hba]
          exact h.fresh b hb }
  else none

variable {h h' : Heap α}

theorem Heap.malloc_block : (h.malloc v).2.block (h.malloc v).1 = some v := Function.update_self ..

theorem Heap.malloc_live : (h.malloc v).2.Live (h.malloc v).1 := by
  rw [Heap.Live, Heap.malloc_block]
  rfl

theorem Heap.free_eq_none_iff : h.free a = none ↔ ¬h.Live a := by
  unfold Heap.free
  split
  next hlive => simp [hlive]
  next hdead => simp [hdead]

theorem Heap.Live.exists_free (hlive : h.Live a) : ∃ h', h.free a = some h' := ⟨_, if_pos hlive⟩

theorem Heap.free_eq_some (hfree : h.free a = some h') :
    h.Live a ∧ h'.block = Function.update h.block a none ∧ h'.next = h.next := by
  unfold Heap.free at hfree
  split at hfree
  next hlive =>
    obtain rfl := Option.some.inj hfree
    exact ⟨hlive, rfl, rfl⟩
  next => cases hfree

theorem Heap.free_dead (hfree : h.free a = some h') : ¬h'.Live a := by
  rw [Heap.Live, (Heap.free_eq_some hfree).2.1, Function.update_self]
  exact Bool.false_ne_true

end NvrxFirmware
