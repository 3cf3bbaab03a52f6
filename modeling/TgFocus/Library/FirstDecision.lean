import Mathlib.Order.Basic
import Mathlib.Data.List.Forall2

/-! Lists in which the first element that is not neutral decides. The elements are ordered, and a decision
    is favourable when it is above the neutral element. -/

namespace FirstDecision

section
variable {α : Type} [DecidableEq α] {e x y : α} {l l' : List α}

/-- The first element other than `e`, or `e`. -/
def first (e : α) : List α → α
  | [] => e
  | x :: l => if x = e then first e l else x

@[simp] theorem first_nil : first e ([] : List α) = e := rfl

@[simp] theorem first_cons_self : first e (e :: l) = first e l := if_pos rfl

theorem first_cons_of_ne (h : x ≠ e) : first e (x :: l) = x := if_neg h

/-- Raising elements can expose or cut off others, but a favourable decision stays favourable. -/
theorem lt_first_of_forall₂ [PartialOrder α] (h : List.Forall₂ (· ≤ ·) l l') (hlt : e < first e l) :
    e < first e l' := by
  induction h with
  | nil => exact hlt
  | @cons x y l l' hxy _ ih =>
    by_cases hx : x = e
    · subst hx
      rw [first_cons_self] at hlt
      by_cases hy : y = x
      · subst hy
        rw [first_cons_self]
        exact ih hlt
      · rw [first_cons_of_ne hy]
        exact lt_of_le_of_ne hxy (Ne.symm hy)
    · rw [first_cons_of_ne hx] at hlt
      have hy : e < y := lt_of_lt_of_le hlt hxy
      rw [first_cons_of_ne (ne_of_gt hy)]
      exact hy

end

end FirstDecision
