import Mathlib.Data.List.Basic

/-! UTF-8 validity of a byte sequence, by the automaton of the well-formed sequences (Unicode, table
    3-7): a byte sequence is valid when the automaton reads it from `start` back to `start`. An ASCII
    byte is read in `start` only, so validity can be checked on each side of it. -/

namespace Utf8

/-- Between characters, or inside one: how many continuation bytes are due, and after some lead bytes
    which ones the next may be. -/
inductive State where
  | start | tail1 | tail2 | tail3 | afterE0 | afterED | afterF0 | afterF4
  deriving DecidableEq, Repr

def within (lo hi b : UInt8) (next : State) : Option State :=
  if lo ≤ b ∧ b ≤ hi then some next else none

def step : State → UInt8 → Option State
  | .start, b =>
    if b < 0x80 then some .start
    else if b < 0xc2 then none
    else if b < 0xe0 then some .tail1
    else if b = 0xe0 then some .afterE0
    else if b = 0xed then some .afterED
    else if b < 0xf0 then some .tail2
    else if b = 0xf0 then some .afterF0
    else if b < 0xf4 then some .tail3
    else if b = 0xf4 then some .afterF4
    else none
  | .tail1, b => within 0x80 0xbf b .start
  | .tail2, b => within 0x80 0xbf b .tail1
  | .tail3, b => within 0x80 0xbf b .tail2
  | .afterE0, b => within 0xa0 0xbf b .tail1
  | .afterED, b => within 0x80 0x9f b .tail1
  | .afterF0, b => within 0x90 0xbf b .tail2
  | .afterF4, b => within 0x80 0x8f b .tail2

def run : State → List UInt8 → Option State
  | q, [] => some q
  | q, b :: s => (step q b).bind fun q' => run q' s

/-- The bytes are a sequence of whole characters. -/
def Valid (s : List UInt8) : Prop := run .start s = some .start

instance (s : List UInt8) : Decidable (Valid s) := inferInstanceAs (Decidable (_ = _))

section
variable {q r : State} {a b : UInt8} {s t : List UInt8}

theorem run_append : run q (s ++ t) = (run q s).bind fun q' => run q' t := by
  induction s generalizing q with
  | nil => rfl
  | cons b s ih =>
    simp only [List.cons_append, run]
    cases step q b with
    | none => rfl
    | some q' => exact ih

theorem step_start_ascii (hb : b < 0x80) : step .start b = some .start := by
  simp [step, hb]

theorem within_ascii {lo hi : UInt8} (hlo : 0x80 ≤ lo) (hb : b < 0x80) : within lo hi b q = none := by
  have h : ¬ lo ≤ b := UInt8.not_le.mpr (UInt8.lt_of_lt_of_le hb hlo)
  simp [within, h]

theorem step_ascii_of_ne_start (hq : q ≠ .start) (hb : b < 0x80) : step q b = none := by
  cases q with
  | start => exact absurd rfl hq
  | tail1 | tail2 | tail3 | afterE0 | afterED | afterF0 | afterF4 => exact within_ascii (by decide) hb

theorem Valid.append (hs : Valid s) (ht : Valid t) : Valid (s ++ t) := by
  unfold Valid at *
  rw [run_append, hs]
  exact ht

/-- An ASCII byte splits a valid sequence into valid sequences. -/
theorem valid_append_cons_iff (hb : b < 0x80) : Valid (s ++ b :: t) ↔ Valid s ∧ Valid t := by
  constructor
  · intro h
    unfold Valid at *
    rw [run_append] at h
    cases hq : run .start s with
    | none => simp [hq] at h
    | some q =>
      rw [hq, Option.bind_some, run] at h
      by_cases hs : q = .start
      · subst hs
        rw [step_start_ascii hb] at h
        exact ⟨rfl, h⟩
      · rw [step_ascii_of_ne_start hs hb] at h
        cases h
  · rintro ⟨hs, ht⟩
    refine hs.append ?_
    unfold Valid
    rw [run, step_start_ascii hb]
    exact ht

theorem valid_flatMap {α : Type} {f : α → List UInt8} {l : List α} (h : ∀ x ∈ l, Valid (f x)) :
    Valid (l.flatMap f) := by
  induction l with
  | nil => rfl
  | cons x l ih =>
    rw [List.flatMap_cons]
    exact (h x List.mem_cons_self).append (ih fun y hy => h y (List.mem_cons_of_mem x hy))

end

end Utf8
