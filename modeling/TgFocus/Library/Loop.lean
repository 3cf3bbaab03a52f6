import Mathlib.Logic.Relation

/-! Loops, turn by turn. A turn gives the next state of the variables, or nothing when the loop is over;
    a measure that every turn makes smaller bounds their number. -/

namespace Loop
variable {σ : Type}

/-- The state after at most `n` turns. -/
def exec (turn : σ → Option σ) : Nat → σ → σ
  | 0, s => s
  | n + 1, s =>
    match turn s with
    | none => s
    | some t => exec turn n t

/-- Turns lead from one state to the other. -/
def Leads (turn : σ → Option σ) : σ → σ → Prop := Relation.ReflTransGen fun s t => turn s = some t

section
variable {turn : σ → Option σ} {I : σ → Prop} {s t : σ} {n : Nat}

theorem exec_of_ended (h : turn s = none) (n : Nat) : exec turn n s = s := by
  cases n with
  | zero => rfl
  | succ n => rw [exec, h]

theorem exec_succ_of_turn (h : turn s = some t) (n : Nat) : exec turn (n + 1) s = exec turn n t := by
  rw [exec, h]

/-- What the turns keep holds in every state that they lead to. -/
theorem Leads.invariant (h : Leads turn s t) (hs : I s) (hturn : ∀ s t, I s → turn s = some t → I t) : I t := by
  induction h with
  | refl => exact hs
  | tail _ ht ih => exact hturn _ _ ih ht

/-- Enough turns end the loop. -/
theorem ended_exec (measure : σ → Nat) (hs : I s) (hn : measure s ≤ n)
    (hturn : ∀ s t, I s → turn s = some t → I t ∧ measure t < measure s) : turn (exec turn n s) = none := by
  induction n generalizing s with
  | zero =>
    cases h : turn s with
    | none => exact h
    | some t =>
      have hlt := (hturn s t hs h).2
      omega
  | succ n ih =>
    cases h : turn s with
    | none =>
      rw [exec_of_ended h]
      exact h
    | some t =>
      obtain ⟨ht, hlt⟩ := hturn s t hs h
      rw [exec_succ_of_turn h]
      exact ih ht (by omega)

/-- A loop that ends does so in the only state that turns lead to and none leaves. -/
theorem exec_eq_of_leads (h : Leads turn s t) (ht : turn t = none) (hn : turn (exec turn n s) = none) :
    exec turn n s = t := by
  induction h using Relation.ReflTransGen.head_induction_on generalizing n with
  | refl => exact exec_of_ended ht n
  | @head s u hturn _ ih =>
    cases n with
    | zero => exact absurd (hturn.symm.trans hn) (Option.some_ne_none u)
    | succ n =>
      rw [exec_succ_of_turn hturn] at hn ⊢
      exact ih hn

end

end Loop
