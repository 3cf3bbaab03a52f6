import Mathlib.Data.List.ReduceOption

/-! Transition systems with a partial step function: the states that runs reach, invariants, and what
    one party can reach by steps of its own. -/

namespace Transition

/-- The rank of several parties together. -/
def total {τ : Type} (rank : τ → Nat) : List τ → Nat
  | [] => 0
  | x :: xs => rank x + total rank xs

section
variable {τ : Type} {rank : τ → Nat} {xs : List τ} {k : Nat} {x y : τ}

theorem total_set (h : xs[k]? = some x) : total rank (xs.set k y) + rank x = total rank xs + rank y := by
  induction xs generalizing k with
  | nil => cases h
  | cons z xs ih =>
    cases k with
    | zero =>
      obtain rfl := Option.some.inj h
      simp only [List.set_cons_zero, total]
      omega
    | succ k =>
      have hset := ih (k := k) h
      simp only [List.set_cons_succ, total]
      omega

end

/-- The initial states, and the state after an action, when the action is possible. -/
structure System (σ α : Type) where
  init : σ → Prop
  step : σ → α → Option σ

namespace System
variable {σ α : Type} (M : System σ α)

/-- The states of the runs whose steps all meet `ok`, a condition on an action and the state before it. -/
inductive ReachableBy (ok : σ → α → Prop) : σ → Prop where
  | init {s : σ} : M.init s → ReachableBy ok s
  | step {s t : σ} {a : α} : ReachableBy ok s → ok s a → M.step s a = some t → ReachableBy ok t

def Reachable : σ → Prop := M.ReachableBy fun _ _ => True

/-- The state after a list of actions, when each of them is possible in its turn. -/
def run (s : σ) : List α → Option σ
  | [] => some s
  | a :: as => (M.step s a).bind fun t => run t as

/-- The same when each action meets `ok` in its turn. -/
def runBy (ok : σ → α → Prop) [∀ s a, Decidable (ok s a)] (s : σ) : List α → Option σ
  | [] => some s
  | a :: as => if ok s a then (M.step s a).bind fun t => runBy ok t as else none

/-- Some sequence of actions of one party leads from `s` to a state with `P`. -/
def CanReach (mine : α → Prop) (P : σ → Prop) (s : σ) : Prop :=
  ∃ as t, (∀ a ∈ as, mine a) ∧ M.run s as = some t ∧ P t

/-- The system with a history beside each state; an action comes with the choice that its entry makes. -/
def recorded {η ι : Type} (h₀ : η) (note : σ → α → ι → η → Option η) : System (σ × η) (α × ι) where
  init p := M.init p.1 ∧ p.2 = h₀
  step p a := (M.step p.1 a.1).bind fun t => (note p.1 a.1 a.2 p.2).map fun h => (t, h)

/-- Along `f`, each step of the runs that meet `ok` is a step of another system, or nothing there. -/
structure Simulation {τ β : Type} (ok : σ → α → Prop) (N : System τ β) (f : σ → τ) : Prop where
  init : ∀ s, M.init s → N.init (f s)
  step : ∀ s a t, M.ReachableBy ok s → ok s a → M.step s a = some t →
    f t = f s ∨ ∃ b, N.step (f s) b = some (f t)

section
variable {M} {ok : σ → α → Prop} {mine : α → Prop} {P I : σ → Prop} {s t : σ} {a : α}

/-- A property of the initial states that the steps keep holds in every state reached. -/
theorem ReachableBy.invariant (h : M.ReachableBy ok s) (hinit : ∀ s, M.init s → I s)
    (hstep : ∀ s a t, I s → ok s a → M.step s a = some t → I t) : I s := by
  induction h with
  | init h => exact hinit _ h
  | step _ hok hs ih => exact hstep _ _ _ ih hok hs

/-- The same when another property is known to hold in the states reached. -/
theorem ReachableBy.invariant_of {J : σ → Prop} (h : M.ReachableBy ok s) (hJ : ∀ s, M.ReachableBy ok s → J s)
    (hinit : ∀ s, M.init s → I s) (hstep : ∀ s a t, J s → I s → ok s a → M.step s a = some t → I t) : I s := by
  induction h with
  | init h => exact hinit _ h
  | step hr hok hs ih => exact hstep _ _ _ (hJ _ hr) ih hok hs

theorem ReachableBy.mono {ok' : σ → α → Prop} (h : M.ReachableBy ok s) (hok : ∀ s a, ok s a → ok' s a) :
    M.ReachableBy ok' s := by
  induction h with
  | init h => exact .init h
  | step _ h hs ih => exact .step ih (hok _ _ h) hs

theorem ReachableBy.runBy [∀ s a, Decidable (ok s a)] (h : M.ReachableBy ok s) (as : List α)
    (hr : M.runBy ok s as = some t) : M.ReachableBy ok t := by
  induction as generalizing s with
  | nil =>
    obtain rfl := Option.some.inj hr
    exact h
  | cons a as ih =>
    obtain ⟨hok, hr⟩ := Option.ite_none_right_eq_some.mp hr
    obtain ⟨u, hu, hr⟩ := Option.bind_eq_some_iff.mp hr
    exact ih (h.step hok hu) hr

theorem Reachable.step (h : M.Reachable s) (hs : M.step s a = some t) : M.Reachable t :=
  ReachableBy.step h trivial hs

theorem Reachable.run (h : M.Reachable s) (as : List α) (hr : M.run s as = some t) : M.Reachable t := by
  induction as generalizing s with
  | nil =>
    obtain rfl := Option.some.inj hr
    exact h
  | cons a as ih =>
    obtain ⟨u, hu, hr⟩ := Option.bind_eq_some_iff.mp hr
    exact ih (h.step hu) hr

section
variable {τ β : Type} {N : System τ β} {f : σ → τ}

theorem Simulation.reachable (h : M.Simulation ok N f) (hs : M.ReachableBy ok s) : N.Reachable (f s) := by
  induction hs with
  | init hinit => exact .init (h.init _ hinit)
  | step hr hok hs ih =>
    rcases h.step _ _ _ hr hok hs with hsame | ⟨b, hb⟩
    · exact hsame ▸ ih
    · exact ih.step hb

/-- The run of the other system has at most one action for each action. -/
theorem Simulation.run [∀ s a, Decidable (ok s a)] (h : M.Simulation ok N f) (hs : M.ReachableBy ok s) (as : List α)
    (hr : M.runBy ok s as = some t) :
    ∃ bs : List (Option β), bs.length = as.length ∧ N.run (f s) bs.reduceOption = some (f t) := by
  induction as generalizing s with
  | nil =>
    obtain rfl := Option.some.inj hr
    exact ⟨[], rfl, rfl⟩
  | cons a as ih =>
    obtain ⟨hok, hr⟩ := Option.ite_none_right_eq_some.mp hr
    obtain ⟨u, hu, hr⟩ := Option.bind_eq_some_iff.mp hr
    obtain ⟨bs, hlen, hrun⟩ := ih (hs.step hok hu) hr
    rcases h.step _ _ _ hs hok hu with hsame | ⟨b, hb⟩
    · refine ⟨none :: bs, congrArg (· + 1) hlen, ?_⟩
      rw [List.reduceOption_cons_of_none, ← hsame, hrun]
    · refine ⟨some b :: bs, congrArg (· + 1) hlen, ?_⟩
      rw [List.reduceOption_cons_of_some, System.run, hb, Option.bind_some, hrun]

end

section
variable {η ι : Type} {h₀ : η} {note : σ → α → ι → η → Option η} {p q : σ × η} {b : α × ι}

theorem recorded_step_eq_some :
    (M.recorded h₀ note).step p b = some q ↔ M.step p.1 b.1 = some q.1 ∧ note p.1 b.1 b.2 p.2 = some q.2 := by
  simp only [recorded, Option.bind_eq_some_iff, Option.map_eq_some_iff]
  constructor
  · rintro ⟨t, ht, h, hn, rfl⟩
    exact ⟨ht, hn⟩
  · rintro ⟨ht, hn⟩
    exact ⟨q.1, ht, q.2, hn, rfl⟩

/-- A history that has an entry for every step keeps no state from being reached. -/
theorem Reachable.exists_recorded (h : M.Reachable s)
    (htotal : ∀ p a t, (M.recorded h₀ note).Reachable p → M.step p.1 a = some t →
      ∃ i h', note p.1 a i p.2 = some h') :
    ∃ h', (M.recorded h₀ note).Reachable (s, h') := by
  induction h with
  | init h => exact ⟨h₀, .init ⟨h, rfl⟩⟩
  | @step s t a _ _ hs ih =>
    obtain ⟨h', hr⟩ := ih
    obtain ⟨i, h'', hn⟩ := htotal _ a t hr hs
    exact ⟨h'', hr.step (a := (a, i)) (recorded_step_eq_some.mpr ⟨hs, hn⟩)⟩

end

theorem CanReach.here (h : P s) : M.CanReach mine P s := ⟨[], s, by simp, rfl, h⟩

theorem CanReach.step (ha : mine a) (hs : M.step s a = some t) (h : M.CanReach mine P t) :
    M.CanReach mine P s := by
  obtain ⟨as, u, hmine, hr, hu⟩ := h
  refine ⟨a :: as, u, ?_, ?_, hu⟩
  · intro b hb
    rcases List.mem_cons.mp hb with rfl | hb
    · exact ha
    · exact hmine b hb
  · rw [System.run, hs]
    exact hr

theorem run_append {as bs : List α} (h : M.run s as = some t) : M.run s (as ++ bs) = M.run t bs := by
  induction as generalizing s with
  | nil =>
    obtain rfl := Option.some.inj h
    rfl
  | cons a as ih =>
    obtain ⟨u, hu, h⟩ := Option.bind_eq_some_iff.mp h
    rw [List.cons_append, run, hu, Option.bind_some, ih h]

theorem CanReach.trans {Q : σ → Prop} (h : M.CanReach mine P s) (hPQ : ∀ t, P t → M.CanReach mine Q t) :
    M.CanReach mine Q s := by
  obtain ⟨as, t, hmine, hr, ht⟩ := h
  obtain ⟨bs, u, hmine', hr', hu⟩ := hPQ t ht
  refine ⟨as ++ bs, u, ?_, (run_append hr).trans hr', hu⟩
  intro a ha
  exact (List.mem_append.mp ha).elim (hmine a) (hmine' a)

theorem CanReach.reachable (h : M.CanReach mine P s) (hs : M.Reachable s) :
    M.CanReach mine (fun t => M.Reachable t ∧ P t) s := by
  obtain ⟨as, t, hmine, hr, ht⟩ := h
  exact ⟨as, t, hmine, hr, hs.run as hr, ht⟩

theorem CanReach.mono {mine' : α → Prop} (h : M.CanReach mine P s) (hmine : ∀ a, mine a → mine' a) :
    M.CanReach mine' P s := by
  obtain ⟨as, t, has, hr, ht⟩ := h
  exact ⟨as, t, fun a ha => hmine a (has a ha), hr, ht⟩

/-- A party reaches its goal when each of its states with `I` is the goal or has a step of its own that
    keeps `I` and lowers the rank. -/
theorem CanReach.of_rank (rank : σ → Nat)
    (hrank : ∀ s, I s → P s ∨ ∃ a t, mine a ∧ M.step s a = some t ∧ I t ∧ rank t < rank s) (h : I s) :
    M.CanReach mine P s := by
  induction hn : rank s using Nat.strongRecOn generalizing s with
  | _ n ih =>
    rcases hrank s h with hP | ⟨a, t, ha, hs, ht, hlt⟩
    · exact .here hP
    · exact .step ha hs (ih (rank t) (hn ▸ hlt) ht rfl)

/-- What a party's own steps keep holds wherever they lead. -/
theorem not_canReach_of_invariant (h : I s) (hstep : ∀ s a t, I s → mine a → M.step s a = some t → I t)
    (hI : ∀ s, I s → ¬P s) : ¬M.CanReach mine P s := by
  rintro ⟨as, t, hmine, hr, ht⟩
  induction as generalizing s with
  | nil =>
    obtain rfl := Option.some.inj hr
    exact hI s h ht
  | cons a as ih =>
    obtain ⟨u, hu, hr⟩ := Option.bind_eq_some_iff.mp hr
    exact ih (hstep s a u h (hmine a List.mem_cons_self) hu) (fun b hb => hmine b (List.mem_cons_of_mem a hb)) hr

/-- A party none of whose actions is possible stays where it is. -/
theorem not_canReach_of_blocked (hb : ∀ a, mine a → M.step s a = none) (h : ¬P s) :
    ¬M.CanReach mine P s := by
  refine not_canReach_of_invariant (I := (· = s)) rfl ?_ fun u hu => hu ▸ h
  rintro _ a t rfl ha hs
  rw [hb a ha] at hs
  cases hs

end

end System

end Transition
