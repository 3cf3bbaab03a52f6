import TgFocus.Theorems.LifecycleSteps

/-! At most one collector. A `CollIniter` sets `collIniterUp` when it starts and clears it before it ends,
    so between the spawn and the first store, and between the last store and the end, the flag does not
    show it. `UpColl` spawns a second one when it reads the flag then, and at no other time. -/

namespace TgFocus.Lifecycle
open Transition

/-- A `CollIniter` that has not set `collIniterUp` yet or has cleared it. -/
def IniterPc.hidden : IniterPc → Bool
  | .spawned | .returning => true
  | _ => false

/-- Between the load of `collIniterUp` and the spawn. -/
def HandlerPc.starting : HandlerPc → Bool
  | .clearSwitcher | .clearSwitcherSucc | .clearIniter | .clearIniterSucc | .spawn => true
  | _ => false

/-- `UpColl` does not read `collIniterUp` while a `CollIniter` is hidden. -/
def StartsInSight (s : State) (a : Act) : Prop :=
  ¬(a = .handler ∧ s.handler = .upLoad ∧ s.threads.any (·.pc.hidden) = true)

instance (s : State) (a : Act) : Decidable (StartsInSight s a) := inferInstanceAs (Decidable (¬_))

structure Sole (s : State) : Prop where
  alone : Alone s
  shown : ∀ th, s.live = some th → th.pc.hidden = false → s.collIniterUp = true
  starting : s.handler.starting = true → s.live = none

section
variable {s t : State} {a : Act} {k : Nat} {th : Thread}

theorem Sole.ask (hi : Sole s) {pc : HandlerPc} (hpc : pc.starting = false) : Sole { s.ask with handler := pc } where
  alone := hi.alone.ask
  shown := by
    intro th hth hshown
    rw [show State.live { s.ask with handler := pc } = s.ask.live from rfl, live_ask] at hth
    obtain ⟨th₀, hth₀, rfl⟩ := Option.map_eq_some_iff.mp hth
    exact hi.shown th₀ hth₀ hshown
  starting := by simp [hpc]

theorem Sole.handlerStep (hi : Sole s) (hok : StartsInSight s .handler) (h : HandlerStep s t) : Sole t := by
  obtain ⟨halone, hshown, hstarting⟩ := id hi
  cases h with
  | upDown hpc hup =>
    -- the flag is down and nobody is hidden, so nobody is there
    refine ⟨halone, hshown, fun _ => ?_⟩
    by_contra hlive
    obtain ⟨th, hth⟩ := Option.ne_none_iff_exists'.mp hlive
    have hvisible : th.pc.hidden = false := by
      by_contra hhidden
      exact hok ⟨rfl, hpc, List.any_eq_true.mpr ⟨th, (mem_of_live hth).1, by simpa using hhidden⟩⟩
    rw [hshown th hth hvisible] at hup
    cases hup
  | spawn hpc =>
    have hnone : s.live = none := hstarting (by rw [hpc]; rfl)
    refine ⟨alone_spawn hnone, fun th hth hvisible => ?_, fun h => by cases h⟩
    rw [live_spawn _ hnone] at hth
    cases hth
    cases hvisible
  | shutStore hpc | ipcStore hpc => exact hi.ask rfl
  | clearSwitcher hpc | clearSwitcherSucc hpc | clearIniter hpc | clearIniterSucc hpc =>
    exact ⟨halone, hshown, fun _ => hstarting (by rw [hpc]; rfl)⟩
  | upUp hpc | upReply hpc | shutUp hpc | shutDown hpc | shutWait hpc | shutReply hpc | ipcUp hpc | ipcDown hpc
  | ipcAck hpc | ipcWait hpc | ipcReply hpc | statusReply hpc =>
    exact ⟨halone, hshown, fun h => by cases h⟩

theorem Sole.not_starting (hi : Sole s) (hlive : s.live = some th) : s.handler.starting = false := by
  by_contra h
  rw [hi.starting (by simpa using h)] at hlive
  cases hlive

theorem Sole.initerStep (hi : Sole s) (hth : s.threads[k]? = some th) (h : IniterStep s k th t) : Sole t := by
  have hfin := h.not_finished
  have hlive := hi.alone.live_eq hth hfin
  have hmove := hi.alone.live_move hth hfin
  have hkept := hi.alone.kept_move hth hfin
  have hstart := hi.not_starting hlive
  have hshown := hi.shown th hlive
  cases h with
  | up hpc => exact ⟨hkept _, fun _ _ _ => rfl, fun h => absurd (hstart.symm.trans h) (by decide)⟩
  | clear hpc =>
    refine ⟨hkept _, fun th' hth' hvisible => ?_, fun h => absurd (hstart.symm.trans h) (by decide)⟩
    cases (hmove .returning).symm.trans hth'
    cases hvisible
  | finish hpc =>
    refine ⟨hkept _, fun th' hth' _ => ?_, fun _ => hmove .finished⟩
    cases (hmove .finished).symm.trans hth'
  | hint hpc | noHint hpc | breakOff hpc | again hpc | run hpc | unauthorized hpc | stopped hpc | close hpc
  | switcherGone hpc | ack hpc =>
    exact ⟨hkept _, fun _ _ _ => hshown (by rw [hpc]; rfl), fun h => absurd (hstart.symm.trans h) (by decide)⟩

theorem Sole.step (hi : Sole s) (hok : StartsInSight s a) (hs : step s a = some t) : Sole t := by
  cases a with
  | request r =>
    obtain ⟨-, hs⟩ := Option.ite_none_right_eq_some.mp hs
    cases hs
    exact ⟨hi.alone, hi.shown, fun h => by cases r <;> cases h⟩
  | handler => exact hi.handlerStep hok (handlerStep_inv hs)
  | initer k =>
    obtain ⟨th, hth, h⟩ := initerStep_inv hs
    exact hi.initerStep hth h
  | switcherSucc | setAuthHint flag =>
    cases hs
    exact ⟨hi.alone, hi.shown, hi.starting⟩

theorem sole_of_reachable (h : system.ReachableBy StartsInSight s) : Sole s := by
  refine h.invariant ?_ fun s a t hi hok hs => hi.step hok hs
  rintro s ⟨authHint, rfl⟩
  exact ⟨⟨[], by simp, rfl⟩, fun th hth => (by cases hth), fun _ => rfl⟩

/-- In runs in which `UpColl` never reads the flag while a `CollIniter` is hidden, at most one that was
    spawned has not finished. -/
theorem one_collIniter (h : system.ReachableBy StartsInSight s) :
    (s.threads.filter (·.pc ≠ .finished)).length ≤ 1 :=
  (sole_of_reachable h).alone.length_le_one

end

/-! ### Runs -/

def upColl : List Act :=
  [.request .upColl, .handler, .handler, .handler, .handler, .handler, .handler, .handler]

theorem one_collIniter_run :
    ∃ s : State, s.threads = [⟨.readHint, false⟩] ∧ s.answered = some .upColl ∧
      (s.threads.filter (·.pc ≠ .finished)).length ≤ 1 :=
  have h : system.ReachableBy StartsInSight _ := .runBy (.init ⟨false, rfl⟩)
    (upColl ++ [.initer 0] ++ [.request .upColl, .handler, .handler]) rfl
  ⟨_, rfl, rfl, one_collIniter h⟩

/-- The second `UpColl` comes before the first `CollIniter` has started. -/
theorem two_collIniters : ∃ s, system.Reachable s ∧ ¬(s.threads.filter (·.pc ≠ .finished)).length ≤ 1 :=
  ⟨_, Transition.System.Reachable.run (.init ⟨false, rfl⟩) (upColl ++ upColl) rfl, by decide⟩

end TgFocus.Lifecycle
