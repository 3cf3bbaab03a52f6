import TgFocus.Theorems.CollectorStop

/-! `Pipeline` starts and stops the three threads in one step each. The collector takes many: the handler
    clears the flags one by one, a `CollIniter` waits for the login, starts the threads, asks the switcher to
    stop, joins. In the runs that meet `InTime` these are the steps of `Pipeline`, so what holds of its runs
    holds of the collector. -/

namespace TgFocus.Collector
open Transition Lifecycle

/-- The three threads exist. -/
def State.busy (s : State) : Bool := s.life.live.any fun th => hasThreads th.pc

/-- While the three threads do not exist, `Pipeline` is about to start them. -/
def State.abstract (s : State) : Pipeline.State := if s.busy then s.pipe else Pipeline.restart s.pipe

section
variable {s t : State} {a : Act} {k : Nat} {p : Pipeline.State} {life : Lifecycle.State} {th : Thread}

theorem busy_of_none (h : s.life.live = none) : s.busy = false := by
  rw [State.busy, h]
  rfl

theorem busy_of_some (h : s.life.live = some th) : s.busy = hasThreads th.pc := by
  rw [State.busy, h]
  rfl

theorem abstract_of_busy (h : s.busy = true) : s.abstract = s.pipe := if_pos h

theorem abstract_of_rest (h : s.busy = false) : s.abstract = Pipeline.restart s.pipe :=
  if_neg (Bool.eq_false_iff.mp h)

theorem restart_clear (n : Nat) : Pipeline.restart (clear p n) = Pipeline.restart p := by
  unfold clear
  split <;> rfl

/-- With all flags down the start of the threads is the one of `Pipeline`. -/
theorem launch_eq_restart (h : Down 6 p) : launch p = Pipeline.restart p := by
  have hp := h.producer (by decide)
  have hps := h.producerSucc (by decide)
  have hc := h.consumer (by decide)
  have hcs := h.consumerSucc (by decide)
  have hs := h.switcher (by decide)
  have hss := h.switcherSucc (by decide)
  simp [launch, Pipeline.restart, hp, hps, hc, hcs, hs, hss]

/-- A step that `Pipeline` does not see. -/
theorem abstract_eq (hbusy : t.busy = s.busy) (hpipe : s.busy = true → t.pipe = s.pipe)
    (hrest : Pipeline.restart t.pipe = Pipeline.restart s.pipe) : t.abstract = s.abstract := by
  cases h : s.busy with
  | true => rw [abstract_of_busy (hbusy.trans h), abstract_of_busy h, hpipe h]
  | false => rw [abstract_of_rest (hbusy.trans h), abstract_of_rest h, hrest]

theorem abstract_share (hbusy : s.busy = false) (hbusy' : (s.share life).busy = false) :
    (s.share life).abstract = s.abstract :=
  abstract_eq (hbusy'.trans hbusy.symm) (fun h => by cases hbusy.symm.trans h) rfl

theorem abstract_move (hbusy : s.busy = false) {pc : IniterPc} (hlive : life.live = some { th with pc })
    (hpc : hasThreads pc = false) : (s.share life).abstract = s.abstract :=
  abstract_share hbusy ((busy_of_some (s := s.share life) hlive).trans hpc)

/-- A step that `Pipeline` sees. -/
theorem step_abstract {b : Pipeline.Act} (hbusy : s.busy = true) (h : Pipeline.step s.pipe b = some t.pipe)
    (hbusy' : t.busy = true) : Pipeline.step s.abstract b = some t.abstract := by
  rw [abstract_of_busy hbusy, abstract_of_busy hbusy', h]

/-! ### Steps -/

theorem busy_handler (hsole : Sole s.life) (h : HandlerStep s.life life) :
    (s.share life).busy = s.busy ∧
      (s.busy = true → life.collSwitcher = s.life.collSwitcher ∧ life.collSwitcherSucc = s.life.collSwitcherSucc) := by
  have hrest : s.life.handler.starting = true → s.busy = false := fun h => busy_of_none (hsole.starting h)
  cases h with
  | clearSwitcher hpc | clearSwitcherSucc hpc =>
    refine ⟨rfl, fun hbusy => ?_⟩
    rw [hrest (by rw [hpc]; rfl)] at hbusy
    cases hbusy
  | spawn hpc =>
    have hnone : s.life.live = none := hsole.starting (by rw [hpc]; rfl)
    refine ⟨?_, fun _ => ⟨rfl, rfl⟩⟩
    rw [busy_of_none hnone]
    exact busy_of_some (s := s.share _) (live_spawn .upReply hnone)
  | shutStore hpc | ipcStore hpc =>
    refine ⟨?_, fun _ => ⟨rfl, rfl⟩⟩
    show s.life.ask.live.any _ = s.life.live.any _
    rw [live_ask, Option.any_map]
  | upDown | upUp | clearIniter | clearIniterSucc | upReply | shutUp | shutDown | shutWait | shutReply | ipcUp | ipcDown
  | ipcAck | ipcWait | ipcReply | statusReply => exact ⟨rfl, fun _ => ⟨rfl, rfl⟩⟩

theorem abstract_handlerStep (hi : Linked s) (hsole : Sole s.life) (h : handlerStep s = some t) :
    t.abstract = s.abstract := by
  obtain ⟨hclear, h⟩ | ⟨-, h⟩ := ite_eq_iff.mp h
  · cases h
    have hrest : s.busy = false := busy_of_none (hsole.starting (by rw [hclear.1]; rfl))
    exact abstract_eq rfl (fun hbusy => by cases hrest.symm.trans hbusy) (restart_clear _)
  · obtain ⟨life, hlife, rfl⟩ := Option.map_eq_some_iff.mp h
    obtain ⟨hbusy, hflags⟩ := busy_handler hsole (Lifecycle.handlerStep_inv hlife)
    refine abstract_eq hbusy (fun hb => ?_) rfl
    obtain ⟨hstop, hsucc⟩ := hflags hb
    rw [hi.share_eq life hstop hsucc]

/-- What `Pipeline` sees of a step: nothing, or a step of its own. -/
theorem abstract_initerStep (hi : Linked s) (hsole : Sole s.life) (h : initerStep s k = some t) :
    t.abstract = s.abstract ∨ ∃ b, Pipeline.step s.abstract b = some t.abstract := by
  obtain ⟨th, life, hth, -, hstep, hcases⟩ := Collector.initerStep_inv h
  have hfin := hstep.not_finished
  have hlive := hsole.alone.live_eq hth hfin
  have hmove := hsole.alone.live_move hth hfin
  have hbusy := busy_of_some hlive
  rcases hcases with ⟨hpc, hhint, -, rfl⟩ | ⟨hrun, hjoined, rfl⟩
  · -- the start that `Pipeline` was about to do
    refine .inl ?_
    rw [hpc] at hbusy
    cases hstep with
    | run =>
      have hdown : Down 6 s.pipe := hi.fresh th hlive (by rw [hpc]; rfl)
      have hbusy' := busy_of_some (s := { s with life := s.life.move k th .running, pipe := launch s.pipe }) (hmove _)
      rw [abstract_of_busy hbusy', abstract_of_rest hbusy]
      exact launch_eq_restart hdown
    | unauthorized _ hno => cases hno.symm.trans hhint
    | up hpc' | hint hpc' | noHint hpc' | breakOff hpc' | again hpc' | stopped hpc' | close hpc' | switcherGone hpc'
    | ack hpc' | clear hpc' | finish hpc' => cases hpc.symm.trans hpc'
  · cases hstep with
    | up hpc | hint hpc | noHint hpc | breakOff hpc | again hpc | unauthorized hpc | ack hpc | clear hpc =>
      rw [hpc] at hbusy
      exact .inl (abstract_move hbusy (hmove _) rfl)
    | finish hpc =>
      rw [hpc] at hbusy
      exact .inl (abstract_share hbusy (busy_of_none (hmove .finished)))
    | run hpc hhint => exact absurd ⟨hpc, hhint⟩ hrun
    | stopped hpc =>
      rw [hpc] at hbusy
      rw [hi.share_eq (s.life.move k th .closing) rfl rfl]
      have hbusy' := busy_of_some (s := { s with life := s.life.move k th .closing }) (hmove _)
      exact .inl (abstract_eq (hbusy'.trans hbusy.symm) (fun _ => rfl) rfl)
    | close hpc =>
      rw [hpc] at hbusy
      have hbusy' := busy_of_some (s := s.share _) (hmove .waitSwitcher)
      refine .inr ⟨.stop, step_abstract hbusy ?_ hbusy'⟩
      have hpipe : State.pipe (s.share { s.life.move k th .waitSwitcher with collSwitcher := true }) =
          { s.pipe with collSwitcher := true } := by
        rw [State.share, show State.collSwitcherSucc { s.life.move k th .waitSwitcher with collSwitcher := true } =
          s.pipe.collSwitcherSucc from hi.succ.symm]
      exact congrArg some hpipe.symm
    | switcherGone hpc =>
      rw [hpc] at hbusy
      have hbusy' := busy_of_some (s := s.share _) (hmove .acking)
      refine .inr ⟨.restart, ?_⟩
      rw [abstract_of_busy hbusy]
      exact (if_pos (ended_iff.mp (hjoined hpc))).trans (congrArg some (abstract_of_rest hbusy').symm)

theorem abstract_pipeStep (hi : Linked s) {b : Pipeline.Act} (hb : isThread b = true) (h : pipeStep s b = some t) :
    Pipeline.step s.abstract b = some t.abstract := by
  obtain ⟨p', hp', rfl⟩ := Option.map_eq_some_iff.mp h
  have hbusy : s.busy = true := by
    by_contra hno
    have hended := (hi.still fun th hth => by
      rw [busy_of_some hth] at hno
      simpa using hno).1
    cases (step_of_ended hb hended).symm.trans h
  exact step_abstract hbusy hp' hbusy

theorem abstract_step (hi : Linked s) (hsole : Sole s.life) (hs : step s a = some t) :
    t.abstract = s.abstract ∨ ∃ b, Pipeline.step s.abstract b = some t.abstract := by
  cases a with
  | request r =>
    obtain ⟨life, hlife, rfl⟩ := Option.map_eq_some_iff.mp hs
    obtain ⟨-, hlife⟩ := Option.ite_none_right_eq_some.mp hlife
    cases hlife
    exact .inl rfl
  | handler => exact .inl (abstract_handlerStep hi hsole hs)
  | initer k => exact abstract_initerStep hi hsole hs
  | producer incoming | consumer need | switcher => exact .inr ⟨_, abstract_pipeStep hi rfl hs⟩
  | setAuthHint flag =>
    cases hs
    exact .inl rfl
  | resetTgfid =>
    cases hs
    refine .inr ⟨.resetTgfid, ?_⟩
    cases hbusy : s.busy with
    | true => exact step_abstract hbusy rfl hbusy
    | false =>
      rw [abstract_of_rest hbusy]
      exact congrArg some (abstract_of_rest (s := { s with pipe := { s.pipe with tgfid := -1 } }) hbusy).symm

/-! ### Runs -/

theorem abstract_step_of_reachable (h : system.ReachableBy InTime s) (hs : step s a = some t) :
    t.abstract = s.abstract ∨ ∃ b, Pipeline.step s.abstract b = some t.abstract := by
  obtain ⟨hlife, hi⟩ := linked_of_reachable h
  exact abstract_step hi (sole_of_reachable (hlife.mono fun _ _ hok => hok.startsInSight)) hs

theorem simulation_pipeline : system.Simulation InTime Pipeline.system State.abstract where
  init := by
    rintro s ⟨authHint, tgfid, rfl⟩
    exact ⟨tgfid, rfl⟩
  step _ _ _ h _ hs := abstract_step_of_reachable h hs

/-- The runs of the collector that meet `InTime` are runs of `Pipeline`, with at most one step for each of theirs.
    While the three threads exist, their state is that of `Pipeline`; else it is the one with the flags down. -/
theorem refines_pipeline :
    (∀ s a t, system.ReachableBy InTime s → step s a = some t →
      t.abstract = s.abstract ∨ ∃ b, Pipeline.step s.abstract b = some t.abstract) ∧
    (∀ authHint tgfid as t, system.runBy InTime (start authHint tgfid) as = some t →
      ∃ bs : List (Option Pipeline.Act), bs.length = as.length ∧
        Pipeline.system.run (Pipeline.start tgfid) bs.reduceOption = some t.abstract) ∧
    ∀ s, system.ReachableBy InTime s →
      Pipeline.system.Reachable s.abstract ∧
        (s.abstract = s.pipe ∨ ended s.pipe = true ∧ s.abstract = Pipeline.restart s.pipe) := by
  refine ⟨fun s a t h hs => abstract_step_of_reachable h hs, fun authHint tgfid as t hr => ?_,
    fun s h => ⟨simulation_pipeline.reachable h, ?_⟩⟩
  · exact simulation_pipeline.run (.init ⟨authHint, tgfid, rfl⟩) as hr
  · cases hbusy : s.busy with
    | true => exact .inl (abstract_of_busy hbusy)
    | false =>
      refine .inr ⟨((linked_of_reachable h).2.still fun th hth => ?_).1, abstract_of_rest hbusy⟩
      rw [busy_of_some hth] at hbusy
      exact hbusy

end

end TgFocus.Collector
