import TgFocus.Theorems.PipelineInv

/-! Producer and consumer take turns with the collector. While the hand-off flag is raised the producer is
    outside `fetch_updates`, and the consumer is in a round only while the flag is raised. The switcher
    breaks this when it raises the flag for the queue while the producer is inside. -/

namespace TgFocus.Pipeline
open Transition

/-- Inside `collect_msg` or `try_create_tgfchat`. -/
def ConsumerPc.usesCollector : ConsumerPc → Bool
  | .creating | .creatingSend | .collecting _ => true
  | _ => false

theorem ConsumerPc.inRound_of_usesCollector {pc : ConsumerPc} (h : pc.usesCollector = true) : pc.inRound = true := by
  cases pc <;> first | rfl | cases h

/-- The switcher does not raise the flag for the queue while the producer is inside `fetch_updates`. -/
def RaisesOutsideFetch (s : State) (a : Act) : Prop :=
  ¬(a = .switcher ∧ s.switcher = .raising ∧ s.producer.inFetch = true)

instance (s : State) (a : Act) : Decidable (RaisesOutsideFetch s a) := inferInstanceAs (Decidable (¬_))

structure Handoff (s : State) : Prop where
  outside : s.doCsmMq = true → s.producer.inFetch = false
  inRound : s.consumer.inRound = true → s.doCsmMq = true

section
variable {s t : State} {a : Act}

theorem Handoff.producerStep (hh : Handoff s) (h : ProducerStep s t) : Handoff t := by
  cases h with
  | fetch hpc hflag =>
    refine ⟨fun h => ?_, hh.inRound⟩
    rw [hflag] at h
    cases h
  | message msg hpc | lost chat msg hpc | lock msg hpc | insert msg hpc =>
    -- the producer is inside already, and so the flag is not raised
    refine ⟨fun h => absurd (hh.outside h) ?_, hh.inRound⟩
    rw [hpc]
    exact nofun
  | leave | goOn | nothing | command | authReady | created | answered | unlock | forget | ack =>
    exact ⟨fun _ => rfl, hh.inRound⟩

theorem Handoff.consumerStep (hh : Handoff s) (h : ConsumerStep s t) : Handoff t := by
  refine ⟨?_, Flagged.consumerStep hh.inRound h⟩
  cases h with
  | store => exact nofun
  | leave | goOn | wake | readTgfid | toCreate | toLock | tryCreate | noCreate | sendCreate | lock | toBatch | noBatch
  | batchEnd | breakOff | next | recognise | need | noNeed | collect | clear | unlock | ack => exact hh.outside

theorem Handoff.switcherStep (hh : Handoff s) (hd : Shutdown s) (hok : RaisesOutsideFetch s .switcher)
    (h : SwitcherStep s t) : Handoff t := by
  obtain ⟨ho, hr⟩ := hh
  cases h with
  | raise hpc =>
    have hout : s.producer.inFetch = false := by
      simpa [RaisesOutsideFetch, hpc] using hok
    exact ⟨fun _ => hout, fun _ => rfl⟩
  | force hpc =>
    have hdone : s.producer = .done := hd.producerGone (by rw [hpc]; rfl)
    exact ⟨fun _ => by rw [hdone]; rfl, fun _ => rfl⟩
  | leave | goOn | slept | paused | notPaused | raised | toLock | lock | toRaise | empty | unlock
  | closeProducer | producerGone | closeConsumer | consumerGone | ack => exact ⟨ho, hr⟩

theorem Handoff.step (hh : Handoff s) (hb : Base s) (hok : RaisesOutsideFetch s a) (hs : step s a = some t) :
    Handoff t := by
  cases a with
  | producer incoming => exact hh.producerStep (producerStep_inv hs)
  | consumer need => exact hh.consumerStep (consumerStep_inv hs)
  | switcher => exact hh.switcherStep hb.shutdown hok (switcherStep_inv hs)
  | stop | resetTgfid =>
    cases hs
    exact ⟨hh.outside, hh.inRound⟩
  | restart =>
    obtain ⟨-, hs⟩ := Option.ite_none_right_eq_some.mp hs
    cases hs
    exact ⟨fun _ => rfl, fun h => by cases h⟩

/-- In runs in which the flag is raised for the queue only while the producer is outside `fetch_updates`,
    producer and consumer never use the collector at the same time. -/
theorem collector_exclusive (h : system.ReachableBy RaisesOutsideFetch s) :
    ¬(s.producer.inFetch = true ∧ s.consumer.usesCollector = true) := by
  have hinv : Handoff s := by
    refine h.invariant_of (fun _ => base_of_reachable) ?_ fun s a t hb hh hok hs => hh.step hb hok hs
    rintro s ⟨tgfid, rfl⟩
    exact ⟨fun h => (by cases h), fun h => (by cases h)⟩
  rintro ⟨hfetch, huse⟩
  have hflag := hinv.inRound (ConsumerPc.inRound_of_usesCollector huse)
  rw [hinv.outside hflag] at hfetch
  cases hfetch

end

/-! ### Runs -/

theorem collector_exclusive_run :
    ∃ s : State, s.consumer = .collecting 0 ∧ ¬(s.producer.inFetch = true ∧ s.consumer.usesCollector = true) :=
  have h : system.ReachableBy RaisesOutsideFetch _ := .runBy (.init ⟨1, rfl⟩)
    (fetchOne someMsg ++ [.producer .nothing] ++ raiseFlag ++ beginBatch ++ [.consumer true]) rfl
  ⟨_, rfl, collector_exclusive h⟩

/-- The switcher raises the flag while the producer waits in `receive`, and the consumer collects. -/
theorem collector_shared :
    ∃ s, system.Reachable s ∧ s.producer.inFetch = true ∧ s.consumer.usesCollector = true :=
  ⟨_, Transition.System.Reachable.run (.init ⟨1, rfl⟩)
    (fetchOne someMsg ++ [.producer .nothing, .producer .nothing] ++ raiseFlag ++ beginBatch ++ [.consumer true])
    rfl, rfl, rfl⟩

end TgFocus.Pipeline
