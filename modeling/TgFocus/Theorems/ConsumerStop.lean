import TgFocus.Theorems.PipelineInv

/-! Stopping the consumer. The switcher first raises the hand-off flag, to wake the consumer up, and then
    asks it to stop. A consumer that ends its round between the two stores takes the flag back and waits
    for it again, and nobody raises it any more. In every other case the consumer ends by itself. -/

namespace TgFocus.Pipeline
open Transition

/-- The consumer does not begin to wait between the two stores without the flag. -/
def NoLateWait (s : State) (a : Act) : Prop :=
  ¬(a.isConsumer = true ∧ s.switcher = .stopping ∧ s.doCsmMq = false ∧ s.consumer = .loopTest)

instance (s : State) (a : Act) : Decidable (NoLateWait s a) := inferInstanceAs (Decidable (¬_))

/-- Behind the store that raises the flag a consumer that waits finds it raised. -/
def Awake (s : State) : Prop :=
  s.switcher = .stopping ∨ s.switcher = .awaitConsumer → s.consumer = .waiting → s.doCsmMq = true

section
variable {s t : State} {a : Act} {need : Bool}

theorem Awake.producerStep (ha : Awake s) (h : ProducerStep s t) : Awake t := by
  cases h <;> exact ha

theorem Awake.consumerStep (hd : Shutdown s) (hok : NoLateWait s (.consumer need))
    (h : ConsumerStep s t) : Awake t := by
  cases h with
  | goOn hpc hstop =>
    rintro (hs | hs) -
    · -- between the two stores the flag is still raised
      by_contra hflag
      exact hok ⟨rfl, hs, by simpa using hflag, hpc⟩
    · rw [hd.consumerAsked.mpr (by rw [show s.switcher = .awaitConsumer from hs]; rfl)] at hstop
      cases hstop
  | leave | wake | readTgfid | toCreate | toLock | tryCreate | noCreate | sendCreate | lock | toBatch | noBatch
  | batchEnd | breakOff | next | recognise | need | noNeed | collect | clear | unlock | store | ack =>
    intro _ hc
    cases hc

theorem Awake.switcherStep (ha : Awake s) (h : SwitcherStep s t) : Awake t := by
  cases h with
  | force hpc => exact fun _ _ => rfl
  | closeConsumer hpc => exact fun _ => ha (Or.inl hpc)
  | leave | goOn | slept | paused | notPaused | raised | toLock | lock | toRaise | empty | raise | unlock
  | closeProducer | producerGone | consumerGone | ack => rintro (hs | hs) <;> cases hs

theorem Awake.step (ha : Awake s) (hb : Base s) (hok : NoLateWait s a) (hs : step s a = some t) : Awake t := by
  cases a with
  | producer incoming => exact ha.producerStep (producerStep_inv hs)
  | consumer need => exact Awake.consumerStep hb.shutdown hok (consumerStep_inv hs)
  | switcher => exact ha.switcherStep (switcherStep_inv hs)
  | stop | resetTgfid =>
    cases hs
    exact ha
  | restart =>
    obtain ⟨-, hs⟩ := Option.ite_none_right_eq_some.mp hs
    cases hs
    rintro (hs | hs) <;> cases hs

/-! ### The way to the end -/

/-- How far the consumer is from its end when it is asked to stop. -/
def ConsumerPc.rank : ConsumerPc → Nat
  | .done => 0
  | .exiting => 1
  | .loopTest => 2
  | .storing | .creatingSend => 3
  | .unlocking | .creating => 4
  | .clearing => 5
  | .batch _ => 6
  | .collecting _ => 7
  | .examine _ => 8
  | .sizeTest => 9
  | .locking => 10
  | .readTried _ => 11
  | .readTgfid => 12
  | .waiting => 13

theorem ConsumerStep.rank_lt (h : ConsumerStep s t) (hstop : s.collConsumer = true) :
    t.consumer.rank < s.consumer.rank := by
  cases h with
  | goOn hpc hno | next it hpc hit hno =>
    rw [hstop] at hno
    cases hno
  | leave hpc | wake hpc | readTgfid hpc | toCreate hpc | toLock _ hpc | tryCreate hpc | noCreate hpc
  | sendCreate hpc | lock hpc | toBatch hpc | noBatch hpc | batchEnd hpc | breakOff _ hpc | recognise _ _ hpc
  | need _ _ hpc | noNeed _ _ hpc | collect _ _ hpc | clear hpc | unlock hpc | store hpc | ack hpc =>
    rw [hpc]
    simp [ConsumerPc.rank]

theorem mqLock_eq_none (hb : Base s) (hw : s.switcher = .awaitConsumer) (hc : s.consumer.locked = false) :
    s.mqLock = none := by
  have hdone : s.producer = .done := hb.shutdown.producerGone (by rw [hw]; rfl)
  exact hb.locks.free (by rw [hdone]; rfl) hc (by rw [hw]; rfl)

/-- Only the flag, the lock and the end can hold the consumer up. -/
theorem consumerStep_isSome (hq : InQueue s) (hflag : s.consumer = .waiting → s.doCsmMq = true)
    (hfree : s.consumer = .locking → s.mqLock = none) (hne : s.consumer ≠ .done) :
    (consumerStep s need).isSome = true := by
  cases hpc : s.consumer with
  | waiting => simp [consumerStep, hpc, hflag hpc]
  | locking => simp [consumerStep, hpc, hfree hpc]
  | examine it =>
    simp only [consumerStep, hpc, List.getElem?_eq_getElem (hq.examine it hpc), Option.bind_eq_bind, Option.bind_some]
    cases need <;> simp only [↓reduceIte, Bool.false_eq_true] <;> split <;> rfl
  | collecting it =>
    simp only [consumerStep, hpc, List.getElem?_eq_getElem (hq.collecting it hpc), Option.bind_eq_bind,
      Option.bind_some, Option.isSome_some]
  | loopTest | readTried isValid | creating | sizeTest =>
    simp only [consumerStep, hpc]
    split <;> rfl
  | batch it =>
    simp only [consumerStep, hpc]
    split
    · rfl
    · split <;> rfl
  | readTgfid | creatingSend | clearing | unlocking | storing | exiting => simp [consumerStep, hpc]
  | done => exact absurd hpc hne

structure Ending (s : State) : Prop where
  base : Base s
  awake : Awake s
  waits : s.switcher = .awaitConsumer

theorem Ending.asked (he : Ending s) : s.collConsumer = true :=
  he.base.shutdown.consumerAsked.mpr (by rw [he.waits]; rfl)

theorem Ending.kept (he : Ending s) (hs : step s (.consumer need) = some t) : Ending t where
  base := he.base.step hs
  awake := by
    refine he.awake.step he.base ?_ hs
    rintro ⟨-, hsw, -⟩
    rw [he.waits] at hsw
    cases hsw
  waits := by
    rw [← he.waits]
    cases consumerStep_inv hs <;> rfl

/-- A consumer for which the switcher waits has a step towards its end. -/
theorem Ending.progress (he : Ending s) (hne : s.consumer ≠ .done) :
    ∃ t, step s (.consumer false) = some t ∧ Ending t ∧ t.consumer.rank < s.consumer.rank := by
  have hsome : (consumerStep s false).isSome = true :=
    consumerStep_isSome he.base.inQueue (he.awake (Or.inr he.waits))
      (fun hpc => mqLock_eq_none he.base he.waits (by rw [hpc]; rfl)) hne
  obtain ⟨t, ht⟩ := Option.isSome_iff_exists.mp hsome
  exact ⟨t, ht, he.kept ht, (consumerStep_inv ht).rank_lt he.asked⟩

theorem Ending.canReach (he : Ending s) : system.CanReach (·.isConsumer = true) (fun t => t.collConsumerSucc = true) s := by
  refine .of_rank (I := Ending) (fun s => s.consumer.rank) (fun s he => ?_) he
  by_cases hdone : s.consumer = .done
  · exact Or.inl (he.base.shutdown.consumerAck.mpr hdone)
  · obtain ⟨t, ht, hend, hlt⟩ := he.progress hdone
    exact Or.inr ⟨.consumer false, t, rfl, ht, hend, hlt⟩

theorem awake_of_reachable (h : system.ReachableBy NoLateWait s) : Awake s := by
  refine h.invariant_of (fun _ => base_of_reachable) ?_ fun s a t hb ha hok hs => ha.step hb hok hs
  rintro s ⟨tgfid, rfl⟩
  rintro (hs | hs) <;> cases hs

/-- In runs in which the consumer does not begin to wait between the two stores of the switcher without
    the flag, a consumer for which the switcher waits can end by steps of its own, and it is not blocked
    with the flag down. -/
theorem consumer_stops (h : system.ReachableBy NoLateWait s) (hw : s.switcher = .awaitConsumer) :
    system.CanReach (·.isConsumer = true) (fun t => t.collConsumerSucc = true) s ∧
      ¬(s.consumer = .waiting ∧ s.doCsmMq = false) := by
  have ha := awake_of_reachable h
  refine ⟨Ending.canReach ⟨base_of_reachable h, ha, hw⟩, ?_⟩
  rintro ⟨hpc, hflag⟩
  rw [ha (Or.inr hw) hpc] at hflag
  cases hflag

end

/-! ### Runs -/

/-- The consumer waits for the flag from the start and is woken up by the store that raises it. -/
theorem consumer_stops_waiting :
    ∃ s : State, s.consumer = .waiting ∧
      (system.CanReach (·.isConsumer = true) (fun t => t.collConsumerSucc = true) s ∧
        ¬(s.consumer = .waiting ∧ s.doCsmMq = false)) :=
  have h : system.ReachableBy NoLateWait _ :=
    .runBy (.init ⟨1, rfl⟩) ([.consumer true] ++ stopProducer ++ [.switcher]) rfl
  ⟨_, rfl, consumer_stops h rfl⟩

/-- The consumer ends its round between the two stores: it waits, and no step of its own is possible. -/
theorem consumer_stuck :
    ∃ s, system.Reachable s ∧ s.switcher = .awaitConsumer ∧
      ¬system.CanReach (·.isConsumer = true) (fun t => t.collConsumerSucc = true) s := by
  refine ⟨_, Transition.System.Reachable.run (.init ⟨1, rfl⟩)
    ([.consumer true] ++ stopProducer ++ emptyRound ++ [.switcher]) rfl, rfl, ?_⟩
  refine Transition.System.not_canReach_of_blocked ?_ (fun h => by cases h)
  intro a ha
  cases a with
  | consumer need => rfl
  | producer | switcher | stop | restart | resetTgfid => cases ha

end TgFocus.Pipeline
