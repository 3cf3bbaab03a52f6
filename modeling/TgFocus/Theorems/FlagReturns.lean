import TgFocus.Theorems.ConsumerStop

/-! The way of the hand-off flag back to the producer. The consumer takes the flag down at the end of a
    round, but a round in which it tries to create the chat begins again without that. It does so for ever
    when there is no chat, none was tried and the client is not authorized: the authorization would be
    fetched by the producer, which waits for the flag. -/

namespace TgFocus.Pipeline
open Transition

/-- A round can neither go on to the queue nor create the chat. -/
def State.stalled (s : State) : Prop := s.tgfid = -1 ∧ s.triedCTgfchat = false ∧ s.isAuth = false

instance (s : State) : Decidable s.stalled := inferInstanceAs (Decidable (_ ∧ _))

/-- On the way to the store that takes the flag down. -/
def ConsumerPc.goesOn : ConsumerPc → Bool
  | .readTried true | .locking | .sizeTest | .batch _ | .examine _ | .collecting _ | .clearing | .unlocking
  | .storing => true
  | _ => false

/-- While a round is stalled, and the consumer is not yet past the point where this matters, the producer
    does not begin to wait for the raised flag, and the switcher does not raise it for a producer that
    waits; nor does taking back the chat stall the round of such a producer. -/
def NotStalled (s : State) : Act → Prop
  | .producer _ =>
    s.producer = .loopTest → s.collProducer = false → s.doCsmMq = true → s.stalled → s.consumer.goesOn = true
  | .switcher => s.switcher = .raising → s.producer = .waiting → ¬s.stalled
  | .resetTgfid =>
    s.producer = .waiting → s.doCsmMq = true → s.triedCTgfchat = false → s.isAuth = false → s.consumer.goesOn = true
  | _ => True

instance (s : State) (a : Act) : Decidable (NotStalled s a) := by
  unfold NotStalled
  split <;> infer_instance

/-- The producer does not wait for a flag that stays up. -/
def Moving (s : State) : Prop :=
  s.producer = .waiting → s.doCsmMq = true → s.stalled → s.consumer.goesOn = true

/-- The switcher has seen the flag down and is about to raise it, and nobody else raises it. -/
def Lowered (s : State) : Prop :=
  s.switcher = .locking ∨ s.switcher = .sizeTest ∨ s.switcher = .raising → s.doCsmMq = false

/-- A consumer that has ended was asked to. -/
def Asked (s : State) : Prop := s.consumer = .done → s.collConsumer = true

section
variable {s t : State} {a : Act} {ok : State → Act → Prop}

/-! ### Steps -/

theorem Moving.producerStep {incoming : Incoming} (hok : NotStalled s (.producer incoming)) (h : ProducerStep s t) :
    Moving t := by
  cases h with
  | goOn hpc hstop => exact fun _ hflag hst => hok hpc hstop hflag hst
  | leave | fetch | nothing | message | command | authReady | created | answered | lost | lock | insert | unlock
  | forget | ack => exact fun hw => by cases hw

/-- Behind the reads of a round nothing keeps the consumer from the store. -/
theorem Moving.consumerStep (hm : Moving s) (h : ConsumerStep s t) : Moving t := by
  cases h with
  | toLock | lock | toBatch | noBatch | batchEnd | breakOff | next | recognise | need | noNeed | collect | clear
  | unlock => exact fun _ _ _ => rfl
  | tryCreate => exact fun _ _ hst => by cases hst.2.1
  | store => exact fun _ hflag => by cases hflag
  | leave hpc | goOn hpc | wake hpc | readTgfid hpc | toCreate hpc | noCreate hpc | sendCreate hpc | ack hpc =>
    -- the consumer was not on its way, so the round was not stalled
    intro hw hflag hst
    have hgo := hm hw (by assumption) hst
    rw [hpc] at hgo
    cases hgo

theorem Moving.switcherStep (hm : Moving s) (hd : Shutdown s) (hok : NotStalled s .switcher) (h : SwitcherStep s t) :
    Moving t := by
  cases h with
  | raise hpc => exact fun hw _ hst => absurd hst (hok hpc hw)
  | force hpc =>
    intro hw
    have hdone : s.producer = .done := hd.producerGone (by rw [hpc]; rfl)
    rw [show s.producer = .waiting from hw] at hdone
    cases hdone
  | leave | goOn | slept | paused | notPaused | raised | toLock | lock | toRaise | empty | unlock | closeProducer
  | producerGone | closeConsumer | consumerGone | ack => exact hm

theorem Moving.step (hm : Moving s) (hd : Shutdown s) (hok : NotStalled s a) (hs : step s a = some t) : Moving t := by
  cases a with
  | producer incoming => exact Moving.producerStep hok (producerStep_inv hs)
  | consumer need => exact hm.consumerStep (consumerStep_inv hs)
  | switcher => exact hm.switcherStep hd hok (switcherStep_inv hs)
  | stop =>
    cases hs
    exact hm
  | restart =>
    obtain ⟨-, hs⟩ := Option.ite_none_right_eq_some.mp hs
    cases hs
    exact fun hw => by cases hw
  | resetTgfid =>
    cases hs
    exact fun hw hflag hst => hok hw hflag hst.2.1 hst.2.2

theorem moving_of_reachable (h : system.ReachableBy NotStalled s) : Moving s := by
  refine h.invariant_of (fun _ => base_of_reachable) ?_ fun s a t hb hm hok hs => hm.step hb.shutdown hok hs
  rintro s ⟨tgfid, rfl⟩
  exact fun hw => by cases hw

theorem Lowered.consumerStep (hl : Lowered s) (h : ConsumerStep s t) : Lowered t := by
  cases h with
  | store => exact fun _ => rfl
  | leave | goOn | wake | readTgfid | toCreate | toLock | tryCreate | noCreate | sendCreate | lock | toBatch | noBatch
  | batchEnd | breakOff | next | recognise | need | noNeed | collect | clear | unlock | ack => exact hl

theorem Lowered.switcherStep (hl : Lowered s) (h : SwitcherStep s t) : Lowered t := by
  cases h with
  | toLock hpc hflag => exact fun _ => hflag
  | lock hpc => exact fun _ => hl (Or.inl hpc)
  | toRaise hpc => exact fun _ => hl (Or.inr (Or.inl hpc))
  | leave | goOn | slept | paused | notPaused | raised | empty | raise | unlock | closeProducer | producerGone | force
  | closeConsumer | consumerGone | ack => rintro (hs | hs | hs) <;> cases hs

theorem Lowered.step (hl : Lowered s) (hs : step s a = some t) : Lowered t := by
  cases a with
  | producer incoming => cases producerStep_inv hs <;> exact hl
  | consumer need => exact hl.consumerStep (consumerStep_inv hs)
  | switcher => exact hl.switcherStep (switcherStep_inv hs)
  | stop | resetTgfid =>
    cases hs
    exact hl
  | restart =>
    obtain ⟨-, hs⟩ := Option.ite_none_right_eq_some.mp hs
    cases hs
    rintro (hs | hs | hs) <;> cases hs

theorem lowered_of_reachable (h : system.ReachableBy ok s) : Lowered s := by
  refine h.invariant ?_ fun s a t hl _ hs => hl.step hs
  rintro s ⟨tgfid, rfl⟩
  rintro (hs | hs | hs) <;> cases hs

theorem Asked.consumerStep (hd : Shutdown s) (h : ConsumerStep s t) : Asked t := by
  cases h with
  | ack hpc => exact fun _ => hd.consumerLeft hpc
  | leave | goOn | wake | readTgfid | toCreate | toLock | tryCreate | noCreate | sendCreate | lock | toBatch | noBatch
  | batchEnd | breakOff | next | recognise | need | noNeed | collect | clear | unlock | store =>
    exact fun hc => by cases hc

theorem Asked.switcherStep (ha : Asked s) (h : SwitcherStep s t) : Asked t := by
  cases h with
  | closeConsumer => exact fun _ => rfl
  | leave | goOn | slept | paused | notPaused | raised | toLock | lock | toRaise | empty | raise | unlock
  | closeProducer | producerGone | force | consumerGone | ack => exact ha

theorem Asked.step (ha : Asked s) (hd : Shutdown s) (hs : step s a = some t) : Asked t := by
  cases a with
  | producer incoming => cases producerStep_inv hs <;> exact ha
  | consumer need => exact Asked.consumerStep hd (consumerStep_inv hs)
  | switcher => exact ha.switcherStep (switcherStep_inv hs)
  | stop | resetTgfid =>
    cases hs
    exact ha
  | restart =>
    obtain ⟨-, hs⟩ := Option.ite_none_right_eq_some.mp hs
    cases hs
    exact fun hc => by cases hc

theorem asked_of_reachable (h : system.ReachableBy ok s) : Asked s := by
  refine h.invariant_of (fun _ => base_of_reachable) ?_ fun s a t hb ha _ hs => ha.step hb.shutdown hs
  rintro s ⟨tgfid, rfl⟩
  exact fun hc => by cases hc

/-! ### The way to the store -/

/-- A round that finds no chat goes back to the loop once, to create it. -/
def State.createRank (s : State) : Nat := if s.isTgfidValid || s.triedCTgfchat then 0 else 6

@[simp] theorem createRank_consumer (s : State) (inflight : List Query) (pc : ConsumerPc) :
    { s with inflight := inflight, consumer := pc }.createRank = s.createRank := rfl

/-- How far the consumer is from the store that takes the flag down. -/
def State.flagRank (s : State) : Nat :=
  let rest (it : Nat) := 3 * (s.mq.length - it)
  match s.consumer with
  | .exiting | .done => 0
  | .storing => 1
  | .unlocking => 2
  | .clearing => 3
  | .collecting it => 2 + rest it
  | .examine it => 3 + rest it
  | .batch it => 4 + rest it
  | .sizeTest => 5 + rest 0
  | .locking => 6 + rest 0
  | .readTried isValid => if isValid || s.triedCTgfchat then 7 + rest 0 else 13 + rest 0
  | .readTgfid => 8 + rest 0 + s.createRank
  | .waiting => 9 + rest 0 + s.createRank
  | .loopTest => 10 + rest 0 + s.createRank
  | .creatingSend => 11 + rest 0 + s.createRank
  | .creating => 12 + rest 0

theorem ConsumerStep.flagRank_lt (hq : InQueue s) (hgo : s.stalled → s.consumer.goesOn = true)
    (hstop : s.collConsumer = false) (h : ConsumerStep s t) (hflag : t.doCsmMq = true)
    (hne : s.consumer ≠ .exiting) : t.flagRank < s.flagRank := by
  cases h with
  | leave hpc hasked | breakOff it hpc hit hasked =>
    rw [hstop] at hasked
    cases hasked
  | ack hpc => exact absurd hpc hne
  | store => cases hflag
  | noCreate hpc h =>
    -- the chat is there or was tried, so this was not the round that creates it
    have hback : s.isTgfidValid = true ∨ s.triedCTgfchat = true := by
      by_contra hno
      simp only [not_or, Bool.not_eq_true] at hno
      have hauth : s.isAuth = false := by
        by_contra hauth
        exact h ⟨by simpa using hauth, hno.1, hno.2⟩
      have hgo' := hgo ⟨by simpa [State.isTgfidValid] using hno.1, hno.2, hauth⟩
      rw [hpc] at hgo'
      cases hgo'
    have hrank : s.createRank = 0 := if_pos (by simpa using hback)
    simp only [State.flagRank, hpc, createRank_consumer, hrank]
    omega
  | tryCreate hpc hauth hinvalid htried =>
    simp only [State.flagRank, hpc, State.createRank, Bool.or_true, ↓reduceIte]
    omega
  | toLock isValid hpc h =>
    have hcond : (isValid || s.triedCTgfchat) = true := by simpa using h
    simp only [State.flagRank, hpc, hcond, ↓reduceIte]
    omega
  | toCreate hpc htried =>
    simp only [State.flagRank, hpc, htried, Bool.or_false, Bool.false_eq_true, ↓reduceIte]
    omega
  | readTgfid hpc =>
    cases hc : s.isTgfidValid || s.triedCTgfchat <;>
      simp only [State.flagRank, hpc, State.createRank, hc, Bool.false_eq_true, ↓reduceIte] <;> omega
  | batchEnd hpc | clear hpc | unlock hpc | lock hpc | toBatch hpc | noBatch hpc | next _ hpc | need _ _ hpc =>
    simp only [State.flagRank, hpc]
    omega
  | recognise it curr hpc | noNeed it curr hpc =>
    have hlt := hq.examine it hpc
    simp only [State.flagRank, hpc]
    omega
  | collect it curr hpc =>
    have hlt := hq.collecting it hpc
    simp only [State.flagRank, hpc]
    omega
  | goOn hpc | wake hpc | sendCreate hpc =>
    simp only [State.flagRank, hpc, createRank_consumer]
    omega

theorem SwitcherPc.pastProducer_of_pastStop {pc : SwitcherPc} (h : pc.pastStop = true) : pc.pastProducer = true := by
  cases pc <;> first | rfl | cases h

/-- The producer waits, and the switcher is not at the queue. -/
structure Waiting (s : State) : Prop where
  base : Base s
  asked : Asked s
  waits : s.producer = .waiting
  out : s.switcher.locked = false

/-- While the producer waits, the shutdown has not come to the consumer. -/
theorem Waiting.notAsked (hw : Waiting s) : s.collConsumer = false := by
  by_contra hasked
  have hpast : s.switcher.pastStop = true := hw.base.shutdown.consumerAsked.mp (by simpa using hasked)
  have hdone := hw.base.shutdown.producerGone (SwitcherPc.pastProducer_of_pastStop hpast)
  rw [hw.waits] at hdone
  cases hdone

theorem Waiting.inside (hw : Waiting s) : s.consumer ≠ .exiting ∧ s.consumer ≠ .done := by
  have hstop := hw.notAsked
  refine ⟨fun hc => ?_, fun hc => ?_⟩
  · rw [hw.base.shutdown.consumerLeft hc] at hstop
    cases hstop
  · rw [hw.asked hc] at hstop
    cases hstop

structure Returning (s : State) : Prop extends Waiting s where
  moving : Moving s

theorem Returning.kept {need : Bool} (hr : Returning s) (hs : step s (.consumer need) = some t) : Returning t where
  base := hr.base.step hs
  asked := hr.asked.step hr.base.shutdown hs
  moving := hr.moving.consumerStep (consumerStep_inv hs)
  waits := by
    rw [← hr.waits]
    cases consumerStep_inv hs <;> rfl
  out := by
    rw [← hr.out]
    cases consumerStep_inv hs <;> rfl

theorem Returning.progress (hr : Returning s) (hflag : s.doCsmMq = true) :
    ∃ t, step s (.consumer false) = some t ∧ Returning t ∧ (t.doCsmMq = true → t.flagRank < s.flagRank) := by
  have hfree : s.consumer = .locking → s.mqLock = none := fun hc =>
    hr.base.locks.free (by rw [hr.waits]; rfl) (by rw [hc]; rfl) hr.out
  have hsome : (consumerStep s false).isSome = true :=
    consumerStep_isSome hr.base.inQueue (fun _ => hflag) hfree hr.inside.2
  obtain ⟨t, ht⟩ := Option.isSome_iff_exists.mp hsome
  exact ⟨t, ht, hr.kept ht, fun ht' =>
    (consumerStep_inv ht).flagRank_lt hr.base.inQueue (hr.moving hr.waits hflag) hr.notAsked ht' hr.inside.1⟩

theorem Returning.canReach (hr : Returning s) :
    system.CanReach (·.isConsumer = true) (fun t => t.doCsmMq = false) s := by
  refine .of_rank (I := Returning) (fun s => if s.doCsmMq then s.flagRank + 1 else 0) (fun s hr => ?_) hr
  cases hflag : s.doCsmMq with
  | false => exact Or.inl rfl
  | true =>
    obtain ⟨t, ht, hr', hlt⟩ := hr.progress hflag
    refine Or.inr ⟨.consumer false, t, rfl, ht, hr', ?_⟩
    cases hflag' : t.doCsmMq with
    | false => simp
    | true => simpa using hlt hflag'

/-! ### Stalled rounds -/

/-- A stalled round that is not on its way to the store begins again and again. -/
structure Circling (s : State) : Prop where
  stalled : s.stalled
  flag : s.doCsmMq = true
  notAsked : s.collConsumer = false
  circles : s.consumer.goesOn = false
  inside : s.consumer ≠ .exiting ∧ s.consumer ≠ .done

theorem Circling.consumerStep (hc : Circling s) (h : ConsumerStep s t) : Circling t := by
  obtain ⟨hst, hflag, hstop, hgo, hin⟩ := hc
  obtain ⟨hid, htried, hauth⟩ := hst
  cases h with
  | goOn | wake | toCreate | noCreate | sendCreate =>
    exact ⟨⟨hid, htried, hauth⟩, hflag, hstop, rfl, by simp⟩
  | readTgfid =>
    have hinvalid : s.isTgfidValid = false := by simpa [State.isTgfidValid] using hid
    exact ⟨⟨hid, htried, hauth⟩, hflag, hstop, by rw [hinvalid]; rfl, by simp⟩
  | leave hpc hasked =>
    rw [hstop] at hasked
    cases hasked
  | toLock isValid hpc h =>
    rw [htried] at h
    rw [hpc, h.resolve_right (by simp)] at hgo
    cases hgo
  | tryCreate hpc hauth' =>
    rw [hauth] at hauth'
    cases hauth'
  | ack hpc => exact absurd hpc hin.1
  | lock hpc | toBatch hpc | noBatch hpc | batchEnd hpc | breakOff _ hpc | next _ hpc | recognise _ _ hpc
  | need _ _ hpc | noNeed _ _ hpc | collect _ _ hpc | clear hpc | unlock hpc | store hpc =>
    rw [hpc] at hgo
    cases hgo

theorem Circling.not_canReach (hc : Circling s) :
    ¬system.CanReach (·.isConsumer = true) (fun t => t.doCsmMq = false) s := by
  refine System.not_canReach_of_invariant (I := Circling) hc (fun s a t hc ha hs => ?_) fun s hc => ?_
  · cases a with
    | consumer need => exact hc.consumerStep (consumerStep_inv hs)
    | producer | switcher | stop | restart | resetTgfid => cases ha
  · rw [hc.flag]
    simp

/-- Where the producer waits for the flag, the consumer can take it down by steps of its own unless its
    round is stalled. -/
theorem Waiting.canReach_iff (hw : Waiting s) (hflag : s.doCsmMq = true) :
    system.CanReach (·.isConsumer = true) (fun t => t.doCsmMq = false) s ↔
      (s.stalled → s.consumer.goesOn = true) := by
  refine ⟨fun h hst => ?_, fun h => Returning.canReach ⟨hw, fun _ _ => h⟩⟩
  by_contra hgo
  exact Circling.not_canReach ⟨hst, hflag, hw.notAsked, by simpa using hgo, hw.inside⟩ h

/-- In runs in which no round is stalled while the producer waits for the flag, the consumer can take the
    flag down by steps of its own in every state in which the producer waits for it; when the switcher is
    at the queue, once it has let go of the lock, which is its next step. -/
theorem flag_returns (h : system.ReachableBy NotStalled s) (hw : s.producer = .waiting) (hflag : s.doCsmMq = true) :
    (s.mqLock ≠ some .switcher → system.CanReach (·.isConsumer = true) (fun t => t.doCsmMq = false) s) ∧
      (s.mqLock = some .switcher → ∃ t, step s .switcher = some t ∧ t.mqLock = none ∧ t.producer = .waiting ∧
        system.CanReach (·.isConsumer = true) (fun t => t.doCsmMq = false) t) := by
  have hb := base_of_reachable h
  have ha := asked_of_reachable h
  have hm := moving_of_reachable h
  refine ⟨fun hno => ?_, fun hlock => ?_⟩
  · have hout : s.switcher.locked = false := by
      by_contra hsw
      exact hno (hb.locks.switcher.mp (by simpa using hsw))
    exact (Waiting.canReach_iff ⟨hb, ha, hw, hout⟩ hflag).mpr (hm hw hflag)
  · -- the flag is up, so the switcher has raised it already
    have hsw : s.switcher = .unlocking := by
      have hat := hb.locks.switcher.mpr hlock
      have hlow := lowered_of_reachable h
      cases hsw : s.switcher with
      | unlocking => rfl
      | sizeTest | raising =>
        rw [hlow (by simp [hsw])] at hflag
        cases hflag
      | loopTest | sleeping | pauseTest | flagTest | locking | closing | awaitProducer | forcing | stopping
      | awaitConsumer | acking | done =>
        rw [hsw] at hat
        cases hat
    have hs : step s .switcher = some { s with mqLock := none, switcher := .loopTest } := by
      simp only [step, switcherStep, hsw]
    have hwait : Waiting { s with mqLock := none, switcher := .loopTest } := ⟨hb.step hs, ha.step hb.shutdown hs, hw, rfl⟩
    exact ⟨_, hs, rfl, hw, (hwait.canReach_iff hflag).mpr (hm hw hflag)⟩

end

/-! ### Runs -/

/-- The consumer ends, and the collector is started again. -/
def stopConsumer : List Act := [.switcher, .consumer true, .consumer true, .switcher, .switcher, .restart]

theorem flag_returns_run :
    ∃ s : State, s.producer = .waiting ∧ s.doCsmMq = true ∧
      ((s.mqLock ≠ some .switcher → system.CanReach (·.isConsumer = true) (fun t => t.doCsmMq = false) s) ∧
        (s.mqLock = some .switcher → ∃ t, step s .switcher = some t ∧ t.mqLock = none ∧ t.producer = .waiting ∧
          system.CanReach (·.isConsumer = true) (fun t => t.doCsmMq = false) t)) :=
  have h : system.ReachableBy NotStalled _ :=
    .runBy (.init ⟨1, rfl⟩) (stopProducer ++ stopConsumer ++ [.producer .nothing]) rfl
  ⟨_, rfl, rfl, flag_returns h rfl rfl⟩

/-- A collector without authorization is stopped and started again: the flag, raised to wake the consumer
    up, is still up, and the consumer goes round and round while the producer waits. -/
theorem flag_stuck :
    ∃ s, system.Reachable s ∧ s.producer = .waiting ∧ s.doCsmMq = true ∧ s.mqLock = none ∧
      ¬system.CanReach (·.isConsumer = true) (fun t => t.doCsmMq = false) s :=
  ⟨_, Transition.System.Reachable.run (.init ⟨-1, rfl⟩)
    (stopProducer ++ stopConsumer ++ [.producer .nothing]) rfl, rfl, rfl, rfl,
    Circling.not_canReach ⟨⟨rfl, rfl, rfl⟩, rfl, rfl, rfl, by decide⟩⟩

end TgFocus.Pipeline
