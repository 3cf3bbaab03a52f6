import TgFocus.Theorems.PipelineSteps

/-! What holds in every state of the pipeline: who holds the lock of the queue, and in which order the
    threads end. The switcher goes on only when the producer has ended, and the consumer is asked to stop
    only then. -/

namespace TgFocus.Pipeline
open Transition

/-! ### Places in the threads -/

def Act.isConsumer : Act → Bool
  | .consumer _ => true
  | _ => false

def ProducerPc.inFetch : ProducerPc → Bool
  | .fetching | .locking _ | .inserting _ | .unlocking | .forgetting => true
  | _ => false

def ProducerPc.locked : ProducerPc → Bool
  | .inserting _ | .unlocking => true
  | _ => false

/-- Between the return from `do_csm_mq.wait (false)` and the end of the round. -/
def ConsumerPc.inRound : ConsumerPc → Bool
  | .loopTest | .waiting | .exiting | .done => false
  | _ => true

def ConsumerPc.locked : ConsumerPc → Bool
  | .sizeTest | .batch _ | .examine _ | .collecting _ | .clearing | .unlocking => true
  | _ => false

def SwitcherPc.locked : SwitcherPc → Bool
  | .sizeTest | .raising | .unlocking => true
  | _ => false

/-- Behind the wait for the producer. -/
def SwitcherPc.pastProducer : SwitcherPc → Bool
  | .forcing | .stopping | .awaitConsumer | .acking | .done => true
  | _ => false

/-- At the head of the consumer's loop with a message of the `size` left. -/
def ConsumerPc.hasNext (size : Nat) : ConsumerPc → Bool
  | .batch it => it ≠ size
  | _ => false

/-- Behind the store that asks the consumer to stop. -/
def SwitcherPc.pastStop : SwitcherPc → Bool
  | .awaitConsumer | .acking | .done => true
  | _ => false

/-! ### What was collected -/

def Event.collected? : Event → Option Nat
  | .collected uid => some uid
  | _ => none

/-- The messages handed to `collect_msg`, by the numbers they got on arrival. -/
def State.collected (s : State) : List Nat := s.log.filterMap Event.collected?

theorem collected_append {s t : State} {e : Event} (h : t.log = s.log ++ [e]) :
    t.collected = s.collected ++ e.collected?.toList := by
  rw [State.collected, h, List.filterMap_append, State.collected]
  cases e <;> rfl

/-! ### The lock -/

/-- The lock is held by the thread that is at a place with the lock. -/
structure Locks (s : State) : Prop where
  producer : s.producer.locked = true ↔ s.mqLock = some .producer
  consumer : s.consumer.locked = true ↔ s.mqLock = some .consumer
  switcher : s.switcher.locked = true ↔ s.mqLock = some .switcher

section
variable {s t : State} {a : Act} {ok : State → Act → Prop}

/-- A step within, or without, the places with the lock. -/
theorem Locks.keep (hl : Locks s) (hp : t.producer.locked = s.producer.locked)
    (hc : t.consumer.locked = s.consumer.locked) (hs : t.switcher.locked = s.switcher.locked)
    (hlock : t.mqLock = s.mqLock) : Locks t := by
  refine ⟨?_, ?_, ?_⟩
  · rw [hp, hlock]
    exact hl.producer
  · rw [hc, hlock]
    exact hl.consumer
  · rw [hs, hlock]
    exact hl.switcher

/-- While another thread has the lock, or nobody, the thread is at a place without it. -/
theorem Locks.producer_of_ne (hl : Locks s) (h : s.mqLock ≠ some .producer) : s.producer.locked = false :=
  Bool.eq_false_iff.mpr fun hp => h (hl.producer.mp hp)

theorem Locks.consumer_of_ne (hl : Locks s) (h : s.mqLock ≠ some .consumer) : s.consumer.locked = false :=
  Bool.eq_false_iff.mpr fun hc => h (hl.consumer.mp hc)

theorem Locks.switcher_of_ne (hl : Locks s) (h : s.mqLock ≠ some .switcher) : s.switcher.locked = false :=
  Bool.eq_false_iff.mpr fun hs => h (hl.switcher.mp hs)

/-- While the producer has the lock, the consumer is at a place without it. -/
theorem Locks.consumer_out (hl : Locks s) (hp : s.producer.locked = true) : s.consumer.locked = false :=
  hl.consumer_of_ne (by simp [hl.producer.mp hp])

theorem Locks.of_free (hp : s.producer.locked = false) (hc : s.consumer.locked = false)
    (hs : s.switcher.locked = false) (hlock : s.mqLock = none) : Locks s := by
  refine ⟨?_, ?_, ?_⟩
  · rw [hp, hlock]
    exact iff_of_false Bool.false_ne_true nofun
  · rw [hc, hlock]
    exact iff_of_false Bool.false_ne_true nofun
  · rw [hs, hlock]
    exact iff_of_false Bool.false_ne_true nofun

theorem Locks.producerStep (hl : Locks s) (h : ProducerStep s t) : Locks t := by
  cases h with
  | lock msg hpc hfree =>
    have hc := hl.consumer_of_ne (by simp [hfree])
    have hs := hl.switcher_of_ne (by simp [hfree])
    exact ⟨iff_of_true rfl rfl, by simp [hc], by simp [hs]⟩
  | unlock hpc =>
    have hlock : s.mqLock = some .producer := hl.producer.mp (by rw [hpc]; rfl)
    exact .of_free rfl (hl.consumer_of_ne (by simp [hlock])) (hl.switcher_of_ne (by simp [hlock])) rfl
  | leave hpc | goOn hpc | fetch hpc | nothing hpc | message msg hpc | command pause hpc | authReady hpc
  | created chat hpc | answered q hpc | lost chat msg hpc | insert msg hpc | forget hpc | ack hpc =>
    exact hl.keep (by rw [hpc]; rfl) rfl rfl rfl

theorem Locks.consumerStep (hl : Locks s) (h : ConsumerStep s t) : Locks t := by
  cases h with
  | lock hpc hfree =>
    have hp := hl.producer_of_ne (by simp [hfree])
    have hs := hl.switcher_of_ne (by simp [hfree])
    exact ⟨by simp [hp], iff_of_true rfl rfl, by simp [hs]⟩
  | unlock hpc =>
    have hlock : s.mqLock = some .consumer := hl.consumer.mp (by rw [hpc]; rfl)
    exact .of_free (hl.producer_of_ne (by simp [hlock])) rfl (hl.switcher_of_ne (by simp [hlock])) rfl
  | leave hpc | goOn hpc | wake hpc | readTgfid hpc | toCreate hpc | toLock isValid hpc | tryCreate hpc | noCreate hpc
  | sendCreate hpc | toBatch hpc | noBatch hpc | batchEnd hpc | breakOff it hpc | next it hpc | recognise it curr hpc
  | need it curr hpc | noNeed it curr hpc | collect it curr hpc | clear hpc | store hpc | ack hpc =>
    exact hl.keep rfl (by rw [hpc]; rfl) rfl rfl

theorem Locks.switcherStep (hl : Locks s) (h : SwitcherStep s t) : Locks t := by
  cases h with
  | lock hpc hfree =>
    have hp := hl.producer_of_ne (by simp [hfree])
    have hc := hl.consumer_of_ne (by simp [hfree])
    exact ⟨by simp [hp], by simp [hc], iff_of_true rfl rfl⟩
  | unlock hpc =>
    have hlock : s.mqLock = some .switcher := hl.switcher.mp (by rw [hpc]; rfl)
    exact .of_free (hl.producer_of_ne (by simp [hlock])) (hl.consumer_of_ne (by simp [hlock])) rfl rfl
  | leave hpc | goOn hpc | slept hpc | paused hpc | notPaused hpc | raised hpc | toLock hpc | toRaise hpc | empty hpc
  | raise hpc | closeProducer hpc | producerGone hpc | force hpc | closeConsumer hpc | consumerGone hpc | ack hpc =>
    exact hl.keep rfl rfl (by rw [hpc]; rfl) rfl

/-- The lock is free when each thread is at a place without it. -/
theorem Locks.free (hl : Locks s) (hp : s.producer.locked = false) (hc : s.consumer.locked = false)
    (hs : s.switcher.locked = false) : s.mqLock = none := by
  cases hlock : s.mqLock with
  | none => rfl
  | some r =>
    cases r with
    | producer => rw [hl.producer.mpr hlock] at hp; cases hp
    | consumer => rw [hl.consumer.mpr hlock] at hc; cases hc
    | switcher => rw [hl.switcher.mpr hlock] at hs; cases hs

/-! ### The end of the threads -/

/-- The acknowledgements and requests of the shutdown agree with the places of the threads. -/
structure Shutdown (s : State) : Prop where
  producerAck : s.collProducerSucc = true → s.producer = .done
  producerGone : s.switcher.pastProducer = true → s.producer = .done
  consumerAsked : s.collConsumer = true ↔ s.switcher.pastStop = true
  consumerAck : s.collConsumerSucc = true ↔ s.consumer = .done
  consumerLeft : s.consumer = .exiting → s.collConsumer = true

theorem Shutdown.producerStep (hd : Shutdown s) (h : ProducerStep s t) : Shutdown t := by
  cases h with
  | ack hpc => exact ⟨fun _ => rfl, fun _ => rfl, hd.consumerAsked, hd.consumerAck, hd.consumerLeft⟩
  | leave hpc | goOn hpc | fetch hpc | nothing hpc | message msg hpc | command pause hpc | authReady hpc
  | created chat hpc | answered q hpc | lost chat msg hpc | lock msg hpc | insert msg hpc | unlock hpc | forget hpc =>
    refine ⟨fun h => ?_, fun h => ?_, hd.consumerAsked, hd.consumerAck, hd.consumerLeft⟩
    · exact absurd (hd.producerAck h) (by simp [hpc])
    · exact absurd (hd.producerGone h) (by simp [hpc])

theorem Shutdown.consumerStep (hd : Shutdown s) (h : ConsumerStep s t) : Shutdown t := by
  cases h with
  | leave hpc hstop =>
    refine ⟨hd.producerAck, hd.producerGone, hd.consumerAsked, ?_, fun _ => hstop⟩
    exact hd.consumerAck.trans (by simp [hpc])
  | ack hpc =>
    exact ⟨hd.producerAck, hd.producerGone, hd.consumerAsked, iff_of_true rfl rfl, nofun⟩
  | goOn hpc | wake hpc | readTgfid hpc | toCreate hpc | toLock isValid hpc | tryCreate hpc | noCreate hpc
  | sendCreate hpc | lock hpc | toBatch hpc | noBatch hpc | batchEnd hpc | breakOff it hpc | next it hpc
  | recognise it curr hpc | need it curr hpc | noNeed it curr hpc | collect it curr hpc | clear hpc | unlock hpc
  | store hpc =>
    exact ⟨hd.producerAck, hd.producerGone, hd.consumerAsked, hd.consumerAck.trans (by simp [hpc]), nofun⟩

theorem Shutdown.switcherStep (hd : Shutdown s) (h : SwitcherStep s t) : Shutdown t := by
  have hasked := hd.consumerAsked
  cases h with
  | producerGone hpc hsucc =>
    rw [hpc] at hasked
    exact ⟨hd.producerAck, fun _ => hd.producerAck hsucc, hasked, hd.consumerAck, hd.consumerLeft⟩
  | closeConsumer hpc =>
    have hgone := hd.producerGone (by rw [hpc]; rfl)
    exact ⟨hd.producerAck, fun _ => hgone, iff_of_true rfl rfl, hd.consumerAck, fun _ => rfl⟩
  | force hpc | consumerGone hpc | ack hpc =>
    have hgone := hd.producerGone (by rw [hpc]; rfl)
    rw [hpc] at hasked
    exact ⟨hd.producerAck, fun _ => hgone, hasked, hd.consumerAck, hd.consumerLeft⟩
  | leave hpc | goOn hpc | slept hpc | paused hpc | notPaused hpc | raised hpc | toLock hpc | lock hpc | toRaise hpc
  | empty hpc | raise hpc | unlock hpc | closeProducer hpc =>
    rw [hpc] at hasked
    exact ⟨hd.producerAck, nofun, hasked, hd.consumerAck, hd.consumerLeft⟩

/-! ### The batch -/

/-- The iterator of the consumer's loop stays inside the queue, which nobody changes meanwhile. -/
structure InQueue (s : State) : Prop where
  batch : ∀ it, s.consumer = .batch it → it ≤ s.mq.length
  examine : ∀ it, s.consumer = .examine it → it < s.mq.length
  collecting : ∀ it, s.consumer = .collecting it → it < s.mq.length

theorem InQueue.producerStep (hq : InQueue s) (hl : Locks s) (h : ProducerStep s t) : InQueue t := by
  cases h with
  | insert msg hpc =>
    have hout : s.consumer.locked = false := hl.consumer_out (by rw [hpc]; rfl)
    refine ⟨fun it hc => ?_, fun it hc => ?_, fun it hc => ?_⟩ <;>
    · rw [show s.consumer = _ from hc] at hout
      cases hout
  | leave | goOn | fetch | nothing | message | command | authReady | created | answered | lost | lock | unlock
  | forget | ack => exact ⟨hq.batch, hq.examine, hq.collecting⟩

theorem InQueue.consumerStep (hq : InQueue s) (h : ConsumerStep s t) : InQueue t := by
  obtain ⟨hb, he, hc⟩ := hq
  cases h with
  | next it hpc hit hstop =>
    have := hb it hpc
    constructor <;> simp
    omega
  | recognise it curr hpc hcurr | noNeed it curr hpc hcurr =>
    have := he it hpc
    constructor <;> simp
    omega
  | need it curr hpc hcurr =>
    have := he it hpc
    constructor <;> simp
    omega
  | collect it curr hpc hcurr =>
    have := hc it hpc
    constructor <;> simp
    omega
  | leave | goOn | wake | readTgfid | toCreate | toLock | tryCreate | noCreate | sendCreate | lock | toBatch
  | noBatch | batchEnd | breakOff | clear | unlock | store | ack => constructor <;> simp

theorem InQueue.switcherStep (hq : InQueue s) (h : SwitcherStep s t) : InQueue t := by
  cases h <;> exact ⟨hq.batch, hq.examine, hq.collecting⟩

/-! ### Reachable states -/

structure Base (s : State) : Prop where
  locks : Locks s
  shutdown : Shutdown s
  inQueue : InQueue s

theorem Base.start (tgfid : Int) : Base (start tgfid) where
  locks := by constructor <;> simp [Pipeline.start, ProducerPc.locked, ConsumerPc.locked, SwitcherPc.locked]
  shutdown := by constructor <;> simp [Pipeline.start, SwitcherPc.pastProducer, SwitcherPc.pastStop]
  inQueue := by constructor <;> simp [Pipeline.start]

/-- After a new start all threads are at their loops, and no flag of the shutdown is set. -/
theorem Base.restart (hb : Base s) (hdone : s.producer = .done ∧ s.consumer = .done ∧ s.switcher = .done) :
    Base (restart s) := by
  obtain ⟨⟨hp, hc, hs⟩, -, -⟩ := hb
  obtain ⟨hpd, hcd, hsd⟩ := hdone
  rw [hpd] at hp
  rw [hcd] at hc
  rw [hsd] at hs
  refine ⟨⟨hp, hc, hs⟩, ?_, ?_⟩
  · constructor <;> simp [Pipeline.restart, SwitcherPc.pastProducer, SwitcherPc.pastStop]
  · constructor <;> simp [Pipeline.restart]

theorem Base.step (hb : Base s) (hs : step s a = some t) : Base t := by
  obtain ⟨hl, hd, hq⟩ := hb
  cases a with
  | producer incoming =>
    have h := producerStep_inv hs
    exact ⟨hl.producerStep h, hd.producerStep h, hq.producerStep hl h⟩
  | consumer need =>
    have h := consumerStep_inv hs
    exact ⟨hl.consumerStep h, hd.consumerStep h, hq.consumerStep h⟩
  | switcher =>
    have h := switcherStep_inv hs
    exact ⟨hl.switcherStep h, hd.switcherStep h, hq.switcherStep h⟩
  | stop | resetTgfid =>
    cases hs
    exact ⟨⟨hl.producer, hl.consumer, hl.switcher⟩,
      ⟨hd.producerAck, hd.producerGone, hd.consumerAsked, hd.consumerAck, hd.consumerLeft⟩,
      ⟨hq.batch, hq.examine, hq.collecting⟩⟩
  | restart =>
    obtain ⟨hdone, hs⟩ := Option.ite_none_right_eq_some.mp hs
    cases hs
    exact Base.restart ⟨hl, hd, hq⟩ hdone

theorem base_of_reachable (h : system.ReachableBy ok s) : Base s := by
  refine h.invariant ?_ fun s a t hb _ hs => hb.step hs
  rintro s ⟨tgfid, rfl⟩
  exact Base.start tgfid

/-! ### The hand-off flag -/

/-- The consumer is in a round only while the flag is raised: nobody else takes it down. -/
def Flagged (s : State) : Prop := s.consumer.inRound = true → s.doCsmMq = true

theorem Flagged.consumerStep (hf : Flagged s) (h : ConsumerStep s t) : Flagged t := by
  cases h with
  | wake hpc hflag => exact fun _ => hflag
  | leave | goOn | noCreate | sendCreate | store | ack => exact nofun
  | readTgfid hpc | toCreate hpc | toLock isValid hpc | tryCreate hpc | lock hpc | toBatch hpc | noBatch hpc
  | batchEnd hpc | breakOff it hpc | next it hpc | recognise it curr hpc | need it curr hpc | noNeed it curr hpc
  | collect it curr hpc | clear hpc | unlock hpc =>
    exact fun _ => hf (by rw [hpc]; rfl)

theorem Flagged.step (hf : Flagged s) (hs : Pipeline.step s a = some t) : Flagged t := by
  cases a with
  | producer incoming => cases producerStep_inv hs <;> exact hf
  | consumer need => exact hf.consumerStep (consumerStep_inv hs)
  | switcher =>
    cases switcherStep_inv hs with
    | raise | force => exact fun _ => rfl
    | leave | goOn | slept | paused | notPaused | raised | toLock | lock | toRaise | empty | unlock
    | closeProducer | producerGone | closeConsumer | consumerGone | ack => exact hf
  | stop | resetTgfid =>
    cases hs
    exact hf
  | restart =>
    obtain ⟨-, hs⟩ := Option.ite_none_right_eq_some.mp hs
    cases hs
    exact fun h => by cases h

theorem flagged_of_reachable (h : system.ReachableBy ok s) : Flagged s := by
  refine h.invariant ?_ fun s a t hf _ hs => hf.step hs
  rintro s ⟨tgfid, rfl⟩
  exact fun h => by cases h

end

/-! ### Pieces of runs -/

def someMsg : TgMsg := { title := str "chat", sender := str "user", txt := str "text", tstamp := str "now", id := 0 }

def fetchOne (msg : TgMsg) : List Act :=
  [.producer .nothing, .producer .nothing, .producer (.message msg), .producer .nothing, .producer .nothing,
    .producer .nothing]

def raiseFlag : List Act :=
  [.switcher, .switcher, .switcher, .switcher, .switcher, .switcher, .switcher, .switcher]

def beginBatch : List Act :=
  [.consumer true, .consumer true, .consumer true, .consumer true, .consumer true, .consumer true, .consumer true]

/-- The rest of a batch of one needed message, and the end of the round. -/
def collectOne : List Act :=
  [.consumer true, .consumer true, .consumer true, .consumer true, .consumer true, .consumer true]

def emptyRound : List Act :=
  [.consumer true, .consumer true, .consumer true, .consumer true, .consumer true, .consumer true, .consumer true,
    .consumer true]

/-- The collector is asked to stop; the producer ends, and the switcher raises the flag. -/
def stopProducer : List Act :=
  [.stop, .switcher, .switcher, .producer .nothing, .producer .nothing, .switcher, .switcher]

end TgFocus.Pipeline
