import TgFocus.Theorems.PipelineInv

/-! The pause. Only the switcher looks at it, before it looks at the hand-off flag, and the flag is all
    that the consumer obeys: a switcher that is past its look at the pause, a flag that is already up, and
    the flag that is raised for the shutdown each begin a batch while the pause lasts. -/

namespace TgFocus.Pipeline
open Transition

/-- From the beginning of the loop, or behind it, to the end of the round. -/
def ConsumerPc.pastBegin : ConsumerPc → Bool
  | .batch _ | .examine _ | .collecting _ | .clearing | .unlocking | .storing => true
  | _ => false

/-- Past its look at the pause, and not at an empty queue. -/
def SwitcherPc.mayRaise (mq : List Queued) : SwitcherPc → Bool
  | .flagTest | .locking | .raising => true
  | .sizeTest => mq ≠ []
  | _ => false

/-- A consumer that finds the flag up has begun its batch, or finds no message. -/
def State.nothingToBegin (s : State) : Prop := s.consumer.pastBegin = true ∨ s.mq = []

instance (s : State) : Decidable s.nothingToBegin := inferInstanceAs (Decidable (_ ∨ _))

/-- A pause begins when the switcher is not about to raise the flag, and when the flag, if it is up, begins
    nothing; the shutdown raises the flag during a pause only if that begins nothing. -/
def PausesInTime (s : State) (a : Act) : Prop :=
  (a = .producer (.command true) ∧ s.producer = .fetching ∧ s.pauseDoCsmMq = false →
    s.switcher.mayRaise s.mq = false ∧ (s.doCsmMq = true → s.nothingToBegin)) ∧
  (a = .switcher ∧ s.switcher = .forcing ∧ s.pauseDoCsmMq = true → s.nothingToBegin)

instance (s : State) (a : Act) : Decidable (PausesInTime s a) := inferInstanceAs (Decidable (_ ∧ _))

/-- While the pause lasts nobody is about to raise the flag for the queue, and a flag that is up begins
    nothing, now or later. -/
structure Held (s : State) : Prop where
  raised : s.pauseDoCsmMq = true → s.switcher.mayRaise s.mq = false
  begun : s.pauseDoCsmMq = true → s.doCsmMq = true →
    s.consumer.pastBegin = true ∨ (s.mq = [] ∧ s.producer.inFetch = false)

section
variable {s t : State} {a : Act} {need : Bool} {incoming : Incoming}

theorem ProducerStep.fetching_of_pause (h : ProducerStep s t) (hs : s.pauseDoCsmMq = false)
    (ht : t.pauseDoCsmMq = true) : s.producer = .fetching := by
  cases h with
  | command pause hpc => exact hpc
  | leave | goOn | fetch | nothing | message | authReady | created | answered | lost | lock | insert | unlock
  | forget | ack => cases hs.symm.trans ht

/-- A pause begins with the command. -/
theorem command_of_pause (h : producerStep s incoming = some t) (hs : s.pauseDoCsmMq = false)
    (ht : t.pauseDoCsmMq = true) : incoming = .command true ∧ s.producer = .fetching := by
  have hpc := (producerStep_inv h).fetching_of_pause hs ht
  refine ⟨?_, hpc⟩
  simp only [producerStep, hpc] at h
  cases incoming with
  | command pause =>
    cases h
    rw [show pause = true from ht]
  | nothing | message msg | authReady =>
    cases h
    cases hs.symm.trans ht
  | answer q r =>
    obtain ⟨-, h⟩ := Option.ite_none_right_eq_some.mp h
    have hpause : (callback { s with inflight := s.inflight.erase q } q r).pauseDoCsmMq = s.pauseDoCsmMq := by
      unfold callback
      split <;> rfl
    rw [← Option.some.inj h, hpause, hs] at ht
    cases ht

/-! ### What the threads keep -/

theorem Held.producerStep (hh : Held s) (hl : Locks s) (hok : PausesInTime s (.producer incoming))
    (h : producerStep s incoming = some t) : Held t := by
  by_cases hpause : s.pauseDoCsmMq = false ∧ t.pauseDoCsmMq = true
  · -- the pause begins here
    obtain ⟨rfl, hpc⟩ := command_of_pause h hpause.1 hpause.2
    obtain ⟨hraise, hbegin⟩ := hok.1 ⟨rfl, hpc, hpause.1⟩
    simp only [Pipeline.producerStep, hpc, receive] at h
    cases h
    refine ⟨fun _ => hraise, fun _ hflag => ?_⟩
    rcases hbegin hflag with hc | hmq
    · exact Or.inl hc
    · exact Or.inr ⟨hmq, rfl⟩
  · have hold : t.pauseDoCsmMq = true → s.pauseDoCsmMq = true := by
      intro ht
      by_contra hs
      exact hpause ⟨by simpa using hs, ht⟩
    have hbegun : t.pauseDoCsmMq = true → s.doCsmMq = true →
        s.consumer.pastBegin = true ∨ (s.mq = [] ∧ s.producer.inFetch = false) := fun ht => hh.begun (hold ht)
    cases producerStep_inv h with
    | insert msg hpc =>
      have hlock : s.mqLock = some .producer := hl.producer.mp (by rw [hpc]; rfl)
      refine ⟨fun ht => ?_, fun ht hflag => ?_⟩
      · -- the producer has the lock, so the switcher does not look at the queue
        have hraise := hh.raised (hold ht)
        cases hsw : s.switcher with
        | sizeTest =>
          rw [hl.switcher.mp (by rw [hsw]; rfl)] at hlock
          cases hlock
        | flagTest | locking | raising =>
          rw [hsw] at hraise
          cases hraise
        | loopTest | sleeping | pauseTest | unlocking | closing | awaitProducer | forcing | stopping
        | awaitConsumer | acking | done => rfl
      · rcases hbegun ht hflag with hc | ⟨-, hout⟩
        · exact Or.inl hc
        · rw [hpc] at hout
          cases hout
    | leave hpc | goOn hpc | ack hpc =>
      refine ⟨fun ht => hh.raised (hold ht), fun ht hflag => ?_⟩
      rcases hbegun ht hflag with hc | ⟨hmq, -⟩
      · exact Or.inl hc
      · exact Or.inr ⟨hmq, rfl⟩
    | fetch hpc hdown =>
      refine ⟨fun ht => hh.raised (hold ht), fun _ hflag => ?_⟩
      cases hdown.symm.trans hflag
    | nothing hpc | message _ hpc | command _ hpc | authReady hpc | created _ hpc | answered _ hpc | lost _ _ hpc
    | lock _ hpc | unlock hpc | forget hpc =>
      refine ⟨fun ht => hh.raised (hold ht), fun ht hflag => ?_⟩
      rcases hbegun ht hflag with hc | ⟨-, hout⟩
      · exact Or.inl hc
      · rw [hpc] at hout
        cases hout

theorem Held.consumerStep (hh : Held s) (h : ConsumerStep s t) : Held t := by
  cases h with
  | clear hpc =>
    refine ⟨fun ht => ?_, fun _ _ => Or.inl rfl⟩
    have hraise := hh.raised ht
    cases hsw : s.switcher <;> rw [hsw] at hraise <;> first | rfl | cases hraise
  | store hpc => exact ⟨hh.raised, fun _ hflag => by cases hflag⟩
  | toBatch hpc | noBatch hpc | batchEnd hpc | breakOff _ hpc | next _ hpc | recognise _ _ hpc | need _ _ hpc
  | noNeed _ _ hpc | collect _ _ hpc | unlock hpc => exact ⟨hh.raised, fun _ _ => Or.inl rfl⟩
  | leave hpc | goOn hpc | wake hpc | readTgfid hpc | toCreate hpc | toLock _ hpc | tryCreate hpc | noCreate hpc
  | sendCreate hpc | lock hpc | ack hpc =>
    refine ⟨hh.raised, fun ht hflag => ?_⟩
    have hbegun := hh.begun ht hflag
    rw [hpc] at hbegun
    exact Or.inr (hbegun.resolve_left (by simp [ConsumerPc.pastBegin]))

theorem Held.switcherStep (hh : Held s) (hd : Shutdown s) (hok : PausesInTime s .switcher) (h : SwitcherStep s t) :
    Held t := by
  cases h with
  | notPaused hpc hpause =>
    exact ⟨fun ht => (by cases hpause.symm.trans ht), fun ht => (by cases hpause.symm.trans ht)⟩
  | toLock hpc | lock hpc | raise hpc =>
    -- the switcher is not at these places while the pause lasts
    refine ⟨fun ht => ?_, fun ht => ?_⟩ <;>
    · have hraise := hh.raised ht
      rw [hpc] at hraise
      cases hraise
  | toRaise hpc hsize =>
    have hno : s.pauseDoCsmMq = true → False := by
      intro ht
      have hraise := hh.raised ht
      rw [hpc] at hraise
      simp only [SwitcherPc.mayRaise, ne_eq, decide_not, Bool.not_eq_false', decide_eq_true_eq] at hraise
      rw [hraise] at hsize
      cases hsize
    exact ⟨fun ht => (hno ht).elim, fun ht => (hno ht).elim⟩
  | force hpc =>
    have hdone : s.producer = .done := hd.producerGone (by rw [hpc]; rfl)
    refine ⟨fun _ => rfl, fun ht _ => ?_⟩
    rcases hok.2 ⟨rfl, hpc, ht⟩ with hc | hmq
    · exact Or.inl hc
    · exact Or.inr ⟨hmq, by rw [hdone]; rfl⟩
  | leave | goOn | slept | paused | raised | empty | unlock | closeProducer | producerGone | closeConsumer
  | consumerGone | ack => exact ⟨fun _ => rfl, hh.begun⟩

theorem Held.step (hh : Held s) (hb : Base s) (hok : PausesInTime s a) (hs : step s a = some t) : Held t := by
  cases a with
  | producer incoming => exact hh.producerStep hb.locks hok hs
  | consumer need => exact hh.consumerStep (consumerStep_inv hs)
  | switcher => exact hh.switcherStep hb.shutdown hok (switcherStep_inv hs)
  | stop | resetTgfid =>
    cases hs
    exact ⟨hh.raised, hh.begun⟩
  | restart =>
    obtain ⟨⟨-, hdone, -⟩, hs⟩ := Option.ite_none_right_eq_some.mp hs
    cases hs
    refine ⟨fun _ => rfl, fun ht hflag => ?_⟩
    rcases hh.begun ht hflag with hc | ⟨hmq, -⟩
    · rw [hdone] at hc
      cases hc
    · exact Or.inr ⟨hmq, rfl⟩

theorem held_of_reachable (h : system.ReachableBy PausesInTime s) : Held s := by
  refine h.invariant_of (fun _ => base_of_reachable) ?_ fun s a t hb hh hok hs => hh.step hb hok hs
  rintro s ⟨tgfid, rfl⟩
  exact ⟨fun ht => (by cases ht), fun ht => (by cases ht)⟩

/-- In runs in which every pause comes in time, the consumer begins no batch while a pause lasts. -/
theorem no_batch_in_pause (h : system.ReachableBy PausesInTime s) (hpause : s.pauseDoCsmMq = true)
    (hs : step s (.consumer need) = some t) : ¬(s.consumer = .sizeTest ∧ t.consumer = .batch 0) := by
  rintro ⟨hpc, hbatch⟩
  have hflag : s.doCsmMq = true := flagged_of_reachable h (by rw [hpc]; rfl)
  have hmq : s.mq = [] := by
    rcases (held_of_reachable h).begun hpause hflag with hc | ⟨hmq, -⟩
    · rw [hpc] at hc
      cases hc
    · exact hmq
  have hnot : ¬(s.mq.length > 0 ∧ s.isTgfidValid = true) := by
    rw [hmq]
    exact fun h => absurd h.1 (Nat.lt_irrefl 0)
  simp only [step, consumerStep, hpc, if_neg hnot] at hs
  cases hs
  cases hbatch

end

/-! ### Runs -/

def pause : List Act := [.producer .nothing, .producer .nothing, .producer (.command true)]

/-- The collector is stopped during a pause; the consumer finds the queue empty. -/
theorem no_batch_in_pause_run :
    ∃ s t : State, s.pauseDoCsmMq = true ∧ s.consumer = .sizeTest ∧ step s (.consumer true) = some t ∧
      ¬(s.consumer = .sizeTest ∧ t.consumer = .batch 0) :=
  have h : system.ReachableBy PausesInTime _ := .runBy (.init ⟨1, rfl⟩)
    (pause ++ stopProducer ++ [.consumer true, .consumer true, .consumer true, .consumer true, .consumer true]) rfl
  ⟨_, _, rfl, rfl, rfl, @no_batch_in_pause _ _ true h rfl rfl⟩

/-- The pause begins between the switcher's look at it and the raising of the flag; the consumer begins a
    batch and hands over its first message while the pause lasts. -/
theorem batch_in_pause :
    ∃ s t u, system.Reachable s ∧ s.pauseDoCsmMq = true ∧ s.consumer = .sizeTest ∧
      step s (.consumer true) = some t ∧ t.consumer = .batch 0 ∧
      system.run t [.consumer true, .consumer true, .consumer true] = some u ∧ u.pauseDoCsmMq = true ∧
      u.collected = [0] := by
  refine ⟨_, _, _, Transition.System.Reachable.run (.init ⟨1, rfl⟩)
    (fetchOne someMsg ++ [.switcher, .switcher, .switcher, .switcher] ++ pause ++
      [.switcher, .switcher, .switcher, .switcher] ++
      [.consumer true, .consumer true, .consumer true, .consumer true, .consumer true]) rfl, rfl, rfl, rfl, rfl, rfl,
    rfl, ?_⟩
  rfl

end TgFocus.Pipeline
