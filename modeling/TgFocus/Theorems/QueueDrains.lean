import TgFocus.Theorems.FlagReturns
import TgFocus.Theorems.Settled
import TgFocus.Theorems.PauseStops

/-! Emptying the queue. A switcher that is not held up by the pause raises the flag for what is queued, and
    the consumer goes through all of it, once a producer that is at the queue has let go of the lock. In a
    pause only a flag that is already up, or that the switcher is about to raise, is left to begin a batch. -/

namespace TgFocus.Pipeline
open Transition

/-! ### Places -/

/-- Before the shutdown. -/
def SwitcherPc.inLoop : SwitcherPc → Bool
  | .loopTest | .sleeping | .pauseTest | .flagTest | .locking | .sizeTest | .raising | .unlocking => true
  | _ => false

/-- In a round, and past the queue. -/
def ConsumerPc.pastQueue : ConsumerPc → Bool
  | .unlocking | .storing => true
  | _ => false

/-- What `need_collect` says of the message that the consumer is at. -/
def State.answer (need : Queued → Bool) (s : State) : Bool :=
  match s.consumer with
  | .examine it => s.mq[it]?.any need
  | _ => false

/-- The three threads when nothing comes in, with an answer of `need_collect` for each message. -/
def quiet (need : Queued → Bool) : System State Role where
  init := system.init
  step s
    | .producer => producerStep s .nothing
    | .consumer => consumerStep s (s.answer need)
    | .switcher => switcherStep s

/-- The switcher can come to raise the flag, or the flag is up for a round that has not passed the queue. -/
def State.canBegin (s : State) : Prop :=
  s.pauseDoCsmMq = false ∨ s.switcher.mayRaise s.mq = true ∨ (s.doCsmMq = true ∧ s.consumer.pastQueue = false)

/-- The queue is empty, and every message that was ever in it has been examined once. -/
def State.drained (s : State) : Prop := s.mq = [] ∧ ∀ uid < s.inserted, Settled uid (s.history uid)

/-- A switcher that is not asked to stop is in its loop. -/
def Looping (s : State) : Prop := s.collSwitcher = false → s.switcher.inLoop = true

section
variable {s t : State} {a : Act} {b : Bool} {need : Queued → Bool} {ok : State → Act → Prop}

theorem Looping.switcherStep (hl : Looping s) (h : SwitcherStep s t) : Looping t := by
  cases h with
  | leave hpc hstop =>
    intro hno
    rw [show s.collSwitcher = false from hno] at hstop
    cases hstop
  | goOn | slept | paused | notPaused | raised | toLock | lock | toRaise | empty | raise | unlock => exact fun _ => rfl
  | closeProducer hpc | producerGone hpc | force hpc | closeConsumer hpc | consumerGone hpc | ack hpc =>
    intro hno
    have hloop := hl hno
    rw [hpc] at hloop
    cases hloop

theorem Looping.step (hl : Looping s) (hs : step s a = some t) : Looping t := by
  cases a with
  | producer incoming => cases producerStep_inv hs <;> exact hl
  | consumer need => cases consumerStep_inv hs <;> exact hl
  | switcher => exact hl.switcherStep (switcherStep_inv hs)
  | stop =>
    cases hs
    exact fun hno => by cases hno
  | restart =>
    obtain ⟨-, hs⟩ := Option.ite_none_right_eq_some.mp hs
    cases hs
    exact fun _ => rfl
  | resetTgfid =>
    cases hs
    exact hl

theorem looping_of_reachable (h : system.ReachableBy ok s) : Looping s := by
  refine h.invariant ?_ fun s a t hl _ hs => hl.step hs
  rintro s ⟨tgfid, rfl⟩
  exact fun _ => rfl

theorem SwitcherPc.mayRaise_of_ne_nil {pc : SwitcherPc} {mq mq' : List Queued} (h : mq ≠ []) (h' : mq' ≠ []) :
    pc.mayRaise mq' = pc.mayRaise mq := by
  cases pc with
  | sizeTest => simp [SwitcherPc.mayRaise, h, h']
  | _ => rfl

/-! ### A running collector -/

/-- The collector runs with a chat, and what is queued can be begun. -/
structure Draining (s : State) : Prop where
  base : Base s
  asked : Asked s
  flagged : Flagged s
  lowered : Lowered s
  ledger : Ledger s
  running : s.collSwitcher = false
  loops : s.switcher.inLoop = true
  chat : s.tgfid ≠ -1
  begins : s.mq = [] ∨ s.canBegin

theorem Draining.notAsked (hd : Draining s) : s.collConsumer = false := by
  by_contra hasked
  have hpast := hd.base.shutdown.consumerAsked.mp (by simpa using hasked)
  have hloop := hd.loops
  cases hpc : s.switcher <;> rw [hpc] at hpast hloop <;> first | (cases hpast; done) | cases hloop

theorem Draining.inside (hd : Draining s) : s.consumer ≠ .exiting ∧ s.consumer ≠ .done := by
  have hstop := hd.notAsked
  refine ⟨fun hc => ?_, fun hc => ?_⟩
  · rw [hd.base.shutdown.consumerLeft hc] at hstop
    cases hstop
  · rw [hd.asked hc] at hstop
    cases hstop

theorem Draining.drained (hd : Draining s) (hmq : s.mq = []) : s.drained :=
  ⟨hmq, fun uid hu => hd.ledger.gone uid hu fun q hq => by simp [hmq] at hq⟩

theorem Draining.of_step (hd : Draining s) (hs : step s a = some t) (hrun : t.collSwitcher = false)
    (hloop : t.switcher.inLoop = true) (hchat : t.tgfid ≠ -1) (hbegins : t.mq = [] ∨ t.canBegin) : Draining t where
  base := hd.base.step hs
  asked := hd.asked.step hd.base.shutdown hs
  flagged := hd.flagged.step hs
  lowered := hd.lowered.step hs
  ledger := hd.ledger.step hd.base (fun h => by simp [hd.notAsked] at h) hs
  running := hrun
  loops := hloop
  chat := hchat
  begins := hbegins

/-- With a chat a round passes the queue only when it is empty. -/
theorem Draining.begins_consumerStep (hd : Draining s) (h : ConsumerStep s t) : t.mq = [] ∨ t.canBegin := by
  cases h with
  | clear => exact Or.inl rfl
  | noBatch hpc h =>
    left
    by_contra hne
    exact h ⟨List.length_pos_iff.mpr hne, by simpa [State.isTgfidValid] using hd.chat⟩
  | unlock hpc | store hpc =>
    rcases hd.begins with hmq | hpause | hraise | ⟨-, hpast⟩
    · exact Or.inl hmq
    · exact Or.inr (Or.inl hpause)
    · exact Or.inr (Or.inr (Or.inl hraise))
    · rw [hpc] at hpast
      cases hpast
  | leave | goOn | wake | readTgfid | toCreate | toLock | tryCreate | noCreate | sendCreate | lock | toBatch
  | batchEnd | breakOff | next | recognise | need | noNeed | collect | ack =>
    rcases hd.begins with hmq | hpause | hraise | ⟨hflag, -⟩
    · exact Or.inl hmq
    · exact Or.inr (Or.inl hpause)
    · exact Or.inr (Or.inr (Or.inl hraise))
    · exact Or.inr (Or.inr (Or.inr ⟨hflag, rfl⟩))

theorem Draining.consumerStep (hd : Draining s) (hs : step s (.consumer b) = some t) : Draining t := by
  have h := consumerStep_inv hs
  refine hd.of_step hs ?_ ?_ ?_ (hd.begins_consumerStep h)
  · rw [← hd.running]
    cases h <;> rfl
  · rw [← hd.loops]
    cases h <;> rfl
  · cases h <;> exact hd.chat

/-! ### A round -/

/-- The flag is up, the consumer has not passed the queue, and nobody else is there. -/
structure Rounding (s : State) : Prop extends Draining s where
  flag : s.doCsmMq = true
  ahead : s.mq = [] ∨ s.consumer.pastQueue = false
  producerOut : s.producer.locked = false
  switcherOut : s.switcher.locked = false

theorem Rounding.consumerStep (hr : Rounding s) (hmq : s.mq ≠ []) (hs : step s (.consumer b) = some t) :
    Rounding t := by
  have h := consumerStep_inv hs
  have hpast := hr.ahead.resolve_left hmq
  have hflag : t.doCsmMq = true := by
    cases h with
    | store hpc =>
      rw [hpc] at hpast
      cases hpast
    | _ => exact hr.flag
  refine ⟨hr.toDraining.consumerStep hs, hflag, ?_, ?_, ?_⟩
  · cases h with
    | clear => exact Or.inl rfl
    | noBatch hpc h => exact absurd ⟨List.length_pos_iff.mpr hmq, by simpa [State.isTgfidValid] using hr.chat⟩ h
    | unlock hpc | store hpc =>
      rw [hpc] at hpast
      cases hpast
    | _ => exact Or.inr rfl
  · rw [← hr.producerOut]
    cases h <;> rfl
  · rw [← hr.switcherOut]
    cases h <;> rfl

theorem Rounding.canReach (hr : Rounding s) : (quiet need).CanReach (fun _ => True) State.drained s := by
  refine .of_rank (I := Rounding) State.flagRank (fun s hr => ?_) hr
  by_cases hmq : s.mq = []
  · exact Or.inl (hr.drained hmq)
  · have hfree : s.consumer = .locking → s.mqLock = none := fun hc =>
      hr.base.locks.free hr.producerOut (by rw [hc]; rfl) hr.switcherOut
    have hsome : (Pipeline.consumerStep s (s.answer need)).isSome = true :=
      consumerStep_isSome hr.base.inQueue (fun _ => hr.flag) hfree hr.inside.2
    obtain ⟨t, ht⟩ := Option.isSome_iff_exists.mp hsome
    have hr' := hr.consumerStep hmq ht
    exact Or.inr ⟨.consumer, t, trivial, ht, hr', (consumerStep_inv ht).flagRank_lt hr.base.inQueue
      (fun hst => absurd hst.1 hr.chat) hr.notAsked hr'.flag hr.inside.1⟩

/-! ### The way to a round -/

/-- How far the switcher is from the store that raises the flag. -/
def SwitcherPc.raiseRank : SwitcherPc → Nat
  | .unlocking => 9
  | .loopTest => 8
  | .sleeping => 7
  | .pauseTest => 6
  | .flagTest => 5
  | .locking => 4
  | .sizeTest => 3
  | .raising => 2
  | _ => 0

/-- There is something in the queue, no insertion is going on, and the flag is down or has just been raised. -/
structure Raising (s : State) : Prop extends Draining s where
  queued : s.mq ≠ []
  producerOut : s.producer.locked = false
  ahead : s.consumer.pastQueue = false

theorem Raising.unpaused (hr : Raising s) (hflag : s.doCsmMq = false) (hraise : s.switcher.mayRaise s.mq = false) :
    s.pauseDoCsmMq = false := by
  rcases hr.begins.resolve_left hr.queued with hpause | hraise' | ⟨hflag', -⟩
  · exact hpause
  · rw [hraise] at hraise'
    cases hraise'
  · rw [hflag] at hflag'
    cases hflag'

theorem Raising.consumerOut (hr : Raising s) (hflag : s.doCsmMq = false) : s.consumer.locked = false := by
  have hround : s.consumer.inRound = false := Bool.eq_false_iff.mpr fun h => by simp [hr.flagged h] at hflag
  cases hc : s.consumer <;> rw [hc] at hround <;> first | rfl | cases hround

/-- In its loop only the lock can hold the switcher up. -/
theorem switcherStep_isSome (hloop : s.switcher.inLoop = true) (hfree : s.switcher = .locking → s.mqLock = none) :
    (switcherStep s).isSome = true := by
  cases hpc : s.switcher with
  | locking => simp [switcherStep, hpc, hfree hpc]
  | loopTest | pauseTest | flagTest | sizeTest =>
    simp only [switcherStep, hpc]
    split <;> rfl
  | sleeping | raising | unlocking => simp [switcherStep, hpc]
  | closing | awaitProducer | forcing | stopping | awaitConsumer | acking | done =>
    rw [hpc] at hloop
    cases hloop

theorem Raising.switcherStep (hr : Raising s) (hflag : s.doCsmMq = false) (hs : step s .switcher = some t) :
    Raising t ∧ (t.doCsmMq = false → t.switcher.raiseRank < s.switcher.raiseRank) := by
  cases switcherStep_inv hs with
  | leave hpc hstop =>
    rw [hr.running] at hstop
    cases hstop
  | goOn hpc | slept hpc | notPaused hpc | unlock hpc =>
    have hpause := hr.unpaused hflag (by rw [hpc]; rfl)
    refine ⟨⟨hr.toDraining.of_step hs hr.running rfl hr.chat (Or.inr (Or.inl hpause)), hr.queued, hr.producerOut,
      hr.ahead⟩, fun _ => ?_⟩
    simp [hpc, SwitcherPc.raiseRank]
  | paused hpc hpause =>
    rw [hr.unpaused hflag (by rw [hpc]; rfl)] at hpause
    cases hpause
  | raised hpc hup =>
    rw [hflag] at hup
    cases hup
  | toLock hpc | lock hpc | toRaise hpc =>
    refine ⟨⟨hr.toDraining.of_step hs hr.running rfl hr.chat (Or.inr (Or.inr (Or.inl ?_))), hr.queued,
      hr.producerOut, hr.ahead⟩, fun _ => ?_⟩
    · simp [SwitcherPc.mayRaise, hr.queued]
    · simp [hpc, SwitcherPc.raiseRank]
  | empty hpc hsize => exact absurd hsize hr.queued
  | raise hpc =>
    refine ⟨⟨hr.toDraining.of_step hs hr.running rfl hr.chat (Or.inr (Or.inr (Or.inr ⟨rfl, hr.ahead⟩))), hr.queued,
      hr.producerOut, hr.ahead⟩, fun hdown => ?_⟩
    cases hdown
  | closeProducer hpc | producerGone hpc | force hpc | closeConsumer hpc | consumerGone hpc | ack hpc =>
    have hloop := hr.loops
    rw [hpc] at hloop
    cases hloop

theorem Raising.progress (hr : Raising s) (hflag : s.doCsmMq = false) :
    ∃ t, step s .switcher = some t ∧ Raising t ∧
      (t.doCsmMq = false → t.switcher.raiseRank < s.switcher.raiseRank) := by
  have hsome : (Pipeline.switcherStep s).isSome = true := switcherStep_isSome hr.loops fun hpc =>
    hr.base.locks.free hr.producerOut (hr.consumerOut hflag) (by rw [hpc]; rfl)
  obtain ⟨t, ht⟩ := Option.isSome_iff_exists.mp hsome
  exact ⟨t, ht, hr.switcherStep hflag ht⟩

theorem Raising.canReach_round (hr : Raising s) (hflag : s.doCsmMq = true) :
    (quiet need).CanReach (fun _ => True) State.drained s := by
  cases hsw : s.switcher.locked with
  | false => exact Rounding.canReach ⟨hr.toDraining, hflag, Or.inr hr.ahead, hr.producerOut, hsw⟩
  | true =>
    -- the flag is up, so the switcher has raised it already
    have hpc : s.switcher = .unlocking := by
      cases hpc : s.switcher with
      | unlocking => rfl
      | sizeTest | raising =>
        rw [hr.lowered (by simp [hpc])] at hflag
        cases hflag
      | _ =>
        rw [hpc] at hsw
        cases hsw
    have hs : step s .switcher = some { s with mqLock := none, switcher := .loopTest } := by
      simp [step, Pipeline.switcherStep, hpc]
    have hd : Draining { s with mqLock := none, switcher := .loopTest } :=
      hr.toDraining.of_step hs hr.running rfl hr.chat (Or.inr (Or.inr (Or.inr ⟨hflag, hr.ahead⟩)))
    exact .step (a := .switcher) trivial hs (Rounding.canReach ⟨hd, hflag, Or.inr hr.ahead, hr.producerOut, rfl⟩)

theorem Raising.canReach (hr : Raising s) : (quiet need).CanReach (fun _ => True) State.drained s := by
  have h : (quiet need).CanReach (fun _ => True) (fun t => Raising t ∧ t.doCsmMq = true) s := by
    refine .of_rank (I := Raising) (fun s => if s.doCsmMq then 0 else s.switcher.raiseRank + 1) (fun s hr => ?_) hr
    cases hflag : s.doCsmMq with
    | true => exact Or.inl ⟨hr, rfl⟩
    | false =>
      obtain ⟨t, ht, hr', hlt⟩ := hr.progress hflag
      refine Or.inr ⟨.switcher, t, trivial, ht, hr', ?_⟩
      cases hflag' : t.doCsmMq with
      | true => simp
      | false => simpa using hlt hflag'
  exact h.trans fun t ⟨hr, hflag⟩ => hr.canReach_round hflag

/-- A round that has passed the queue is ended first. -/
theorem Draining.canReach_of_out (hd : Draining s) (hmq : s.mq ≠ []) (hp : s.producer.locked = false) :
    (quiet need).CanReach (fun _ => True) State.drained s := by
  have hstoring : ∀ s, Draining s → s.mq ≠ [] → s.producer.locked = false → s.consumer = .storing →
      (quiet need).CanReach (fun _ => True) State.drained s := by
    intro s hd hmq hp hpc
    have hs : step s (.consumer (s.answer need)) = some { s with doCsmMq := false, consumer := .loopTest } := by
      simp [step, Pipeline.consumerStep, hpc]
    exact .step (a := .consumer) trivial hs (Raising.canReach ⟨hd.consumerStep hs, hmq, hp, rfl⟩)
  cases hpast : s.consumer.pastQueue with
  | false => exact Raising.canReach ⟨hd, hmq, hp, hpast⟩
  | true =>
    cases hpc : s.consumer with
    | storing => exact hstoring s hd hmq hp hpc
    | unlocking =>
      have hs : step s (.consumer (s.answer need)) = some { s with mqLock := none, consumer := .storing } := by
        simp [step, Pipeline.consumerStep, hpc]
      exact .step (a := .consumer) trivial hs (hstoring _ (hd.consumerStep hs) hmq hp rfl)
    | _ =>
      rw [hpc] at hpast
      cases hpast

/-- An insertion is ended first. -/
theorem Draining.canReach (hd : Draining s) : (quiet need).CanReach (fun _ => True) State.drained s := by
  have hout : ∀ s, Draining s → s.producer.locked = false → (quiet need).CanReach (fun _ => True) State.drained s := by
    intro s hd hp
    by_cases hmq : s.mq = []
    · exact .here (hd.drained hmq)
    · exact hd.canReach_of_out hmq hp
  have hunlocking : ∀ s, Draining s → s.producer = .unlocking → (quiet need).CanReach (fun _ => True) State.drained s := by
    intro s hd hpc
    have hs : step s (.producer .nothing) = some { s with mqLock := none, producer := .loopTest } := by
      simp [step, producerStep, hpc]
    exact .step (a := .producer) trivial hs (hout _ (hd.of_step hs hd.running hd.loops hd.chat hd.begins) rfl)
  by_cases hmq : s.mq = []
  · exact .here (hd.drained hmq)
  · have hbegins := hd.begins.resolve_left hmq
    cases hpc : s.producer with
    | inserting msg =>
      have hs : step s (.producer .nothing) =
          some { s with mq := ⟨s.inserted, msg⟩ :: s.mq, inserted := s.inserted + 1, producer := .unlocking } := by
        simp [step, producerStep, hpc]
      refine .step (a := .producer) trivial hs (hunlocking _ (hd.of_step hs hd.running hd.loops hd.chat (Or.inr ?_)) rfl)
      exact hbegins.imp id (Or.imp (fun h => (SwitcherPc.mayRaise_of_ne_nil hmq (by simp)).trans h) id)
    | unlocking => exact hunlocking s hd hpc
    | _ => exact hout s hd (by rw [hpc]; rfl)

/-! ### A queue that stays -/

/-- In a pause, with something in the queue and nothing left that begins a batch. -/
structure Stays (s : State) : Prop where
  flagged : Flagged s
  running : s.collSwitcher = false
  loops : s.switcher.inLoop = true
  paused : s.pauseDoCsmMq = true
  queued : s.mq ≠ []
  raised : s.switcher.mayRaise s.mq = false
  passed : s.doCsmMq = true → s.consumer.pastQueue = true

/-- Nothing that comes in takes the pause back. -/
theorem producerStep_nothing (h : producerStep s .nothing = some t) :
    t.pauseDoCsmMq = s.pauseDoCsmMq ∧ t.switcher = s.switcher ∧ t.consumer = s.consumer ∧ t.doCsmMq = s.doCsmMq ∧
      t.collSwitcher = s.collSwitcher ∧ (s.mq ≠ [] → t.mq ≠ []) := by
  unfold producerStep at h
  split at h
  · split at h <;> cases h <;> exact ⟨rfl, rfl, rfl, rfl, rfl, id⟩
  · split at h <;> cases h
    exact ⟨rfl, rfl, rfl, rfl, rfl, id⟩
  · cases h
    exact ⟨rfl, rfl, rfl, rfl, rfl, id⟩
  · split at h <;> cases h
    exact ⟨rfl, rfl, rfl, rfl, rfl, id⟩
  · cases h
    exact ⟨rfl, rfl, rfl, rfl, rfl, fun _ => List.cons_ne_nil _ _⟩
  · cases h
    exact ⟨rfl, rfl, rfl, rfl, rfl, id⟩
  · cases h
    exact ⟨rfl, rfl, rfl, rfl, rfl, id⟩
  · cases h
    exact ⟨rfl, rfl, rfl, rfl, rfl, id⟩
  · cases h

theorem Stays.producerStep (hy : Stays s) (hs : step s (.producer .nothing) = some t) : Stays t := by
  obtain ⟨hpause, hsw, hc, hflag, hrun, hmq⟩ := producerStep_nothing hs
  refine ⟨hy.flagged.step hs, hrun.trans hy.running, hsw ▸ hy.loops, hpause.trans hy.paused, hmq hy.queued, ?_, ?_⟩
  · rw [hsw, SwitcherPc.mayRaise_of_ne_nil hy.queued (hmq hy.queued)]
    exact hy.raised
  · rw [hflag, hc]
    exact hy.passed

theorem Stays.consumerStep (hy : Stays s) (hs : step s (.consumer b) = some t) : Stays t := by
  have hf := hy.flagged.step hs
  have hpassed := fun h => hy.passed (hy.flagged h)
  cases consumerStep_inv hs with
  | wake hpc hflag =>
    have hpast := hy.passed hflag
    rw [hpc] at hpast
    cases hpast
  | store => exact ⟨hf, hy.running, hy.loops, hy.paused, hy.queued, hy.raised, fun h => by cases h⟩
  | unlock => exact ⟨hf, hy.running, hy.loops, hy.paused, hy.queued, hy.raised, fun _ => rfl⟩
  | leave hpc | goOn hpc | ack hpc =>
    refine ⟨hf, hy.running, hy.loops, hy.paused, hy.queued, hy.raised, fun hflag => ?_⟩
    have hpast := hy.passed hflag
    rw [hpc] at hpast
    cases hpast
  | readTgfid hpc | toCreate hpc | toLock _ hpc | tryCreate hpc | noCreate hpc | sendCreate hpc | lock hpc
  | toBatch hpc | noBatch hpc | batchEnd hpc | breakOff _ hpc | next _ hpc | recognise _ _ hpc | need _ _ hpc
  | noNeed _ _ hpc | collect _ _ hpc | clear hpc =>
    have hpast := hpassed (by rw [hpc]; rfl)
    rw [hpc] at hpast
    cases hpast

theorem Stays.switcherStep (hy : Stays s) (hs : step s .switcher = some t) : Stays t := by
  have hf := hy.flagged.step hs
  cases switcherStep_inv hs with
  | leave hpc hstop =>
    rw [hy.running] at hstop
    cases hstop
  | goOn | slept | paused | unlock => exact ⟨hf, hy.running, rfl, hy.paused, hy.queued, rfl, hy.passed⟩
  | notPaused hpc hpause =>
    rw [hy.paused] at hpause
    cases hpause
  | raised hpc | toLock hpc | lock hpc | toRaise hpc | raise hpc =>
    have hraise := hy.raised
    simp [hpc, SwitcherPc.mayRaise, hy.queued] at hraise
  | empty hpc hsize => exact absurd hsize hy.queued
  | closeProducer hpc | producerGone hpc | force hpc | closeConsumer hpc | consumerGone hpc | ack hpc =>
    have hloop := hy.loops
    rw [hpc] at hloop
    cases hloop

theorem Stays.not_canReach (hy : Stays s) : ¬(quiet need).CanReach (fun _ => True) State.drained s := by
  refine System.not_canReach_of_invariant (I := Stays) hy (fun s a t hy _ hs => ?_) fun s hy h => hy.queued h.1
  cases a with
  | producer => exact hy.producerStep hs
  | consumer => exact hy.consumerStep hs
  | switcher => exact hy.switcherStep hs

/-- While the collector runs with a chat, its threads can empty the queue when nothing more comes in, whatever
    `need_collect` says of each message, with every message that was ever in it examined once, if and only if it is
    empty, the pause is off, the switcher is past its look at the pause, or the flag is up for a round that has not
    passed the queue. Batches were not broken off before. -/
theorem queue_drains_iff (h : system.ReachableBy FinishesBatch s) (hrun : s.collSwitcher = false)
    (hchat : s.tgfid ≠ -1) :
    (quiet need).CanReach (fun _ => True) State.drained s ↔ s.mq = [] ∨ s.canBegin := by
  have hloop := looping_of_reachable h hrun
  have hf := flagged_of_reachable h
  refine ⟨fun hreach => ?_, fun hbegins => ?_⟩
  · by_contra hno
    obtain ⟨hmq, hno⟩ := not_or.mp hno
    obtain ⟨hpause, hno⟩ := not_or.mp hno
    obtain ⟨hraise, hround⟩ := not_or.mp hno
    refine Stays.not_canReach ⟨hf, hrun, hloop, by simpa using hpause, hmq, by simpa using hraise, fun hflag => ?_⟩ hreach
    by_contra hpast
    exact hround ⟨hflag, by simpa using hpast⟩
  · exact Draining.canReach ⟨base_of_reachable h, asked_of_reachable h, hf, lowered_of_reachable h,
      ledger_of_reachable h, hrun, hloop, hchat, hbegins⟩

end

/-! ### Runs -/

/-- Two messages have come in, of which the first is to be forwarded. -/
theorem queue_drains_iff_two :
    ∃ s : State, s.mq.length = 2 ∧
      ((quiet fun q => q.uid = 0).CanReach (fun _ => True) State.drained s ↔ s.mq = [] ∨ s.canBegin) ∧ s.canBegin :=
  have h : system.ReachableBy FinishesBatch _ := .runBy (.init ⟨1, rfl⟩) (fetchOne someMsg ++ fetchOne someMsg) rfl
  ⟨_, rfl, queue_drains_iff h rfl (by decide), Or.inl rfl⟩

end TgFocus.Pipeline
