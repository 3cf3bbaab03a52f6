import TgFocus.Worker.Pipeline

/-! What a step of the pipeline can do: one constructor for each thing that a thread does at a program
    counter, with the conditions under which it does it. -/

namespace TgFocus.Pipeline

/-! ### Producer -/

inductive ProducerStep (s : State) : State → Prop where
  | leave (hpc : s.producer = .loopTest) (hstop : s.collProducer = true) :
      ProducerStep s { s with producer := .exiting }
  | goOn (hpc : s.producer = .loopTest) (hstop : s.collProducer = false) :
      ProducerStep s { s with producer := .waiting }
  | fetch (hpc : s.producer = .waiting) (hflag : s.doCsmMq = false) : ProducerStep s { s with producer := .fetching }
  | nothing (hpc : s.producer = .fetching) : ProducerStep s { s with producer := .loopTest }
  | message (msg : TgMsg) (hpc : s.producer = .fetching) : ProducerStep s { s with producer := .locking msg }
  | command (pause : Bool) (hpc : s.producer = .fetching) :
      ProducerStep s { s with pauseDoCsmMq := pause, producer := .loopTest }
  | authReady (hpc : s.producer = .fetching) : ProducerStep s { s with isAuth := true, producer := .loopTest }
  | created (chat : Int) (hpc : s.producer = .fetching) (hq : .create ∈ s.inflight) :
      ProducerStep s { s with inflight := s.inflight.erase .create, tgfid := chat, producer := .loopTest }
  | answered (q : Query) (hpc : s.producer = .fetching) (hq : q ∈ s.inflight) :
      ProducerStep s { s with inflight := s.inflight.erase q, producer := .loopTest }
  | lost (chat : Int) (msg : TgMsg) (hpc : s.producer = .fetching) (hq : .send chat msg ∈ s.inflight) :
      ProducerStep s
        { s with inflight := s.inflight.erase (.send chat msg), triedCTgfchat := false, producer := .forgetting }
  | lock (msg : TgMsg) (hpc : s.producer = .locking msg) (hfree : s.mqLock = none) :
      ProducerStep s { s with mqLock := some .producer, producer := .inserting msg }
  | insert (msg : TgMsg) (hpc : s.producer = .inserting msg) :
      ProducerStep s { s with mq := ⟨s.inserted, msg⟩ :: s.mq, inserted := s.inserted + 1, producer := .unlocking }
  | unlock (hpc : s.producer = .unlocking) : ProducerStep s { s with mqLock := none, producer := .loopTest }
  | forget (hpc : s.producer = .forgetting) : ProducerStep s { s with tgfid := -1, producer := .loopTest }
  | ack (hpc : s.producer = .exiting) : ProducerStep s { s with collProducerSucc := true, producer := .done }

section
variable {s t : State}

theorem receive_inv {incoming : Incoming} (hpc : s.producer = .fetching) (h : receive s incoming = some t) :
    ProducerStep s t := by
  cases incoming with
  | nothing => cases h; exact .nothing hpc
  | message msg => cases h; exact .message msg hpc
  | command pause => cases h; exact .command pause hpc
  | authReady => cases h; exact .authReady hpc
  | answer q r =>
    rw [receive] at h
    split at h
    · rename_i hq
      cases h
      cases q with
      | create =>
        cases r with
        | ok chat => exact .created chat hpc hq
        | error lost => exact .answered .create hpc hq
      | send chat msg =>
        cases r with
        | ok chat' => exact .answered (.send chat msg) hpc hq
        | error lost =>
          cases lost with
          | true => exact .lost chat msg hpc hq
          | false => exact .answered (.send chat msg) hpc hq
    · cases h

theorem producerStep_inv {incoming : Incoming} (h : producerStep s incoming = some t) : ProducerStep s t := by
  unfold producerStep at h
  split at h <;> rename_i hpc
  · split at h <;> cases h <;> rename_i hstop
    · exact .leave hpc hstop
    · exact .goOn hpc (by simpa using hstop)
  · split at h <;> cases h
    rename_i hflag
    exact .fetch hpc (by simpa using hflag)
  · exact receive_inv hpc h
  · split at h <;> cases h
    rename_i hfree
    exact .lock _ hpc hfree
  · cases h; exact .insert _ hpc
  · cases h; exact .unlock hpc
  · cases h; exact .forget hpc
  · cases h; exact .ack hpc
  · cases h

end

/-! ### Consumer -/

inductive ConsumerStep (s : State) : State → Prop where
  | leave (hpc : s.consumer = .loopTest) (hstop : s.collConsumer = true) :
      ConsumerStep s { s with consumer := .exiting }
  | goOn (hpc : s.consumer = .loopTest) (hstop : s.collConsumer = false) :
      ConsumerStep s { s with consumer := .waiting }
  | wake (hpc : s.consumer = .waiting) (hflag : s.doCsmMq = true) : ConsumerStep s { s with consumer := .readTgfid }
  | readTgfid (hpc : s.consumer = .readTgfid) : ConsumerStep s { s with consumer := .readTried s.isTgfidValid }
  | toCreate (hpc : s.consumer = .readTried false) (htried : s.triedCTgfchat = false) :
      ConsumerStep s { s with consumer := .creating }
  | toLock (isValid : Bool) (hpc : s.consumer = .readTried isValid) (h : isValid = true ∨ s.triedCTgfchat = true) :
      ConsumerStep s { s with consumer := .locking }
  | tryCreate (hpc : s.consumer = .creating) (hauth : s.isAuth = true) (hinvalid : s.isTgfidValid = false)
      (htried : s.triedCTgfchat = false) : ConsumerStep s { s with triedCTgfchat := true, consumer := .creatingSend }
  | noCreate (hpc : s.consumer = .creating)
      (h : ¬(s.isAuth = true ∧ s.isTgfidValid = false ∧ s.triedCTgfchat = false)) :
      ConsumerStep s { s with consumer := .loopTest }
  | sendCreate (hpc : s.consumer = .creatingSend) :
      ConsumerStep s { s with inflight := s.inflight ++ [.create], consumer := .loopTest }
  | lock (hpc : s.consumer = .locking) (hfree : s.mqLock = none) :
      ConsumerStep s { s with mqLock := some .consumer, consumer := .sizeTest }
  | toBatch (hpc : s.consumer = .sizeTest) (hsize : 0 < s.mq.length) (hvalid : s.isTgfidValid = true) :
      ConsumerStep s { s with consumer := .batch 0 }
  | noBatch (hpc : s.consumer = .sizeTest) (h : ¬(0 < s.mq.length ∧ s.isTgfidValid = true)) :
      ConsumerStep s { s with consumer := .unlocking }
  | batchEnd (hpc : s.consumer = .batch s.mq.length) : ConsumerStep s { s with consumer := .clearing }
  | breakOff (it : Nat) (hpc : s.consumer = .batch it) (hit : it ≠ s.mq.length) (hstop : s.collConsumer = true) :
      ConsumerStep s { s with consumer := .clearing }
  | next (it : Nat) (hpc : s.consumer = .batch it) (hit : it ≠ s.mq.length) (hstop : s.collConsumer = false) :
      ConsumerStep s { s with consumer := .examine it }
  | recognise (it : Nat) (curr : Queued) (hpc : s.consumer = .examine it) (hcurr : s.mq[it]? = some curr) :
      ConsumerStep s { s with log := s.log ++ [.recognised curr.uid], consumer := .batch (it + 1) }
  | need (it : Nat) (curr : Queued) (hpc : s.consumer = .examine it) (hcurr : s.mq[it]? = some curr) :
      ConsumerStep s { s with log := s.log ++ [.examined curr.uid true], consumer := .collecting it }
  | noNeed (it : Nat) (curr : Queued) (hpc : s.consumer = .examine it) (hcurr : s.mq[it]? = some curr) :
      ConsumerStep s { s with log := s.log ++ [.examined curr.uid false], consumer := .batch (it + 1) }
  | collect (it : Nat) (curr : Queued) (hpc : s.consumer = .collecting it) (hcurr : s.mq[it]? = some curr) :
      ConsumerStep s
        { s with log := s.log ++ [.collected curr.uid]
                 inflight := s.inflight ++ [.send s.tgfid { curr.msg with id := s.consumeCnt + 1 }]
                 consumeCnt := s.consumeCnt + 1
                 consumer := .batch (it + 1) }
  | clear (hpc : s.consumer = .clearing) : ConsumerStep s { s with mq := [], consumer := .unlocking }
  | unlock (hpc : s.consumer = .unlocking) : ConsumerStep s { s with mqLock := none, consumer := .storing }
  | store (hpc : s.consumer = .storing) : ConsumerStep s { s with doCsmMq := false, consumer := .loopTest }
  | ack (hpc : s.consumer = .exiting) : ConsumerStep s { s with collConsumerSucc := true, consumer := .done }

section
variable {s t : State}

theorem consumerStep_inv {need : Bool} (h : consumerStep s need = some t) : ConsumerStep s t := by
  unfold consumerStep at h
  split at h <;> rename_i hpc
  · split at h <;> cases h <;> rename_i hstop
    · exact .leave hpc hstop
    · exact .goOn hpc (by simpa using hstop)
  · split at h <;> cases h
    rename_i hflag
    exact .wake hpc hflag
  · cases h; exact .readTgfid hpc
  · rename_i isValid
    cases isValid with
    | true => cases h; exact .toLock true hpc (Or.inl rfl)
    | false =>
      split at h <;> cases h <;> rename_i htried
      · exact .toCreate hpc (by simpa using htried)
      · exact .toLock false hpc (Or.inr (by simpa using htried))
  · split at h <;> cases h <;> rename_i hc <;>
      simp only [Bool.and_eq_true, Bool.not_eq_true', and_assoc] at hc
    · exact .tryCreate hpc hc.1 hc.2.1 hc.2.2
    · exact .noCreate hpc hc
  · cases h; exact .sendCreate hpc
  · split at h <;> cases h
    rename_i hfree
    exact .lock hpc hfree
  · split at h <;> cases h <;> rename_i hsize
    · exact .toBatch hpc hsize.1 hsize.2
    · exact .noBatch hpc hsize
  · rename_i it
    split at h
    · rename_i hit
      cases h
      exact .batchEnd (hit ▸ hpc)
    · rename_i hit
      split at h <;> cases h <;> rename_i hstop
      · exact .breakOff it hpc hit hstop
      · exact .next it hpc hit (by simpa using hstop)
  · rename_i it
    obtain ⟨curr, hcurr, h⟩ := Option.bind_eq_some_iff.mp h
    split at h
    · cases h
      exact .recognise it curr hpc hcurr
    · cases need <;> cases h
      · exact .noNeed it curr hpc hcurr
      · exact .need it curr hpc hcurr
  · rename_i it
    obtain ⟨curr, hcurr, h⟩ := Option.bind_eq_some_iff.mp h
    cases h
    exact .collect it curr hpc hcurr
  · cases h; exact .clear hpc
  · cases h; exact .unlock hpc
  · cases h; exact .store hpc
  · cases h; exact .ack hpc
  · cases h

end

/-! ### Switcher -/

inductive SwitcherStep (s : State) : State → Prop where
  | leave (hpc : s.switcher = .loopTest) (hstop : s.collSwitcher = true) :
      SwitcherStep s { s with switcher := .closing }
  | goOn (hpc : s.switcher = .loopTest) (hstop : s.collSwitcher = false) :
      SwitcherStep s { s with switcher := .sleeping }
  | slept (hpc : s.switcher = .sleeping) : SwitcherStep s { s with switcher := .pauseTest }
  | paused (hpc : s.switcher = .pauseTest) (hpause : s.pauseDoCsmMq = true) :
      SwitcherStep s { s with switcher := .loopTest }
  | notPaused (hpc : s.switcher = .pauseTest) (hpause : s.pauseDoCsmMq = false) :
      SwitcherStep s { s with switcher := .flagTest }
  | raised (hpc : s.switcher = .flagTest) (hflag : s.doCsmMq = true) : SwitcherStep s { s with switcher := .loopTest }
  | toLock (hpc : s.switcher = .flagTest) (hflag : s.doCsmMq = false) : SwitcherStep s { s with switcher := .locking }
  | lock (hpc : s.switcher = .locking) (hfree : s.mqLock = none) :
      SwitcherStep s { s with mqLock := some .switcher, switcher := .sizeTest }
  | toRaise (hpc : s.switcher = .sizeTest) (hsize : 0 < s.mq.length) : SwitcherStep s { s with switcher := .raising }
  | empty (hpc : s.switcher = .sizeTest) (hsize : s.mq = []) : SwitcherStep s { s with switcher := .unlocking }
  | raise (hpc : s.switcher = .raising) : SwitcherStep s { s with doCsmMq := true, switcher := .unlocking }
  | unlock (hpc : s.switcher = .unlocking) : SwitcherStep s { s with mqLock := none, switcher := .loopTest }
  | closeProducer (hpc : s.switcher = .closing) :
      SwitcherStep s { s with collProducer := true, switcher := .awaitProducer }
  | producerGone (hpc : s.switcher = .awaitProducer) (hsucc : s.collProducerSucc = true) :
      SwitcherStep s { s with switcher := .forcing }
  | force (hpc : s.switcher = .forcing) : SwitcherStep s { s with doCsmMq := true, switcher := .stopping }
  | closeConsumer (hpc : s.switcher = .stopping) :
      SwitcherStep s { s with collConsumer := true, switcher := .awaitConsumer }
  | consumerGone (hpc : s.switcher = .awaitConsumer) (hsucc : s.collConsumerSucc = true) :
      SwitcherStep s { s with switcher := .acking }
  | ack (hpc : s.switcher = .acking) : SwitcherStep s { s with collSwitcherSucc := true, switcher := .done }

section
variable {s t : State}

theorem switcherStep_inv (h : switcherStep s = some t) : SwitcherStep s t := by
  unfold switcherStep at h
  split at h <;> rename_i hpc
  · split at h <;> cases h <;> rename_i hstop
    · exact .leave hpc hstop
    · exact .goOn hpc (by simpa using hstop)
  · cases h; exact .slept hpc
  · split at h <;> cases h <;> rename_i hpause
    · exact .paused hpc hpause
    · exact .notPaused hpc (by simpa using hpause)
  · split at h <;> cases h <;> rename_i hflag
    · exact .raised hpc hflag
    · exact .toLock hpc (by simpa using hflag)
  · split at h <;> cases h
    rename_i hfree
    exact .lock hpc hfree
  · split at h <;> cases h <;> rename_i hsize
    · exact .toRaise hpc hsize
    · exact .empty hpc (List.length_eq_zero_iff.mp (Nat.eq_zero_of_not_pos hsize))
  · cases h; exact .raise hpc
  · cases h; exact .unlock hpc
  · cases h; exact .closeProducer hpc
  · split at h <;> cases h
    rename_i hsucc
    exact .producerGone hpc hsucc
  · cases h; exact .force hpc
  · cases h; exact .closeConsumer hpc
  · split at h <;> cases h
    rename_i hsucc
    exact .consumerGone hpc hsucc
  · cases h; exact .ack hpc
  · cases h

end

end TgFocus.Pipeline
