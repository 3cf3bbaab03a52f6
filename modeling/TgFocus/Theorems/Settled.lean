import TgFocus.Theorems.PipelineInv

/-! What becomes of the messages in the queue. The consumer goes through the queue from the front, treats
    each message once and clears the queue; nobody else takes a message out. When it is asked to stop it
    leaves its loop early and clears the queue all the same, with the messages it has not looked at. -/

namespace TgFocus.Pipeline
open Transition

/-! ### History -/

def State.history (s : State) (uid : Nat) : List Event := s.log.filter (·.uid = uid)

/-- A message examined exactly once: recognised, or passed to `need_collect` and collected if needed. -/
inductive Settled (uid : Nat) : List Event → Prop where
  | recognised : Settled uid [.recognised uid]
  | refused : Settled uid [.examined uid false]
  | collected : Settled uid [.examined uid true, .collected uid]

inductive Stage where
  | untouched | pending | settled
  deriving DecidableEq

/-- The stage of the message at `i` when the consumer is at a place in its loop. -/
def ConsumerPc.stage (i : Nat) : ConsumerPc → Stage
  | .batch it | .examine it => if i < it then .settled else .untouched
  | .collecting it => if i < it then .settled else if i = it then .pending else .untouched
  | .clearing => .settled
  | _ => .untouched

def Stage.Holds (uid : Nat) (events : List Event) : Stage → Prop
  | .untouched => events = []
  | .pending => events = [.examined uid true]
  | .settled => Settled uid events

theorem ConsumerPc.stage_of_not_locked {pc : ConsumerPc} {i : Nat} (h : pc.locked = false) :
    pc.stage i = .untouched := by
  cases pc <;> first | rfl | cases h

/-- The consumer does not leave its loop early: it is not asked to stop when it is about to look at the
    next message. -/
def FinishesBatch (s : State) (a : Act) : Prop :=
  ¬(a.isConsumer = true ∧ s.collConsumer = true ∧ s.consumer.hasNext s.mq.length = true)

instance (s : State) (a : Act) : Decidable (FinishesBatch s a) := inferInstanceAs (Decidable (¬_))

/-- Each message that was inserted is in the queue, at the stage the consumer's place says, or is gone and
    was examined. -/
structure Ledger (s : State) : Prop where
  fresh : ∀ uid, s.inserted ≤ uid → s.history uid = []
  numbered : ∀ q ∈ s.mq, q.uid < s.inserted
  nodup : (s.mq.map (·.uid)).Nodup
  queued : ∀ i q, s.mq[i]? = some q → (s.consumer.stage i).Holds q.uid (s.history q.uid)
  gone : ∀ uid < s.inserted, (∀ q ∈ s.mq, q.uid ≠ uid) → Settled uid (s.history uid)

section
variable {s t : State} {a : Act} {need : Bool}

theorem history_append {uid : Nat} {e : Event} (h : t.log = s.log ++ [e]) :
    t.history uid = s.history uid ++ (if e.uid = uid then [e] else []) := by
  by_cases he : e.uid = uid <;> simp [State.history, h, List.filter_append, he]

theorem Ledger.same (hl : Ledger s) (hlog : t.log = s.log) (hmq : t.mq = s.mq) (hins : t.inserted = s.inserted)
    (hstage : ∀ i < s.mq.length, t.consumer.stage i = s.consumer.stage i) : Ledger t := by
  have hhist : t.history = s.history := by
    funext uid
    rw [State.history, hlog, State.history]
  refine ⟨?_, ?_, ?_, ?_, ?_⟩ <;> simp only [hhist, hmq, hins]
  · exact hl.fresh
  · exact hl.numbered
  · exact hl.nodup
  · intro i q hq
    rw [hstage i (List.getElem?_eq_some_iff.mp hq).1]
    exact hl.queued i q hq
  · exact hl.gone

/-- A step that records an event about the message at `it` and moves this message only. -/
theorem Ledger.record (hl : Ledger s) {it : Nat} {curr : Queued} {e : Event} (hcurr : s.mq[it]? = some curr)
    (he : e.uid = curr.uid) (hlog : t.log = s.log ++ [e]) (hmq : t.mq = s.mq) (hins : t.inserted = s.inserted)
    (hstage : ∀ i, i ≠ it → t.consumer.stage i = s.consumer.stage i)
    (hnext : (t.consumer.stage it).Holds curr.uid (s.history curr.uid ++ [e])) : Ledger t := by
  have hmem : curr ∈ s.mq := List.mem_of_getElem? hcurr
  have hother : ∀ uid, uid ≠ curr.uid → t.history uid = s.history uid := by
    intro uid hne
    rw [history_append hlog, he, if_neg (Ne.symm hne), List.append_nil]
  refine ⟨?_, ?_, ?_, ?_, ?_⟩ <;> simp only [hmq, hins]
  · intro uid hu
    rw [hother uid (Nat.ne_of_gt (Nat.lt_of_lt_of_le (hl.numbered curr hmem) hu))]
    exact hl.fresh uid hu
  · exact hl.numbered
  · exact hl.nodup
  · intro i q hq
    by_cases hi : i = it
    · subst hi
      obtain rfl := Option.some.inj (hcurr.symm.trans hq)
      rw [history_append hlog, if_pos he]
      exact hnext
    · -- another place in the queue is another message
      have hne : q.uid ≠ curr.uid := by
        intro huid
        have hlt := (List.getElem?_eq_some_iff.mp hq).1
        refine hi ((List.getElem?_inj (by simpa using hlt) hl.nodup).mp ?_)
        rw [List.getElem?_map, List.getElem?_map, hq, hcurr, Option.map_some, Option.map_some, huid]
      rw [hstage i hi, hother q.uid hne]
      exact hl.queued i q hq
  · intro uid hu hnot
    rw [hother uid (hnot curr hmem).symm]
    exact hl.gone uid hu hnot

theorem Ledger.producerStep (hl : Ledger s) (hlocks : Locks s) (h : ProducerStep s t) : Ledger t := by
  cases h with
  | insert msg hpc =>
    have hout : s.consumer.locked = false := hlocks.consumer_out (by rw [hpc]; rfl)
    have hold : ∀ q ∈ s.mq, s.history q.uid = [] := by
      intro q hq
      obtain ⟨i, hi⟩ := List.mem_iff_getElem?.mp hq
      have := hl.queued i q hi
      rwa [ConsumerPc.stage_of_not_locked hout] at this
    refine ⟨fun uid hu => hl.fresh uid (Nat.le_of_succ_le hu), ?_, ?_, ?_, ?_⟩
    · intro q hq
      rcases List.mem_cons.mp hq with rfl | hq
      · exact Nat.lt_succ_self _
      · exact Nat.lt_succ_of_lt (hl.numbered q hq)
    · rw [List.map_cons, List.nodup_cons]
      refine ⟨fun hmem => ?_, hl.nodup⟩
      obtain ⟨q, hq, huid⟩ := List.mem_map.mp hmem
      exact absurd huid (Nat.ne_of_lt (hl.numbered q hq))
    · intro i q hq
      rw [ConsumerPc.stage_of_not_locked hout]
      rcases List.mem_cons.mp (List.mem_of_getElem? hq) with rfl | hq
      · exact hl.fresh _ (Nat.le_refl _)
      · exact hold q hq
    · intro uid hu hnot
      have hne : s.inserted ≠ uid := hnot _ List.mem_cons_self
      exact hl.gone uid (Nat.lt_of_le_of_ne (Nat.le_of_lt_succ hu) hne.symm) fun q hq =>
        hnot q (List.mem_cons_of_mem _ hq)
  | leave | goOn | fetch | nothing | message | command | authReady | created | answered | lost | lock | unlock
  | forget | ack => exact hl.same rfl rfl rfl fun _ _ => rfl

theorem Ledger.consumerStep (hl : Ledger s) (hok : FinishesBatch s (.consumer need)) (h : ConsumerStep s t) :
    Ledger t := by
  cases h with
  | breakOff it hpc hit hstop =>
    exact absurd ⟨rfl, hstop, by simpa [hpc, ConsumerPc.hasNext] using hit⟩ hok
  | batchEnd hpc =>
    refine hl.same rfl rfl rfl fun i hi => ?_
    simp [hpc, ConsumerPc.stage, hi]
  | recognise it curr hpc hcurr =>
    have huntouched := hl.queued it curr hcurr
    simp only [hpc, ConsumerPc.stage, lt_irrefl, ↓reduceIte, Stage.Holds] at huntouched
    refine hl.record hcurr rfl rfl rfl rfl (fun i hi => ?_) ?_
    · simp only [hpc, ConsumerPc.stage]
      grind
    · simpa [ConsumerPc.stage, Stage.Holds, huntouched] using Settled.recognised
  | noNeed it curr hpc hcurr =>
    have huntouched := hl.queued it curr hcurr
    simp only [hpc, ConsumerPc.stage, lt_irrefl, ↓reduceIte, Stage.Holds] at huntouched
    refine hl.record hcurr rfl rfl rfl rfl (fun i hi => ?_) ?_
    · simp only [hpc, ConsumerPc.stage]
      grind
    · simpa [ConsumerPc.stage, Stage.Holds, huntouched] using Settled.refused
  | need it curr hpc hcurr =>
    have huntouched := hl.queued it curr hcurr
    simp only [hpc, ConsumerPc.stage, lt_irrefl, ↓reduceIte, Stage.Holds] at huntouched
    refine hl.record hcurr rfl rfl rfl rfl (fun i hi => ?_) ?_
    · simp [hpc, ConsumerPc.stage, hi]
    · simp [ConsumerPc.stage, Stage.Holds, huntouched]
  | collect it curr hpc hcurr =>
    have hpending := hl.queued it curr hcurr
    simp only [hpc, ConsumerPc.stage, lt_irrefl, ↓reduceIte, Stage.Holds] at hpending
    refine hl.record hcurr rfl rfl rfl rfl (fun i hi => ?_) ?_
    · simp only [hpc, ConsumerPc.stage]
      grind
    · simpa [ConsumerPc.stage, Stage.Holds, hpending] using Settled.collected
  | clear hpc =>
    -- every message that goes is settled
    refine ⟨hl.fresh, by simp, by simp, by simp, fun uid hu _ => ?_⟩
    by_cases hq : ∀ q ∈ s.mq, q.uid ≠ uid
    · exact hl.gone uid hu hq
    · push Not at hq
      obtain ⟨q, hq, rfl⟩ := hq
      obtain ⟨i, hi⟩ := List.mem_iff_getElem?.mp hq
      have := hl.queued i q hi
      rwa [hpc] at this
  | leave hpc | goOn hpc | wake hpc | readTgfid hpc | toCreate hpc | toLock _ hpc | tryCreate hpc | noCreate hpc
  | sendCreate hpc | lock hpc | toBatch hpc | noBatch hpc | next _ hpc | unlock hpc | store hpc | ack hpc =>
    refine hl.same rfl rfl rfl fun i _ => ?_
    simp [hpc, ConsumerPc.stage]

theorem Ledger.switcherStep (hl : Ledger s) (h : SwitcherStep s t) : Ledger t := by
  cases h <;> exact hl.same rfl rfl rfl fun _ _ => rfl

theorem Ledger.step (hl : Ledger s) (hb : Base s) (hok : FinishesBatch s a) (hs : step s a = some t) :
    Ledger t := by
  cases a with
  | producer incoming => exact hl.producerStep hb.locks (producerStep_inv hs)
  | consumer need => exact hl.consumerStep hok (consumerStep_inv hs)
  | switcher => exact hl.switcherStep (switcherStep_inv hs)
  | stop | resetTgfid =>
    cases hs
    exact hl.same rfl rfl rfl fun _ _ => rfl
  | restart =>
    obtain ⟨⟨-, hdone, -⟩, hs⟩ := Option.ite_none_right_eq_some.mp hs
    cases hs
    exact hl.same rfl rfl rfl fun i _ => by rw [hdone]; rfl

theorem ledger_of_reachable (h : system.ReachableBy FinishesBatch s) : Ledger s := by
  refine h.invariant_of (fun _ => base_of_reachable) ?_ fun s a t hb hl hok hs => hl.step hb hok hs
  rintro s ⟨tgfid, rfl⟩
  constructor <;> simp [start, State.history]

/-- In runs in which the consumer never leaves its loop early, a message that was inserted is in the queue
    or was examined exactly once. -/
theorem inserted_settled (h : system.ReachableBy FinishesBatch s) {uid : Nat} (hu : uid < s.inserted) :
    (∃ q ∈ s.mq, q.uid = uid) ∨ Settled uid (s.history uid) := by
  by_cases hq : ∃ q ∈ s.mq, q.uid = uid
  · exact Or.inl hq
  · push Not at hq
    exact Or.inr ((ledger_of_reachable h).gone uid hu hq)

end

/-! ### Runs -/

theorem inserted_settled_run :
    ∃ s : State, s.inserted = 1 ∧ s.mq = [] ∧ ((∃ q ∈ s.mq, q.uid = 0) ∨ Settled 0 (s.history 0)) :=
  have h : system.ReachableBy FinishesBatch _ := .runBy (.init ⟨1, rfl⟩)
    (fetchOne someMsg ++ raiseFlag ++ beginBatch ++ [.consumer true, .consumer true, .consumer true, .consumer true])
    rfl
  ⟨_, rfl, rfl, inserted_settled h (by decide)⟩

/-- The stop arrives when the consumer is about to look at the message: it clears the queue with it. -/
theorem message_dropped :
    ∃ s uid, system.Reachable s ∧ uid < s.inserted ∧
      ¬((∃ q ∈ s.mq, q.uid = uid) ∨ Settled uid (s.history uid)) := by
  refine ⟨_, 0, Transition.System.Reachable.run (.init ⟨1, rfl⟩)
    (fetchOne someMsg ++ [.consumer true] ++ stopProducer ++
      [.consumer true, .consumer true, .consumer true, .consumer true, .consumer true] ++
      [.switcher, .consumer true, .consumer true]) rfl, by decide, ?_⟩
  rintro (⟨q, hq, -⟩ | h)
  · cases hq
  · cases h

end TgFocus.Pipeline
