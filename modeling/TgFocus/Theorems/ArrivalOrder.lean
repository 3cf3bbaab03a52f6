import TgFocus.Theorems.PipelineInv
import Mathlib.Data.List.Sort

/-! The order in which messages are forwarded. The producer inserts at the front of the queue and the
    consumer goes through it from the front, so a batch is forwarded with the newest message first; across
    batches the order of arrival is kept. -/

namespace TgFocus.Pipeline
open Transition

/-- Different numbers in ascending order are a part of the numbers below a bound. -/
theorem sublist_range {l : List Nat} {n : Nat} (hl : l.Pairwise (· < ·)) (hn : ∀ x ∈ l, x < n) :
    l.Sublist (List.range n) := by
  have hnodup : l.Nodup := hl.imp Nat.ne_of_lt
  have hsub : l ⊆ List.range n := fun x hx => List.mem_range.mpr (hn x hx)
  exact List.sublist_of_subperm_of_pairwise (List.subperm_of_subset hnodup hsub) (hl.imp Nat.le_of_lt) List.pairwise_le_range

/-- The messages that the consumer is done with in the batch it is in. -/
def ConsumerPc.seen (mq : List Queued) : ConsumerPc → List Queued
  | .batch it | .examine it => mq.take it
  | .clearing => mq
  | _ => []

/-- The place of the message that the consumer finds to be needed, when it does so next. -/
def State.needed? (s : State) : Act → Option Nat
  | .consumer true =>
    match s.consumer with
    | .examine it => if s.mq[it]?.any (!·.msg.isFromTgfocus) then some it else none
    | _ => none
  | _ => none

/-- A message is found to be needed only when no newer message of its batch was collected. -/
def NeedsInOrder (s : State) (a : Act) : Prop :=
  ∀ q ∈ s.mq.take ((s.needed? a).getD 0), q.uid ∉ s.collected

instance (s : State) (a : Act) : Decidable (NeedsInOrder s a) := List.decidableBAll _ _

/-- What was collected is older than the queue, or is among what the consumer has seen of its batch. -/
structure Ordered (s : State) : Prop where
  sorted : s.collected.Pairwise (· < ·)
  numbered : ∀ q ∈ s.mq, q.uid < s.inserted
  below : ∀ uid ∈ s.collected, uid < s.inserted
  older : ∀ uid ∈ s.collected, (∀ q ∈ s.mq, uid < q.uid) ∨ ∃ q ∈ s.consumer.seen s.mq, q.uid = uid

section
variable {s t : State} {a : Act} {need : Bool}

theorem ConsumerPc.seen_of_not_locked {pc : ConsumerPc} (mq : List Queued) (h : pc.locked = false) : pc.seen mq = [] := by
  cases pc <;> first | rfl | cases h

theorem Ordered.same (ho : Ordered s) (hcoll : t.collected = s.collected) (hmq : t.mq = s.mq)
    (hins : t.inserted = s.inserted) (hseen : ∀ q ∈ s.consumer.seen s.mq, q ∈ t.consumer.seen s.mq) : Ordered t := by
  refine ⟨?_, ?_, ?_, ?_⟩ <;> simp only [hcoll, hmq, hins]
  · exact ho.sorted
  · exact ho.numbered
  · exact ho.below
  · intro uid hu
    rcases ho.older uid hu with h | ⟨q, hq, huid⟩
    · exact Or.inl h
    · exact Or.inr ⟨q, hseen q hq, huid⟩

theorem Ordered.producerStep (ho : Ordered s) (hl : Locks s) (h : ProducerStep s t) : Ordered t := by
  cases h with
  | insert msg hpc =>
    have hout : s.consumer.locked = false := hl.consumer_out (by rw [hpc]; rfl)
    have hnone := ConsumerPc.seen_of_not_locked s.mq hout
    refine ⟨ho.sorted, ?_, fun uid hu => Nat.lt_succ_of_lt (ho.below uid hu), fun uid hu => Or.inl ?_⟩
    · intro q hq
      rcases List.mem_cons.mp hq with rfl | hq
      · exact Nat.lt_succ_self _
      · exact Nat.lt_succ_of_lt (ho.numbered q hq)
    · intro q hq
      rcases List.mem_cons.mp hq with rfl | hq
      · exact ho.below uid hu
      · rcases ho.older uid hu with hold | ⟨q', hq', -⟩
        · exact hold q hq
        · rw [hnone] at hq'
          cases hq'
  | leave | goOn | fetch | nothing | message | command | authReady | created | answered | lost | lock | unlock
  | forget | ack => exact ho.same rfl rfl rfl fun _ h => h

theorem needed_of_collecting (it : Nat) (hpc : s.consumer = .examine it) (h : consumerStep s need = some t)
    (ht : t.consumer = .collecting it) : s.needed? (.consumer need) = some it := by
  simp only [consumerStep, hpc] at h
  obtain ⟨curr, hcurr, h⟩ := Option.bind_eq_some_iff.mp h
  split at h
  · cases h
    cases ht
  · rename_i hown
    cases need with
    | true => simp [State.needed?, hpc, hcurr, hown]
    | false =>
      cases h
      cases ht

/-- Everything collected before is older than the message that is collected now. -/
theorem Ordered.collect (ho : Ordered s) {it : Nat} {curr : Queued} (hpc : s.consumer = .collecting it)
    (hcurr : s.mq[it]? = some curr) (hlog : t.log = s.log ++ [.collected curr.uid]) (hmq : t.mq = s.mq)
    (hins : t.inserted = s.inserted) (hpc' : t.consumer = .batch (it + 1)) : Ordered t := by
  have hmem : curr ∈ s.mq := List.mem_of_getElem? hcurr
  have hold : ∀ uid ∈ s.collected, ∀ q ∈ s.mq, uid < q.uid := by
    intro uid hu
    rcases ho.older uid hu with h | ⟨q, hq, -⟩
    · exact h
    · rw [hpc] at hq
      cases hq
  have hcoll : t.collected = s.collected ++ [curr.uid] := collected_append hlog
  refine ⟨?_, ?_, ?_, ?_⟩ <;> simp only [hcoll, hmq, hins, List.mem_append, List.mem_singleton]
  · refine List.pairwise_append.mpr ⟨ho.sorted, List.pairwise_singleton _ _, fun uid hu uid' hu' => ?_⟩
    rw [List.mem_singleton.mp hu']
    exact hold uid hu curr hmem
  · exact ho.numbered
  · rintro uid (hu | rfl)
    · exact ho.below uid hu
    · exact ho.numbered curr hmem
  · rintro uid (hu | rfl)
    · exact Or.inl (hold uid hu)
    · have hseen : (s.mq.take (it + 1))[it]? = some curr := by
        rw [List.getElem?_take_of_lt (Nat.lt_succ_self it), hcurr]
      rw [hpc']
      exact Or.inr ⟨curr, List.mem_of_getElem? hseen, rfl⟩

theorem Ordered.consumerStep (ho : Ordered s) (hok : NeedsInOrder s (.consumer need))
    (h : consumerStep s need = some t) : Ordered t := by
  have hneed := fun it hpc ht => needed_of_collecting it hpc h ht
  cases consumerStep_inv h with
  | recognise it curr hpc hcurr | noNeed it curr hpc hcurr =>
    refine ho.same (collected_append rfl |>.trans (List.append_nil _)) rfl rfl fun q hq => ?_
    rw [hpc] at hq
    exact List.take_subset_take_left _ (Nat.le_succ it) hq
  | need it curr hpc hcurr =>
    have hcoll : State.collected { s with log := s.log ++ [.examined curr.uid true], consumer := .collecting it } =
        s.collected := collected_append rfl |>.trans (List.append_nil _)
    rw [NeedsInOrder, hneed it hpc rfl, Option.getD_some] at hok
    refine ⟨?_, ho.numbered, ?_, ?_⟩ <;> rw [hcoll]
    · exact ho.sorted
    · exact ho.below
    · intro uid hu
      rcases ho.older uid hu with hold | ⟨q, hq, rfl⟩
      · exact Or.inl hold
      · rw [hpc] at hq
        exact absurd hu (hok q hq)
  | collect it curr hpc hcurr => exact ho.collect hpc hcurr rfl rfl rfl rfl
  | batchEnd hpc =>
    refine ho.same rfl rfl rfl fun q hq => ?_
    rw [hpc] at hq
    exact List.mem_of_mem_take hq
  | breakOff it hpc =>
    refine ho.same rfl rfl rfl fun q hq => ?_
    rw [hpc] at hq
    exact List.mem_of_mem_take hq
  | clear hpc => exact ⟨ho.sorted, by simp, ho.below, fun _ _ => Or.inl (by simp)⟩
  | next it hpc =>
    refine ho.same rfl rfl rfl fun q hq => ?_
    rw [hpc] at hq
    exact hq
  | leave hpc | goOn hpc | wake hpc | readTgfid hpc | toCreate hpc | toLock _ hpc | tryCreate hpc | noCreate hpc
  | sendCreate hpc | lock hpc | toBatch hpc | noBatch hpc | unlock hpc | store hpc | ack hpc =>
    refine ho.same rfl rfl rfl fun q hq => ?_
    rw [hpc] at hq
    cases hq

theorem Ordered.switcherStep (ho : Ordered s) (h : SwitcherStep s t) : Ordered t := by
  cases h <;> exact ho.same rfl rfl rfl fun _ h => h

theorem Ordered.step (ho : Ordered s) (hb : Base s) (hok : NeedsInOrder s a) (hs : step s a = some t) : Ordered t := by
  cases a with
  | producer incoming => exact ho.producerStep hb.locks (producerStep_inv hs)
  | consumer need => exact ho.consumerStep hok hs
  | switcher => exact ho.switcherStep (switcherStep_inv hs)
  | stop | resetTgfid =>
    cases hs
    exact ho.same rfl rfl rfl fun _ h => h
  | restart =>
    obtain ⟨⟨-, hdone, -⟩, hs⟩ := Option.ite_none_right_eq_some.mp hs
    cases hs
    refine ho.same rfl rfl rfl fun q hq => ?_
    rw [hdone] at hq
    cases hq

/-- In runs in which no message is needed besides a newer one of its batch, the messages are handed to
    `collect_msg` in the order in which they arrived. -/
theorem collected_in_order (h : system.ReachableBy NeedsInOrder s) :
    s.collected.Sublist (List.range s.inserted) := by
  have hinv : Ordered s := by
    refine h.invariant_of (fun _ => base_of_reachable) ?_ fun s a t hb ho hok hs => ho.step hb hok hs
    rintro s ⟨tgfid, rfl⟩
    constructor <;> simp [start, State.collected]
  exact sublist_range hinv.sorted hinv.below

end

/-! ### Runs -/

theorem collected_in_order_run :
    ∃ s : State, s.collected = [0, 1] ∧ s.collected.Sublist (List.range s.inserted) :=
  have h : system.ReachableBy NeedsInOrder _ := .runBy (.init ⟨1, rfl⟩)
    (fetchOne someMsg ++ raiseFlag ++ beginBatch ++ collectOne ++ fetchOne someMsg ++ raiseFlag ++ beginBatch ++ collectOne)
    rfl
  ⟨_, rfl, collected_in_order h⟩

/-- Two messages of one batch are needed: the second one is handed over first. -/
theorem collected_reversed :
    ∃ s, system.Reachable s ∧ ¬s.collected.Sublist (List.range s.inserted) :=
  ⟨_, Transition.System.Reachable.run (.init ⟨1, rfl⟩)
    (fetchOne someMsg ++ fetchOne someMsg ++ raiseFlag ++ beginBatch ++ collectOne) rfl, by decide⟩

end TgFocus.Pipeline
