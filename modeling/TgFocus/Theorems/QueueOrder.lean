import TgFocus.Worker.IpcMsgDequer

/-! The order in which the queue gives its messages back. `enqueue` puts a message behind the others, and
    `deque` takes the one that is behind all others: the newest comes out first. -/

namespace TgFocus.IpcQueue
open Transition

inductive Call where
  | enqueue (cmd : IpcMsg)
  | deque
  deriving DecidableEq, Repr

/-- The queue, with the messages that went in and those that came out so far. -/
structure Calls where
  queue : IpcMsgQueue
  enqueued : List IpcMsg
  returned : List IpcMsg
  deriving DecidableEq, Repr

def Calls.step (s : Calls) : Call → Option Calls
  | .enqueue cmd => some { s with queue := s.queue.enqueue cmd, enqueued := s.enqueued ++ [cmd] }
  | .deque => some { s with queue := s.queue.deque.2, returned := s.returned ++ s.queue.deque.1.toList }

def calls : System Calls Call where
  init s := s = { queue := { queue := [] }, enqueued := [], returned := [] }
  step := Calls.step

/-- No two different messages are queued when one is taken. -/
def TakesSame (s : Calls) (a : Call) : Prop := a = .deque → ∀ m ∈ s.queue.queue, s.queue.queue.getLast? = some m

instance (s : Calls) (a : Call) : Decidable (TakesSame s a) := inferInstanceAs (Decidable (_ → ∀ m ∈ s.queue.queue, _))

/-- What went in came out, or is still queued, in this order. -/
def InOrder (s : Calls) : Prop := s.enqueued = s.returned ++ s.queue.queue

section
variable {s t : Calls} {a : Call}

/-- The newest message comes out first. -/
theorem deque_enqueue (q : IpcMsgQueue) (cmd : IpcMsg) : (q.enqueue cmd).deque = (some cmd, q) := by
  simp [IpcMsgQueue.enqueue, IpcMsgQueue.deque]

/-- Of messages that are all the same it does not matter which one is taken. -/
theorem getLast?_append_dropLast {l : List IpcMsg} (h : ∀ m ∈ l, l.getLast? = some m) :
    l.getLast?.toList ++ l.dropLast = l := by
  rcases List.eq_nil_or_concat l with rfl | ⟨l, m, rfl⟩
  · rfl
  · simp only [List.concat_eq_append, List.getLast?_concat, List.dropLast_concat, Option.some.injEq] at h ⊢
    have hall : l = List.replicate l.length m :=
      List.eq_replicate_iff.mpr ⟨rfl, fun b hb => (h b (List.mem_append_left _ hb)).symm⟩
    rw [hall, Option.toList_some, List.singleton_append, ← List.replicate_succ, List.replicate_succ']

theorem InOrder.step (hi : InOrder s) (hok : TakesSame s a) (hs : Calls.step s a = some t) : InOrder t := by
  cases a with
  | enqueue cmd =>
    cases hs
    simp only [InOrder, IpcMsgQueue.enqueue]
    rw [hi, List.append_assoc]
  | deque =>
    cases hs
    simp only [InOrder, IpcMsgQueue.deque]
    rw [List.append_assoc, getLast?_append_dropLast (hok rfl)]
    exact hi

/-- When no two different messages are queued whenever one is taken, the messages come out in the order in
    which they went in. -/
theorem returned_prefix (h : calls.ReachableBy TakesSame s) : s.returned <+: s.enqueued := by
  have hinv : InOrder s := by
    refine h.invariant ?_ fun s a t hi hok hs => hi.step hok hs
    rintro s rfl
    rfl
  rw [hinv]
  exact List.prefix_append _ _

end

/-! ### The calls of the daemon -/

section
variable {s t : State}

theorem qIpcmsg_dequerStep (h : dequerStep s = some t) :
    t.qIpcmsg = s.qIpcmsg ∨ t.qIpcmsg = s.qIpcmsg.deque.2 := by
  unfold dequerStep at h
  split at h
  · split at h <;> cases h <;> exact Or.inl rfl
  · split at h <;> cases h
    exact Or.inl rfl
  · cases h
    exact Or.inl rfl
  · cases h
    exact Or.inr rfl
  · cases h
    exact Or.inl rfl
  · split at h
    · cases h
      exact Or.inl rfl
    · split at h <;> cases h <;> exact Or.inl rfl
  · cases h
    exact Or.inl rfl
  · cases h

theorem qIpcmsg_initerStep (h : initerStep s = some t) : t.qIpcmsg = s.qIpcmsg := by
  unfold initerStep at h
  split at h
  · split at h <;> cases h
    rfl
  · cases h
    rfl
  · cases h
    rfl
  · cases h

/-- What happens to the queue of the daemon is a sequence of such calls. -/
theorem exists_calls (h : system.Reachable s) : ∃ c, calls.Reachable c ∧ c.queue = s.qIpcmsg := by
  induction h with
  | init h =>
    obtain rfl := h
    exact ⟨_, .init rfl, rfl⟩
  | @step s t a _ _ hs ih =>
    obtain ⟨c, hc, hq⟩ := ih
    cases a with
    | enqueue cmd =>
      cases hs
      exact ⟨_, hc.step (a := .enqueue cmd) rfl, by rw [hq]; rfl⟩
    | dequer =>
      rcases qIpcmsg_dequerStep hs with hsame | hdeque
      · exact ⟨c, hc, hq.trans hsame.symm⟩
      · exact ⟨_, hc.step (a := .deque) rfl, by rw [hq, hdeque]⟩
    | initer => exact ⟨c, hc, hq.trans (qIpcmsg_initerStep hs).symm⟩
    | shutdownIpcSrv =>
      cases hs
      exact ⟨c, hc, hq⟩

end

/-! ### Runs -/

theorem returned_prefix_run :
    ∃ s : Calls, s.returned = [newIpcmsgSuccess, newIpcmsgRstatus] ∧ s.returned <+: s.enqueued :=
  have h : calls.ReachableBy TakesSame _ := .runBy (.init rfl)
    [.enqueue newIpcmsgSuccess, .deque, .enqueue newIpcmsgRstatus, .deque, .enqueue newIpcmsgSuccess] rfl
  ⟨_, rfl, returned_prefix h⟩

/-- Of two messages, the second comes out first. -/
theorem returned_newest :
    ∃ s, calls.Reachable s ∧ s.enqueued = [newIpcmsgSuccess, newIpcmsgRstatus] ∧ s.returned = [newIpcmsgRstatus] ∧
      ¬s.returned <+: s.enqueued :=
  ⟨_, Transition.System.Reachable.run (.init rfl) [.enqueue newIpcmsgSuccess, .enqueue newIpcmsgRstatus, .deque] rfl,
    rfl, rfl, by decide⟩

end TgFocus.IpcQueue
