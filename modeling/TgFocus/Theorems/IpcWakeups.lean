import TgFocus.Worker.IpcMsgDequer

/-! Wake-ups of the thread behind the lazy port. One flag stands for all messages of the queue, and a
    wake-up takes one message: a message that is enqueued while the flag is still up for another one has
    no wake-up of its own. -/

namespace TgFocus.IpcQueue
open Transition

/-- The dequer has cleared the flag for a message that it has not yet taken. -/
def State.awake (s : State) : Nat := if s.dequer = .taking then 1 else 0

/-- Nothing is enqueued behind a message that the dequer is not about to take. -/
def EnqueuesOnEmpty (s : State) (a : Act) : Prop :=
  ∀ cmd, a = .enqueue cmd → s.qIpcmsg.queue.length ≤ s.awake

instance (s : State) (a : Act) : Decidable (EnqueuesOnEmpty s a) :=
  match a with
  | .enqueue cmd => decidable_of_iff (s.qIpcmsg.queue.length ≤ s.awake)
      ⟨fun h _ _ => h, fun h => h cmd rfl⟩
  | .dequer | .initer | .shutdownIpcSrv => .isTrue fun _ h => by cases h

/-- Every message of the queue has a wake-up: the flag, or the one that the dequer is handling. -/
def Awaited (s : State) : Prop := s.qIpcmsg.queue.length ≤ s.qIpcmsgHasUpd.toNat + s.awake

section
variable {s t : State} {a : Act}

theorem Awaited.dequerStep (ha : Awaited s) (h : dequerStep s = some t) : Awaited t := by
  unfold IpcQueue.dequerStep at h
  split at h <;> rename_i hpc <;> simp only [Awaited, State.awake, hpc] at ha
  · split at h <;> cases h <;> simpa [Awaited, State.awake] using ha
  · split at h <;> cases h
    simpa [Awaited, State.awake] using ha
  · -- the flag goes, and the dequer is about to take a message for it
    cases h
    have hle := Bool.toNat_le s.qIpcmsgHasUpd
    simp only [Awaited, State.awake, Bool.toNat_false]
    simp only [reduceCtorEq, ↓reduceIte] at ha ⊢
    omega
  · cases h
    simp only [Awaited, State.awake, List.length_dropLast, reduceCtorEq, ↓reduceIte] at ha ⊢
    omega
  · cases h
    simpa [Awaited, State.awake] using ha
  · split at h
    · cases h
      simpa [Awaited, State.awake] using ha
    · split at h <;> cases h <;> simpa [Awaited, State.awake] using ha
  · cases h
    simpa [Awaited, State.awake] using ha
  · cases h

theorem Awaited.initerStep (ha : Awaited s) (h : initerStep s = some t) : Awaited t := by
  unfold IpcQueue.initerStep at h
  split at h
  · split at h <;> cases h
    exact ha
  · cases h
    exact ha
  · cases h
    have hle := Bool.toNat_le s.qIpcmsgHasUpd
    simp only [Awaited, State.awake, Bool.toNat_true] at ha ⊢
    omega
  · cases h

theorem Awaited.step (ha : Awaited s) (hok : EnqueuesOnEmpty s a) (hs : step s a = some t) : Awaited t := by
  cases a with
  | enqueue cmd =>
    cases hs
    have hle := hok cmd rfl
    have hawake : (enqueue s cmd).awake = s.awake := rfl
    rw [Awaited, hawake]
    simp only [enqueue, IpcMsgQueue.enqueue, List.length_append, List.length_singleton, Bool.toNat_true]
    omega
  | dequer => exact ha.dequerStep hs
  | initer => exact ha.initerStep hs
  | shutdownIpcSrv =>
    cases hs
    exact ha

/-- In runs in which nothing is enqueued behind a message that the dequer is not about to take, the queue
    is empty whenever the dequer waits with the flag down. -/
theorem queue_empty_of_waiting (h : system.ReachableBy EnqueuesOnEmpty s) (hw : s.dequer = .waiting)
    (hflag : s.qIpcmsgHasUpd = false) : s.qIpcmsg.queue = [] := by
  have hinv : Awaited s := by
    refine h.invariant ?_ fun s a t ha hok hs => ha.step hok hs
    rintro s rfl
    exact Nat.zero_le _
  simp only [Awaited, State.awake, hw, hflag, reduceCtorEq, ↓reduceIte, Bool.toNat_false] at hinv
  exact List.length_eq_zero_iff.mp (Nat.le_zero.mp hinv)

end

/-! ### Runs -/

/-- A wake-up: the flag is seen and cleared, and a message is taken. -/
def oneRound : List Act := [.dequer, .dequer, .dequer, .dequer, .dequer]

theorem queue_empty_run :
    ∃ s : State, s.dequer = .waiting ∧ s.qIpcmsgHasUpd = false ∧ s.qIpcmsg.queue = [] :=
  have h : system.ReachableBy EnqueuesOnEmpty _ := .runBy (.init rfl)
    ([.dequer, .enqueue newIpcmsgRstatus] ++ oneRound ++ [.enqueue newIpcmsgRstatus] ++ oneRound) rfl
  ⟨_, rfl, rfl, queue_empty_of_waiting h rfl rfl⟩

/-- Two messages are enqueued before the dequer sees the flag: it takes the second and waits again. -/
theorem queue_stranded :
    ∃ s, system.Reachable s ∧ s.dequer = .waiting ∧ s.qIpcmsgHasUpd = false ∧ s.qIpcmsg.queue ≠ [] :=
  ⟨_, Transition.System.Reachable.run (.init rfl)
    ([.dequer, .enqueue newIpcmsgSuccess, .enqueue newIpcmsgRstatus] ++ oneRound) rfl, rfl, rfl, fun h => by cases h⟩

end TgFocus.IpcQueue
