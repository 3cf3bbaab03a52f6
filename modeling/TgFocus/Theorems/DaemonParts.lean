import TgFocus.Theorems.SoleCollector
import TgFocus.Worker.IpcMsgDequer

/-! What the end of the daemon needs of its parts: somebody owes the acknowledgement whenever the handler waits
    for the collector, and the thread behind the lazy port wakes up when it is asked to stop. -/

namespace TgFocus.Lifecycle
open Transition

/-- Before the acknowledgement. -/
def IniterPc.unacked : IniterPc → Bool
  | .clearing | .returning | .finished => false
  | _ => true

/-- Between the load that finds a collector and the end of the wait for it. -/
def HandlerPc.asks : HandlerPc → Bool
  | .shutStore | .shutWait | .ipcStore | .ipcWait => true
  | _ => false

/-- In front of the load that looks for a collector to stop. -/
def HandlerPc.loads : HandlerPc → Bool
  | .shutLoad | .ipcLoad => true
  | _ => false

/-- The acknowledgement is there, or a `CollIniter` has it before it. -/
def State.Pending (s : State) : Prop :=
  s.collIniterSucc = true ∨ ∃ (k : Nat) (th : Thread), s.threads[k]? = some th ∧ th.pc.unacked = true

/-- The handler waits, or is about to, for an acknowledgement that is not there. -/
def State.Stalled (s : State) : Prop :=
  s.collIniterSucc = false ∧ (s.handler.asks = true ∨ s.handler.loads = true ∧ s.collIniterUp = true)

/-- `UpColl` clears the acknowledgement only to spawn a `CollIniter`. -/
structure Answerable (s : State) : Prop where
  up : s.handler.starting = false → s.collIniterUp = true → s.Pending
  asks : s.handler.asks = true → s.Pending

section
variable {s t : State} {a : Act} {k j : Nat} {th : Thread} {pc : IniterPc}

theorem getElem?_move (hth : s.threads[k]? = some th) :
    (s.move k th pc).threads[j]? = if j = k then some { th with pc } else s.threads[j]? := by
  have hk : k < s.threads.length := (List.getElem?_eq_some_iff.mp hth).1
  rw [State.move, List.getElem?_set]
  by_cases hjk : j = k
  · simp [hjk, hk]
  · simp [hjk, Ne.symm hjk]

theorem State.Pending.move (h : s.Pending) (hth : s.threads[k]? = some th) (hpc : th.pc.unacked = true → pc.unacked = true) :
    (s.move k th pc).Pending := by
  rcases h with h | ⟨j, th', hth', hun⟩
  · exact Or.inl h
  · refine Or.inr ⟨j, if j = k then { th with pc } else th', ?_, ?_⟩
    · rw [getElem?_move hth]
      split
      · rfl
      · exact hth'
    · split
      · rename_i hjk
        subst hjk
        obtain rfl := Option.some.inj (hth.symm.trans hth')
        exact hpc hun
      · exact hun

/-- Asking the collector to stop moves nobody. -/
theorem State.Pending.ask (h : s.Pending) : s.ask.Pending := by
  rcases h with h | ⟨j, th, hth, hun⟩
  · exact Or.inl h
  · exact Or.inr ⟨j, { th with asked := true }, by simp [State.ask, hth], hun⟩

theorem Answerable.handlerStep (hi : Answerable s) (h : HandlerStep s t) : Answerable t := by
  obtain ⟨hup, hasks⟩ := hi
  cases h with
  | upDown hpc hdown => exact ⟨nofun, nofun⟩
  | clearSwitcher hpc | clearSwitcherSucc hpc | clearIniter hpc | clearIniterSucc hpc => exact ⟨nofun, nofun⟩
  | spawn hpc =>
    have hnew : (s.threads ++ [⟨.spawned, false⟩])[s.threads.length]? = some ⟨.spawned, false⟩ := by simp
    exact ⟨fun _ _ => Or.inr ⟨_, _, hnew, rfl⟩, nofun⟩
  | upUp hpc _ | upReply hpc | shutDown hpc _ | shutReply hpc | ipcDown hpc _ | ipcReply hpc | statusReply hpc
  | shutWait hpc _ | ipcWait hpc _ =>
    exact ⟨fun _ => hup (by rw [hpc]; rfl), nofun⟩
  | shutUp hpc hu | ipcUp hpc hu =>
    have hpend := hup (by rw [hpc]; rfl) hu
    exact ⟨fun _ _ => hpend, fun _ => hpend⟩
  | shutStore hpc | ipcStore hpc =>
    have hpend := (hasks (by rw [hpc]; rfl)).ask
    exact ⟨fun _ _ => hpend, fun _ => hpend⟩
  | ipcAck hpc => exact ⟨fun _ _ => Or.inl rfl, fun _ => Or.inl rfl⟩

theorem Answerable.move (hi : Answerable s) (hth : s.threads[k]? = some th)
    (hpc : th.pc.unacked = true → pc.unacked = true) : Answerable (s.move k th pc) where
  up := fun hs hu => (hi.up hs hu).move hth hpc
  asks := fun h => (hi.asks h).move hth hpc

theorem Answerable.initerStep (hi : Answerable s) (hth : s.threads[k]? = some th) (h : IniterStep s k th t) :
    Answerable t := by
  cases h with
  | up hpc =>
    have hmoved : Answerable (s.move k th .readHint) := hi.move hth fun _ => rfl
    refine ⟨fun _ _ => Or.inr ⟨k, { th with pc := .readHint }, ?_, rfl⟩, hmoved.asks⟩
    rw [show (_ : State).threads = (s.move k th .readHint).threads from rfl, getElem?_move hth, if_pos rfl]
  | hint hpc | noHint hpc | breakOff hpc | again hpc | run hpc | unauthorized hpc | stopped hpc
  | switcherGone hpc => exact hi.move hth fun _ => rfl
  | close hpc =>
    have hmoved : Answerable (s.move k th .waitSwitcher) := hi.move hth fun _ => rfl
    exact ⟨hmoved.up, hmoved.asks⟩
  | ack hpc => exact ⟨fun _ _ => Or.inl rfl, fun _ => Or.inl rfl⟩
  | clear hpc =>
    have hmoved : Answerable (s.move k th .returning) := hi.move hth fun h => by rw [hpc] at h; cases h
    exact ⟨fun _ h => (by cases h), hmoved.asks⟩
  | finish hpc => exact hi.move hth fun h => by rw [hpc] at h; cases h

theorem Answerable.step (hi : Answerable s) (hs : step s a = some t) : Answerable t := by
  cases a with
  | request r =>
    obtain ⟨hpc, hs⟩ := Option.ite_none_right_eq_some.mp hs
    cases hs
    have hup := hi.up (by rw [hpc]; rfl)
    cases r <;> exact ⟨fun _ => hup, nofun⟩
  | handler => exact hi.handlerStep (handlerStep_inv hs)
  | initer k =>
    obtain ⟨th, hth, h⟩ := initerStep_inv hs
    exact hi.initerStep hth h
  | switcherSucc | setAuthHint flag =>
    cases hs
    exact ⟨hi.up, hi.asks⟩

end

/-! ### The steps of a request -/

def HandlerPc.rank : HandlerPc → Nat
  | .idle => 0
  | .upReply | .shutReply | .ipcReply | .statusReply => 1
  | .spawn | .shutWait | .ipcWait => 2
  | .clearIniterSucc | .shutStore | .ipcStore | .ipcAck => 3
  | .clearIniter | .shutLoad | .ipcLoad => 4
  | .clearSwitcherSucc => 5
  | .clearSwitcher => 6
  | .upLoad => 7

section
variable {s t : State} {k : Nat} {th : Thread}

theorem HandlerStep.rank_lt (h : HandlerStep s t) : t.handler.rank < s.handler.rank := by
  cases h with
  | upDown hpc | upUp hpc | clearSwitcher hpc | clearSwitcherSucc hpc | clearIniter hpc | clearIniterSucc hpc
  | spawn hpc | upReply hpc | shutUp hpc | shutDown hpc | shutStore hpc | shutWait hpc | shutReply hpc | ipcUp hpc
  | ipcDown hpc | ipcStore hpc | ipcAck hpc | ipcWait hpc | ipcReply hpc | statusReply hpc =>
    simp [State.answer, HandlerPc.rank, hpc]

theorem exists_handlerStep (hbusy : s.handler ≠ .idle) (hfree : ¬s.Stalled) : ∃ t, handlerStep s = some t := by
  cases hpc : s.handler <;> simp only [handlerStep, hpc]
  case idle => exact absurd hpc hbusy
  case shutWait | ipcWait =>
    refine ⟨_, if_pos ?_⟩
    by_contra hno
    exact hfree ⟨by simpa using hno, Or.inl (by rw [hpc]; rfl)⟩
  all_goals first | exact ⟨_, rfl⟩ | (split <;> exact ⟨_, rfl⟩)

/-- The handler does not come there alone. -/
theorem HandlerStep.not_stalled (h : HandlerStep s t) (hfree : ¬s.Stalled) : ¬t.Stalled := by
  rintro ⟨hsucc, hasks⟩
  cases h with
  | shutUp hpc hup | ipcUp hpc hup => exact hfree ⟨hsucc, Or.inr ⟨by rw [hpc]; rfl, hup⟩⟩
  | shutStore hpc | ipcStore hpc => exact hfree ⟨hsucc, Or.inl (by rw [hpc]; rfl)⟩
  | ipcAck hpc => cases hsucc
  | upDown hpc | upUp hpc | clearSwitcher hpc | clearSwitcherSucc hpc | clearIniter hpc | clearIniterSucc hpc
  | spawn hpc | upReply hpc | shutDown hpc | shutWait hpc | shutReply hpc | ipcDown hpc | ipcWait hpc | ipcReply hpc
  | statusReply hpc => rcases hasks with h | ⟨h, -⟩ <;> cases h

/-- The handler alone does not get over it. -/
theorem State.Stalled.step (h : s.Stalled) (hs : handlerStep s = some t) : t.Stalled := by
  obtain ⟨hsucc, hasks⟩ := h
  cases handlerStep_inv hs with
  | shutUp hpc | ipcUp hpc => exact ⟨hsucc, Or.inl rfl⟩
  | shutStore hpc | ipcStore hpc => exact ⟨hsucc, Or.inl rfl⟩
  | shutDown hpc hdown | ipcDown hpc hdown =>
    rcases hasks with h | ⟨-, hup⟩
    · rw [hpc] at h
      cases h
    · cases hdown.symm.trans hup
  | shutWait hpc hyes | ipcWait hpc hyes => cases hsucc.symm.trans hyes
  | upDown hpc | upUp hpc | clearSwitcher hpc | clearSwitcherSucc hpc | clearIniter hpc | clearIniterSucc hpc
  | spawn hpc | upReply hpc | shutReply hpc | ipcAck hpc | ipcReply hpc | statusReply hpc =>
    rcases hasks with h | ⟨h, -⟩ <;> rw [hpc] at h <;> cases h

theorem State.Stalled.busy (h : s.Stalled) : s.handler ≠ .idle := by
  intro hidle
  rcases h.2 with h | ⟨h, -⟩ <;> rw [hidle] at h <;> cases h

/-! ### Without a collector -/

/-- In front of the start of its collector, or behind its end. -/
def IniterPc.detached : IniterPc → Bool
  | .spawned | .readHint | .testStop | .recheck | .acking => true
  | _ => false

/-- The steps to the acknowledgement when a logout may end the wait for the login. -/
def IniterPc.steps (authHint : Bool) : IniterPc → Nat
  | .spawned => 7
  | .testStop => 6
  | .readHint => 5 - authHint.toNat
  | .recheck => 2 + authHint.toNat
  | .acking => 1
  | _ => 0

/-- A `CollIniter` without a collector comes nearer to its acknowledgement, where a change of the login may have
    to help. -/
theorem detached_moves (hth : s.threads[k]? = some th) (hpc : th.pc.detached = true) :
    (∃ flag, th.pc.steps flag < th.pc.steps s.authHint) ∨
      ∃ t pc, initerStep s k = some t ∧ t.threads[k]? = some { th with pc } ∧
        (t.collIniterSucc = true ∨ pc.detached = true) ∧ pc.steps t.authHint < th.pc.steps s.authHint := by
  have hmoved : ∀ pc, (s.move k th pc).threads[k]? = some { th with pc } := fun pc =>
    (getElem?_move hth).trans (if_pos rfl)
  have hbit := Bool.toNat_le s.authHint
  cases h : th.pc <;> rw [h] at hpc
  case running | closing | waitSwitcher | clearing | returning | finished => cases hpc
  case recheck =>
    by_cases hhint : s.authHint = true
    · exact Or.inl ⟨false, by simp [IniterPc.steps, hhint]⟩
    · right
      simp only [initerStep, hth, Option.bind_eq_bind, Option.bind_some, h, if_neg hhint]
      refine ⟨_, .acking, rfl, hmoved _, Or.inr rfl, ?_⟩
      simp only [IniterPc.steps]
      omega
  case readHint =>
    by_cases hhint : s.authHint = true
    · right
      simp only [initerStep, hth, Option.bind_eq_bind, Option.bind_some, h, if_pos hhint]
      exact ⟨_, .recheck, rfl, hmoved _, Or.inr rfl, by simp [IniterPc.steps, State.move, hhint]⟩
    · exact Or.inl ⟨true, by simp [IniterPc.steps, hhint]⟩
  case testStop =>
    right
    simp only [initerStep, hth, Option.bind_eq_bind, Option.bind_some, h]
    split
    · refine ⟨_, .recheck, rfl, hmoved _, Or.inr rfl, ?_⟩
      simp only [IniterPc.steps, State.move]
      omega
    · refine ⟨_, .readHint, rfl, hmoved _, Or.inr rfl, ?_⟩
      simp only [IniterPc.steps, State.move]
      omega
  case spawned =>
    right
    simp only [initerStep, hth, Option.bind_eq_bind, Option.bind_some, h]
    refine ⟨_, .readHint, rfl, hmoved _, Or.inr rfl, ?_⟩
    simp only [IniterPc.steps, State.move]
    omega
  case acking =>
    right
    simp only [initerStep, hth, Option.bind_eq_bind, Option.bind_some, h]
    exact ⟨_, .clearing, rfl, hmoved _, Or.inl rfl, Nat.one_pos⟩

end

end TgFocus.Lifecycle

namespace TgFocus.IpcQueue
open Transition

inductive DequerStep (s : State) : State → Prop where
  | stop (hpc : s.dequer = .loopTest) (hstop : s.ipcmsgDequer = true) : DequerStep s { s with dequer := .exiting }
  | goOn (hpc : s.dequer = .loopTest) (hstop : s.ipcmsgDequer = false) : DequerStep s { s with dequer := .waiting }
  | wake (hpc : s.dequer = .waiting) (hupd : s.qIpcmsgHasUpd = true) : DequerStep s { s with dequer := .clearing }
  | clear (hpc : s.dequer = .clearing) : DequerStep s { s with qIpcmsgHasUpd := false, dequer := .taking }
  | take (hpc : s.dequer = .taking) :
      DequerStep s { s with qIpcmsg := { queue := s.qIpcmsg.queue.dropLast }
                            dequer := .examining s.qIpcmsg.queue.getLast? }
  | shut (msg : IpcMsg) (hpc : s.dequer = .examining (some msg)) (hmsg : msg.typ = .shutdownIpcSrv) :
      DequerStep s { s with ipcsrvIniter := true, dequer := .loopTest }
  | examined (maymsg : Option IpcMsg) (hpc : s.dequer = .examining maymsg) : DequerStep s { s with dequer := .loopTest }
  | ack (hpc : s.dequer = .exiting) : DequerStep s { s with ipcmsgDequerSucc := true, dequer := .done }

inductive IniterStep (s : State) : State → Prop where
  | asked (hpc : s.initer = .waiting) (hsrv : s.ipcsrvIniter = true) : IniterStep s { s with initer := .stopping }
  | stop (hpc : s.initer = .stopping) : IniterStep s { s with ipcmsgDequer := true, initer := .raising }
  | raise (hpc : s.initer = .raising) : IniterStep s { s with qIpcmsgHasUpd := true, initer := .done }

/-- Behind the request to stop the flag stays up for a thread that waits for it. -/
structure Stopping (s : State) : Prop where
  asked : s.initer ≠ .waiting → s.ipcsrvIniter = true
  stopped : s.initer ≠ .waiting → s.initer ≠ .stopping → s.ipcmsgDequer = true
  awake : s.initer = .done → s.dequer = .waiting → s.qIpcmsgHasUpd = true
  succ : s.ipcmsgDequerSucc = true ↔ s.dequer = .done

section
variable {s t : State} {a : Act}

theorem dequerStep_cases (h : dequerStep s = some t) : DequerStep s t := by
  unfold dequerStep at h
  split at h <;> rename_i hpc
  · split at h <;> cases h <;> rename_i hstop
    · exact .stop hpc hstop
    · exact .goOn hpc (by simpa using hstop)
  · obtain ⟨hupd, h⟩ := Option.ite_none_right_eq_some.mp h
    cases h
    exact .wake hpc hupd
  · cases h; exact .clear hpc
  · cases h; exact .take hpc
  · cases h; exact .examined none hpc
  · rename_i msg
    split at h
    · cases h; exact .examined (some msg) hpc
    · split at h <;> cases h
      · rename_i hmsg
        exact .shut msg hpc hmsg
      · exact .examined (some msg) hpc
  · cases h; exact .ack hpc
  · cases h

theorem initerStep_cases (h : initerStep s = some t) : IniterStep s t := by
  unfold initerStep at h
  split at h <;> rename_i hpc
  · obtain ⟨hsrv, h⟩ := Option.ite_none_right_eq_some.mp h
    cases h
    exact .asked hpc hsrv
  · cases h; exact .stop hpc
  · cases h; exact .raise hpc
  · cases h

theorem Stopping.dequerStep (hi : Stopping s) (h : DequerStep s t) : Stopping t := by
  obtain ⟨hasked, hstopped, hawake, hsucc⟩ := hi
  cases h with
  | goOn hpc hstop =>
    -- who goes on has not been asked to stop
    refine ⟨hasked, hstopped, fun hdone _ => ?_, by simpa [hpc] using hsucc⟩
    have hdone : s.initer = .done := hdone
    rw [hstopped (by simp [hdone]) (by simp [hdone])] at hstop
    cases hstop
  | stop hpc | wake hpc | clear hpc | take hpc | examined _ hpc =>
    exact ⟨hasked, hstopped, nofun, by simpa [hpc] using hsucc⟩
  | shut msg hpc hmsg => exact ⟨fun _ => rfl, hstopped, nofun, by simpa [hpc] using hsucc⟩
  | ack hpc => exact ⟨hasked, hstopped, nofun, by simp⟩

theorem Stopping.initerStep (hi : Stopping s) (h : IniterStep s t) : Stopping t := by
  obtain ⟨hasked, hstopped, hawake, hsucc⟩ := hi
  cases h with
  | asked hpc hsrv => exact ⟨fun _ => hsrv, fun _ h => absurd rfl h, nofun, hsucc⟩
  | stop hpc => exact ⟨fun _ => hasked (by simp [hpc]), fun _ _ => rfl, nofun, hsucc⟩
  | raise hpc =>
    exact ⟨fun _ => hasked (by simp [hpc]), fun _ _ => hstopped (by simp [hpc]) (by simp [hpc]), fun _ _ => rfl, hsucc⟩

theorem Stopping.step (hi : Stopping s) (hs : step s a = some t) : Stopping t := by
  cases a with
  | enqueue cmd =>
    cases hs
    exact ⟨hi.asked, hi.stopped, fun _ _ => rfl, hi.succ⟩
  | dequer => exact hi.dequerStep (dequerStep_cases hs)
  | initer => exact hi.initerStep (initerStep_cases hs)
  | shutdownIpcSrv =>
    cases hs
    exact ⟨fun _ => rfl, hi.stopped, hi.awake, hi.succ⟩

theorem stopping_of_reachable (h : system.Reachable s) : Stopping s := by
  refine h.invariant ?_ fun s a t hi _ hs => hi.step hs
  rintro s rfl
  exact ⟨fun h => absurd rfl h, fun h => absurd rfl h, nofun, by simp [start]⟩

end

end TgFocus.IpcQueue
