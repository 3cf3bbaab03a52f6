import TgFocus.Worker.Shutdown
import TgFocus.Theorems.LifecycleSteps

/-! What a step of the daemon can do, that the collector and the queue of the lazy port take only steps of
    their own in it, and what the flags say at its end. -/

namespace TgFocus.Shutdown
open Transition

/-! ### Steps -/

inductive Step (s : State) : Act → State → Prop where
  | leave {poll req} (hpc : s.listener = .loopTest) (hstop : s.connListener = true) :
      Step s (.listener poll req) { s with listener := .exiting }
  | poll {poll req} (hpc : s.listener = .loopTest) (hstop : s.connListener = false) :
      Step s (.listener poll req) { s with listener := .polling }
  | timeout {req} (hpc : s.listener = .polling) : Step s (.listener .timeout req) { s with listener := .loopTest }
  | lazy {req} (hpc : s.listener = .polling) :
      Step s (.listener .lazy req) { s with handlers := s.handlers ++ [.reading], listener := .loopTest }
  | immd {req} (hpc : s.listener = .polling) : Step s (.listener .immd req) { s with listener := .reading }
  | failed {poll} (hpc : s.listener = .reading) : Step s (.listener poll .returned) { s with listener := .loopTest }
  | gaveUp {poll} (hpc : s.listener = .reading) : Step s (.listener poll .gaveUp) { s with listener := .handlerSucc }
  | request {poll} (msg : IpcMsg) (r : Lifecycle.Request) (hpc : s.listener = .reading) (hr : requestOf msg = some r) :
      Step s (.listener poll (.decoded msg))
        { s with receivedImmd := s.receivedImmd ++ [msg]
                 life := { s.life with handler := r.begin }
                 listener := .handling r }
  | other {poll} (msg : IpcMsg) (hpc : s.listener = .reading) :
      Step s (.listener poll (.decoded msg))
        { s with receivedImmd := s.receivedImmd ++ [msg], listener := .handlerSucc }
  | handle {poll req} (r : Lifecycle.Request) (life : Lifecycle.State) (hpc : s.listener = .handling r)
      (hlife : Lifecycle.handlerStep s.life = some life) : Step s (.listener poll req) { s with life }
  | handled {poll req} (r : Lifecycle.Request) (hpc : s.listener = .handling r) (hidle : s.life.handler = .idle)
      (hr : r ≠ .shutdownIpcSrv) : Step s (.listener poll req) { s with listener := .handlerSucc }
  | handledShut {poll req} (hpc : s.listener = .handling .shutdownIpcSrv) (hidle : s.life.handler = .idle) :
      Step s (.listener poll req) { s with listener := .raising }
  | raise {poll req} (hpc : s.listener = .raising) :
      Step s (.listener poll req) { s with queue := { s.queue with ipcsrvIniter := true }, listener := .handlerSucc }
  | ack {poll req} (hpc : s.listener = .handlerSucc) :
      Step s (.listener poll req) { s with ipcconnHandlerSucc := true, listener := .loopTest }
  | close {poll req} (hpc : s.listener = .exiting) :
      Step s (.listener poll req) { s with connListenerSucc := true, listener := .done }
  | lazyFailed (k : Nat) (hpc : s.handlers[k]? = some .reading) : Step s (.handler k .returned) (s.setHandler k .gone)
  | lazyGaveUp (k : Nat) (hpc : s.handlers[k]? = some .reading) :
      Step s (.handler k .gaveUp) (s.setHandler k .handlerSucc)
  | lazyRead (k : Nat) (msg : IpcMsg) (hpc : s.handlers[k]? = some .reading) :
      Step s (.handler k (.decoded msg))
        { s.setHandler k (.enqueuing msg) with receivedLazy := s.receivedLazy ++ [msg] }
  | enqueue {req} (k : Nat) (msg : IpcMsg) (hpc : s.handlers[k]? = some (.enqueuing msg)) :
      Step s (.handler k req) { s.setHandler k .handlerSucc with queue := IpcQueue.enqueue s.queue msg }
  | lazyAck {req} (k : Nat) (hpc : s.handlers[k]? = some .handlerSucc) :
      Step s (.handler k req) { s.setHandler k .gone with ipcconnHandlerSucc := true }
  | initer (queue : IpcQueue.State) (hqueue : IpcQueue.initerStep s.queue = some queue) : Step s .initer { s with queue }
  | stop (hpc : s.initer = .stopping) (hqueue : s.queue.initer = .done) :
      Step s .initer { s with connListener := true, initer := .succ }
  | succ (hpc : s.initer = .succ) : Step s .initer { s with ipcsrvIniterSucc := true, initer := .closingLazy }
  | closeLazy (hpc : s.initer = .closingLazy) : Step s .initer { s with initer := .closingImmd }
  | closeImmd (hpc : s.initer = .closingImmd) : Step s .initer { s with initer := .done }
  | collIniterSucc (hpc : s.main = .collIniterSucc) (hsucc : s.life.collIniterSucc = true) :
      Step s .main { s with main := .ipcsrvIniterSucc }
  | ipcsrvIniterSucc (hpc : s.main = .ipcsrvIniterSucc) (hsucc : s.ipcsrvIniterSucc = true) :
      Step s .main { s with main := .ipcconnHandlerSucc }
  | ipcconnHandlerSucc (hpc : s.main = .ipcconnHandlerSucc) (hsucc : s.ipcconnHandlerSucc = true) :
      Step s .main { s with main := .ipcmsgDequerSucc }
  | ipcmsgDequerSucc (hpc : s.main = .ipcmsgDequerSucc) (hsucc : s.queue.ipcmsgDequerSucc = true) :
      Step s .main { s with main := .connListenerSucc }
  | connListenerSucc (hpc : s.main = .connListenerSucc) (hsucc : s.connListenerSucc = true) :
      Step s .main { s with main := .ended }
  | take (hpc : s.queue.dequer = .taking) :
      Step s .dequer
        { s with queue := { s.queue with qIpcmsg := s.queue.qIpcmsg.deque.2
                                         dequer := .examining s.queue.qIpcmsg.deque.1 }
                 taken := s.taken ++ s.queue.qIpcmsg.deque.1.toList }
  | dequer (queue : IpcQueue.State) (hqueue : IpcQueue.dequerStep s.queue = some queue)
      (hpc : s.queue.dequer ≠ .taking) : Step s .dequer { s with queue }
  | collIniter (k : Nat) (life : Lifecycle.State) (hlife : Lifecycle.initerStep s.life k = some life)
      (hjoin : joining s k = false) : Step s (.collIniter k) { s with life }
  | switcherSucc : Step s .switcherSucc { s with life := { s.life with collSwitcherSucc := true } }
  | joined (k : Nat) (life : Lifecycle.State) (hlife : Lifecycle.initerStep s.life k = some life)
      (hjoin : joining s k = true) : Step s (.joined k) { s with life }
  | setAuthHint (flag : Bool) : Step s (.setAuthHint flag) { s with life := { s.life with authHint := flag } }
  | abort : Step s .abort { s with main := .aborted }

section
variable {s t : State} {a : Act} {k : Nat} {poll : Poll} {req : IpcConnHandler.Request}

theorem receive_cases (hpc : s.listener = .reading) (h : receive s req = some t) : Step s (.listener poll req) t := by
  cases req with
  | waiting => cases h
  | returned => cases h; exact .failed hpc
  | gaveUp => cases h; exact .gaveUp hpc
  | decoded msg =>
    simp only [receive] at h
    split at h <;> cases h
    · rename_i r hr
      exact .request msg r hpc hr
    · exact .other msg hpc

theorem listenerStep_cases (h : listenerStep s poll req = some t) : Step s (.listener poll req) t := by
  unfold listenerStep at h
  split at h <;> rename_i hpc
  · split at h <;> cases h <;> rename_i hstop
    · exact .leave hpc hstop
    · exact .poll hpc (by simpa using hstop)
  · split at h
    · cases h; exact .timeout hpc
    · obtain ⟨-, h⟩ := Option.ite_none_left_eq_some.mp h
      cases h
      exact .lazy hpc
    · obtain ⟨-, h⟩ := Option.ite_none_left_eq_some.mp h
      cases h
      exact .immd hpc
  · exact receive_cases hpc h
  · rename_i r
    split at h
    · rename_i hidle
      split at h <;> cases h <;> rename_i hr
      · exact .handledShut (hr ▸ hpc) hidle
      · exact .handled r hpc hidle hr
    · obtain ⟨life, hlife, rfl⟩ := Option.map_eq_some_iff.mp h
      exact .handle r life hpc hlife
  · cases h; exact .raise hpc
  · cases h; exact .ack hpc
  · cases h; exact .close hpc
  · cases h

theorem handlerStep_cases (h : handlerStep s k req = some t) : Step s (.handler k req) t := by
  simp only [handlerStep, Option.bind_eq_bind, Option.bind_eq_some_iff] at h
  obtain ⟨pc, hpc, h⟩ := h
  cases pc <;> dsimp only at h
  case reading =>
    cases req with
    | waiting => cases h
    | returned => cases h; exact .lazyFailed k hpc
    | gaveUp => cases h; exact .lazyGaveUp k hpc
    | decoded msg => cases h; exact .lazyRead k msg hpc
  case enqueuing msg => cases h; exact .enqueue k msg hpc
  case handlerSucc => cases h; exact .lazyAck k hpc
  case gone => cases h

theorem initerStep_cases (h : initerStep s = some t) : Step s .initer t := by
  unfold initerStep at h
  split at h
  · obtain ⟨queue, hqueue, rfl⟩ := Option.map_eq_some_iff.mp h
    exact .initer queue hqueue
  · rename_i hqueue
    split at h <;> rename_i hpc
    · cases h; exact .stop hpc (by simpa using hqueue)
    · cases h; exact .succ hpc
    · cases h; exact .closeLazy hpc
    · cases h; exact .closeImmd hpc
    · cases h

theorem mainStep_cases (h : mainStep s = some t) : Step s .main t := by
  unfold mainStep at h
  split at h <;> rename_i hpc
  case h_6 | h_7 => cases h
  all_goals
    obtain ⟨hsucc, h⟩ := Option.ite_none_right_eq_some.mp h
    cases h
  · exact .collIniterSucc hpc hsucc
  · exact .ipcsrvIniterSucc hpc hsucc
  · exact .ipcconnHandlerSucc hpc hsucc
  · exact .ipcmsgDequerSucc hpc hsucc
  · exact .connListenerSucc hpc hsucc

theorem dequerStep_cases (h : dequerStep s = some t) : Step s .dequer t := by
  obtain ⟨queue, hqueue, rfl⟩ := Option.map_eq_some_iff.mp h
  by_cases hpc : s.queue.dequer = .taking
  · rw [IpcQueue.dequerStep, hpc] at hqueue
    cases hqueue
    rw [if_pos hpc]
    exact .take hpc
  · rw [if_neg hpc, List.append_nil]
    exact .dequer queue hqueue hpc

theorem step_cases (h : step s a = some t) : Step s a t := by
  obtain ⟨-, h⟩ := Option.ite_none_left_eq_some.mp h
  cases a with
  | main => exact mainStep_cases h
  | listener poll req => exact listenerStep_cases h
  | handler k req => exact handlerStep_cases h
  | initer => exact initerStep_cases h
  | dequer => exact dequerStep_cases h
  | collIniter k =>
    obtain ⟨hjoin, h⟩ := Option.ite_none_left_eq_some.mp h
    obtain ⟨life, hlife, rfl⟩ := Option.map_eq_some_iff.mp h
    exact .collIniter k life hlife (by simpa using hjoin)
  | switcherSucc =>
    obtain ⟨-, h⟩ := Option.ite_none_right_eq_some.mp h
    cases h
    exact .switcherSucc
  | joined k =>
    obtain ⟨hjoin, h⟩ := Option.ite_none_right_eq_some.mp h
    obtain ⟨life, hlife, rfl⟩ := Option.map_eq_some_iff.mp h
    exact .joined k life hlife hjoin
  | setAuthHint flag => cases h; exact .setAuthHint flag
  | abort => cases h; exact .abort

end

end TgFocus.Shutdown
