import Mathlib.Data.List.Perm.Basic
import TgFocus.Theorems.DaemonSteps
import TgFocus.Theorems.DaemonParts

/-! The end of the daemon. Main ends only when a client asked for it, behind the listener and the thread of
    the lazy port; once it is asked, the steps of the threads beside the collector lead there, unless the
    listener waits for a client that says nothing or for the collector. Only a handler of the immediate port
    stops the collector, and main waits for that first. -/

namespace TgFocus.Shutdown
open Transition

/-! ### The parts -/

section
variable {s t : State} {a : Act}

/-- Between two requests the handler of the immediate port is idle. -/
def State.Between (s : State) : Prop := (∀ r, s.listener ≠ .handling r) → s.life.handler = .idle

theorem life_step (hb : s.Between) (h : Step s a t) :
    t.Between ∧ (t.life = s.life ∨ ∃ b, Lifecycle.step s.life b = some t.life) := by
  cases h with
  | request msg r hpc hr =>
    have hidle := hb (by simp [hpc])
    exact ⟨fun h => absurd rfl (h r), Or.inr ⟨.request r, by simp [Lifecycle.step, hidle]⟩⟩
  | handle r life hpc hlife => exact ⟨fun h => absurd hpc (h r), Or.inr ⟨.handler, hlife⟩⟩
  | handled r hpc hidle | handledShut hpc hidle => exact ⟨fun _ => hidle, Or.inl rfl⟩
  | collIniter k life hlife | joined k life hlife =>
    refine ⟨fun h => ?_, Or.inr ⟨.initer k, hlife⟩⟩
    obtain ⟨th, -, hstep⟩ := Lifecycle.initerStep_inv hlife
    have hsame : life.handler = s.life.handler := by cases hstep <;> rfl
    exact hsame.trans (hb h)
  | switcherSucc => exact ⟨hb, Or.inr ⟨.switcherSucc, rfl⟩⟩
  | setAuthHint flag => exact ⟨hb, Or.inr ⟨.setAuthHint flag, rfl⟩⟩
  | leave hpc | poll hpc | timeout hpc | lazy hpc | immd hpc | failed hpc | gaveUp hpc | other _ hpc | raise hpc
  | ack hpc | close hpc => exact ⟨fun _ => hb (by simp [hpc]), Or.inl rfl⟩
  | lazyFailed | lazyGaveUp | lazyRead | enqueue | lazyAck | initer | stop | succ | closeLazy | closeImmd
  | collIniterSucc | ipcsrvIniterSucc | ipcconnHandlerSucc | ipcmsgDequerSucc | connListenerSucc | take | dequer
  | abort => exact ⟨hb, Or.inl rfl⟩

theorem queue_step (h : Step s a t) : t.queue = s.queue ∨ ∃ b, IpcQueue.step s.queue b = some t.queue := by
  cases h with
  | raise hpc => exact Or.inr ⟨.shutdownIpcSrv, rfl⟩
  | enqueue k msg hpc => exact Or.inr ⟨.enqueue msg, rfl⟩
  | initer queue hqueue => exact Or.inr ⟨.initer, hqueue⟩
  | take hpc => exact Or.inr ⟨.dequer, by rw [IpcQueue.step, IpcQueue.dequerStep, hpc]⟩
  | dequer queue hqueue hpc => exact Or.inr ⟨.dequer, hqueue⟩
  | _ => exact Or.inl rfl

/-- The collector and the queue go through states of their own systems. -/
theorem parts_of_reachable (h : system.Reachable s) :
    s.Between ∧ Lifecycle.system.Reachable s.life ∧ IpcQueue.system.Reachable s.queue := by
  refine h.invariant (I := fun s => s.Between ∧ Lifecycle.system.Reachable s.life ∧ IpcQueue.system.Reachable s.queue)
    ?_ ?_
  · rintro s ⟨authHint, rfl⟩
    exact ⟨fun _ => rfl, .init ⟨authHint, rfl⟩, .init rfl⟩
  · rintro s a t ⟨hb, hlife, hqueue⟩ - hs
    obtain ⟨hb', hl⟩ := life_step hb (step_cases hs)
    refine ⟨hb', ?_, ?_⟩
    · rcases hl with hl | ⟨b, hl⟩
      · exact hl ▸ hlife
      · exact hlife.step hl
    · rcases queue_step (step_cases hs) with hq | ⟨b, hq⟩
      · exact hq ▸ hqueue
      · exact hqueue.step hq

end

/-! ### Flags -/

/-- The waits that main has behind it. -/
def MainPc.behind : MainPc → Nat
  | .collIniterSucc => 0
  | .ipcsrvIniterSucc => 1
  | .ipcconnHandlerSucc => 2
  | .ipcmsgDequerSucc => 3
  | .connListenerSucc => 4
  | .ended => 5
  | .aborted => 0

structure Flags (s : State) : Prop where
  stopped : s.initer ≠ .stopping → s.queue.initer = .done ∧ s.connListener = true
  stopping : s.initer = .stopping → s.connListener = false
  ipcsrv : s.ipcsrvIniterSucc = true ↔ s.initer ≠ .stopping ∧ s.initer ≠ .succ
  closed : s.connListenerSucc = true ↔ s.listener = .done
  leaving : s.listener = .exiting ∨ s.listener = .done → s.connListener = true
  mainIpcsrv : 2 ≤ s.main.behind → s.ipcsrvIniterSucc = true
  mainDequer : 4 ≤ s.main.behind → s.queue.ipcmsgDequerSucc = true
  mainListener : 5 ≤ s.main.behind → s.connListenerSucc = true

section
variable {s t : State} {a : Act}

theorem Flags.step (hi : Flags s) (h : Step s a t) : Flags t := by
  obtain ⟨hstopped, hstopping, hipcsrv, hclosed, hleaving, hmi, hmd, hml⟩ := hi
  cases h with
  | leave hpc hstop =>
    exact ⟨hstopped, hstopping, hipcsrv, by simpa [hpc] using hclosed, fun _ => hstop, hmi, hmd, hml⟩
  | close hpc =>
    exact ⟨hstopped, hstopping, hipcsrv, by simp, fun _ => hleaving (Or.inl hpc), hmi, hmd, fun _ => rfl⟩
  | poll hpc | timeout hpc | lazy hpc | immd hpc | failed hpc | gaveUp hpc | request _ _ hpc | other _ hpc
  | handled _ hpc | handledShut hpc | raise hpc | ack hpc =>
    refine ⟨hstopped, hstopping, hipcsrv, by simpa [hpc] using hclosed, ?_, hmi, hmd, hml⟩
    rintro (h | h) <;> cases h
  | initer queue hqueue =>
    have hne : s.initer = .stopping := by
      by_contra hne
      have hdone := (hstopped hne).1
      cases IpcQueue.initerStep_cases hqueue with
      | asked hpc | stop hpc | raise hpc => cases hdone.symm.trans hpc
    refine ⟨fun h => absurd hne h, hstopping, hipcsrv, hclosed, hleaving, hmi, fun h => ?_, hml⟩
    have hsucc := hmd h
    cases IpcQueue.initerStep_cases hqueue <;> exact hsucc
  | take => exact ⟨hstopped, hstopping, hipcsrv, hclosed, hleaving, hmi, hmd, hml⟩
  | dequer queue hqueue hpc =>
    have hkept : queue.initer = s.queue.initer ∧ (s.queue.ipcmsgDequerSucc = true → queue.ipcmsgDequerSucc = true) := by
      cases IpcQueue.dequerStep_cases hqueue <;> first | exact ⟨rfl, id⟩ | exact ⟨rfl, fun _ => rfl⟩
    exact ⟨fun h => ⟨hkept.1.trans (hstopped h).1, (hstopped h).2⟩, hstopping, hipcsrv, hclosed, hleaving, hmi,
      fun h => hkept.2 (hmd h), hml⟩
  | stop hpc hqueue =>
    exact ⟨fun _ => ⟨hqueue, rfl⟩, nofun, by simpa [hpc] using hipcsrv, hclosed, fun _ => rfl, hmi, hmd, hml⟩
  | succ hpc => exact ⟨fun _ => hstopped (by simp [hpc]), nofun, by simp, hclosed, hleaving, fun _ => rfl, hmd, hml⟩
  | closeLazy hpc | closeImmd hpc =>
    exact ⟨fun _ => hstopped (by simp [hpc]), nofun, by simpa [hpc] using hipcsrv, hclosed, hleaving, hmi, hmd, hml⟩
  | collIniterSucc hpc hsucc => exact ⟨hstopped, hstopping, hipcsrv, hclosed, hleaving, nofun, nofun, nofun⟩
  | ipcsrvIniterSucc hpc hsucc => exact ⟨hstopped, hstopping, hipcsrv, hclosed, hleaving, fun _ => hsucc, nofun, nofun⟩
  | ipcconnHandlerSucc hpc hsucc =>
    exact ⟨hstopped, hstopping, hipcsrv, hclosed, hleaving, fun _ => hmi (by simp [hpc, MainPc.behind]), nofun, nofun⟩
  | ipcmsgDequerSucc hpc hsucc =>
    exact ⟨hstopped, hstopping, hipcsrv, hclosed, hleaving, fun _ => hmi (by simp [hpc, MainPc.behind]),
      fun _ => hsucc, nofun⟩
  | connListenerSucc hpc hsucc =>
    exact ⟨hstopped, hstopping, hipcsrv, hclosed, hleaving, fun _ => hmi (by simp [hpc, MainPc.behind]),
      fun _ => hmd (by simp [hpc, MainPc.behind]), fun _ => hsucc⟩
  | abort => exact ⟨hstopped, hstopping, hipcsrv, hclosed, hleaving, nofun, nofun, nofun⟩
  | handle | lazyFailed | lazyGaveUp | lazyRead | enqueue | lazyAck | collIniter | switcherSucc | joined
  | setAuthHint => exact ⟨hstopped, hstopping, hipcsrv, hclosed, hleaving, hmi, hmd, hml⟩

theorem flags_of_reachable (h : system.Reachable s) : Flags s := by
  refine h.invariant ?_ fun s a t hi _ hs => hi.step (step_cases hs)
  rintro s ⟨authHint, rfl⟩
  exact ⟨fun h => absurd rfl h, fun _ => rfl, by simp [start], by simp [start], by simp [start], nofun, nofun, nofun⟩

/-! ### Requests -/

/-- What a handler of the lazy port has read and not enqueued yet. -/
def HandlerPc.held : HandlerPc → Option IpcMsg
  | .enqueuing msg => some msg
  | _ => none

def State.held (s : State) : List IpcMsg := s.handlers.filterMap HandlerPc.held

/-- A client asked the daemon to shut down. -/
def State.Asked (s : State) : Prop := ∃ msg ∈ s.receivedImmd ++ s.receivedLazy, msg.typ = .shutdownIpcSrv

structure Heard (s : State) : Prop where
  once : s.receivedLazy.Perm (s.held ++ (s.queue.qIpcmsg.queue ++ s.taken))
  examining : ∀ msg, s.queue.dequer = .examining (some msg) → msg ∈ s.taken
  handling : s.listener = .handling .shutdownIpcSrv → s.Asked
  raising : s.listener = .raising → s.Asked
  raised : s.queue.ipcsrvIniter = true → s.Asked

theorem shutdownIpcSrv_of_requestOf {msg : IpcMsg} (h : requestOf msg = some .shutdownIpcSrv) :
    msg.typ = .shutdownIpcSrv := by
  unfold requestOf at h
  split at h
  · assumption
  · split at h <;> (try split at h) <;> (try split at h) <;> cases h

/-- One handler changes what it holds. -/
theorem held_setHandler {k : Nat} {pc : HandlerPc} (hpc : s.handlers[k]? = some pc) (pc' : HandlerPc) :
    ∃ rest, s.held.Perm (pc.held.toList ++ rest) ∧ (s.setHandler k pc').held.Perm (pc'.held.toList ++ rest) := by
  obtain ⟨hk, rfl⟩ := List.getElem?_eq_some_iff.mp hpc
  have hcons : ∀ pc, ((pc :: s.handlers.eraseIdx k).filterMap HandlerPc.held) =
      pc.held.toList ++ (s.handlers.eraseIdx k).filterMap HandlerPc.held := by
    intro pc
    cases hheld : pc.held <;> simp [hheld]
  refine ⟨(s.handlers.eraseIdx k).filterMap HandlerPc.held, ?_, ?_⟩
  · rw [← hcons]
    exact ((List.getElem_cons_eraseIdx_perm hk).symm).filterMap _
  · rw [← hcons]
    exact (List.set_perm_cons_eraseIdx hk pc').filterMap _

/-- A handler that holds nothing before and behind its step. -/
theorem held_setHandler_none {k : Nat} {pc pc' : HandlerPc} (hpc : s.handlers[k]? = some pc) (hnone : pc.held = none)
    (hnone' : pc'.held = none) : (s.setHandler k pc').held.Perm s.held := by
  obtain ⟨rest, hs, ht⟩ := held_setHandler hpc pc'
  rw [hnone] at hs
  rw [hnone'] at ht
  exact ht.trans hs.symm

theorem Heard.take (hi : Heard s) : Heard
    { s with queue := { s.queue with qIpcmsg := s.queue.qIpcmsg.deque.2, dequer := .examining s.queue.qIpcmsg.deque.1 }
             taken := s.taken ++ s.queue.qIpcmsg.deque.1.toList } := by
  obtain ⟨honce, hex, hhand, hraising, hraised⟩ := hi
  refine ⟨honce.trans (.append_left _ ?_), fun msg hmsg => ?_, hhand, hraising, hraised⟩
  · -- what is taken off the end goes behind what was taken before
    have hq : s.queue.qIpcmsg.queue = s.queue.qIpcmsg.deque.2.queue ++ s.queue.qIpcmsg.deque.1.toList := by
      rcases s.queue.qIpcmsg.queue.eq_nil_or_concat with h | ⟨l, x, h⟩ <;> simp [IpcQueue.IpcMsgQueue.deque, h]
    rw [hq, List.append_assoc]
    exact .append_left _ List.perm_append_comm
  · exact List.mem_append_right _ (Option.mem_toList.mpr (IpcQueue.DequerPc.examining.inj hmsg))

theorem Heard.dequer (hi : Heard s) {queue : IpcQueue.State} (h : IpcQueue.DequerStep s.queue queue)
    (hpc : s.queue.dequer ≠ .taking) : Heard { s with queue } := by
  obtain ⟨honce, hex, hhand, hraising, hraised⟩ := id hi
  cases h with
  | take htaking => exact absurd htaking hpc
  | shut msg hpc hmsg =>
    have htaken := honce.mem_iff.mpr (List.mem_append_right _ (List.mem_append_right _ (hex msg hpc)))
    exact ⟨honce, nofun, hhand, hraising, fun _ => ⟨msg, List.mem_append_right _ htaken, hmsg⟩⟩
  | stop | goOn | wake | clear | examined | ack => exact ⟨honce, nofun, hhand, hraising, hraised⟩

theorem Heard.step (hi : Heard s) (h : Step s a t) : Heard t := by
  obtain ⟨honce, hex, hhand, hraising, hraised⟩ := id hi
  have hmoreImmd : ∀ {msg : IpcMsg}, s.Asked → ∃ m ∈ (s.receivedImmd ++ [msg]) ++ s.receivedLazy, m.typ = .shutdownIpcSrv := by
    rintro msg ⟨m, hm, htyp⟩
    refine ⟨m, ?_, htyp⟩
    rcases List.mem_append.mp hm with hm | hm
    · exact List.mem_append_left _ (List.mem_append_left _ hm)
    · exact List.mem_append_right _ hm
  cases h with
  | request msg r hpc hr =>
    refine ⟨honce, hex, fun h => ?_, nofun, fun h => hmoreImmd (hraised h)⟩
    obtain rfl : r = .shutdownIpcSrv := ListenerPc.handling.inj h
    exact ⟨msg, by simp, shutdownIpcSrv_of_requestOf hr⟩
  | other msg hpc => exact ⟨honce, hex, nofun, nofun, fun h => hmoreImmd (hraised h)⟩
  | lazyRead k msg hpc =>
    have hmore : s.Asked → ∃ m ∈ s.receivedImmd ++ (s.receivedLazy ++ [msg]), m.typ = .shutdownIpcSrv := by
      rintro ⟨m, hm, htyp⟩
      exact ⟨m, by rw [← List.append_assoc]; exact List.mem_append_left _ hm, htyp⟩
    refine ⟨?_, hex, fun h => hmore (hhand h), fun h => hmore (hraising h), fun h => hmore (hraised h)⟩
    obtain ⟨rest, hs, ht⟩ := held_setHandler hpc (.enqueuing msg)
    calc (s.receivedLazy ++ [msg]).Perm (msg :: s.receivedLazy) := List.perm_append_singleton _ _
      List.Perm _ (msg :: (rest ++ _)) := .cons _ (honce.trans (hs.append_right _))
      List.Perm _ _ := (ht.append_right _).symm
  | enqueue k msg hpc =>
    refine ⟨?_, hex, hhand, hraising, hraised⟩
    obtain ⟨rest, hs, ht⟩ := held_setHandler hpc .handlerSucc
    refine (honce.trans (hs.append_right _)).trans (.trans ?_ (ht.append_right _).symm)
    have hmiddle : (rest ++ s.queue.qIpcmsg.queue ++ msg :: s.taken).Perm (msg :: (rest ++ s.queue.qIpcmsg.queue ++ s.taken)) :=
      List.perm_middle
    simpa [HandlerPc.held, IpcQueue.enqueue, IpcQueue.IpcMsgQueue.enqueue, State.setHandler] using hmiddle.symm
  | handledShut hpc hidle => exact ⟨honce, hex, nofun, fun _ => hhand hpc, hraised⟩
  | raise hpc => exact ⟨honce, hex, nofun, nofun, fun _ => hraising hpc⟩
  | lazy hpc =>
    have hheld : (s.handlers ++ [HandlerPc.reading]).filterMap HandlerPc.held = s.held := by
      rw [List.filterMap_append]
      exact List.append_nil _
    exact ⟨by rwa [State.held, hheld], hex, nofun, nofun, hraised⟩
  | leave | poll | timeout | immd | failed | gaveUp | ack | close | handled =>
    exact ⟨honce, hex, nofun, nofun, hraised⟩
  | lazyFailed k hpc | lazyGaveUp k hpc | lazyAck k hpc =>
    exact ⟨honce.trans ((held_setHandler_none hpc rfl rfl).symm.append_right _), hex, hhand, hraising, hraised⟩
  | initer queue hqueue =>
    cases IpcQueue.initerStep_cases hqueue <;> exact ⟨honce, hex, hhand, hraising, hraised⟩
  | take hpc => exact hi.take
  | dequer queue hqueue hpc => exact hi.dequer (IpcQueue.dequerStep_cases hqueue) hpc
  | handle | stop | succ | closeLazy | closeImmd | collIniterSucc | ipcsrvIniterSucc | ipcconnHandlerSucc
  | ipcmsgDequerSucc | connListenerSucc | collIniter | switcherSucc | joined | setAuthHint | abort =>
    exact ⟨honce, hex, hhand, hraising, hraised⟩

theorem heard_of_reachable (h : system.Reachable s) : Heard s := by
  refine h.invariant ?_ fun s a t hi _ hs => hi.step (step_cases hs)
  rintro s ⟨authHint, rfl⟩
  exact ⟨.refl _, nofun, nofun, nofun, nofun⟩

/-- A step of the listener when no client does anything. -/
def listen : Act := .listener .timeout .waiting

/-- A client of the immediate port connects and sends a request; `n` steps handle it. -/
def ask (msg : IpcMsg) (n : Nat) : List Act :=
  [listen, .listener .immd .waiting, .listener .timeout (.decoded msg)] ++ List.replicate n listen

/-- A client of the lazy port connects and sends a request, to the first handler there. -/
def send (msg : IpcMsg) : List Act := [listen, .listener .lazy .waiting, .handler 0 (.decoded msg)]

def stopServer : List Act := List.replicate 5 .initer

/-- No request of the lazy port is lost or taken twice. -/
theorem lazy_requests_once (h : system.Reachable s) :
    s.receivedLazy.Perm (s.held ++ (s.queue.qIpcmsg.queue ++ s.taken)) :=
  (heard_of_reachable h).once

/-- One request that its handler still holds. -/
theorem lazy_requests_once_held :
    ∃ s : State, s.held = [newIpcmsgShutipcsrv] ∧
      s.receivedLazy.Perm (s.held ++ (s.queue.qIpcmsg.queue ++ s.taken)) :=
  have h : system.Reachable _ := .run (.init ⟨false, rfl⟩) (send newIpcmsgShutipcsrv) rfl
  ⟨_, rfl, lazy_requests_once h⟩

/-! ### The end of main -/

/-- A connection is handled: the flag is there, or a handler is about to set it. -/
def State.Replied (s : State) : Prop :=
  s.ipcconnHandlerSucc = true ∨ s.listener = .handlerSucc ∨ .handlerSucc ∈ s.handlers

structure Replying (s : State) : Prop where
  queued : s.queue.qIpcmsg.queue ≠ [] → s.Replied
  examining : ∀ msg, s.queue.dequer = .examining (some msg) → s.Replied
  raised : s.queue.ipcsrvIniter = true → s.Replied

theorem mem_setHandler {k : Nat} {pc pc' : HandlerPc} (h : .handlerSucc ∈ s.handlers) (hpc : s.handlers[k]? = some pc)
    (hne : pc ≠ .handlerSucc) : .handlerSucc ∈ (s.setHandler k pc').handlers := by
  obtain ⟨j, hj⟩ := List.mem_iff_getElem?.mp h
  have hjk : k ≠ j := by
    rintro rfl
    exact hne (Option.some.inj (hpc.symm.trans hj))
  exact List.mem_iff_getElem?.mpr ⟨j, (List.getElem?_set_ne hjk).trans hj⟩

theorem State.Replied.step (h : s.Replied) (hs : Step s a t) : t.Replied := by
  have hkept : t.ipcconnHandlerSucc = s.ipcconnHandlerSucc → (s.listener = .handlerSucc → t.listener = .handlerSucc) →
      (.handlerSucc ∈ s.handlers → .handlerSucc ∈ t.handlers) → t.Replied := fun hsucc hl hh =>
    h.imp (fun hs => hsucc.trans hs) (Or.imp hl hh)
  cases hs with
  | ack | lazyAck => exact Or.inl rfl
  | lazy hpc => exact hkept rfl (fun h => by cases hpc.symm.trans h) fun h => List.mem_append_left _ h
  | leave hpc | poll hpc | timeout hpc | immd hpc | failed hpc | request _ _ hpc | handledShut hpc | close hpc =>
    exact hkept rfl (fun h => by cases hpc.symm.trans h) id
  | gaveUp | other | handled | raise => exact Or.inr (Or.inl rfl)
  | lazyFailed k hpc | lazyGaveUp k hpc | lazyRead k _ hpc | enqueue k _ hpc =>
    exact hkept rfl id fun h => mem_setHandler h hpc nofun
  | handle | initer | stop | succ | closeLazy | closeImmd | collIniterSucc | ipcsrvIniterSucc | ipcconnHandlerSucc
  | ipcmsgDequerSucc | connListenerSucc | take | dequer | collIniter | switcherSucc | joined | setAuthHint | abort =>
    exact hkept rfl id id

theorem Replying.dequer (hi : Replying s) {queue : IpcQueue.State} (h : IpcQueue.DequerStep s.queue queue)
    (hpc : s.queue.dequer ≠ .taking) : Replying { s with queue } := by
  obtain ⟨hq, hex, hraised⟩ := hi
  cases h with
  | take htaking => exact absurd htaking hpc
  | shut msg hpc hmsg => exact ⟨hq, nofun, fun _ => hex msg hpc⟩
  | stop | goOn | wake | clear | examined | ack => exact ⟨hq, nofun, hraised⟩

theorem Replying.step (hi : Replying s) (h : Step s a t) : Replying t := by
  have hkept : s.Replied → t.Replied := fun hr => hr.step h
  obtain ⟨hq, hex, hraised⟩ := id hi
  cases h with
  | enqueue k msg hpc =>
    have hr : ({ s.setHandler k .handlerSucc with queue := IpcQueue.enqueue s.queue msg } : State).Replied :=
      Or.inr (Or.inr (List.mem_set (List.getElem?_eq_some_iff.mp hpc).1 _))
    exact ⟨fun _ => hr, fun _ _ => hr, fun _ => hr⟩
  | raise hpc => exact ⟨fun _ => Or.inr (Or.inl rfl), fun _ _ => Or.inr (Or.inl rfl), fun _ => Or.inr (Or.inl rfl)⟩
  | initer queue hqueue =>
    cases IpcQueue.initerStep_cases hqueue <;> exact ⟨hq, hex, hraised⟩
  | take hpc =>
    refine ⟨fun h => hq fun hnil => h ?_, fun msg hmsg => hq ?_, hraised⟩
    · rw [IpcQueue.IpcMsgQueue.deque, hnil]
      rfl
    · exact List.ne_nil_of_mem (List.mem_of_getLast? (IpcQueue.DequerPc.examining.inj hmsg))
  | dequer queue hqueue hpc => exact hi.dequer (IpcQueue.dequerStep_cases hqueue) hpc
  | _ => exact ⟨fun h => hkept (hq h), fun msg h => hkept (hex msg h), fun h => hkept (hraised h)⟩

theorem replying_of_reachable (h : system.Reachable s) : Replying s := by
  refine h.invariant ?_ fun s a t hi _ hs => hi.step (step_cases hs)
  rintro s ⟨authHint, rfl⟩
  exact ⟨fun h => absurd rfl h, nofun, nofun⟩

end

/-! ### The threads beside the collector -/

/-- No client connects or sends anything, nobody logs in or out, and neither a `CollIniter` nor its collector
    does anything. -/
def Act.own : Act → Bool
  | .main | .initer | .dequer => true
  | .listener poll req => poll = .timeout && req = .waiting
  | .handler _ req => req = .waiting
  | .collIniter _ | .switcherSucc | .joined _ | .setAuthHint _ | .abort => false

def ListenerPc.rank : ListenerPc → Nat
  | .done => 0
  | .exiting => 1
  | .loopTest => 2
  | .polling | .handlerSucc => 3
  | .raising => 4
  | .handling _ => 5
  | .reading => 6

def HandlerPc.rank : HandlerPc → Nat
  | .handlerSucc => 1
  | _ => 0

def IniterPc.rank : IniterPc → Nat
  | .stopping => 4
  | .succ => 3
  | .closingLazy => 2
  | .closingImmd => 1
  | .done => 0

def queueRank (q : IpcQueue.State) : Nat :=
  (match q.initer with
    | .waiting => 3
    | .stopping => 2
    | .raising => 1
    | .done => 0) +
  match q.dequer with
    | .waiting => 6
    | .clearing => 5
    | .taking => 4
    | .examining _ => 3
    | .loopTest => 2
    | .exiting => 1
    | .done => 0

def State.rank (s : State) : Nat :=
  (5 - s.main.behind) + s.initer.rank + queueRank s.queue + s.listener.rank + total HandlerPc.rank s.handlers +
    s.life.handler.rank

/-- The daemon is asked to end, and neither main nor the listener waits for somebody else. -/
structure Ending (s : State) : Prop where
  srv : s.queue.ipcsrvIniter = true
  main : s.main ≠ .collIniterSucc ∧ s.main ≠ .aborted
  heard : s.listener ≠ .reading
  free : ¬s.life.Stalled

/-- A step of these threads brings the daemon nearer to its end. -/
def Moves (s : State) : Prop := ∃ a t, a.own = true ∧ step s a = some t ∧ Ending t ∧ t.rank < s.rank

section
variable {s t : State} {a : Act}

/-- In front of its end every thread makes its steps. -/
theorem Ending.step_eq (he : Ending s) (hend : s.main ≠ .ended) (a : Act) : step s a = match a with
    | .main => mainStep s
    | .listener poll req => listenerStep s poll req
    | .handler k req => handlerStep s k req
    | .initer => initerStep s
    | .dequer => dequerStep s
    | a => step s a := by
  have hgoes : ¬(s.main = .ended ∨ s.main = .aborted) := by simp [hend, he.main.2]
  cases a <;> first | rfl | exact if_neg hgoes

theorem initer_moves (he : Ending s) (hend : s.main ≠ .ended) (hq : s.queue.initer = .done) (hne : s.initer ≠ .done) :
    Moves s := by
  have hstep := he.step_eq hend .initer
  obtain ⟨hsrv, hmain, hl, hfree⟩ := he
  dsimp only at hstep
  rw [initerStep, if_neg (by simpa using hq)] at hstep
  cases hpc : s.initer <;> simp only [hpc] at hstep
  case done => exact absurd hpc hne
  all_goals
    refine ⟨.initer, _, rfl, hstep, ⟨hsrv, hmain, hl, hfree⟩, ?_⟩
    simp only [State.rank, hpc, IniterPc.rank]
    omega

theorem queue_initer_moves (he : Ending s) (hend : s.main ≠ .ended) (hq : s.queue.initer ≠ .done) : Moves s := by
  have hstep := he.step_eq hend .initer
  obtain ⟨hsrv, hmain, hl, hfree⟩ := he
  dsimp only at hstep
  rw [initerStep, if_pos hq] at hstep
  cases hpc : s.queue.initer <;>
    simp only [IpcQueue.initerStep, hpc, hsrv, if_true, Option.map_some, Option.map_none] at hstep
  case done => exact absurd hpc hq
  all_goals
    refine ⟨.initer, _, rfl, hstep, ⟨rfl, hmain, hl, hfree⟩, ?_⟩
    simp only [State.rank, queueRank, hpc]
    omega

theorem dequer_moves (he : Ending s) (hend : s.main ≠ .ended) (hi : IpcQueue.Stopping s.queue)
    (hq : s.queue.initer = .done) (hne : s.queue.dequer ≠ .done) : Moves s := by
  have hstep := he.step_eq hend .dequer
  obtain ⟨hsrv, hmain, hl, hfree⟩ := he
  have hstop := hi.stopped (by simp [hq]) (by simp [hq])
  dsimp only [dequerStep] at hstep
  cases hpc : s.queue.dequer
  case done => exact absurd hpc hne
  case examining maymsg =>
    have hmoved : ∃ queue, IpcQueue.dequerStep s.queue = some queue ∧ queue.ipcsrvIniter = true ∧
        queue.initer = s.queue.initer ∧ queue.dequer = .loopTest := by
      cases maymsg <;> simp only [IpcQueue.dequerStep, hpc]
      · exact ⟨_, rfl, hsrv, rfl, rfl⟩
      · split
        · exact ⟨_, rfl, hsrv, rfl, rfl⟩
        · split <;> refine ⟨_, rfl, ?_, rfl, rfl⟩ <;> first | rfl | exact hsrv
    obtain ⟨queue, hqueue, hsrv', hinit, hdeq⟩ := hmoved
    rw [hqueue] at hstep
    refine ⟨.dequer, _, rfl, hstep, ⟨hsrv', hmain, hl, hfree⟩, ?_⟩
    simp only [State.rank, queueRank, hinit, hdeq, hpc]
    omega
  all_goals
    simp only [IpcQueue.dequerStep, hpc, hstop, if_true, Option.map_some, hi.awake hq] at hstep
    refine ⟨.dequer, _, rfl, hstep, ⟨hsrv, hmain, hl, hfree⟩, ?_⟩
    simp only [State.rank, queueRank, hpc]
    omega

theorem listener_moves (he : Ending s) (hend : s.main ≠ .ended) (hstop : s.connListener = true)
    (hne : s.listener ≠ .done) : Moves s := by
  have hstep := he.step_eq hend listen
  obtain ⟨hsrv, hmain, hl, hfree⟩ := he
  dsimp only [listen] at hstep
  cases hpc : s.listener <;> simp only [listenerStep, hpc] at hstep
  case done => exact absurd hpc hne
  case reading => exact absurd hpc hl
  case handling r =>
    by_cases hidle : s.life.handler = .idle
    · rw [if_pos hidle] at hstep
      split at hstep <;>
      · refine ⟨_, _, rfl, hstep, ⟨hsrv, hmain, nofun, hfree⟩, ?_⟩
        simp only [State.rank, hpc, ListenerPc.rank]
        omega
    · obtain ⟨life, hlife⟩ := Lifecycle.exists_handlerStep hidle hfree
      have hmoved := Lifecycle.handlerStep_inv hlife
      have hlt := hmoved.rank_lt
      rw [if_neg hidle, hlife, Option.map_some] at hstep
      refine ⟨_, _, rfl, hstep, ⟨hsrv, hmain, nofun, hmoved.not_stalled hfree⟩, ?_⟩
      simp only [State.rank, hpc]
      omega
  case raising =>
    refine ⟨_, _, rfl, hstep, ⟨rfl, hmain, nofun, hfree⟩, ?_⟩
    simp only [State.rank, queueRank, hpc, ListenerPc.rank]
    omega
  case loopTest =>
    rw [if_pos hstop] at hstep
    refine ⟨_, _, rfl, hstep, ⟨hsrv, hmain, nofun, hfree⟩, ?_⟩
    simp only [State.rank, hpc, ListenerPc.rank]
    omega
  all_goals
    refine ⟨_, _, rfl, hstep, ⟨hsrv, hmain, nofun, hfree⟩, ?_⟩
    simp only [State.rank, hpc, ListenerPc.rank]
    omega

theorem handler_moves (he : Ending s) (hend : s.main ≠ .ended) (hmem : .handlerSucc ∈ s.handlers) : Moves s := by
  obtain ⟨k, hk⟩ := List.mem_iff_getElem?.mp hmem
  have hstep : step s (.handler k .waiting) = some { s.setHandler k .gone with ipcconnHandlerSucc := true } := by
    rw [he.step_eq hend]
    simp [handlerStep, hk]
  obtain ⟨hsrv, hmain, hl, hfree⟩ := he
  refine ⟨_, _, rfl, hstep, ⟨hsrv, hmain, hl, hfree⟩, ?_⟩
  have hset : total HandlerPc.rank (s.handlers.set k .gone) + HandlerPc.rank .handlerSucc =
      total HandlerPc.rank s.handlers + HandlerPc.rank .gone := total_set hk
  simp only [HandlerPc.rank] at hset
  simp only [State.rank, State.setHandler]
  omega

theorem main_moves (he : Ending s) (hend : s.main ≠ .ended) (hsrv : s.ipcsrvIniterSucc = true)
    (hconn : s.ipcconnHandlerSucc = true) (hdequer : s.queue.ipcmsgDequerSucc = true)
    (hlistener : s.connListenerSucc = true) : Moves s := by
  have hstep := he.step_eq hend .main
  obtain ⟨hasked, hmain, hl, hfree⟩ := he
  dsimp only at hstep
  cases hpc : s.main <;> simp only [mainStep, hpc, hsrv, hconn, hdequer, hlistener, if_true] at hstep
  case ended => exact absurd hpc hend
  case aborted => exact absurd hpc hmain.2
  case collIniterSucc => exact absurd hpc hmain.1
  all_goals
    refine ⟨_, _, rfl, hstep, ⟨hasked, ⟨nofun, nofun⟩, hl, hfree⟩, ?_⟩
    simp only [State.rank, hpc, MainPc.behind]
    omega

theorem moves_of_ending (hr : system.Reachable s) (he : Ending s) (hend : s.main ≠ .ended) : Moves s := by
  have hparts := parts_of_reachable hr
  have hflags := flags_of_reachable hr
  have hstopping := IpcQueue.stopping_of_reachable hparts.2.2
  -- the server stops first, then the two threads of the ports, then main
  by_cases hq : s.queue.initer = .done
  swap
  · exact queue_initer_moves he hend hq
  by_cases hinit : s.initer = .done
  swap
  · exact initer_moves he hend hq hinit
  have hstop := (hflags.stopped (by simp [hinit])).2
  by_cases hdequer : s.queue.dequer = .done
  swap
  · exact dequer_moves he hend hstopping hq hdequer
  by_cases hlistener : s.listener = .done
  swap
  · exact listener_moves he hend hstop hlistener
  rcases (replying_of_reachable hr).raised he.srv with hconn | hl | hmem
  · exact main_moves he hend (hflags.ipcsrv.mpr (by simp [hinit])) hconn (hstopping.succ.mpr hdequer)
      (hflags.closed.mpr hlistener)
  · cases hlistener.symm.trans hl
  · exact handler_moves he hend hmem

theorem canReach_end_of_ending (hr : system.Reachable s) (he : Ending s) :
    system.CanReach (·.own = true) (·.main = .ended) s := by
  refine System.CanReach.of_rank State.rank (I := fun s => system.Reachable s ∧ Ending s) ?_ ⟨hr, he⟩
  rintro s ⟨hr, he⟩
  by_cases hend : s.main = .ended
  · exact Or.inl hend
  · obtain ⟨a, t, hown, hs, het, hlt⟩ := moves_of_ending hr he hend
    exact Or.inr ⟨a, t, hown, hs, ⟨hr.step hs, het⟩, hlt⟩

/-- The wait for the collector is over as soon as its acknowledgement is there. -/
theorem canReach_end (hr : system.Reachable s) (halive : s.main ≠ .aborted) (hsrv : s.queue.ipcsrvIniter = true)
    (hsucc : s.main = .collIniterSucc → s.life.collIniterSucc = true) (hl : s.listener ≠ .reading)
    (hfree : ¬s.life.Stalled) : system.CanReach (·.own = true) (·.main = .ended) s := by
  by_cases hmain : s.main = .collIniterSucc
  · have hs : step s .main = some { s with main := .ipcsrvIniterSucc } := by
      simp [step, mainStep, hmain, hsucc hmain]
    exact .step (a := .main) rfl hs
      (canReach_end_of_ending (hr.step (a := .main) hs) ⟨hsrv, ⟨nofun, nofun⟩, hl, hfree⟩)
  · exact canReach_end_of_ending hr ⟨hsrv, ⟨hmain, halive⟩, hl, hfree⟩

/-- The listener waits for a client, or for the collector. -/
def Held (s : State) : Prop := s.listener = .reading ∨ (∃ r, s.listener = .handling r) ∧ s.life.Stalled

/-- A step of a collector: its switcher acknowledges, its threads have ended. -/
def Act.ofCollector : Act → Bool
  | .switcherSucc | .joined _ => true
  | _ => false

/-- Main goes on to its end behind the listener when the collector has acknowledged. -/
theorem canReach_end_of_done (hr : system.Reachable s) (hdone : s.listener = .done) (halive : s.main ≠ .aborted)
    (hsucc : s.main = .collIniterSucc → s.life.collIniterSucc = true) :
    system.CanReach (·.ofCollector = false) (·.main = .ended) s := by
  have hflags := flags_of_reachable hr
  have hparts := parts_of_reachable hr
  have hinit : s.initer ≠ .stopping := by
    intro hpc
    cases (hflags.stopping hpc).symm.trans (hflags.leaving (Or.inr hdone))
  have hsrv := (IpcQueue.stopping_of_reachable hparts.2.2).asked (by simp [(hflags.stopped hinit).1])
  have hfree : ¬s.life.Stalled := fun h => h.busy (hparts.1 (by simp [hdone]))
  refine (canReach_end hr halive hsrv hsucc (by simp [hdone]) hfree).mono fun a ha => ?_
  cases a <;> first | rfl | cases ha

/-- A `CollIniter` in front of the start of its collector, or behind its end, comes to its acknowledgement. -/
theorem canReach_acknowledged {k : Nat} {th : Lifecycle.Thread} (hgoes : ¬(s.main = .ended ∨ s.main = .aborted))
    (hth : s.life.threads[k]? = some th) (hpc : th.pc.detached = true) :
    system.CanReach (·.ofCollector = false)
      (fun t => t.life.collIniterSucc = true ∧ t.listener = s.listener ∧ t.main = s.main) s := by
  refine System.CanReach.of_rank (fun t => ((t.life.threads[k]?).map fun th => th.pc.steps t.life.authHint).getD 0)
    (I := fun t => (t.listener = s.listener ∧ t.main = s.main) ∧
      (t.life.collIniterSucc = true ∨ ∃ th, t.life.threads[k]? = some th ∧ th.pc.detached = true)) ?_
    ⟨⟨rfl, rfl⟩, Or.inr ⟨th, hth, hpc⟩⟩
  rintro u ⟨⟨hl, hmain⟩, hsucc | ⟨th, hth, hpc⟩⟩
  · exact Or.inl ⟨hsucc, hl, hmain⟩
  right
  have hgoes' : ¬(u.main = .ended ∨ u.main = .aborted) := hmain ▸ hgoes
  rcases Lifecycle.detached_moves hth hpc with ⟨flag, hlt⟩ | ⟨life, pc, hlife, hth', hend, hlt⟩
  · refine ⟨.setAuthHint flag, _, rfl, if_neg hgoes', ⟨⟨hl, hmain⟩, Or.inr ⟨th, hth, hpc⟩⟩, ?_⟩
    simpa [hth] using hlt
  · have hne : th.pc ≠ .waitSwitcher := by
      intro h
      rw [h] at hpc
      cases hpc
    have hjoin : joining u k = false := by simp [joining, hth, hne]
    have hs : step u (.collIniter k) = some { u with life } := by
      simp [step, hgoes', hjoin, collIniterStep, hlife]
    refine ⟨.collIniter k, _, rfl, hs, ⟨⟨hl, hmain⟩, hend.imp_right fun h => ⟨_, hth', h⟩⟩, ?_⟩
    simpa [hth, hth'] using hlt

/-- Main waits for the collector, and whoever could acknowledge has started its own. -/
structure Bound (s : State) : Prop where
  listener : s.listener = .done
  main : s.main = .collIniterSucc ∨ s.main = .aborted
  unacked : s.life.collIniterSucc = false
  bound : ∀ th ∈ s.life.threads, th.pc.detached = false

/-- Main waits for the collector, and whoever could acknowledge was left running. -/
structure Lost (s : State) : Prop where
  listener : s.listener = .done
  main : s.main = .collIniterSucc ∨ s.main = .aborted
  unacked : s.life.collIniterSucc = false
  left : ∀ th ∈ s.life.threads, th.pc.unacked = true → th.pc = .running ∧ s.life.collIniter = false

theorem main_step (hmain : s.main = .collIniterSucc ∨ s.main = .aborted) (hno : s.life.collIniterSucc = false)
    (h : Step s a t) : t.main = .collIniterSucc ∨ t.main = .aborted := by
  cases h with
  | collIniterSucc hpc hsucc => cases hno.symm.trans hsucc
  | ipcsrvIniterSucc hpc | ipcconnHandlerSucc hpc | ipcmsgDequerSucc hpc | connListenerSucc hpc =>
    rcases hmain with hmain | hmain <;> cases hmain.symm.trans hpc
  | abort => exact Or.inr rfl
  | _ => exact hmain

theorem Bound.step (hi : Bound s) (ha : a.ofCollector = false) (h : Step s a t) : Bound t := by
  have hmain := main_step hi.main hi.unacked h
  obtain ⟨hlistener, -, hunacked, hbound⟩ := hi
  cases h with
  | leave hpc | poll hpc | timeout hpc | lazy hpc | immd hpc | failed hpc | gaveUp hpc | request _ _ hpc | other _ hpc
  | handle _ _ hpc | handled _ hpc | handledShut hpc | raise hpc | ack hpc | close hpc => cases hlistener.symm.trans hpc
  | collIniter k life hlife hjoin =>
    obtain ⟨th, hth, hstep⟩ := Lifecycle.initerStep_inv hlife
    have hth' := hbound th (List.mem_of_getElem? hth)
    have hmoved : ∀ {pc : Lifecycle.IniterPc}, pc.detached = false → ∀ th' ∈ (s.life.move k th pc).threads,
        th'.pc.detached = false := by
      intro pc hpc th' hmem
      rcases List.mem_or_eq_of_mem_set hmem with hmem | rfl
      · exact hbound th' hmem
      · exact hpc
    cases hstep with
    | stopped hpc | close hpc | clear hpc | finish hpc => exact ⟨hlistener, hmain, hunacked, hmoved rfl⟩
    | switcherGone hpc hsucc => simp [joining, hth, hpc] at hjoin
    | up hpc | hint hpc | noHint hpc | breakOff hpc | again hpc | run hpc | unauthorized hpc | ack hpc =>
      rw [hpc] at hth'
      cases hth'
  | switcherSucc | joined => cases ha
  | lazyFailed | lazyGaveUp | lazyRead | enqueue | lazyAck | initer | stop | succ | closeLazy | closeImmd
  | collIniterSucc | ipcsrvIniterSucc | ipcconnHandlerSucc | ipcmsgDequerSucc | connListenerSucc | take | dequer
  | setAuthHint | abort => exact ⟨hlistener, hmain, hunacked, hbound⟩

theorem Lost.step (hi : Lost s) (h : Step s a t) : Lost t := by
  have hmain := main_step hi.main hi.unacked h
  obtain ⟨hlistener, -, hunacked, hleft⟩ := hi
  cases h with
  | leave hpc | poll hpc | timeout hpc | lazy hpc | immd hpc | failed hpc | gaveUp hpc | request _ _ hpc | other _ hpc
  | handle _ _ hpc | handled _ hpc | handledShut hpc | raise hpc | ack hpc | close hpc => cases hlistener.symm.trans hpc
  | collIniter k life hlife | joined k life hlife =>
    obtain ⟨th, hth, hstep⟩ := Lifecycle.initerStep_inv hlife
    have hth' := hleft th (List.mem_of_getElem? hth)
    -- whoever moves has acknowledged
    have hmoved : ∀ {pc : Lifecycle.IniterPc}, pc.unacked = false → ∀ th' ∈ (s.life.move k th pc).threads,
        th'.pc.unacked = true → th'.pc = .running ∧ s.life.collIniter = false := by
      intro pc hpc th' hmem hun
      rcases List.mem_or_eq_of_mem_set hmem with hmem | rfl
      · exact hleft th' hmem hun
      · cases hpc.symm.trans hun
    cases hstep with
    | clear hpc | finish hpc => exact ⟨hlistener, hmain, hunacked, hmoved rfl⟩
    | stopped hpc hstop => cases (hth' (by rw [hpc]; rfl)).2.symm.trans hstop
    | up hpc | hint hpc | noHint hpc | breakOff hpc | again hpc | run hpc | unauthorized hpc | close hpc
    | switcherGone hpc | ack hpc => cases hpc.symm.trans (hth' (by rw [hpc]; rfl)).1
  | lazyFailed | lazyGaveUp | lazyRead | enqueue | lazyAck | initer | stop | succ | closeLazy | closeImmd
  | collIniterSucc | ipcsrvIniterSucc | ipcconnHandlerSucc | ipcmsgDequerSucc | connListenerSucc | take | dequer
  | switcherSucc | setAuthHint | abort => exact ⟨hlistener, hmain, hunacked, hleft⟩

/-- Behind the end of the listener main can end without a step of a collector exactly if it does not wait for
    the collector any more, or the acknowledgement is there, or a `CollIniter` has not started its collector or
    has only the acknowledgement left. When all that have not acknowledged are left running, it never ends. -/
theorem main_can_end_iff (h : system.Reachable s) (hdone : s.listener = .done) (halive : s.main ≠ .aborted) :
    (system.CanReach (·.ofCollector = false) (·.main = .ended) s ↔
      s.main ≠ .collIniterSucc ∨ s.life.collIniterSucc = true ∨ ∃ th ∈ s.life.threads, th.pc.detached = true) ∧
    (s.main = .collIniterSucc → s.life.collIniterSucc = false →
      (∀ th ∈ s.life.threads, th.pc.unacked = true → th.pc = .running ∧ s.life.collIniter = false) →
      ¬system.CanReach (fun _ => True) (·.main = .ended) s) := by
  refine ⟨⟨fun hreach => ?_, ?_⟩, fun hmain hunacked hleft => ?_⟩
  · by_contra hno
    simp only [not_or, not_exists, not_and, Decidable.not_not, Bool.not_eq_true] at hno
    have hbound : Bound s := ⟨hdone, Or.inl hno.1, hno.2.1, hno.2.2⟩
    refine System.not_canReach_of_invariant hbound (fun s a t hi ha hs => hi.step ha (step_cases hs)) ?_ hreach
    intro t ht hend
    rcases ht.main with hmain | hmain <;> cases hmain.symm.trans hend
  · rintro (hmain | hsucc | ⟨th, hth, hpc⟩)
    · exact canReach_end_of_done h hdone halive fun h => absurd h hmain
    · exact canReach_end_of_done h hdone halive fun _ => hsucc
    · by_cases hmain : s.main = .collIniterSucc
      · obtain ⟨k, hk⟩ := List.mem_iff_getElem?.mp hth
        refine ((canReach_acknowledged (by simp [hmain]) hk hpc).reachable h).trans ?_
        rintro t ⟨ht, hsucc, hl, hm⟩
        exact canReach_end_of_done ht (hl.trans hdone) (hm ▸ halive) fun _ => hsucc
      · exact canReach_end_of_done h hdone halive fun h => absurd h hmain
  · refine System.not_canReach_of_invariant (I := Lost) ⟨hdone, Or.inl hmain, hunacked, hleft⟩
      (fun s a t hi _ hs => hi.step (step_cases hs)) ?_
    intro t ht hend
    rcases ht.main with hmain | hmain <;> cases hmain.symm.trans hend

/-- The lazy port asks for the shutdown, which no collector acknowledges; and a collector that is started
    right behind the answer to a shutdown, before the listener sees that it is to end. -/
theorem main_can_end_iff_lost :
    (∃ s : State, s.listener = .done ∧ s.life.threads = [] ∧
      ¬system.CanReach (·.ofCollector = false) (·.main = .ended) s) ∧
    ∃ s : State, s.listener = .done ∧ s.life.answered = some .upColl ∧
      ¬system.CanReach (fun _ => True) (·.main = .ended) s := by
  have h₁ : system.Reachable _ := .run (.init ⟨false, rfl⟩)
    (send newIpcmsgShutipcsrv ++ [.handler 0 .waiting, .handler 0 .waiting] ++
      List.replicate 6 .dequer ++ stopServer ++ [listen, listen]) rfl
  have h₂ : system.Reachable _ := .run (.init ⟨true, rfl⟩)
    (ask newIpcmsgShutipcsrv 7 ++ ask newIpcmsgUpcoll 9 ++ [.collIniter 0, .collIniter 0, .collIniter 0] ++
      stopServer ++ [listen, listen]) rfl
  exact ⟨⟨_, rfl, rfl, fun hreach => absurd ((main_can_end_iff h₁ rfl nofun).1.mp hreach) (by decide)⟩,
    ⟨_, rfl, rfl, (main_can_end_iff h₂ rfl nofun).2 rfl rfl (by decide)⟩⟩

end

end TgFocus.Shutdown
