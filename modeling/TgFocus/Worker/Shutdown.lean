import TgFocus.Worker.Lifecycle
import TgFocus.Worker.IpcMsgDequer
import TgFocus.Worker.IpcConnHandler

/-! The end of the daemon (`conn_listener.cc`, `ipc_server_initer.cc` and the waits of main in
    `handle_startup_FORK`), from the moment when the server listens. `ConnListener` handles the connections
    of the immediate port in its own thread and spawns a handler for each connection of the lazy port; the
    collector is `Lifecycle`, the queue of the lazy port with its thread is `IpcQueue`.

    One step is one access to what the threads share; the atomics are sequentially consistent. Nobody reads
    the flag `ipcconn_handler`, which is left out. The process ends with main, and in any step without it: by
    `SIGPIPE` at an answer to a client that is gone, by `exitMain`, or by the `exit (2)` of a collector.
    `receivedImmd`, `receivedLazy` and `taken` are history. -/

namespace TgFocus.Shutdown

/-! ### State -/

/-- `reading` to `handlerSucc` handle a connection of the immediate port: `raising` is the store behind the
    answer to `ShutdownIpcSrv`. -/
inductive ListenerPc where
  | loopTest | polling
  | reading | handling (r : Lifecycle.Request) | raising | handlerSucc
  | exiting | done
  deriving DecidableEq, Repr

/-- The handler of a connection of the lazy port. -/
inductive HandlerPc where
  | reading | enqueuing (msg : IpcMsg) | handlerSucc | gone
  deriving DecidableEq, Repr

/-- `IpcServerInitializer` behind the stores of `IpcQueue.initerStep`; at its end the server closes its two
    sockets. -/
inductive IniterPc where
  | stopping | succ | closingLazy | closingImmd | done
  deriving DecidableEq, Repr

/-- The flag of `tryshutwk` that main waits for; `aborted` is the end of the process without main. -/
inductive MainPc where
  | collIniterSucc | ipcsrvIniterSucc | ipcconnHandlerSucc | ipcmsgDequerSucc | connListenerSucc
  | ended | aborted
  deriving DecidableEq, Repr

structure State where
  life : Lifecycle.State
  queue : IpcQueue.State
  /-- The flags of `tryshutwk`, beside those of `life` and `queue`. -/
  connListener : Bool
  connListenerSucc : Bool
  ipcconnHandlerSucc : Bool
  ipcsrvIniterSucc : Bool
  listener : ListenerPc
  handlers : List HandlerPc
  initer : IniterPc
  main : MainPc
  /-- The requests that the handlers of the ports have read. -/
  receivedImmd : List IpcMsg
  receivedLazy : List IpcMsg
  /-- What `IpcMsgDequer` has taken from the queue. -/
  taken : List IpcMsg
  deriving DecidableEq, Repr

def start (authHint : Bool) : State where
  life := Lifecycle.start authHint
  queue := IpcQueue.start
  connListener := false
  connListenerSucc := false
  ipcconnHandlerSucc := false
  ipcsrvIniterSucc := false
  listener := .loopTest
  handlers := []
  initer := .stopping
  main := .collIniterSucc
  receivedImmd := []
  receivedLazy := []
  taken := []

/-! ### Listener -/

/-- What `epoll_wait` reports: nothing within its time, or a connection. -/
inductive Poll where
  | timeout | lazy | immd
  deriving DecidableEq, Repr

/-- The requests of the immediate port that the collector's flags matter for; `Ignore` is answered at once,
    and the other types are not answered. -/
def requestOf (msg : IpcMsg) : Option Lifecycle.Request :=
  if msg.typ = .shutdownIpcSrv then some .shutdownIpcSrv
  else if msg.typ = .reportStatus then some .reportStatus
  else if msg.typ = .upColl then some .upColl
  else if msg.typ = .shutdownColl then some .shutdownColl
  else none

/-- What the listener does with what it read on a connection of the immediate port. -/
def receive (s : State) : IpcConnHandler.Request → Option State
  | .waiting => none
  | .returned => some { s with listener := .loopTest }
  | .gaveUp => some { s with listener := .handlerSucc }
  | .decoded msg =>
    let s := { s with receivedImmd := s.receivedImmd ++ [msg] }
    match requestOf msg with
    | some r => some { s with life := { s.life with handler := r.begin }, listener := .handling r }
    | none => some { s with listener := .handlerSucc }

/-- A step of `ConnListener::operator()`; `poll` matters in `polling` only, `req` in `reading` only. -/
def listenerStep (s : State) (poll : Poll) (req : IpcConnHandler.Request) : Option State :=
  match s.listener with
  | .loopTest =>
    if s.connListener then some { s with listener := .exiting } else some { s with listener := .polling }
  | .polling =>
    match poll with
    | .timeout => some { s with listener := .loopTest }
    | .lazy =>
      if s.initer = .closingImmd ∨ s.initer = .done then none
      else some { s with handlers := s.handlers ++ [.reading], listener := .loopTest }
    | .immd => if s.initer = .done then none else some { s with listener := .reading }
  | .reading => receive s req
  | .handling r =>
    if s.life.handler = .idle then
      if r = .shutdownIpcSrv then some { s with listener := .raising } else some { s with listener := .handlerSucc }
    else (Lifecycle.handlerStep s.life).map fun life => { s with life }
  | .raising => some { s with queue := { s.queue with ipcsrvIniter := true }, listener := .handlerSucc }
  | .handlerSucc => some { s with ipcconnHandlerSucc := true, listener := .loopTest }
  | .exiting => some { s with connListenerSucc := true, listener := .done }
  | .done => none

/-! ### The other threads -/

def State.setHandler (s : State) (k : Nat) (pc : HandlerPc) : State := { s with handlers := s.handlers.set k pc }

/-- A step of the `IpcConnHandler` of the lazy port that was spawned as number `k`; `req` matters in
    `reading` only. -/
def handlerStep (s : State) (k : Nat) (req : IpcConnHandler.Request) : Option State := do
  let pc ← s.handlers[k]?
  match pc with
  | .reading =>
    match req with
    | .waiting => none
    | .returned => some (s.setHandler k .gone)
    | .gaveUp => some (s.setHandler k .handlerSucc)
    | .decoded msg => some { s.setHandler k (.enqueuing msg) with receivedLazy := s.receivedLazy ++ [msg] }
  | .enqueuing msg => some { s.setHandler k .handlerSucc with queue := IpcQueue.enqueue s.queue msg }
  | .handlerSucc => some { s.setHandler k .gone with ipcconnHandlerSucc := true }
  | .gone => none

/-- A step of `IpcServerInitializer::operator()`. -/
def initerStep (s : State) : Option State :=
  if s.queue.initer ≠ .done then (IpcQueue.initerStep s.queue).map fun queue => { s with queue }
  else match s.initer with
  | .stopping => some { s with connListener := true, initer := .succ }
  | .succ => some { s with ipcsrvIniterSucc := true, initer := .closingLazy }
  | .closingLazy => some { s with initer := .closingImmd }
  | .closingImmd => some { s with initer := .done }
  | .done => none

/-- A step of `IpcMsgDequer::operator()`. -/
def dequerStep (s : State) : Option State :=
  let taken := if s.queue.dequer = .taking then s.queue.qIpcmsg.deque.1.toList else []
  (IpcQueue.dequerStep s.queue).map fun queue => { s with queue, taken := s.taken ++ taken }

/-- Behind the start of its collector, whose three threads it has asked to end and joins then. -/
def joining (s : State) (k : Nat) : Bool := s.life.threads[k]?.any (·.pc = .waitSwitcher)

/-- A switcher acknowledges when some `CollIniter` has asked for it. -/
def switcherAsked (s : State) : Bool :=
  s.life.threads.any fun th => th.pc ∈ [.waitSwitcher, .acking, .clearing, .returning, .finished]

def collIniterStep (s : State) (k : Nat) : Option State :=
  (Lifecycle.initerStep s.life k).map fun life => { s with life }

/-- A step of main. -/
def mainStep (s : State) : Option State :=
  match s.main with
  | .collIniterSucc => if s.life.collIniterSucc then some { s with main := .ipcsrvIniterSucc } else none
  | .ipcsrvIniterSucc => if s.ipcsrvIniterSucc then some { s with main := .ipcconnHandlerSucc } else none
  | .ipcconnHandlerSucc => if s.ipcconnHandlerSucc then some { s with main := .ipcmsgDequerSucc } else none
  | .ipcmsgDequerSucc => if s.queue.ipcmsgDequerSucc then some { s with main := .connListenerSucc } else none
  | .connListenerSucc => if s.connListenerSucc then some { s with main := .ended } else none
  | .ended | .aborted => none

/-! ### The system -/

/-- A step of a thread; the switcher of a collector acknowledges; the threads of the collector of a `CollIniter`
    have ended; the CLI logs in or out; the process ends without main. -/
inductive Act where
  | main
  | listener (poll : Poll) (req : IpcConnHandler.Request)
  | handler (k : Nat) (req : IpcConnHandler.Request)
  | initer
  | dequer
  | collIniter (k : Nat)
  | switcherSucc
  | joined (k : Nat)
  | setAuthHint (flag : Bool)
  | abort
  deriving DecidableEq, Repr

def step (s : State) (a : Act) : Option State :=
  if s.main = .ended ∨ s.main = .aborted then none
  else match a with
  | .main => mainStep s
  | .listener poll req => listenerStep s poll req
  | .handler k req => handlerStep s k req
  | .initer => initerStep s
  | .dequer => dequerStep s
  | .collIniter k => if joining s k then none else collIniterStep s k
  | .switcherSucc =>
    if switcherAsked s then some { s with life := { s.life with collSwitcherSucc := true } } else none
  | .joined k => if joining s k then collIniterStep s k else none
  | .setAuthHint flag => some { s with life := { s.life with authHint := flag } }
  | .abort => some { s with main := .aborted }

def system : Transition.System State Act where
  init s := ∃ authHint, s = start authHint
  step := step

end TgFocus.Shutdown
