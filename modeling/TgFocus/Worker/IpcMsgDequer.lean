import TgFocus.IpcMsg
import TgFocus.Library.Transition

/-! The queue behind the lazy port (`ipc_msg_queue.cc`) and the thread that empties it (`ipc_msg_dequer.cc`).
    Any number of connection handlers enqueue messages; `IpcServerInitializer` asks the thread to stop.

    `enqueue` and `deque` hold the lock of the queue from beginning to end and nothing looks at the queue
    without it, so each of them is one step; what `IpcMsgDequer` does to the flag while a handler is inside
    `enqueue` might as well have come before. The atomics are sequentially consistent. -/

namespace TgFocus.IpcQueue

/-! ### The queue -/

structure IpcMsgQueue where
  queue : List IpcMsg
  deriving DecidableEq, Repr

/-- `__queue.emplace_back` -/
def IpcMsgQueue.enqueue (q : IpcMsgQueue) (cmd : IpcMsg) : IpcMsgQueue := { queue := q.queue ++ [cmd] }

/-- `__queue.back` and `__queue.pop_back`, when there is a message. -/
def IpcMsgQueue.deque (q : IpcMsgQueue) : Option IpcMsg × IpcMsgQueue :=
  (q.queue.getLast?, { queue := q.queue.dropLast })

/-! ### State -/

inductive DequerPc where
  | loopTest | waiting | clearing | taking | examining (maymsg : Option IpcMsg)
  | exiting | done
  deriving DecidableEq, Repr

inductive IniterPc where
  | waiting | stopping | raising | done
  deriving DecidableEq, Repr

structure State where
  qIpcmsg : IpcMsgQueue
  qIpcmsgHasUpd : Bool
  /-- The flags of `tryshutwk`. -/
  ipcsrvIniter : Bool
  ipcmsgDequer : Bool
  ipcmsgDequerSucc : Bool
  dequer : DequerPc
  initer : IniterPc
  deriving DecidableEq, Repr

def start : State where
  qIpcmsg := { queue := [] }
  qIpcmsgHasUpd := false
  ipcsrvIniter := false
  ipcmsgDequer := false
  ipcmsgDequerSucc := false
  dequer := .loopTest
  initer := .waiting

/-! ### Steps -/

/-- `IpcMsgQueue::enqueue` on the shared queue. -/
def enqueue (s : State) (cmd : IpcMsg) : State :=
  { s with qIpcmsg := s.qIpcmsg.enqueue cmd, qIpcmsgHasUpd := true }

/-- A step of `IpcMsgDequer::operator()`. -/
def dequerStep (s : State) : Option State :=
  match s.dequer with
  | .loopTest => if s.ipcmsgDequer then some { s with dequer := .exiting } else some { s with dequer := .waiting }
  | .waiting => if s.qIpcmsgHasUpd then some { s with dequer := .clearing } else none
  | .clearing => some { s with qIpcmsgHasUpd := false, dequer := .taking }
  | .taking =>
    let (maymsg, qIpcmsg) := s.qIpcmsg.deque
    some { s with qIpcmsg := qIpcmsg, dequer := .examining maymsg }
  | .examining none => some { s with dequer := .loopTest }
  | .examining (some msg) =>
    if msg.typ = .ignore then some { s with dequer := .loopTest }
    else if msg.typ = .shutdownIpcSrv then some { s with ipcsrvIniter := true, dequer := .loopTest }
    else some { s with dequer := .loopTest }
  | .exiting => some { s with ipcmsgDequerSucc := true, dequer := .done }
  | .done => none

/-- A step of the end of `IpcServerInitializer::operator()`. -/
def initerStep (s : State) : Option State :=
  match s.initer with
  | .waiting => if s.ipcsrvIniter then some { s with initer := .stopping } else none
  | .stopping => some { s with ipcmsgDequer := true, initer := .raising }
  | .raising => some { s with qIpcmsgHasUpd := true, initer := .done }
  | .done => none

/-- A handler of the lazy port enqueues what it received; a step of a thread; a handler of the immediate
    port that asks the server to shut down. -/
inductive Act where
  | enqueue (cmd : IpcMsg)
  | dequer
  | initer
  | shutdownIpcSrv
  deriving DecidableEq, Repr

def step (s : State) : Act → Option State
  | .enqueue cmd => some (enqueue s cmd)
  | .dequer => dequerStep s
  | .initer => initerStep s
  | .shutdownIpcSrv => some { s with ipcsrvIniter := true }

def system : Transition.System State Act where
  init s := s = start
  step := step

end TgFocus.IpcQueue
