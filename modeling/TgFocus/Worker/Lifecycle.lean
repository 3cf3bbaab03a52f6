import TgFocus.Library.Transition

/-! Starting and stopping the collector (`ipc_conn_handler.cc`, `coll_initer.cc`). `ConnListener` handles
    the requests of the immediate port one after another in its own thread; `UpColl` spawns a detached
    `CollIniter`, which starts at any later time. One step is one access to the flags that they share, and
    the atomics are sequentially consistent.

    Of the flags that `UpColl` clears, those of producer and consumer are left out: neither the handler nor
    `CollIniter` reads them. What a running collector does is `Pipeline`; here its switcher may acknowledge
    at any time. `asked` and `answered` are history. -/

namespace TgFocus.Lifecycle

/-! ### State -/

inductive Request where
  | upColl | shutdownColl | reportStatus | shutdownIpcSrv
  deriving DecidableEq, Repr

/-- `upLoad` to `upReply` handle `UpColl`, `shutLoad` to `shutReply` `ShutdownColl`, `ipcLoad` to `ipcReply`
    `ShutdownIpcSrv`. -/
inductive HandlerPc where
  | idle
  | upLoad | clearSwitcher | clearSwitcherSucc | clearIniter | clearIniterSucc | spawn | upReply
  | shutLoad | shutStore | shutWait | shutReply
  | ipcLoad | ipcStore | ipcAck | ipcWait | ipcReply
  | statusReply
  deriving DecidableEq, Repr

/-- A `CollIniter`: `readHint` and `testStop` are its loop, `running` is the wait for the request to stop
    behind the start of the three threads, `acking` and `clearing` are its two last stores. -/
inductive IniterPc where
  | spawned
  | readHint | testStop | recheck
  | running | closing | waitSwitcher
  | acking | clearing | returning | finished
  deriving DecidableEq, Repr

/-- A spawned `CollIniter`; `asked` when it was asked to stop since. -/
structure Thread where
  pc : IniterPc
  asked : Bool
  deriving DecidableEq, Repr

structure State where
  collIniterUp : Bool
  /-- The flags of `tryshutwk`. -/
  collIniter : Bool
  collIniterSucc : Bool
  collSwitcher : Bool
  collSwitcherSucc : Bool
  authHint : Bool
  handler : HandlerPc
  threads : List Thread
  /-- The request that was answered last; the answer is always `Success`. -/
  answered : Option Request
  deriving DecidableEq, Repr

def start (authHint : Bool) : State where
  collIniterUp := false
  collIniter := false
  collIniterSucc := false
  collSwitcher := false
  collSwitcherSucc := false
  authHint := authHint
  handler := .idle
  threads := []
  answered := none

/-! ### Handler -/

def Request.begin : Request → HandlerPc
  | .upColl => .upLoad
  | .shutdownColl => .shutLoad
  | .reportStatus => .statusReply
  | .shutdownIpcSrv => .ipcLoad

/-- The store that asks the collector to stop. -/
def State.ask (s : State) : State :=
  { s with collIniter := true, threads := s.threads.map fun th => { th with asked := true } }

def State.answer (s : State) (r : Request) : State := { s with answered := some r, handler := .idle }

/-- A step of `IpcConnHandler::operator()`. -/
def handlerStep (s : State) : Option State :=
  match s.handler with
  | .idle => none
  | .upLoad =>
    if !s.collIniterUp then some { s with handler := .clearSwitcher } else some { s with handler := .upReply }
  | .clearSwitcher => some { s with collSwitcher := false, handler := .clearSwitcherSucc }
  | .clearSwitcherSucc => some { s with collSwitcherSucc := false, handler := .clearIniter }
  | .clearIniter => some { s with collIniter := false, handler := .clearIniterSucc }
  | .clearIniterSucc => some { s with collIniterSucc := false, handler := .spawn }
  | .spawn => some { s with threads := s.threads ++ [⟨.spawned, false⟩], handler := .upReply }
  | .upReply => some (s.answer .upColl)
  | .shutLoad =>
    if s.collIniterUp then some { s with handler := .shutStore } else some { s with handler := .shutReply }
  | .shutStore => some { s.ask with handler := .shutWait }
  | .shutWait => if s.collIniterSucc then some { s with handler := .shutReply } else none
  | .shutReply => some (s.answer .shutdownColl)
  | .ipcLoad => if s.collIniterUp then some { s with handler := .ipcStore } else some { s with handler := .ipcAck }
  | .ipcStore => some { s.ask with handler := .ipcWait }
  -- nobody is there to acknowledge
  | .ipcAck => some { s with collIniterSucc := true, handler := .ipcWait }
  | .ipcWait => if s.collIniterSucc then some { s with handler := .ipcReply } else none
  | .ipcReply => some (s.answer .shutdownIpcSrv)
  | .statusReply => some (s.answer .reportStatus)

/-! ### CollIniter -/

def State.move (s : State) (k : Nat) (th : Thread) (pc : IniterPc) : State :=
  { s with threads := s.threads.set k { th with pc } }

/-- A step of `CollIniter::operator()`, of the thread that was spawned as number `k`. -/
def initerStep (s : State) (k : Nat) : Option State := do
  let th ← s.threads[k]?
  match th.pc with
  | .spawned => some { s.move k th .readHint with collIniterUp := true }
  | .readHint => if s.authHint then some (s.move k th .recheck) else some (s.move k th .testStop)
  | .testStop => if s.collIniter then some (s.move k th .recheck) else some (s.move k th .readHint)
  | .recheck => if s.authHint then some (s.move k th .running) else some (s.move k th .acking)
  | .running => if s.collIniter then some (s.move k th .closing) else none
  | .closing => some { s.move k th .waitSwitcher with collSwitcher := true }
  -- then the three threads are joined
  | .waitSwitcher => if s.collSwitcherSucc then some (s.move k th .acking) else none
  | .acking => some { s.move k th .clearing with collIniterSucc := true }
  | .clearing => some { s.move k th .returning with collIniterUp := false }
  | .returning => some (s.move k th .finished)
  | .finished => none

/-! ### The system -/

/-- A request arrives; a step of the handler or of a `CollIniter`; the switcher of a collector
    acknowledges; the CLI logs in or out. -/
inductive Act where
  | request (r : Request)
  | handler
  | initer (k : Nat)
  | switcherSucc
  | setAuthHint (flag : Bool)
  deriving DecidableEq, Repr

def step (s : State) : Act → Option State
  | .request r => if s.handler = .idle then some { s with handler := r.begin } else none
  | .handler => handlerStep s
  | .initer k => initerStep s k
  | .switcherSucc => some { s with collSwitcherSucc := true }
  | .setAuthHint flag => some { s with authHint := flag }

def system : Transition.System State Act where
  init s := ∃ authHint, s = start authHint
  step := step

end TgFocus.Lifecycle
