import TgFocus.Library.Transition

/-! Starting the daemon (`handle_startup_FORK` in `tgfocus.cc`, `ipc_client.cc`, `ipc_server.cc`,
    `ipc_server_initer.cc`). Any number of processes do this at the same time; what they share are the two
    ports of the machine, which nobody else uses. The sockets set `SO_REUSEADDR`, so binding a port fails
    only while somebody listens on it, and listening fails while somebody else does. Creating a socket and
    starting a thread do not fail.

    A port keeps the connections that its process has not accepted, as many as `listen (fd, 16)` has room for.
    Who connects to a port without room waits, and may give up. -/

namespace TgFocus.Startup

/-! ### Processes -/

/-- `connecting` is the client in front of the fork, `forking` the fork; the others are the child, with the
    ports that it has got so far. `stuck` has left the thread of the server without both of them, and main
    waits for ever; `closing` are the two closes of the destructor. `told` has said that the daemon is
    already started. -/
inductive Pc where
  | connecting | forking
  | bindLazy | listenLazy
  | bindImmd (lazy : Bool)
  | listenImmd (lazy : Bool)
  | testing (lazy immd : Bool)
  | serving | closingLazy | closingImmd
  | stuck (lazy immd : Bool)
  | told | gone
  deriving DecidableEq, Repr

/-- The processes that listen on the two ports, the connections of the second port that nobody has accepted, and
    all processes in the order in which they started. -/
structure State where
  lazy : Option Nat
  immd : Option Nat
  queue : Nat
  procs : List Pc
  deriving DecidableEq, Repr

def start : State where
  lazy := none
  immd := none
  queue := 0
  procs := []

def State.move (s : State) (k : Nat) (pc : Pc) : State := { s with procs := s.procs.set k pc }

/-- A step of the process that started as number `k`; `room` is that of the second port. -/
def procStep (room : Nat) (s : State) (k : Nat) : Option State := do
  let pc ← s.procs[k]?
  match pc with
  | .connecting =>
    if s.immd.isSome then
      if s.queue < room then some { s.move k .told with queue := s.queue + 1 } else none
    else some (s.move k .forking)
  | .forking => some (s.move k .bindLazy)
  | .bindLazy => if s.lazy.isSome then some (s.move k (.bindImmd false)) else some (s.move k .listenLazy)
  | .listenLazy =>
    if s.lazy.isSome then some (s.move k (.bindImmd false))
    else some { s.move k (.bindImmd true) with lazy := some k }
  -- the second port is asked for even if the first one was refused
  | .bindImmd lazy =>
    if s.immd.isSome then some (s.move k (.testing lazy false)) else some (s.move k (.listenImmd lazy))
  | .listenImmd lazy =>
    if s.immd.isSome then some (s.move k (.testing lazy false))
    else some { s.move k (.testing lazy true) with immd := some k, queue := 0 }
  | .testing lazy immd => if lazy && immd then some (s.move k .serving) else some (s.move k (.stuck lazy immd))
  | .closingLazy => some { s.move k .closingImmd with lazy := none }
  | .closingImmd => some { s.move k .gone with immd := none, queue := 0 }
  | .serving | .stuck _ _ | .told | .gone => none

/-- What a process that is killed, or comes to its end, does not listen on any longer. -/
def State.release (s : State) (k : Nat) : State :=
  { s with
    lazy := if s.lazy = some k then none else s.lazy
    immd := if s.immd = some k then none else s.immd
    queue := if s.immd = some k then 0 else s.queue }

/-- Behind its start; a daemon that closes its ports may not have noticed it yet where it accepts. -/
def Pc.accepts : Pc → Bool
  | .serving | .closingLazy | .closingImmd => true
  | _ => false

/-- Somebody starts the daemon; a step of a process; one that gives up connecting; a client other than these
    connects to the second port; the daemon accepts a connection there; a daemon that is asked to shut down; the
    end of a process. -/
inductive Act where
  | startup
  | proc (k : Nat)
  | giveUp (k : Nat)
  | client
  | accept (k : Nat)
  | shutdown (k : Nat)
  | kill (k : Nat)
  deriving DecidableEq, Repr

def step (room : Nat) (s : State) : Act → Option State
  | .startup => some { s with procs := s.procs ++ [.connecting] }
  | .proc k => procStep room s k
  | .giveUp k =>
    if s.procs[k]? = some .connecting ∧ s.immd.isSome ∧ room ≤ s.queue then some (s.move k .forking) else none
  | .client => if s.immd.isSome ∧ s.queue < room then some { s with queue := s.queue + 1 } else none
  | .accept k =>
    if s.immd = some k ∧ s.procs[k]?.any Pc.accepts ∧ 0 < s.queue then some { s with queue := s.queue - 1 } else none
  | .shutdown k => if s.procs[k]? = some .serving then some (s.move k .closingLazy) else none
  | .kill k =>
    if k < s.procs.length ∧ s.procs[k]? ≠ some .told ∧ s.procs[k]? ≠ some .gone then
      some ((s.release k).move k .gone)
    else none

def system (room : Nat) : Transition.System State Act where
  init s := s = start
  step := step room

end TgFocus.Startup
