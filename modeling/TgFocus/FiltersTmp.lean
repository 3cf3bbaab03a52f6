import TgFocus.FilterSessions

/-! The temporary file of `filters` (`handle_filters` in `tgfocus.cc`, `prepare_filters_tmp`,
    `get_filters_tmp`, `set_filters` and the constructor in `user_data.cc`). All processes of the CLI have the
    same one: each makes it empty when it starts, and a session copies the filters into it and reads it three
    times behind the editor. Only storing takes a lock. None of this is one step: a read or a copy during which
    somebody else writes the file may deliver anything. The files are there, nobody is killed inside a session,
    and what the daemon stores is `FilterSessions`. -/

namespace TgFocus.FiltersTmp
open FilterSessions

/-! ### State -/

/-- `toml::parse`, the reading of the group that is tested, `get_filters_tmp`. -/
inductive Look where
  | parsing | testing | reading
  deriving DecidableEq, Repr

/-- Behind the constructor; inside `prepare_filters_tmp`; inside the editor; in front of a look at the file and
    inside it; in front of `set_filters` and behind its `fopen`. A copy and a look are `clean` until somebody else
    writes what they read or write. -/
inductive Pc where
  | started
  | copying (clean : Bool)
  | editing
  | opening (look : Look)
  | looking (look : Look) (clean : Bool)
  | locking (text : Bytes)
  | storing (text : Bytes)
  | gone
  deriving DecidableEq, Repr

structure State where
  userdata : UserData
  filtersTmp : Bytes
  procs : List Pc
  deriving DecidableEq, Repr

def start (userdata : UserData) : State where
  userdata := userdata
  filtersTmp := []
  procs := []

def State.move (s : State) (k : Nat) (pc : Pc) : State := { s with procs := s.procs.set k pc }

def Pc.stores : Pc → Bool
  | .storing _ => true
  | _ => false

/-- Somebody holds the lock of the filters file. -/
def State.busy (s : State) : Bool := s.procs.any Pc.stores

/-- Somebody writes the temporary file. -/
def Pc.soilTmp : Pc → Pc
  | .copying _ => .copying false
  | .looking look _ => .looking look false
  | pc => pc

def State.writeTmp (s : State) (text : Bytes) : State :=
  { s with filtersTmp := text, procs := s.procs.map Pc.soilTmp }

/-- Somebody writes the filters file. -/
def Pc.soilFilters : Pc → Pc
  | .copying _ => .copying false
  | pc => pc

def State.writeFilters (s : State) (text : Bytes) : State :=
  { s with userdata := { s.userdata with filters := text }, procs := s.procs.map Pc.soilFilters }

/-! ### Steps -/

/-- A look at the temporary file is over. -/
def lookStep (host : Host) (s : State) (k : Nat) (look : Look) (text : Bytes) : State :=
  match look with
  | .parsing => if (host.tomlParse text).isSome then s.move k (.opening .testing) else s.move k .gone
  | .testing =>
    if (FilterGroupToml host (getFiltersTmp text)).isEffective then s.move k (.opening .reading) else s.move k .gone
  | .reading => s.move k (.locking (getFiltersTmp text))

/-- A step of `handle_filters ()` in the process that started as number `k`; `found` is what a read or a copy
    delivers that is not clean. -/
def procStep (host : Host) (s : State) (k : Nat) (found : Bytes) : Option State := do
  let pc ← s.procs[k]?
  match pc with
  | .started => some ((s.writeTmp []).move k (.copying !s.busy))
  | .copying clean => some ((s.writeTmp (if clean then s.userdata.filters else found)).move k .editing)
  | .editing => some (s.move k (.opening .parsing))
  | .opening look => some (s.move k (.looking look true))
  | .looking look clean => some (lookStep host s k look (if clean then s.filtersTmp else found))
  | .locking text =>
    if text.length = 0 ∨ !s.userdata.lckFilters then some (s.move k .gone)
    else if s.busy then none
    else if !s.userdata.writable then some (s.move k .gone)
    else some ((s.writeFilters []).move k (.storing text))
  | .storing text => some ((s.writeFilters text).move k .gone)
  | .gone => none

/-- What a process may leave in the temporary file while it writes there. -/
def Pc.mayWrite (s : State) (text : Bytes) : Pc → Bool
  | .editing | .copying false => true
  | .copying true => text.isPrefixOf s.userdata.filters
  | _ => false

/-- A process starts, whatever its command is; a process writes the temporary file, in its editor or in its copy;
    `fwrite` hands some of the text to be stored to the system; a step of a session. -/
inductive Act where
  | start
  | write (k : Nat) (text : Bytes)
  | flush (k n : Nat)
  | proc (k : Nat) (found : Bytes)
  deriving DecidableEq, Repr

def step (host : Host) (s : State) : Act → Option State
  | .start => some { s.writeTmp [] with procs := (s.writeTmp []).procs ++ [.started] }
  | .write k text => do
    let pc ← s.procs[k]?
    if pc.mayWrite s text then some ((s.writeTmp text).move k pc) else none
  | .flush k n => do
    let pc ← s.procs[k]?
    match pc with
    | .storing text => some (s.writeFilters (text.take n))
    | _ => none
  | .proc k found => procStep host s k found

def system (host : Host) (userdata : UserData) : Transition.System State Act where
  init s := s = start userdata
  step := step host

end TgFocus.FiltersTmp
