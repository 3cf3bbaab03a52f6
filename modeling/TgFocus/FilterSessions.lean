import TgFocus.ChatCmd
import TgFocus.Library.Transition

/-! The two programs that change the filters: the daemon, which handles the editing commands of the
    TG-FOCUS chat one after another, and the CLI with its `filters` sessions (`tgfocus.cc`). Each reads the
    stored text, makes a new one and stores it; reading and storing are single steps here
    (`FiltersFile` takes them apart), and other things may happen in between.

    `acked` is history: the changes that were reported as successful, in the order in which they were
    stored. -/

namespace TgFocus.FilterSessions

/-- A change of the filters: the text that was read, and the text that was made of it. -/
structure Change where
  read : Bytes
  made : Bytes
  deriving DecidableEq, Repr

inductive DaemonPc where
  | idle
  | storing (c : Change)
  deriving DecidableEq, Repr

/-- `editing` is inside the editor; the temporary file holds what is made. -/
inductive CliPc where
  | idle
  | editing (read : Bytes)
  | verifying (c : Change)
  | saving (c : Change)
  deriving DecidableEq, Repr

structure State where
  userdata : UserData
  daemon : DaemonPc
  cli : CliPc
  acked : List Change
  deriving DecidableEq, Repr

def start (userdata : UserData) : State where
  userdata := userdata
  daemon := .idle
  cli := .idle
  acked := []

/-! ### The daemon -/

def edits : ChatCmdType → Bool
  | .editFilter | .insertFilter | .removeFilter => true
  | _ => false

/-- A command that edits reads the stored text; what `ChatCmdHandler` makes of this text is to be stored.
    A command that is refused stores nothing. -/
def commandStep (host : Host) (s : State) (typ : ChatCmdType) (ipt : Bytes) : Option State :=
  match s.daemon with
  | .idle => do
    let read := s.userdata.getFilters
    let (res, st) ← ChatCmdHandler host typ ipt { userdata := { filters := read }, pauseDoCsmMq := false }
    if edits typ && res.done then
      some { s with daemon := .storing { read, made := st.userdata.filters } }
    else some s
  | .storing _ => none

/-- `set_filters`, and the answer that the command succeeded. -/
def storeStep (s : State) : Option State :=
  match s.daemon with
  | .idle => none
  | .storing c =>
    some { s with userdata := s.userdata.setFilters c.made, daemon := .idle, acked := s.acked ++ [c] }

/-! ### The CLI -/

/-- `UserData::get_filters_tmp` -/
def getFiltersTmp (tmp : Bytes) : Bytes := ((FileReader.ofContent tmp).readToString).getD (str "-")

/-- What `handle_filters` verifies of the temporary file. -/
def verify (host : Host) (tmp : Bytes) : Bool :=
  (host.tomlParse tmp).isSome && (FilterGroupToml host (getFiltersTmp tmp)).isEffective

/-- `handle_filters ()` behind the editor: what it returns, and what is stored then. -/
def handleFilters (host : Host) (u : UserData) (tmp : Bytes) : Nat × UserData :=
  match host.tomlParse tmp with
  | none => (255, u)
  | some _ =>
    let filterg := FilterGroupToml host (((FileReader.ofContent tmp).readToString).getD (str "-"))
    if filterg.isEffective then (0, u.setFilters (getFiltersTmp tmp)) else (255, u)

/-- A step of `handle_filters ()`; `tmp` is the text that the user leaves in the temporary file. -/
def cliStep (host : Host) (s : State) (tmp : Bytes) : Option State :=
  match s.cli with
  | .idle => some { s with cli := .editing s.userdata.filters }
  | .editing read => some { s with cli := .verifying { read, made := tmp } }
  | .verifying c => if verify host c.made then some { s with cli := .saving c } else some { s with cli := .idle }
  | .saving c =>
    some { s with userdata := s.userdata.setFilters (getFiltersTmp c.made), cli := .idle, acked := s.acked ++ [c] }

/-! ### The system -/

inductive Act where
  | command (typ : ChatCmdType) (ipt : Bytes)
  | store
  | cli (tmp : Bytes)
  deriving DecidableEq, Repr

def step (host : Host) (s : State) : Act → Option State
  | .command typ ipt => commandStep host s typ ipt
  | .store => storeStep s
  | .cli tmp => cliStep host s tmp

def system (host : Host) : Transition.System State Act where
  init s := ∃ userdata, s = start userdata
  step := step host

end TgFocus.FilterSessions
