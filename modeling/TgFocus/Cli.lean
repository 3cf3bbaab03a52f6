import TgFocus.IpcClient
import TgFocus.TdAuth

/-! The command line (`tgfocus.cc`): which command an argument vector stands for, and the handlers that end
    without a daemon of their own. Texts that are printed are modelled where they depend on a reply. -/

namespace TgFocus.Cli

/-! ### Commands -/

inductive Command where
  | usage | startup | shutdown | focusStart | focusStop | quickstart | status | authReset
  | auth (useProvidedApiPass : Bool)
  | filters | version
  | lang (langCode : Bytes)
  | superTgfid (t : UInt8)
  deriving DecidableEq, Repr

def isOption (arg : Bytes) : Bool := arg.head? = some 0x2d

/-- The loop over the options: every other argument takes the place of the one before it. -/
def subcmd (argv : List Bytes) : Bytes :=
  (argv.drop 1).foldl (fun subcmd arg => if isOption arg then subcmd else arg) []

/-- `main`, as far as the handler that it calls. -/
def command (argv : List Bytes) : Command :=
  if argv.length < 2 then .usage
  else
    let subcmd := subcmd argv
    if subcmd.length < 1 then .usage
    else if subcmd = str "startup" then .startup
    else if subcmd = str "shutdown" then .shutdown
    else if subcmd = str "focus-start" then .focusStart
    else if subcmd = str "focus-stop" then .focusStop
    else if subcmd = str "quickstart" then .quickstart
    else if subcmd = str "status" then .status
    else if subcmd = str "auth-reset" then .authReset
    else if subcmd = str "auth" then .auth true
    else if subcmd = str "auth-cust-api" then .auth false
    else if subcmd = str "filters" then .filters
    else if subcmd = str "version" ∨ subcmd = str "--version" ∨ subcmd = str "-v" then .version
    else if subcmd = str "lang" then
      if argv.length ≠ 3 then .usage else .lang (argv[2]?.getD [])
    else if subcmd = str "use-chat" then .superTgfid 1
    else if subcmd = str "use-channel" then .superTgfid 2
    else .usage

/-! ### Handlers over the settings -/

/-- A process of the CLI: the files and the languages. -/
structure Process where
  root : DataRoot
  conf : LocaleConf
  deriving DecidableEq, Repr

/-- A process at the point where it calls a handler. -/
def start (available : Bytes → Bool) (lckFilters writable : Bool) (d : Disk) : Process where
  root := .construct false lckFilters writable d
  conf := (LocaleConf.tryEnsureLocale available {}).1

def handleVersion (available : Bytes → Bool) (p : Process) : Nat × Process :=
  let conf := { p.conf with preferLang := p.root.getPrefLang }
  (0, { p with conf := (LocaleConf.tryEnsureLocale available conf).1 })

def handleLang (available : Bytes → Bool) (langCode : Bytes) (p : Process) : Nat × Process :=
  let l := langFromCstr langCode
  let root := p.root.setPrefLang l
  let conf := { p.conf with preferLang := l }
  let (conf, _) := LocaleConf.tryEnsureLocale available conf
  let isGood : Bool := conf.hostLang = l
  (if isGood then 0 else 1, { root, conf })

def handleSuperTgfid (t : UInt8) (p : Process) : Nat × Process :=
  let root := if t = 2 then p.root.setSuperTgfid else p.root
  let root := if t = 1 then root.setBasicTgfid else root
  (0, { p with root })

def handleAuthReset (removed : Bool) (p : Process) : Nat × Process :=
  let (ret, root) := TdAuth.handleAuthReset p.root removed
  (ret, { p with root })

/-- `editor` is what the user leaves in the temporary file, `none` when there is no editor. -/
def handleFilters (host : Host) (editor : Option Bytes) (p : Process) : Nat × Process :=
  let root := p.root.prepareFiltersTmp
  match editor with
  | none => (255, { p with root })
  | some tmp =>
    let root := { root with filtersTmp := tmp }
    let (ret, userdata) := FilterSessions.handleFilters host root.userdata tmp
    (ret, { p with root := { root with userdata } })

/-- What the handlers find: the locales, the TOML library, what the editor leaves, and whether the directory
    of TDLib can be removed. -/
structure Env where
  available : Bytes → Bool
  host : Host
  editor : Option Bytes
  removed : Bool

/-- The exit status and the process at its end; `none` for the commands that need the daemon or TDLib. -/
def handle (env : Env) (p : Process) : Command → Option (Nat × Process)
  | .usage => some (0, p)
  | .version => some (handleVersion env.available p)
  | .lang langCode => some (handleLang env.available langCode p)
  | .superTgfid t => some (handleSuperTgfid t p)
  | .authReset => some (handleAuthReset env.removed p)
  | .filters => some (handleFilters env.host env.editor p)
  | .auth _ | .startup | .shutdown | .focusStart | .focusStop | .quickstart | .status => none

/-! ### Handlers that ask the daemon -/

/-- `waiting` is inside a read; else the exit status and what is printed. -/
inductive Outcome where
  | waiting
  | returned (ret : Nat) (out : Bytes)
  deriving DecidableEq, Repr

/-- What `good_client_or_report` prints when the daemon is not there. -/
def initializationFailed : Bytes :=
  str "error: initialization failed" ++ endl ++ str "(HINT: try `tgfocus quickstart` to get started)" ++ endl

/-- A request whose reply says whether it was successful; `conn` has the calls on the connection, `none`
    when there is none. -/
def handleRequest (pubname processing : Bytes) (m : IpcMsg) (conn : Option IpcClient.Calls) : Outcome :=
  match conn with
  | none => .returned 1 initializationFailed
  | some calls =>
    match IpcClient.sendIpcmsgSync { ec := .noerr } calls m with
    | .waiting => .waiting
    | .returned rsp _ =>
      if rsp.any fun rsp => rsp.typ = .success then .returned 0 (processing ++ pubname ++ str "done" ++ endl)
      else .returned 1 (processing ++ pubname ++ str "failed" ++ endl)

def handleShutipcsrv : Option IpcClient.Calls → Outcome :=
  handleRequest (str "shutdown: ") (str "shutdown: processing...(need 10~60s)" ++ endl) newIpcmsgShutipcsrv

def handleUpcoll : Option IpcClient.Calls → Outcome := handleRequest (str "focus-start: ") [] newIpcmsgUpcoll

def handleShutcoll : Option IpcClient.Calls → Outcome :=
  handleRequest (str "focus-stop: ") (str "focus-stop: processing...(need 10~60s)" ++ endl) newIpcmsgShutcoll

/-- The exit status is 1 in every case. -/
def handleRstatus (conn : Option IpcClient.Calls) : Outcome :=
  match conn with
  | none => .returned 1 initializationFailed
  | some calls =>
    match IpcClient.sendIpcmsgSync { ec := .noerr } calls newIpcmsgRstatus with
    | .waiting => .waiting
    | .returned rsp _ =>
      match rsp.filter fun rsp => rsp.typ = .successReadable with
      | some rsp => .returned 1 (rsp.extargs.getD [])
      | none => .returned 1 (str "status: failed" ++ endl)

end TgFocus.Cli
