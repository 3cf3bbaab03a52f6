import TgFocus.Common
import TgFocus.DataRoot
import TgFocus.TdQueries

/-! Logging in (`td_auth.cc`): the commands `auth`, `auth-cust-api` and `auth-reset` of the CLI. The TDLib
    client is the other party: what it delivers and when is not restricted. The user is the input of the
    process, all of which is there when the process starts. A process can be killed between any two bytes that
    it writes; the commands other than `auth` are not.

    `sent` and `Logins` are history: the queries of a process, and how far the stores of the processes came. -/

namespace TgFocus

/-! ### The input -/

/-- `std::cin`: what is still to be read, and whether a read has failed. -/
structure Cin where
  rest : Bytes
  fail : Bool := false
  deriving DecidableEq, Repr

namespace Cin

/-- `getline (cin, s)` for an `s` that is empty before. -/
def getline (c : Cin) : Bytes × Cin :=
  if c.fail then ([], c)
  else
    match c.rest with
    | [] => ([], { c with fail := true })
    | rest => (rest.takeWhile (· ≠ 0x0a), { c with rest := (rest.dropWhile (· ≠ 0x0a)).drop 1 })

/-- `cin >> s` for an `s` that is empty before. -/
def word (c : Cin) : Bytes × Cin :=
  if c.fail then ([], c)
  else
    match c.rest.dropWhile isSpace with
    | [] => ([], { rest := [], fail := true })
    | rest => (rest.takeWhile fun b => !isSpace b, { c with rest := rest.dropWhile fun b => !isSpace b })

end Cin

def rmspc (ostr : Bytes) : Bytes := ostr.filter (· ≠ 0x20)

namespace TdAuth

/-! ### The client -/

inductive AuthState where
  | ready | closing | closed | waitPhoneNumber | waitCode | waitPassword | waitTdlibParameters
  | other (id : Int32)
  deriving DecidableEq, Repr

inductive Query where
  | getOption
  | setOption
  | setTdlibParameters (apiId : Int32) (apiHash : Bytes)
  | setAuthenticationPhoneNumber (phoneNumber : Bytes)
  | checkAuthenticationCode (code : Bytes)
  | checkAuthenticationPassword (password : Bytes)
  | close
  deriving DecidableEq, Repr

/-- `auth` is `auth_query_callback ()`, `close` the callback of the destructor. -/
inductive Callback where
  | auth | close
  deriving DecidableEq, Repr

inductive Object where
  | updateAuthorizationState (stat : AuthState)
  | ok
  | error (message : Bytes)
  | other (id : Int32)
  deriving DecidableEq, Repr

structure Response where
  requestId : UInt64
  object : Option Object
  deriving DecidableEq, Repr

/-! ### The stores of `authorizationStateReady` -/

/-- Opening a file makes it empty, and its bytes follow. -/
inductive Write where
  | openId
  | putId (b : UInt8)
  | openHash
  | putHash (b : UInt8)
  | openHint
  | putHint
  deriving DecidableEq, Repr

/-- The byte of the hint takes the place of one that `auth-reset` may have written meanwhile. -/
def Write.apply (u : DataRoot) : Write → DataRoot
  | .openId => { u with ids := { u.ids with apiId := [] } }
  | .putId b => { u with ids := { u.ids with apiId := u.ids.apiId ++ [b] } }
  | .openHash => { u with apiHash := [] }
  | .putHash b => { u with apiHash := u.apiHash ++ [b] }
  | .openHint => { u with authHint := [] }
  | .putHint => { u with authHint := str "a" ++ u.authHint.drop 1 }

def writesOfHash (apiHash : Bytes) : List Write := if apiHash.length = 0 then [] else .openHash :: apiHash.map .putHash

/-- `set_api_id`, `set_api_hash` and `set_auth_hint`. -/
def writes (apiId : Int32) (apiHash : Bytes) : List Write :=
  .openId :: (storeBytes 4 apiId.toBitVec).map .putId ++ (writesOfHash apiHash ++ [.openHint, .putHint])

/-! ### The process -/

/-- `looping` is inside `loop ()`, `closing` inside the destructor, `returned` the end of `main`; `storing` is
    inside the stores of either, with what is left of them; `exited` has the argument of `exit`, and `fault` is a
    null pointer that is followed. -/
inductive Pc where
  | looping | closing | returned
  | storing (rest : List Write) (inDtor : Bool)
  | exited (code : UInt8)
  | fault
  deriving DecidableEq, Repr

/-- `TdAuth`, the flags `is_login` and `is_tdlib_closed`, and the input. -/
structure Session where
  authStat : Option AuthState := none
  isAuth : Bool := false
  currQryId : UInt64 := 0
  cb : AList (fun _ : UInt64 => Callback) := ∅
  apiId : Int32 := 0
  apiHash : Bytes := []
  useOurApi : Bool
  isLogin : Bool := false
  isTdlibClosed : Bool := false
  cin : Cin
  pc : Pc := .looping
  sent : List (UInt64 × Query) := []

/-- A process that began its stores: the files of the credentials before, and the last credentials that it had
    sent (`none` when it had sent none). -/
structure Begun where
  apiId : Bytes
  apiHash : Bytes
  sent : Option Query
  deriving DecidableEq, Repr

/-- What the last process that finished its stores had sent, and the last one that began them since. -/
structure Logins where
  stored : Option (Option Query) := none
  begun : Option Begun := none
  deriving DecidableEq, Repr

/-- A process and the files. -/
structure Process where
  session : Session
  root : DataRoot
  logins : Logins

def ourApiId : Int32 :=
  let p1 : Int32 := 0x01b6
  let p2 : Int32 := 0x7787
  p1 <<< 0x10 ||| p2

def ourApiHash : Bytes := str "5e4d011ebd149a418a5a1b4d55d53f70"

def Session.sendQuery (s : Session) (tdfn : Query) (cbfn : Option Callback) : Session :=
  let queryId := s.currQryId + 1
  { s with
    currQryId := queryId
    cb := match cbfn with
      | some f => TdQueries.emplace s.cb queryId f
      | none => s.cb
    sent := s.sent ++ [(queryId, tdfn)] }

/-- The last credentials that were sent. -/
def Session.parameters (s : Session) : Option Query :=
  (s.sent.map Prod.snd).reverse.find? fun
    | .setTdlibParameters _ _ => true
    | _ => false

/-- The constructor. -/
def Session.start (useProvidedApiPass : Bool) (input : Bytes) : Session :=
  (({ useOurApi := useProvidedApiPass, cin := { rest := input } } : Session).sendQuery .getOption none).sendQuery
    .setOption none

namespace Process

def mapSession (p : Process) (f : Session → Session) : Process := { p with session := f p.session }

/-- The credentials that `authorizationStateWaitTdlibParameters` asks for, and the input behind them. -/
def credentials (p : Process) : Int32 × Bytes × Cin :=
  if p.root.getAuthHint then (p.root.getApiId, p.root.getApiHash, p.session.cin)
  else if p.session.useOurApi then (ourApiId, ourApiHash, p.session.cin)
  else
    let (mayApiId, cin) := p.session.cin.word
    let apiId := if isValidInt32 mayApiId then sstrToInt32 mayApiId else 0
    let (apiHash, cin) := cin.word
    (apiId, apiHash, cin)

def onAuthorizationStateUpdate (p : Process) : Process :=
  match p.session.authStat with
  | none => p.mapSession fun s => { s with pc := .fault }
  | some .ready =>
    let rest := writes p.session.apiId p.session.apiHash
    { root := p.root
      session := { p.session with isAuth := true, pc := .storing rest (p.session.pc = .closing) }
      logins :=
        { p.logins with
          begun := some { apiId := p.root.ids.apiId, apiHash := p.root.apiHash, sent := p.session.parameters } } }
  | some .closing => p
  | some .closed => p.mapSession fun s => { s with isAuth := false, isTdlibClosed := true }
  | some .waitPhoneNumber =>
    let (phoneNumber, cin) := p.session.cin.getline
    p.mapSession fun s =>
      ({ s with cin }).sendQuery (.setAuthenticationPhoneNumber (rmspc phoneNumber)) (some .auth)
  | some .waitCode =>
    let (code, cin) := p.session.cin.word
    p.mapSession fun s => ({ s with cin }).sendQuery (.checkAuthenticationCode code) (some .auth)
  | some .waitPassword =>
    let (code, cin) := p.session.cin.word
    p.mapSession fun s => ({ s with cin }).sendQuery (.checkAuthenticationPassword code) (some .auth)
  | some .waitTdlibParameters =>
    let (apiId, apiHash, cin) := p.credentials
    p.mapSession fun s =>
      ({ s with cin, apiId, apiHash }).sendQuery (.setTdlibParameters apiId apiHash) (some .auth)
  | some (.other _) => p.mapSession fun s => { s with pc := .exited 10 }

/-- The texts of the errors after which the question is asked again. -/
def knownErrors : List Bytes :=
  [str "PHONE_NUMBER_INVALID", str "PHONE_CODE_HASH_EMPTY", str "PHONE_CODE_EMPTY", str "PHONE_CODE_EXPIRED",
    str "PHONE_CODE_INVALID", str "API_ID_INVALID", str "PASSWORD_HASH_INVALID", str "PHONE_NUMBER_UNOCCUPIED",
    str "Valid api_id must be provided. Can be obtained at"]

def authQueryCallback (p : Process) : Object → Process
  | .ok => p
  | .error message =>
    if knownErrors.any fun e => (Strings.find e message).isSome then p.onAuthorizationStateUpdate
    else p.mapSession fun s => { s with pc := .exited 11 }
  | _ => p

def runCallback (p : Process) : Callback → Object → Process
  | .auth, object => p.authQueryCallback object
  | .close, _ => p

def processUpdate (p : Process) : Object → Process
  | .updateAuthorizationState stat =>
    (p.mapSession fun s => { s with authStat := some stat }).onAuthorizationStateUpdate
  | _ => p

def processResponse (p : Process) (response : Response) : Process :=
  match response.object with
  | none => p
  | some object =>
    if response.requestId = 0 then p.processUpdate object
    else
      match p.session.cb.lookup response.requestId with
      | none => p
      | some f => (p.runCallback f object).mapSession fun s => { s with cb := s.cb.erase response.requestId }

/-- The tests of the two loops: `loop ()` ends when the user is logged in, and the destructor, which first
    asks the client to close, when the client is closed. -/
def testLoop (p : Process) : Process :=
  match p.session.pc with
  | .looping =>
    if p.session.isLogin then
      p.mapSession fun s => ({ s with pc := .closing }).sendQuery .close (some .close)
    else p
  | .closing => if p.session.isTdlibClosed then p.mapSession fun s => { s with pc := .returned } else p
  | _ => p

/-- A turn of a loop: `receive`, and the test before the next one. -/
def receive (p : Process) (response : Response) : Option Process :=
  match p.session.pc with
  | .looping | .closing => some (p.processResponse response).testLoop
  | _ => none

/-- The next byte of the stores. Behind the last one `is_login` is set, and the turn goes on. -/
def store (p : Process) : Option Process :=
  match p.session.pc with
  | .storing [] _ => none
  | .storing [w] inDtor =>
    some ({
      root := w.apply p.root
      session := { p.session with isLogin := true, pc := if inDtor then .closing else .looping }
      logins := { stored := some p.session.parameters, begun := none } } : Process).testLoop
  | .storing (w :: rest) inDtor =>
    some { p with root := w.apply p.root, session := { p.session with pc := .storing rest inDtor } }
  | _ => none

end Process

/-! ### Commands over the data root -/

/-- `handle_auth_reset ()`; `removed` says whether the directory of TDLib could be removed. -/
def handleAuthReset (u : DataRoot) (removed : Bool) : Nat × DataRoot :=
  let u := u.setAuthHint false
  if removed = false then (1, u) else (0, u.setTgfid (-1))

/-- What `TdCollector::on_authorization_state_update` sends of the credentials. -/
def collectorParameters (u : DataRoot) : Query := .setTdlibParameters u.getApiId u.getApiHash

structure World where
  root : DataRoot
  login : Option Session
  logins : Logins

def start (root : DataRoot) : World where
  root := root
  login := none
  logins := {}

/-- What else is done to the files while nobody logs in or out. -/
def keepsCredentials : DataRoot.Op → Bool
  | .setApiId _ | .setApiHash _ | .setAuthHint _ => false
  | _ => true

/-- `auth` starts a process; there is one at a time, as the client locks its directory. -/
inductive Act where
  | auth (useProvidedApiPass : Bool) (input : Bytes)
  | receive (response : Response)
  | store
  /-- The process is at its end, or is killed. -/
  | leave
  | authReset (removed : Bool)
  | other (op : DataRoot.Op)
  deriving DecidableEq, Repr

def step (w : World) : Act → Option World
  | .auth useProvidedApiPass input =>
    match w.login with
    | none =>
      some { w with root := w.root.apply .construct, login := some (.start useProvidedApiPass input) }
    | some _ => none
  | .receive response => do
    let s ← w.login
    let p ← Process.receive { session := s, root := w.root, logins := w.logins } response
    some { root := p.root, login := some p.session, logins := p.logins }
  | .store => do
    let s ← w.login
    let p ← Process.store { session := s, root := w.root, logins := w.logins }
    some { root := p.root, login := some p.session, logins := p.logins }
  | .leave =>
    match w.login with
    | none => none
    | some _ => some { w with login := none }
  | .authReset removed => some { w with root := (handleAuthReset w.root removed).2 }
  | .other op => if keepsCredentials op then some { w with root := w.root.apply op } else none

def system (root : DataRoot) : Transition.System World Act where
  init w := w = start root
  step := step

end TdAuth

end TgFocus
