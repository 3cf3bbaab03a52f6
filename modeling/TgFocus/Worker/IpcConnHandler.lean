import TgFocus.IpcMsg
import TgFocus.TgMsg
import TgFocus.Library.Socket

/-! A connection to the daemon (`ipc_conn_handler.cc`): reading the request and what is written for it.
    Creating the epoll descriptor and writing do not fail. -/

namespace TgFocus.IpcConnHandler

/-! ### Reading the request -/

/-- What `epoll_wait` reports, with what the `read` behind it delivers. -/
inductive Event where
  | waitFailed
  | timeout
  /-- Something other than bytes to read. -/
  | other
  | readFailed
  | read (c : Socket.Chunk IpcMsg.nbyteAll)
  deriving DecidableEq, Repr

/-- `waiting` is inside the loop, `returned` the end after an error. -/
inductive Request where
  | waiting
  | returned
  | gaveUp
  | decoded (msg : IpcMsg)
  deriving DecidableEq, Repr

def readLoop (buffer : Bytes) (nreadTotal : Nat) (giveupProbe : Bool) (events : List Event) : Request :=
  if nreadTotal ≠ IpcMsg.nbyteAll ∧ giveupProbe = false then
    match events with
    | [] => .waiting
    | .waitFailed :: _ => .returned
    | .timeout :: events => readLoop buffer nreadTotal giveupProbe events
    | .other :: events => readLoop buffer nreadTotal giveupProbe events
    | .readFailed :: _ => .returned
    -- each read starts at the beginning of the buffer
    | .read c :: events =>
      readLoop (Socket.overwrite buffer c.bytes) (nreadTotal + c.bytes.length) (c.bytes.length = 0) events
  else if giveupProbe then .gaveUp
  else .decoded (.ofBuffer buffer)

/-- The array of the request is not initialised: it holds any `nbyteAll` bytes. -/
def readRequest (buffer : Bytes) (events : List Event) : Request := readLoop buffer 0 false events

/-! ### Status -/

structure Status where
  isAuth : Bool
  isCollUp : Bool
  isPause : Bool
  nMsgTotal : UInt32
  nMsgColl : UInt32
  mqsz : Nat
  hostLang : Lang
  deriving DecidableEq, Repr

def langToCstr : Lang → Bytes
  | .en_HK => str "en-HK"
  | .en_US => str "en-US"
  | .en_ZW => str "en-ZW"
  | .zh_CN => str "zh-CN"
  | .zh_HK => str "zh-HK"
  | _ => str "?-?"

def yesNo (b : Bool) : Bytes := if b then str "YES" else str "NO"

def Status.rpl (s : Status) : Bytes :=
  str "       Logged in : " ++ yesNo s.isAuth ++ endl ++
  str "       Collector : " ++ (if s.isCollUp then str "UP" else str "DOWN") ++ endl ++
  str "    Focus Paused : " ++ yesNo s.isPause ++ endl ++
  str " Forwarded/Total : " ++ decimal s.nMsgColl.toNat ++ str "/" ++ decimal s.nMsgTotal.toNat ++ endl ++
  str "         Pending : " ++ decimal s.mqsz ++ endl ++
  str "     Host Locale : " ++ langToCstr s.hostLang ++ endl

/-- The two pieces that are sent. -/
def rhandleRstatus (s : Status) : Bytes × Bytes :=
  let rpl := s.rpl
  let m := newIpcmsgSuccessr rpl.length
  (m.data, rpl.take (m.extargsLen.getD 0).toNat)

/-! ### Replying -/

/-- What is written for a request of the immediate port; `none` when the handler waits for ever, which it
    does when a collector that is up does not raise `coll_initer_succ`. The blocks for the types come one
    after another, and each asks for its own type. -/
def replies (s : Status) (collIniterSucc : Bool) (msg : IpcMsg) : Option (List Bytes) := do
  let ignored := if msg.typ = .ignore then [newIpcmsgSuccess.data] else []
  let shutIpcSrv ←
    if msg.typ = .shutdownIpcSrv then
      -- the handler raises the flag itself when there is no collector
      if s.isCollUp && !collIniterSucc then none else some [newIpcmsgSuccess.data]
    else some []
  let rstatus := if msg.typ = .reportStatus then [(rhandleRstatus s).1, (rhandleRstatus s).2] else []
  let upColl := if msg.typ = .upColl then [newIpcmsgSuccess.data] else []
  let shutColl ←
    if msg.typ = .shutdownColl then
      if s.isCollUp && !collIniterSucc then none else some [newIpcmsgSuccess.data]
    else some []
  some (ignored ++ shutIpcSrv ++ rstatus ++ upColl ++ shutColl)

/-- What is written on the connection behind the reading loop. -/
def written (immd : Bool) (s : Status) (collIniterSucc : Bool) : Request → Option (List Bytes)
  | .waiting => none
  | .returned => some []
  | .gaveUp => some [newIpcmsgError.data]
  | .decoded msg =>
    if immd then replies s collIniterSucc msg
    -- the message goes into the queue of the lazy port
    else some [newIpcmsgSuccess.data]

end TgFocus.IpcConnHandler
