import Mathlib.Data.List.AList
import TgFocus.Library.Transition

/-! The queries of the collector and their answers (`td_coll.cc`). A callback is a value of `F` here, and
    running it is an entry of `ran`: what the callbacks of the source do leaves this state alone. TDLib is
    the other party. A client answers what it was given, each request once and in any order, and what the
    old client did not answer is gone when `init` makes another one.

    `clients`, `sent`, `answered` and `ran` are history. -/

namespace TgFocus.TdQueries

/-- `client` is the number of the client that was given the query. -/
structure Query (F : Type) where
  id : UInt64
  callback : Option F
  client : Nat
  deriving DecidableEq, Repr

structure Answer where
  id : UInt64
  client : Nat
  deriving DecidableEq, Repr

/-- Of an object only this matters here: the queries that `process_update` sends when it is an update. -/
abbrev Object (F : Type) := List (Option F)

/-- What `receive` returns; without an object when nothing came in time. -/
structure Response (F : Type) where
  requestId : UInt64
  object : Option (Object F)
  deriving DecidableEq, Repr

structure State (F : Type) where
  currQryId : UInt64
  cb : AList fun _ : UInt64 => F
  /-- The requests that the client was given and did not answer so far. -/
  given : List UInt64
  clients : Nat
  sent : List (Query F)
  answered : List Answer
  ran : List (Answer × F)

def start (F : Type) : State F where
  currQryId := 0
  cb := ∅
  given := []
  clients := 0
  sent := []
  answered := []
  ran := []

/-- `unordered_map::emplace`: an entry that is there already stays. -/
def emplace {F : Type} (cb : AList fun _ : UInt64 => F) (id : UInt64) (f : F) : AList fun _ : UInt64 => F :=
  if id ∈ cb then cb else cb.insert id f

namespace State
variable {F : Type}

def nextQueryId (s : State F) : UInt64 × State F :=
  let next := s.currQryId + 1
  (next, { s with currQryId := next })

def sendQuery (s : State F) (cbfn : Option F) : State F :=
  let (queryId, s) := s.nextQueryId
  { s with
    cb := match cbfn with
      | some f => emplace s.cb queryId f
      | none => s.cb
    given := s.given ++ [queryId]
    sent := s.sent ++ [{ id := queryId, callback := cbfn, client := s.clients }] }

/-- The queries `version` and `use_storage_optimizer` of a new client have no callback. -/
def init (s : State F) : State F :=
  (({ s with given := [], clients := s.clients + 1 }).sendQuery none).sendQuery none

def processUpdate (s : State F) (object : Object F) : State F := object.foldl sendQuery s

/-- An answer to the client that there is now; its callback is erased when it has run. -/
def processResponse (s : State F) (response : Response F) : State F :=
  match response.object with
  | none => s
  | some object =>
    if response.requestId = 0 then s.processUpdate object
    else
      match s.cb.lookup response.requestId with
      | some f =>
        let ran : State F := { s with ran := s.ran ++ [({ id := response.requestId, client := s.clients }, f)] }
        { ran with cb := ran.cb.erase response.requestId }
      | none => s

/-- The client delivers a response: an update at any time, an answer for a request it still has. -/
def deliver (s : State F) (response : Response F) : Option (State F) :=
  if response.object.isNone ∨ response.requestId = 0 then some s
  else if response.requestId ∈ s.given then
    some { s with
      given := s.given.erase response.requestId
      answered := s.answered ++ [{ id := response.requestId, client := s.clients }] }
  else none

end State

inductive Act (F : Type) where
  | init
  | sendQuery (cbfn : Option F)
  | fetchUpdates (response : Response F)
  deriving DecidableEq, Repr

/-- Without a client nothing is sent or received. -/
def step {F : Type} (s : State F) : Act F → Option (State F)
  | .init => some s.init
  | .sendQuery cbfn => if s.clients = 0 then none else some (s.sendQuery cbfn)
  | .fetchUpdates response =>
    if s.clients = 0 then none else (s.deliver response).map fun s => s.processResponse response

def system (F : Type) : Transition.System (State F) (Act F) where
  init s := s = start F
  step := step

end TgFocus.TdQueries
