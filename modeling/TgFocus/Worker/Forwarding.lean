import TgFocus.Worker.Pipeline
import TgFocus.Filter

/-! What the pipeline forwards (`need_collect` in `coll_consumer.cc`, `collect_msg` and the counters of
    received and forwarded messages in `td_coll.cc`), as a history beside `Pipeline`. -/

namespace TgFocus

/-- `tomlstr` is what `get_filters` returns; it is read again for every message. -/
def needCollect (host : Host) (tomlstr : Bytes) (msg : TgMsg) : Bool :=
  ((FilterGroupToml host tomlstr).mtchTgmsg host msg).1

namespace Pipeline

/-- A message handed to `collect_msg`: the number it got on arrival, the chat it is sent to, what is sent,
    and the text of the filters that it passed. -/
structure Forwarded where
  uid : Nat
  chat : Int
  msg : TgMsg
  tomlstr : Bytes
  deriving DecidableEq, Repr

structure History where
  /-- The messages of `mq` in the order of their numbers. -/
  arrived : List TgMsg
  /-- The text that `need_collect` read last. -/
  read : Bytes
  sent : List Forwarded
  itMsgTotal : UInt32
  itMsgColl : UInt32
  deriving DecidableEq, Repr

def History.start : History where
  arrived := []
  read := []
  sent := []
  itMsgTotal := 0
  itMsgColl := 0

/-- The entry of a step; `tomlstr` is what `need_collect` reads, and decides `examine`. It is any text: the file
    may be read while another process writes it. A message is counted with the release of the lock, behind its
    insertion. -/
def note (host : Host) (s : State) (a : Act) (tomlstr : Bytes) (h : History) : Option History :=
  match a with
  | .producer incoming =>
    match s.producer, incoming with
    | .inserting msg, _ => some { h with arrived := h.arrived ++ [msg] }
    | .unlocking, _ => some { h with itMsgTotal := h.itMsgTotal + 1 }
    | .fetching, .answer (.send _ _) (.ok _) => some { h with itMsgColl := h.itMsgColl + 1 }
    | _, _ => some h
  | .consumer need =>
    match s.consumer with
    | .examine it => do
      let curr ← s.mq[it]?
      if curr.msg.isFromTgfocus then some h
      else if need = needCollect host tomlstr curr.msg then some { h with read := tomlstr } else none
    | .collecting it => do
      let curr ← s.mq[it]?
      some { h with sent := h.sent ++ [⟨curr.uid, s.tgfid, { curr.msg with id := s.consumeCnt + 1 }, h.read⟩] }
    | _ => some h
  | .switcher | .stop | .restart | .resetTgfid => some h

/-- The pipeline with the filters' decisions. -/
def forwarding (host : Host) : Transition.System (State × History) (Act × Bytes) :=
  system.recorded History.start (note host)

end Pipeline

end TgFocus
