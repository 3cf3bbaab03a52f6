import TgFocus.TgMsg
import TgFocus.Library.Transition

/-! The three threads of a running collector (`coll_producer.cc`, `coll_consumer.cc`, `coll_switcher.cc`,
    and what of `td_coll.cc` they run). A program counter says what a thread does next; one step is one
    access to what the threads share, and an action is possible when the thread is not blocked. The
    atomics are sequentially consistent.

    A collector is started, runs, is stopped and is started again; the three threads of one start are
    joined before the next, and one collector runs at a time. What the program counters do not name
    (clocks, counters, log lines) is left out. `inserted` and `log` are history: they number the messages
    and record what the consumer did with each. -/

namespace TgFocus.Pipeline

/-! ### State -/

inductive Role where
  | producer | consumer | switcher
  deriving DecidableEq, Repr

/-- A message of `mq` with the number it got when it was inserted. -/
structure Queued where
  uid : Nat
  msg : TgMsg
  deriving DecidableEq, Repr

/-- A query whose callback does something: creating the TG-FOCUS chat, sending a message to a chat. -/
inductive Query where
  | create
  | send (chat : Int) (msg : TgMsg)
  deriving DecidableEq, Repr

/-- What the consumer does with a message: it recognises it as its own, it asks `need_collect`, it hands
    it to `collect_msg`. -/
inductive Event where
  | recognised (uid : Nat)
  | examined (uid : Nat) (need : Bool)
  | collected (uid : Nat)
  deriving DecidableEq, Repr

def Event.uid : Event → Nat
  | .recognised uid => uid
  | .examined uid _ => uid
  | .collected uid => uid

/-- `fetching` to `forgetting` are inside `fetch_updates`. -/
inductive ProducerPc where
  | loopTest | waiting
  | fetching | locking (msg : TgMsg) | inserting (msg : TgMsg) | unlocking | forgetting
  | exiting | done
  deriving DecidableEq, Repr

/-- `readTgfid` to `storing` are a round. -/
inductive ConsumerPc where
  | loopTest | waiting
  | readTgfid | readTried (isValid : Bool) | creating | creatingSend
  | locking | sizeTest | batch (it : Nat) | examine (it : Nat) | collecting (it : Nat) | clearing | unlocking
  | storing
  | exiting | done
  deriving DecidableEq, Repr

inductive SwitcherPc where
  | loopTest | sleeping | pauseTest | flagTest | locking | sizeTest | raising | unlocking
  | closing | awaitProducer | forcing | stopping | awaitConsumer | acking | done
  deriving DecidableEq, Repr

structure State where
  mq : List Queued
  mqLock : Option Role
  doCsmMq : Bool
  pauseDoCsmMq : Bool
  /-- The flags of `tryshutwk`. -/
  collProducer : Bool
  collProducerSucc : Bool
  collConsumer : Bool
  collConsumerSucc : Bool
  collSwitcher : Bool
  collSwitcherSucc : Bool
  /-- The stored chat id; -1 is invalid. -/
  tgfid : Int
  isAuth : Bool
  triedCTgfchat : Bool
  /-- The queries that TDLib has not answered. -/
  inflight : List Query
  consumeCnt : UInt32
  producer : ProducerPc
  consumer : ConsumerPc
  switcher : SwitcherPc
  inserted : Nat
  log : List Event
  deriving DecidableEq, Repr

def State.isTgfidValid (s : State) : Bool := s.tgfid ≠ -1

def start (tgfid : Int) : State where
  mq := []
  mqLock := none
  doCsmMq := false
  pauseDoCsmMq := false
  collProducer := false
  collProducerSucc := false
  collConsumer := false
  collConsumerSucc := false
  collSwitcher := false
  collSwitcherSucc := false
  tgfid := tgfid
  isAuth := false
  triedCTgfchat := false
  inflight := []
  consumeCnt := 0
  producer := .loopTest
  consumer := .loopTest
  switcher := .loopTest
  inserted := 0
  log := []

/-! ### Producer -/

/-- The answer to a query: what it made, or an error, which may say that the chat is lost. -/
inductive Answer where
  | ok (chat : Int)
  | error (lost : Bool)
  deriving DecidableEq, Repr

/-- What `receive` delivers: nothing that matters here, a message outside the TG-FOCUS chat, a `pause` or
    `resume` command, the end of the authorization, the answer to a query. -/
inductive Incoming where
  | nothing
  | message (msg : TgMsg)
  | command (pause : Bool)
  | authReady
  | answer (q : Query) (r : Answer)
  deriving DecidableEq, Repr

/-- The callbacks of `try_create_tgfchat` and `collect_msg`. -/
def callback (s : State) : Query → Answer → State
  | .create, .ok chat => { s with tgfid := chat, producer := .loopTest }
  | .send _ _, .error true => { s with triedCTgfchat := false, producer := .forgetting }
  | _, _ => { s with producer := .loopTest }

/-- `process_response` -/
def receive (s : State) : Incoming → Option State
  | .nothing => some { s with producer := .loopTest }
  | .message msg => some { s with producer := .locking msg }
  | .command pause => some { s with pauseDoCsmMq := pause, producer := .loopTest }
  | .authReady => some { s with isAuth := true, producer := .loopTest }
  | .answer q r =>
    if q ∈ s.inflight then some (callback { s with inflight := s.inflight.erase q } q r) else none

/-- A step of `CollProducer::operator()`; what is delivered matters in `fetching` only. -/
def producerStep (s : State) (incoming : Incoming) : Option State :=
  match s.producer with
  | .loopTest => if s.collProducer then some { s with producer := .exiting } else some { s with producer := .waiting }
  | .waiting => if s.doCsmMq then none else some { s with producer := .fetching }
  | .fetching => receive s incoming
  | .locking msg =>
    if s.mqLock = none then some { s with mqLock := some .producer, producer := .inserting msg } else none
  | .inserting msg =>
    some { s with mq := ⟨s.inserted, msg⟩ :: s.mq, inserted := s.inserted + 1, producer := .unlocking }
  | .unlocking => some { s with mqLock := none, producer := .loopTest }
  | .forgetting => some { s with tgfid := -1, producer := .loopTest }
  | .exiting => some { s with collProducerSucc := true, producer := .done }
  | .done => none

/-! ### Consumer -/

/-- A step of `CollConsumer::operator()`; `need` is the result of `need_collect` and matters in `examine`
    only. -/
def consumerStep (s : State) (need : Bool) : Option State :=
  match s.consumer with
  | .loopTest => if s.collConsumer then some { s with consumer := .exiting } else some { s with consumer := .waiting }
  | .waiting => if s.doCsmMq then some { s with consumer := .readTgfid } else none
  | .readTgfid => some { s with consumer := .readTried s.isTgfidValid }
  | .readTried isValid =>
    if !isValid && !s.triedCTgfchat then some { s with consumer := .creating }
    else some { s with consumer := .locking }
  | .creating =>
    if s.isAuth && !s.isTgfidValid && !s.triedCTgfchat then
      some { s with triedCTgfchat := true, consumer := .creatingSend }
    else some { s with consumer := .loopTest }
  | .creatingSend => some { s with inflight := s.inflight ++ [.create], consumer := .loopTest }
  | .locking => if s.mqLock = none then some { s with mqLock := some .consumer, consumer := .sizeTest } else none
  | .sizeTest =>
    if s.mq.length > 0 ∧ s.isTgfidValid then some { s with consumer := .batch 0 }
    else some { s with consumer := .unlocking }
  | .batch it =>
    if it = s.mq.length then some { s with consumer := .clearing }
    -- gives up consuming; the queue is cleared all the same
    else if s.collConsumer then some { s with consumer := .clearing }
    else some { s with consumer := .examine it }
  | .examine it => do
    let curr ← s.mq[it]?
    if curr.msg.isFromTgfocus then
      some { s with log := s.log ++ [.recognised curr.uid], consumer := .batch (it + 1) }
    else
      let s := { s with log := s.log ++ [Event.examined curr.uid need] }
      if need then some { s with consumer := .collecting it } else some { s with consumer := .batch (it + 1) }
  | .collecting it => do
    let curr ← s.mq[it]?
    let query := Query.send s.tgfid { curr.msg with id := s.consumeCnt + 1 }
    some { s with log := s.log ++ [.collected curr.uid], inflight := s.inflight ++ [query],
                  consumeCnt := s.consumeCnt + 1, consumer := .batch (it + 1) }
  | .clearing => some { s with mq := [], consumer := .unlocking }
  | .unlocking => some { s with mqLock := none, consumer := .storing }
  | .storing => some { s with doCsmMq := false, consumer := .loopTest }
  | .exiting => some { s with collConsumerSucc := true, consumer := .done }
  | .done => none

/-! ### Switcher -/

/-- A step of `CollSwitcher::operator()`. -/
def switcherStep (s : State) : Option State :=
  match s.switcher with
  | .loopTest => if s.collSwitcher then some { s with switcher := .closing } else some { s with switcher := .sleeping }
  | .sleeping => some { s with switcher := .pauseTest }
  | .pauseTest =>
    if s.pauseDoCsmMq then some { s with switcher := .loopTest } else some { s with switcher := .flagTest }
  | .flagTest => if s.doCsmMq then some { s with switcher := .loopTest } else some { s with switcher := .locking }
  | .locking => if s.mqLock = none then some { s with mqLock := some .switcher, switcher := .sizeTest } else none
  | .sizeTest =>
    if s.mq.length > 0 then some { s with switcher := .raising } else some { s with switcher := .unlocking }
  | .raising => some { s with doCsmMq := true, switcher := .unlocking }
  | .unlocking => some { s with mqLock := none, switcher := .loopTest }
  | .closing => some { s with collProducer := true, switcher := .awaitProducer }
  | .awaitProducer => if s.collProducerSucc then some { s with switcher := .forcing } else none
  -- wakes the consumer up before it is asked to stop
  | .forcing => some { s with doCsmMq := true, switcher := .stopping }
  | .stopping => some { s with collConsumer := true, switcher := .awaitConsumer }
  | .awaitConsumer => if s.collConsumerSucc then some { s with switcher := .acking } else none
  | .acking => some { s with collSwitcherSucc := true, switcher := .done }
  | .done => none

/-! ### The system -/

/-- A step of a thread; the request to stop; the start after the three threads are done; the CLI that
    logs out and forgets the chat. -/
inductive Act where
  | producer (incoming : Incoming)
  | consumer (need : Bool)
  | switcher
  | stop
  | restart
  | resetTgfid
  deriving DecidableEq, Repr

/-- A new start clears the flags of `tryshutwk` and replaces the TDLib client; the queue, the hand-off
    flag and what the collector knows stay. -/
def restart (s : State) : State :=
  { s with
    collProducer := false, collProducerSucc := false
    collConsumer := false, collConsumerSucc := false
    collSwitcher := false, collSwitcherSucc := false
    inflight := [], consumeCnt := 0
    producer := .loopTest, consumer := .loopTest, switcher := .loopTest }

def step (s : State) : Act → Option State
  | .producer incoming => producerStep s incoming
  | .consumer need => consumerStep s need
  | .switcher => switcherStep s
  | .stop => some { s with collSwitcher := true }
  | .restart => if s.producer = .done ∧ s.consumer = .done ∧ s.switcher = .done then some (restart s) else none
  | .resetTgfid => some { s with tgfid := -1 }

def system : Transition.System State Act where
  init s := ∃ tgfid, s = start tgfid
  step := step

end TgFocus.Pipeline
