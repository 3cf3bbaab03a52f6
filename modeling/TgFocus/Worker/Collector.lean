import TgFocus.Worker.Lifecycle
import TgFocus.Worker.Pipeline

/-! The collector as a whole (`ipc_conn_handler.cc`, `coll_initer.cc` and the three threads that it starts):
    `Lifecycle` and `Pipeline` share the flags of the switcher. A `CollIniter` starts the three threads when
    it begins to run, and joins them before it acknowledges.

    `UpColl` clears the flags of producer and consumer before those of the switcher, which is where `Lifecycle`
    begins. A collector that is started while another one runs is not modelled. -/

namespace TgFocus.Collector

structure State where
  life : Lifecycle.State
  pipe : Pipeline.State
  /-- How many of the flags of producer and consumer the handler has cleared. -/
  cleared : Nat
  deriving DecidableEq, Repr

/-- The three threads have ended, or were never started. -/
def ended (p : Pipeline.State) : Bool := p.producer = .done && p.consumer = .done && p.switcher = .done

def start (authHint : Bool) (tgfid : Int) : State where
  life := Lifecycle.start authHint
  pipe := { Pipeline.start tgfid with producer := .done, consumer := .done, switcher := .done }
  cleared := 0

/-- After a step of the handler or of a `CollIniter` the flags of the switcher are the same in both. -/
def State.share (s : State) (life : Lifecycle.State) : State :=
  { s with
    life
    pipe := { s.pipe with collSwitcher := life.collSwitcher, collSwitcherSucc := life.collSwitcherSucc } }

/-- `coll_producer`, `coll_producer_succ`, `coll_consumer`, `coll_consumer_succ` -/
def clear (p : Pipeline.State) : Nat → Pipeline.State
  | 0 => { p with collProducer := false }
  | 1 => { p with collProducerSucc := false }
  | 2 => { p with collConsumer := false }
  | _ => { p with collConsumerSucc := false }

def handlerStep (s : State) : Option State :=
  if s.life.handler = .clearSwitcher ∧ s.cleared < 4 then
    some { s with pipe := clear s.pipe s.cleared, cleared := s.cleared + 1 }
  else (Lifecycle.handlerStep s.life).map fun life => { s.share life with cleared := 0 }

/-- `collector.init ()`, and the three threads. -/
def launch (p : Pipeline.State) : Pipeline.State :=
  { p with inflight := [], consumeCnt := 0, producer := .loopTest, consumer := .loopTest, switcher := .loopTest }

def initerStep (s : State) (k : Nat) : Option State := do
  let th ← s.life.threads[k]?
  let life ← Lifecycle.initerStep s.life k
  match th.pc with
  | .recheck =>
    if s.life.authHint then
      if ended s.pipe then some { s with life, pipe := launch s.pipe } else none
    else some (s.share life)
  -- the three threads are joined
  | .waitSwitcher => if ended s.pipe then some (s.share life) else none
  | _ => some (s.share life)

/-- A step of one of the three threads; the switcher may acknowledge. -/
def pipeStep (s : State) (a : Pipeline.Act) : Option State :=
  (Pipeline.step s.pipe a).map fun pipe =>
    { s with pipe, life := { s.life with collSwitcherSucc := pipe.collSwitcherSucc } }

/-- A request arrives; a step of the handler, of a `CollIniter`, of one of the three threads; the CLI logs
    in or out, or forgets the chat. -/
inductive Act where
  | request (r : Lifecycle.Request)
  | handler
  | initer (k : Nat)
  | producer (incoming : Pipeline.Incoming)
  | consumer (need : Bool)
  | switcher
  | setAuthHint (flag : Bool)
  | resetTgfid
  deriving DecidableEq, Repr

def step (s : State) : Act → Option State
  | .request r => (Lifecycle.step s.life (.request r)).map fun life => { s with life }
  | .handler => handlerStep s
  | .initer k => initerStep s k
  | .producer incoming => pipeStep s (.producer incoming)
  | .consumer need => pipeStep s (.consumer need)
  | .switcher => pipeStep s .switcher
  | .setAuthHint flag => some { s with life := { s.life with authHint := flag } }
  | .resetTgfid => some { s with pipe := { s.pipe with tgfid := -1 } }

def system : Transition.System State Act where
  init s := ∃ authHint tgfid, s = start authHint tgfid
  step := step

end TgFocus.Collector
