import TgFocus.UserData
import TgFocus.Library.Transition

/-! One `UserData::set_filters` and one `UserData::get_filters` at the filters file at the same time. The
    writer takes the lock of the file, truncates the file, writes and closes it; the reader opens the file,
    looks at its size and reads it in as many pieces as the system delivers. The lock is the writer's own:
    the reader does not ask for it. -/

namespace TgFocus.FiltersFile

/-- `writing` is inside `fwrite`, which may write a beginning of the text; `fclose` writes the rest. -/
inductive WriterPc where
  | testing | locking | opening | writing | closing | unlocking | done
  deriving DecidableEq, Repr

/-- `reading` has the size of the buffer that was chosen and what is in it so far. -/
inductive ReaderPc where
  | opening | sizing | reading (size : Nat) (data : Bytes) | returned (res : Bytes)
  deriving DecidableEq, Repr

structure State where
  file : Bytes
  writer : WriterPc
  reader : ReaderPc
  deriving DecidableEq, Repr

def start (old : Bytes) : State where
  file := old
  writer := .testing
  reader := .opening

/-- A step of `set_filters (new)`; `ok` is the result of taking the lock and of opening the file, and
    matters there only. -/
def writerStep (new : Bytes) (s : State) (ok : Bool) : Option State :=
  match s.writer with
  | .testing => if new.length = 0 then some { s with writer := .done } else some { s with writer := .locking }
  | .locking => if ok then some { s with writer := .opening } else some { s with writer := .done }
  | .opening => if ok then some { s with file := [], writer := .writing } else some { s with writer := .done }
  | .writing => some { s with writer := .closing }
  | .closing => some { s with file := new, writer := .unlocking }
  | .unlocking => some { s with writer := .done }
  | .done => none

/-- `fwrite` hands at least `n` more bytes to the system. -/
def flushStep (new : Bytes) (s : State) (n : Nat) : Option State :=
  if s.writer = .writing then some { s with file := new.take (s.file.length + n) } else none

/-- A step of `get_filters ()`; a read delivers at most `n + 1` bytes. -/
def readerStep (s : State) (n : Nat) : Option State :=
  match s.reader with
  | .opening => some { s with reader := .sizing }
  | .sizing =>
    let size := if s.file.length > FileReader.maxSmall then FileReader.maxLarge else FileReader.maxSmall
    some { s with reader := .reading size [] }
  | .reading size data =>
    -- a buffer that is full is left without a look at the end of the file
    if data.length = size then some { s with reader := .returned (str "-") }
    else
      match (s.file.drop data.length).take (size - data.length) with
      | [] => some { s with reader := .returned data }
      | rest => some { s with reader := .reading size (data ++ rest.take (n + 1)) }
  | .returned _ => none

inductive Act where
  | writer (ok : Bool)
  | flush (n : Nat)
  | reader (n : Nat)
  deriving DecidableEq, Repr

def step (new : Bytes) (s : State) : Act → Option State
  | .writer ok => writerStep new s ok
  | .flush n => flushStep new s n
  | .reader n => readerStep s n

def system (old new : Bytes) : Transition.System State Act where
  init s := s = start old
  step := step new

end TgFocus.FiltersFile
