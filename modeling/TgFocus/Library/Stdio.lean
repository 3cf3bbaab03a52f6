import Mathlib.Data.List.Basic

/-! Reading a file through a C stream: the position, and the end-of-file indicator that a read raises
    only when it asks for more bytes than are left. -/

namespace Stdio

/-- A stream opened for reading: the bytes of the file, the position and the end-of-file indicator. -/
structure Stream where
  content : List UInt8
  pos : Nat
  eof : Bool
  deriving DecidableEq, Repr

def fopen (content : List UInt8) : Stream := { content, pos := 0, eof := false }

def Stream.seekEnd (f : Stream) : Stream := { f with pos := f.content.length, eof := false }

def Stream.seekSet (f : Stream) : Stream := { f with pos := 0, eof := false }

def Stream.ftell (f : Stream) : Nat := f.pos

def Stream.feof (f : Stream) : Bool := f.eof

/-- `fread (buf, 1, n, f)`: at most `n` bytes. Delivering all `n` does not look past the last one, so
    the end of the file is seen only when fewer are left. -/
def Stream.fread (f : Stream) (n : Nat) : List UInt8 × Stream :=
  let data := (f.content.drop f.pos).take n
  (data, { f with pos := f.pos + data.length, eof := f.eof || data.length < n })

@[simp] theorem fopen_content (c : List UInt8) : (fopen c).content = c := rfl

@[simp] theorem seekEnd_content (f : Stream) : f.seekEnd.content = f.content := rfl

@[simp] theorem ftell_seekEnd (f : Stream) : f.seekEnd.ftell = f.content.length := rfl

@[simp] theorem seekSet_content (f : Stream) : f.seekSet.content = f.content := rfl

theorem fread_seekSet_fst (f : Stream) (n : Nat) : (f.seekSet.fread n).1 = f.content.take n := by
  simp [Stream.fread, Stream.seekSet]

/-- Reading from the start sees the end of the file exactly when the file is shorter than the request. -/
theorem feof_fread_seekSet (f : Stream) (n : Nat) :
    (f.seekSet.fread n).2.feof = decide (f.content.length < n) := by
  simp only [Stream.fread, Stream.seekSet, Stream.feof, List.drop_zero, List.length_take, Bool.false_or,
    decide_eq_decide]
  omega

end Stdio
