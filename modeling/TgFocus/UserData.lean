import TgFocus.Text
import TgFocus.Library.Stdio

/-! The filters file (`user_data.cc`) and reading it whole (`FileReader` in `common.hh`). -/

namespace TgFocus

/-! ### FileReader -/

/-- `FileReader` on a file that could be opened. The large buffer is allocated when the file is larger
    than the small one. -/
structure FileReader where
  fstrm : Stdio.Stream
  large : Bool
  deriving DecidableEq, Repr

namespace FileReader

def maxSmall : Nat := 4096

def maxLarge : Nat := 1 <<< 20

def ofContent (content : Bytes) : FileReader :=
  let f := (Stdio.fopen content).seekEnd
  { fstrm := f, large := f.ftell > maxSmall }

/-- Reading with a buffer of `size` bytes. Not having seen the end of the file is taken for a failure. -/
def readBuffer (r : FileReader) (size : Nat) : Option Bytes :=
  let (data, f) := r.fstrm.seekSet.fread size
  if f.feof = false then none else some data

def readSmallToString (r : FileReader) : Option Bytes := r.readBuffer maxSmall

def readLargeToString (r : FileReader) : Option Bytes := r.readBuffer maxLarge

def readToString (r : FileReader) : Option Bytes :=
  if r.large then r.readLargeToString else r.readSmallToString

end FileReader

/-! ### UserData -/

/-- The filters file, and whether its lock can be taken and it can be opened for writing. -/
structure UserData where
  filters : Bytes
  lckFilters : Bool := true
  writable : Bool := true
  deriving DecidableEq, Repr

namespace UserData

def getFilters (u : UserData) : Bytes := ((FileReader.ofContent u.filters).readToString).getD (str "-")

def setFilters (u : UserData) (s : Bytes) : UserData :=
  if s.length = 0 then u
  else if !u.lckFilters then u
  else if !u.writable then u
  else { u with filters := s }

end UserData

end TgFocus
