import TgFocus.Text
import TgFocus.Library.Stdio

/-! The files that hold a number (`user_data.cc`): the id of the TG-FOCUS chat and the api id. The bytes are
    written and read one by one, the lowest first. -/

namespace TgFocus

/-! ### Bytes of a number -/

section
variable {w : Nat}

/-- A turn of the loop that writes: what is left of the number, and the file. A `char` and the byte that is
    written for it are the same eight bits. -/
def storeTurn (st : BitVec w × Bytes) (i : Nat) : BitVec w × Bytes :=
  let tmp := if i > 0 then st.1.sshiftRight 8 else st.1
  (tmp, st.2 ++ [UInt8.ofBitVec ((tmp &&& 0xff#w).setWidth 8)])

/-- Opening the file for writing empties it. -/
def storeBytes (n : Nat) (v : BitVec w) : Bytes := ((List.range n).foldl storeTurn (v, [])).2

/-- A turn of the loop that reads: the byte stays 0 when there is nothing to read. -/
def loadTurn (st : BitVec w × Stdio.Stream) (i : Nat) : BitVec w × Stdio.Stream :=
  let (data, f) := st.2.fread 1
  let b := data.headD 0
  (b.toBitVec.setWidth w <<< (8 * i) ||| st.1, f)

def loadBytes (n : Nat) (content : Bytes) : BitVec w :=
  ((List.range n).foldl loadTurn (0#w, Stdio.fopen content)).1

end

/-! ### The files -/

structure StoredIds where
  tgfid : Bytes
  apiId : Bytes
  deriving DecidableEq, Repr

namespace StoredIds

def setTgfid (u : StoredIds) (v : Int64) : StoredIds := { u with tgfid := storeBytes 8 v.toBitVec }

def getTgfid (u : StoredIds) : Int64 := Int64.ofBitVec (loadBytes 8 u.tgfid)

/-- The source reads the file once more here. -/
def isTgfidValid (u : StoredIds) : Bool := Int64.ofBitVec (loadBytes 8 u.tgfid) ≠ -1

def setApiId (u : StoredIds) (v : Int32) : StoredIds := { u with apiId := storeBytes 4 v.toBitVec }

def getApiId (u : StoredIds) : Int32 := Int32.ofBitVec (loadBytes 4 u.apiId)

end StoredIds

end TgFocus
