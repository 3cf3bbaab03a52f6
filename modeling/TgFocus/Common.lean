import TgFocus.Text

/-! Numbers that the user types in (`common.hh`). -/

namespace TgFocus

def isValidInt32 (input : Bytes) : Bool :=
  let asNum := strtol (cStr input)
  if asNum < -0x80000000 ∨ asNum > 0x7fffffff then false
  else if decimalInt asNum ≠ input then false
  else true

def sstrToInt32 (input : Bytes) : Int32 := Int32.ofInt (strtol (cStr input))

end TgFocus
