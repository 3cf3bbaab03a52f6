import TgFocus.Library.Strings

/-! The texts of the program: a `std::string` is the list of its bytes. -/

namespace TgFocus

abbrev Bytes := List UInt8

/-- The bytes of a string literal (UTF-8). -/
def str (s : String) : Bytes := s.toUTF8.data.toList

def space : UInt8 := 0x20

def quote : UInt8 := 0x22

def backslash : UInt8 := 0x5c

def endl : Bytes := [0x0a]

/-- `std::to_string` and `operator<<` of an unsigned number. -/
def decimal (n : Nat) : Bytes := (Nat.toDigits 10 n).map fun c => UInt8.ofNat c.toNat

/-- `std::to_string` of a number with a sign. -/
def decimalInt (z : Int) : Bytes := if z < 0 then 0x2d :: decimal z.natAbs else decimal z.natAbs

def cStr (s : Bytes) : Bytes := s.takeWhile (· ≠ 0)

/-- Elements written one after the other with a separator between them. -/
def joinWith {α : Type} (sep : Bytes) (f : α → Bytes) (l : List α) : Bytes := sep.intercalate (l.map f)

/-! ### Numbers in texts -/

def isSpace (b : UInt8) : Bool := b = 0x20 || (0x09 ≤ b && b ≤ 0x0d)

def isDigit (b : UInt8) : Bool := 0x30 ≤ b && b ≤ 0x39

def leadingNat (s : Bytes) : Nat := (s.takeWhile isDigit).foldl (fun n b => 10 * n + (b.toNat - 0x30)) 0

/-- `strtol (s, nullptr, 10)`: white space, a sign, digits; saturates at the bounds of `long`. -/
def strtol (s : Bytes) : Int :=
  let s := s.dropWhile isSpace
  let n : Int := match s with
    | 0x2d :: t => -(leadingNat t : Int)
    | 0x2b :: t => leadingNat t
    | t => leadingNat t
  max (-0x8000000000000000) (min n 0x7fffffffffffffff)

/-- `atoi (s)`: `strtol` cut to an `int`. -/
def atoi (s : Bytes) : Int32 := Int32.ofInt (strtol (cStr s))

end TgFocus
