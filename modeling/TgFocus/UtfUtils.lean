import TgFocus.Library.Loop
import TgFocus.Library.Utf16
import TgFocus.Text

/-! UTF-16 from UTF-8 (`utfutils.cc`). The loop is that of `get_c16_len` and `get_c16_seq`, and with two
    differences that of `get_decor_pos` in `tg_msg.cc`: it may have the NUL behind the text in its input,
    and it may leave out the unit of a NUL. -/

namespace TgFocus

open Utf16 (MbState mbrtoc16)

/-- Inside the loop; behind it because of a NUL; behind it because nothing was converted. -/
inductive ConvPc where
  | running | nul | failed
  deriving DecidableEq, Repr

/-- `bufp_utf8 - buf_utf8`, the units from `buf_utf16` to `bufp_utf16`, and the state of the conversion. -/
structure Conv where
  pos : Nat
  units : List UInt16
  state : MbState
  pc : ConvPc
  deriving DecidableEq, Repr

namespace Conv

def start : Conv where
  pos := 0
  units := []
  state := {}
  pc := .running

def turn (storesNul : Bool) (input : Bytes) (c : Conv) : Option Conv :=
  if c.pc ≠ .running then none
  else
    match mbrtoc16 c.state (input.drop c.pos) with
    | (.illegal, state) => some { c with state, pc := .failed }
    | (.incomplete, state) => some { c with state, pc := .failed }
    | (.low c16, state) => some { c with units := c.units ++ [c16], state }
    | (.bytes n c16, state) =>
      some {
        pos := c.pos + n
        units := if n = 0 ∧ storesNul = false then c.units else c.units ++ [c16]
        state
        pc := if n = 0 then .nul else .running }

/-- Two turns for each byte are enough. -/
def run (storesNul : Bool) (input : Bytes) : Conv :=
  Loop.exec (turn storesNul input) (2 * input.length + 1) start

end Conv

/-- The buffer of `get_c16_len` lies on the stack. -/
def getC16Len (utf8s : Bytes) : Nat :=
  if utf8s.length = 0 then 0
  else if utf8s.length > 1024 then 0
  else (Conv.run true utf8s).units.length

def getC16Seq (utf8s : Bytes) : List UInt16 := if utf8s.length = 0 then [] else (Conv.run true utf8s).units

example : getC16Seq (str "zß水🍌") = [0x007a, 0x00df, 0x6c34, 0xd83c, 0xdf4c] := by decide

end TgFocus
