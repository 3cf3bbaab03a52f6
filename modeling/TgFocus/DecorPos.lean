import TgFocus.TgMsg
import TgFocus.UtfUtils

/-! Where the labels of a rendered message are (`get_decor_pos` in `tg_msg.cc`). -/

namespace TgFocus

/-- The common part of the functions `get_endi_..`: the units of a label from `begi` on, and the distance
    to the last one. -/
def getEndi (label cuseq : List UInt16) (begi : Nat) : Option Nat :=
  if label.isPrefixOf (cuseq.drop begi) then some (label.length - 1) else none

namespace LEnUs

def getEndiChat : List UInt16 → Nat → Option Nat := getEndi [0xd83d, 0xdca1, 0x20, 0x5b, 0x20]

def getEndiSender : List UInt16 → Nat → Option Nat := getEndi [0x7d44, 0x20, 0x5b, 0x20]

def getEndiContent : List UInt16 → Nat → Option Nat := getEndi [0xd83d, 0xdcac, 0x20, 0x5b, 0x20]

def getEndiDate : List UInt16 → Nat → Option Nat := getEndi [0xd83d, 0xdd54, 0x20, 0x5b, 0x20]

def getEndiId : List UInt16 → Nat → Option Nat := getEndi [0x267e, 0x20, 0x5b, 0x20]

end LEnUs

namespace LZhHk

def getEndiChat : List UInt16 → Nat → Option Nat := getEndi [0x5b, 0x20, 0x7fa4, 0x7d44, 0x20, 0x5d]

def getEndiSender : List UInt16 → Nat → Option Nat := getEndi [0x5b, 0x20, 0x7528, 0x6236, 0x20, 0x5d]

def getEndiContent : List UInt16 → Nat → Option Nat := getEndi [0x5b, 0x20, 0x8a0a, 0x606f, 0x20, 0x5d]

def getEndiDate : List UInt16 → Nat → Option Nat := getEndi [0x5b, 0x20, 0x6642, 0x9593, 0x20, 0x5d]

def getEndiId : List UInt16 → Nat → Option Nat := getEndi [0x5b, 0x20, 0x6a19, 0x8b58, 0x20, 0x5d]

end LZhHk

namespace LZhCn

def getEndiChat : List UInt16 → Nat → Option Nat := getEndi [0x5b, 0x20, 0x7fa4, 0x7ec4, 0x20, 0x5d]

def getEndiSender : List UInt16 → Nat → Option Nat := getEndi [0x5b, 0x20, 0x7528, 0x6237, 0x20, 0x5d]

def getEndiContent : List UInt16 → Nat → Option Nat := getEndi [0x5b, 0x20, 0x4fe1, 0x606f, 0x20, 0x5d]

def getEndiDate : List UInt16 → Nat → Option Nat := getEndi [0x5b, 0x20, 0x65f6, 0x95f4, 0x20, 0x5d]

def getEndiId : List UInt16 → Nat → Option Nat := getEndi [0x5b, 0x20, 0x6807, 0x8bc6, 0x20, 0x5d]

end LZhCn

/-- The `switch` of the five functions `get_endi_..` over the language of the host. -/
def byLang (hostLang : Lang) (enUs zhHk zhCn : List UInt16 → Nat → Option Nat) (cuseq : List UInt16) (begi : Nat) :
    Option Nat :=
  match hostLang with
  | .en_AU | .en_HK | .en_GB | .en_US => enUs cuseq begi
  | .zh_HK => zhHk cuseq begi
  | .zh_CN => zhCn cuseq begi
  | _ => none

def getEndiChat (hostLang : Lang) : List UInt16 → Nat → Option Nat :=
  byLang hostLang LEnUs.getEndiChat LZhHk.getEndiChat LZhCn.getEndiChat

def getEndiSender (hostLang : Lang) : List UInt16 → Nat → Option Nat :=
  byLang hostLang LEnUs.getEndiSender LZhHk.getEndiSender LZhCn.getEndiSender

def getEndiContent (hostLang : Lang) : List UInt16 → Nat → Option Nat :=
  byLang hostLang LEnUs.getEndiContent LZhHk.getEndiContent LZhCn.getEndiContent

def getEndiDate (hostLang : Lang) : List UInt16 → Nat → Option Nat :=
  byLang hostLang LEnUs.getEndiDate LZhHk.getEndiDate LZhCn.getEndiDate

def getEndiId (hostLang : Lang) : List UInt16 → Nat → Option Nat :=
  byLang hostLang LEnUs.getEndiId LZhHk.getEndiId LZhCn.getEndiId

/-- The pairs of `int` that are found at `i`, in the order of the tests. -/
def decorAt (hostLang : Lang) (cuseq : List UInt16) (i : Nat) : List (Int32 × Int32) :=
  let found (endi : Option Nat) : List (Int32 × Int32) :=
    (endi.map fun endi => (Int32.ofNat i, Int32.ofNat (endi + 1))).toList
  found (getEndiChat hostLang cuseq i) ++ found (getEndiSender hostLang cuseq i) ++
    found (getEndiContent hostLang cuseq i) ++ found (getEndiDate hostLang cuseq i) ++
    found (getEndiId hostLang cuseq i)

/-- Nothing is found in a text that is not converted up to its NUL. -/
def getDecorPos (hostLang : Lang) (s : Bytes) : List (Int32 × Int32) :=
  if hostLang = .unknown then []
  else
    let converted := Conv.run false (s ++ [0])
    if converted.pc = .nul then
      (List.range converted.units.length).flatMap (decorAt hostLang converted.units)
    else []

end TgFocus
