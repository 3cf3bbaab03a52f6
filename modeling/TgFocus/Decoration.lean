import TgFocus.TdColl
import TgFocus.UtfUtils

/-! The entities that decorate a reply (`td_coll.cc`). Their ranges count UTF-16 units; the positions are numbers
    of `size_t`, and the `textEntity` of TDLib takes them as `int32`. -/

namespace TgFocus

inductive TextEntityType where
  | bold | code | blockQuote | expandableBlockQuote
  | textUrl (url : Bytes)
  deriving DecidableEq, Repr

structure TextEntity where
  offset : Int32
  length : Int32
  type : TextEntityType
  deriving DecidableEq, Repr

/-- `tapi_mkobj<tapi::textEntity>`, which cuts the numbers that it is given. -/
def textEntity (offset length : Nat) (type : TextEntityType) : TextEntity where
  offset := .ofNat offset
  length := .ofNat length
  type := type

/-- `i + last_offset < seq.size ()`, and the units from `i` on are those of the heading. -/
def headingAt (heading seq : List UInt16) (i : Nat) : Bool := heading.isPrefixOf (seq.drop i)

/-! ### `extra_decoration_help` -/

/-- `EXAMPLES :` -/
def examplesHeading : List UInt16 :=
  [0x0045, 0x0058, 0x0041, 0x004d, 0x0050, 0x004c, 0x0045, 0x0053, 0x0020, 0x003a]

/-- `MORE EXAMPLES :` -/
def moreExamplesHeading : List UInt16 :=
  [0x004d, 0x004f, 0x0052, 0x0045, 0x0020, 0x0045, 0x0058, 0x0041, 0x004d, 0x0050, 0x004c, 0x0045, 0x0053, 0x0020,
    0x003a]

/-- `<CLICK-TO-HIDE>` -/
def clickToHide : List UInt16 :=
  [0x003c, 0x0043, 0x004c, 0x0049, 0x0043, 0x004b, 0x002d, 0x0054, 0x004f, 0x002d, 0x0048, 0x0049, 0x0044, 0x0045,
    0x003e]

def helpLink : TextEntityType := .textUrl (str "https://github.com/micl2e2/tg-focus")

/-- `-1` in `size_t`. -/
def unset : Nat := 0xffffffffffffffff

/-- `ent_..blk` and `lasti_..blk` of one kind of blocks. -/
structure Block where
  ent : Bool
  lasti : Nat
  deriving DecidableEq, Repr

def Block.outside : Block := { ent := false, lasti := unset }

/-- What happens at a mark of a code block or of a link, and the range that ends there. -/
def Block.mark (b : Block) (i : Nat) : Block × Option (Nat × Nat) :=
  if b.ent && b.lasti > 0 then ({ ent := !b.ent, lasti := unset }, some (b.lasti, i - b.lasti + 1))
  else ({ ent := !b.ent, lasti := i }, none)

structure HelpDeco where
  decoList : List TextEntity
  foldblk : Block
  codeblk : Block
  urlblk : Block
  deriving DecidableEq, Repr

namespace HelpDeco

def start (decoList : List TextEntity) : HelpDeco where
  decoList := decoList
  foldblk := .outside
  codeblk := .outside
  urlblk := .outside

def emplace (s : HelpDeco) (type : TextEntityType) : Option (Nat × Nat) → HelpDeco
  | some (offset, length) => { s with decoList := s.decoList ++ [textEntity offset length type] }
  | none => s

def heading (units seq : List UInt16) (i : Nat) (s : HelpDeco) : HelpDeco :=
  if !s.foldblk.ent && headingAt units seq i then
    { s with foldblk := { ent := true, lasti := i } }.emplace .bold (some (i, units.length))
  else s

def hide (seq : List UInt16) (i : Nat) (s : HelpDeco) : HelpDeco :=
  if s.foldblk.ent && headingAt clickToHide seq i then
    { s with foldblk := .outside }.emplace .expandableBlockQuote
      (some (s.foldblk.lasti, i + 14 - s.foldblk.lasti + 1))
  else s

def codeMark (seq : List UInt16) (i : Nat) (s : HelpDeco) : HelpDeco :=
  if seq[i]? = some 0x2002 then
    { s with codeblk := (s.codeblk.mark i).1 }.emplace .code (s.codeblk.mark i).2
  else s

def urlMark (seq : List UInt16) (i : Nat) (s : HelpDeco) : HelpDeco :=
  if seq[i]? = some 0x2003 then
    { s with urlblk := (s.urlblk.mark i).1 }.emplace helpLink (s.urlblk.mark i).2
  else s

def turn (seq : List UInt16) (s : HelpDeco) (i : Nat) : HelpDeco :=
  urlMark seq i (codeMark seq i (hide seq i (heading moreExamplesHeading seq i (heading examplesHeading seq i s))))

end HelpDeco

def extraDecorationHelp (decoList : List TextEntity) (msgtxt : Bytes) : List TextEntity :=
  let seq := getC16Seq msgtxt
  ((List.range seq.length).foldl (HelpDeco.turn seq) (.start decoList)).decoList

/-! ### `extra_decoration_filters` -/

/-- `Titles <titles>`, `Senders <senders>`, `Keywords <keywords>`, and the same with `NO` and `no-`. -/
def filterHeadings : List (List UInt16) :=
  [[0x0054, 0x0069, 0x0074, 0x006c, 0x0065, 0x0073, 0x0020, 0x003c, 0x0074, 0x0069, 0x0074, 0x006c, 0x0065, 0x0073,
      0x003e],
    [0x0053, 0x0065, 0x006e, 0x0064, 0x0065, 0x0072, 0x0073, 0x0020, 0x003c, 0x0073, 0x0065, 0x006e, 0x0064, 0x0065,
      0x0072, 0x0073, 0x003e],
    [0x004b, 0x0065, 0x0079, 0x0077, 0x006f, 0x0072, 0x0064, 0x0073, 0x0020, 0x003c, 0x006b, 0x0065, 0x0079, 0x0077,
      0x006f, 0x0072, 0x0064, 0x0073, 0x003e],
    [0x004e, 0x004f, 0x0020, 0x0054, 0x0069, 0x0074, 0x006c, 0x0065, 0x0073, 0x0020, 0x003c, 0x006e, 0x006f, 0x002d,
      0x0074, 0x0069, 0x0074, 0x006c, 0x0065, 0x0073, 0x003e],
    [0x004e, 0x004f, 0x0020, 0x0053, 0x0065, 0x006e, 0x0064, 0x0065, 0x0072, 0x0073, 0x0020, 0x003c, 0x006e, 0x006f,
      0x002d, 0x0073, 0x0065, 0x006e, 0x0064, 0x0065, 0x0072, 0x0073, 0x003e],
    [0x004e, 0x004f, 0x0020, 0x004b, 0x0065, 0x0079, 0x0077, 0x006f, 0x0072, 0x0064, 0x0073, 0x0020, 0x003c, 0x006e,
      0x006f, 0x002d, 0x006b, 0x0065, 0x0079, 0x0077, 0x006f, 0x0072, 0x0064, 0x0073, 0x003e]]

def extraDecorationFilters (decoList : List TextEntity) (msgtxt : Bytes) : List TextEntity :=
  let seq := getC16Seq msgtxt
  (List.range seq.length).foldl
    (fun decoList i =>
      filterHeadings.foldl
        (fun decoList heading =>
          if headingAt heading seq i then decoList ++ [textEntity i heading.length .bold] else decoList)
        decoList)
    decoList

/-! ### The reply -/

/-- `CHATCMD_RPLY_PREFIX_N_CP` -/
def rplyPrefixNCp : Nat := 10

structure FormattedText where
  text : Bytes
  entities : List TextEntity
  deriving DecidableEq, Repr

/-- The quote and the bold range of a reply. -/
def replyEntities (didWhat : Bytes) : List TextEntity :=
  let utf16lenDidwhat := getC16Len didWhat
  [textEntity 0 utf16lenDidwhat .blockQuote, textEntity utf16lenDidwhat rplyPrefixNCp .bold]

/-- The message that `handle_tgfcmd` sends. -/
def tgfcmdMessage (host : Host) (incomTxt : Bytes) (st : Stat) : Option (FormattedText × Stat) := do
  let ((didWhat, auxMsg), st) ← tgfcmdReply host incomTxt st
  let text := didWhat ++ auxMsg
  let decoList := replyEntities didWhat
  let decoList :=
    if (Strings.find (chatcmd .filters) incomTxt).isSome then extraDecorationFilters decoList text else decoList
  let decoList :=
    if (Strings.find (chatcmd .help) incomTxt).isSome then extraDecorationHelp decoList text else decoList
  some ({ text, entities := decoList }, st)

end TgFocus
