import TgFocus.Filter
import TgFocus.UserData

/-! The commands of the TG-FOCUS chat (`chatcmd.hh`, `chatcmd.cc`): the words, the handlers and what they
    answer. A handler that would access a filter group outside its vector gives `none`. -/

namespace TgFocus

open Strings

/-! ### Command words -/

inductive ChatCmdType where
  | pause | resume | filters | rawFilters | editFilter | insertFilter | removeFilter | help
  deriving DecidableEq, Repr

def chatcmd : ChatCmdType → Bytes
  | .pause => str "pause"
  | .resume => str "resume"
  | .filters => str "filters"
  | .rawFilters => str "rawfilters"
  | .editFilter => str "filter.edit"
  | .insertFilter => str "filter.insert"
  | .removeFilter => str "filter.remove"
  | .help => str "help"

/-- `concat3` and its siblings: the parts with a space between them. -/
def concat (parts : List Bytes) : Bytes := joinWith [space] id parts

def editfArg1 : Bytes := str "<filter-id>"
def editfArg2 : Bytes := str "<property>"
def editfArg3 : Bytes := str "<action>"
def editfArg4 : Bytes := str "<double-quoted-value>"
def insfArg1 : Bytes := str "<filter-id>"
def rmfArg1 : Bytes := str "<filter-id>"

def editfUsage : Bytes :=
  concat [str "Usage:\n", chatcmd .editFilter, editfArg1, editfArg2, editfArg3, editfArg4]

def insfUsage : Bytes := concat [str "Usage:\n", chatcmd .insertFilter, insfArg1]

def rmfUsage : Bytes := concat [str "Usage:\n", chatcmd .removeFilter, rmfArg1]

def rplyPrefix : Bytes := str "〘 TGFCMD 〙"

/-! ### Handlers -/

/-- What the handlers read and write: the stored filters and `pause_do_csm_mq`. -/
structure Stat where
  userdata : UserData
  pauseDoCsmMq : Bool
  deriving DecidableEq, Repr

structure CmdRes where
  succData : Option Bytes
  didWhat : Option Bytes
  auxMsg : Bytes
  deriving DecidableEq, Repr

def CmdRes.done (r : CmdRes) : Bool := r.succData.isSome

def succRes (didWhat auxMsg : Bytes) : CmdRes :=
  { succData := some (str ""), didWhat := some didWhat, auxMsg }

/-- What the handlers build at their label `bad_rtn`. -/
def badRtn (cmdipt auxMsg usage : Bytes) : CmdRes :=
  { succData := none, didWhat := some (cmdipt ++ str " "), auxMsg := auxMsg ++ endl ++ endl ++ usage }

def handlePause (cmdipt : Bytes) (st : Stat) : CmdRes × Stat :=
  (succRes cmdipt (str "success"), { st with pauseDoCsmMq := true })

def handleResume (cmdipt : Bytes) (st : Stat) : CmdRes × Stat :=
  (succRes cmdipt (str "success"), { st with pauseDoCsmMq := false })

def handleRawfilters (cmdipt : Bytes) (st : Stat) : CmdRes × Stat :=
  (succRes cmdipt st.userdata.getFilters, st)

def handleFilters (host : Host) (cmdipt : Bytes) (st : Stat) : CmdRes × Stat :=
  (succRes cmdipt (endl ++ (FilterGroupToml host st.userdata.getFilters).asReadable), st)

def Stat.store (st : Stat) (fg : FilterGroup) : Stat :=
  { st with userdata := st.userdata.setFilters fg.asFsdata }

def chunkAt (cmdipt : Bytes) (begi : Nat) : Bytes × Option Nat :=
  (substr cmdipt begi (findFirstOf space cmdipt begi), findFirstOf space cmdipt begi)

def need (arg : Bytes) : Option Nat → Except Bytes Nat
  | some pos => .ok pos
  | none => .error (str "need" ++ str " " ++ arg)

def invalid (arg : Bytes) : Bytes := str "invalid " ++ arg

/-- The id of `filter.insert`, which may be left out. -/
def insfFilterId (cmdipt : Bytes) : Except Bytes UInt32 :=
  match (findFirstOf space cmdipt 0).bind (findFirstNotOf space cmdipt) with
  | none => .ok 0xffffffff
  | some begi =>
    let mayFilterId := atoi (chunkAt cmdipt begi).1
    if mayFilterId ≤ 0 then .error (invalid insfArg1) else .ok mayFilterId.toUInt32

def handleInsfilter (host : Host) (cmdipt : Bytes) (st : Stat) : CmdRes × Stat :=
  if find (chatcmd .insertFilter) cmdipt ≠ some 0 then (badRtn cmdipt [] insfUsage, st)
  else
    match insfFilterId cmdipt with
    | .error aux => (badRtn cmdipt aux insfUsage, st)
    | .ok filterId =>
      let fg := FilterGroupToml host st.userdata.getFilters
      match fg.insFilter host filterId none with
      | (true, _, fg) => (succRes cmdipt (str "success"), st.store fg)
      | (false, _, _) => (badRtn cmdipt (str "failed") insfUsage, st)

def rmfFilterId (cmdipt : Bytes) : Except Bytes UInt32 := do
  let endi ← need rmfArg1 (findFirstOf space cmdipt 0)
  let begi ← need rmfArg1 (findFirstNotOf space cmdipt endi)
  let filterId := (atoi (chunkAt cmdipt begi).1).toUInt32
  if filterId = 0 then .error (invalid rmfArg1) else .ok filterId

def handleRmfilter (host : Host) (cmdipt : Bytes) (st : Stat) : Option (CmdRes × Stat) :=
  if find (chatcmd .removeFilter) cmdipt ≠ some 0 then some (badRtn cmdipt [] rmfUsage, st)
  else
    match rmfFilterId cmdipt with
    | .error aux => some (badRtn cmdipt aux rmfUsage, st)
    | .ok filterId => do
      match ← (FilterGroupToml host st.userdata.getFilters).rmFilter filterId with
      | (true, fg) => some (succRes cmdipt (str "success"), st.store fg)
      | (false, _) => some (badRtn cmdipt (str "failed") rmfUsage, st)

/-! ### filter.edit -/

def FilterProperty.name : FilterProperty → Bytes
  | .titles => str "titles"
  | .noTitles => str "no-titles"
  | .keywords => str "keywords"
  | .noKeywords => str "no-keywords"
  | .senders => str "senders"
  | .noSenders => str "no-senders"

def propertyOf (chunk2 : Bytes) : Option FilterProperty :=
  [.titles, .noTitles, .keywords, .noKeywords, .senders, .noSenders].find? (·.name = chunk2)

inductive EditAction where
  | add | del
  deriving DecidableEq, Repr

def EditAction.name : EditAction → Bytes
  | .add => str "add"
  | .del => str "del"

def actionOf (chunk3 : Bytes) : Option EditAction := [.add, .del].find? (·.name = chunk3)

structure EditArgs where
  filterId : UInt32
  property : FilterProperty
  action : EditAction
  unquotedRe : Bytes
  deriving DecidableEq, Repr

/-- The three chunks and the rest of the text behind the command word. -/
def editChunks (cmdipt : Bytes) : Except Bytes (Bytes × Bytes × Bytes × Bytes) := do
  let endi ← need editfArg1 (findFirstOf space cmdipt 0)
  let begi ← need editfArg1 (findFirstNotOf space cmdipt endi)
  let (chunk1, endi) := chunkAt cmdipt begi
  let endi ← need editfArg2 endi
  let begi ← need editfArg2 (findFirstNotOf space cmdipt endi)
  let (chunk2, endi) := chunkAt cmdipt begi
  let endi ← need editfArg3 endi
  let begi ← need editfArg3 (findFirstNotOf space cmdipt endi)
  let (chunk3, endi) := chunkAt cmdipt begi
  let endi ← need editfArg4 endi
  let begi ← need editfArg4 (findFirstNotOf space cmdipt endi)
  .ok (chunk1, chunk2, chunk3, substr cmdipt begi none)

/-- `chunk4` is not empty when this is asked; a single quotation mark is both the first and the last. -/
def isQuoted (chunk4 : Bytes) : Bool := chunk4.head? = some quote && chunk4.getLast? = some quote

def editArgs (host : Host) (cmdipt : Bytes) : Except Bytes EditArgs := do
  let (chunk1, chunk2, chunk3, chunk4) ← editChunks cmdipt
  let filterId := (atoi chunk1).toUInt32
  if filterId = 0 then .error (invalid editfArg1)
  else
    match propertyOf chunk2, actionOf chunk3 with
    | none, _ => .error (invalid editfArg2)
    | some _, none => .error (invalid editfArg3)
    | some property, some action =>
      let unquotedRe := substr chunk4 1 (some (chunk4.length - 1))
      if !isQuoted chunk4 then .error (invalid editfArg4)
      else if !(PosixExtRegex.ofPattern host unquotedRe).isPatternAccept then .error (invalid editfArg4)
      else .ok { filterId, property, action, unquotedRe }

/-- The call of `add_titles`, `del_titles` and so on that the arguments select. -/
def EditArgs.apply (host : Host) (fg : FilterGroup) (e : EditArgs) : Option (Bool × UInt32 × FilterGroup) :=
  match e.action with
  | .add => fg.addOne host e.filterId e.property e.unquotedRe
  | .del => fg.delOne host e.filterId e.property e.unquotedRe

/-- The echo of an edit, with the id of the filter that was changed. -/
def EditArgs.didWhat (e : EditArgs) (filterId : UInt32) : Bytes :=
  chatcmd .editFilter ++ str " " ++ decimal filterId.toNat ++ str " " ++ e.property.name ++ str " " ++
    e.action.name ++ str " " ++ str "\"" ++ e.unquotedRe ++ str "\"" ++ str " "

def handleEditfilter (host : Host) (cmdipt : Bytes) (st : Stat) : Option (CmdRes × Stat) :=
  if find (chatcmd .editFilter) cmdipt ≠ some 0 then some (badRtn cmdipt [] editfUsage, st)
  else
    match editArgs host cmdipt with
    | .error aux => some (badRtn cmdipt aux editfUsage, st)
    | .ok e => do
      match ← e.apply host (FilterGroupToml host st.userdata.getFilters) with
      | (true, filterId, fg) => some (succRes (e.didWhat filterId) (str "success"), st.store fg)
      | (false, _, _) =>
        some (badRtn cmdipt (str "failed: " ++ e.property.name ++ e.action.name) editfUsage, st)

/-! ### help -/

def helpText : Bytes :=
  str ("\n" ++
    "TGFCMD(s) are a group of commands used to control the behavior of TG-FOCUS. To run a TGFCMD " ++
    "command, you MUST send a TGFCMD command message in the TG-FOCUS chat.\n\n" ++
    "Available commands are:\n\n" ++
    "Pause Forwarding:\u2002TGFCMD pause\u2002\n\n" ++
    "Resume Forwarding:\u2002TGFCMD resume\u2002\n\n" ++
    "Show Configuration:\u2002TGFCMD filters\u2002\n\n" ++
    "Create A Filter:\u2002TGFCMD filter.insert <ID>\u2002\n\n" ++
    "Remove A Filter:\u2002TGFCMD filter.remove <ID>\u2002\n\n" ++
    "Edit A Filter:\u2002TGFCMD filter.edit <ID> <PROPERTY> <add/del> " ++
    "<DOUBLE-QUOTED-VALUE>\u2002\n\n" ++
    "EXAMPLES :\n\n" ++
    "Forward the messages that come from chat \"Freedom User Group\" :\n\n" ++
    "\u2002TGFCMD filter.edit 1 titles add \"Freedom User Group\"\u2002\n\n" ++
    "Forward the messages that are sent by the user \"Some One\" :\n\n" ++
    "\u2002TGFCMD filter.edit 1 senders add \"Some One\"\u2002\n\n" ++
    "Forward the messages that contain a word \"freedom\" :\n\n" ++
    "\u2002TGFCMD filter.edit 1 keywords add \"freedom\"\u2002\n\n" ++
    "Not forward the messages that sent by the user \"Nonfree Lover\" :\n\n" ++
    "\u2002TGFCMD filter.edit 1 no-senders add \"Nonfree Lover\"\u2002\n\n" ++
    "<CLICK-TO-HIDE>\n\n" ++
    "MORE EXAMPLES :\n\n" ++
    "(note: multiples messages should be sent one by one)\n\n" ++
    "Forward two types of messages, the first contains a word \"free things\" and belongs to the " ++
    "chat \"Nonfree Lovers\", the second contains a word \"nonfree things\" and belongs to \"Free " ++
    "Lovers\":\n\n" ++
    "\u2002TGFCMD filter.edit 1 titles add \"Nonfree Lovers\"\u2002\n" ++
    "\u2002TGFCMD filter.edit 1 keywords add \"free things\"\u2002\n" ++
    "\u2002TGFCMD filter.edit 2 titles add \"Free Lovers\"\u2002\n" ++
    "\u2002TGFCMD filter.edit 2 keywords add \"nonfree things\"\u2002\n\n" ++
    "<CLICK-TO-HIDE>\n\n" ++
    "Please check\u2003the project page\u2003for more details.\n")

def handleHelp (cmdipt : Bytes) (st : Stat) : CmdRes × Stat := (succRes cmdipt (endl ++ helpText), st)

/-! ### ChatCmdHandler -/

def handler (host : Host) (typ : ChatCmdType) (cmdipt : Bytes) (st : Stat) : Option (CmdRes × Stat) :=
  match typ with
  | .pause => some (handlePause cmdipt st)
  | .resume => some (handleResume cmdipt st)
  | .rawFilters => some (handleRawfilters cmdipt st)
  | .filters => some (handleFilters host cmdipt st)
  | .editFilter => handleEditfilter host cmdipt st
  | .insertFilter => some (handleInsfilter host cmdipt st)
  | .removeFilter => handleRmfilter host cmdipt st
  | .help => some (handleHelp cmdipt st)

def ChatCmdHandler (host : Host) (typ : ChatCmdType) (ipt : Bytes) (st : Stat) : Option (CmdRes × Stat) :=
  (handler host typ (eraseLeading space ipt) st).map fun r => ({ r.1 with auxMsg := rplyPrefix ++ r.1.auxMsg }, r.2)

end TgFocus
