import TgFocus.ChatCmd

/-! Commands that arrive in the TG-FOCUS chat (`td_coll.cc`): which texts are commands, which handler
    runs, and the text of the reply. The reply comes back as a message of the same chat. -/

namespace TgFocus

open Strings

/-- What `handle_tgfcmd` is given for a text of the chat (`process_update`): the text behind `TGFCMD`, or
    `none` when the text is no command. -/
def tgfcmdOf (text : Bytes) : Option Bytes :=
  let txt := eraseLeading space text
  if txt.length > 6 ∧ txt[6]? = some 0x20 ∧ find (str "TGFCMD") txt = some 0 then some (txt.drop 6) else none

/-- The order in which `handle_tgfcmd` looks for the command words. -/
def dispatchOrder : List ChatCmdType :=
  [.pause, .resume, .filters, .rawFilters, .editFilter, .insertFilter, .removeFilter, .help]

/-- The handler that `handle_tgfcmd` runs: that of the first word found anywhere in the text. -/
def dispatch (incomTxt : Bytes) : Option ChatCmdType :=
  dispatchOrder.find? fun typ => (find (chatcmd typ) incomTxt).isSome

def tgfcmdReply (host : Host) (incomTxt : Bytes) (st : Stat) : Option ((Bytes × Bytes) × Stat) :=
  match dispatch incomTxt with
  | none => some ((incomTxt, rplyPrefix ++ str "not supported"), st)
  | some typ => do
    let (res, st) ← ChatCmdHandler host typ incomTxt st
    let didWhat ← res.didWhat
    some ((didWhat, res.auxMsg), st)

/-- The text that `handle_tgfcmd` sends, and what the command left behind. -/
def handleTgfcmd (host : Host) (incomTxt : Bytes) (st : Stat) : Option (Bytes × Stat) := do
  let ((didWhat, auxMsg), st) ← tgfcmdReply host incomTxt st
  some (didWhat ++ auxMsg, st)

end TgFocus
