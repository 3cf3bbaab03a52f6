import TgFocus.TdColl
import TgFocus.TgMsg

/-! Updates from TDLib (`process_update` in `td_coll.cc`): the names of chats and users are kept, and a message
    of another chat than the TG-FOCUS chat becomes a `TgMsg` in front of the queue. -/

namespace TgFocus

structure User where
  firstName : Bytes
  lastName : Bytes
  /-- The editable one, when the user has any. -/
  username : Option Bytes
  deriving DecidableEq, Repr

inductive MessageSender where
  | user (userId : Int64)
  | chat (chatId : Int64)
  deriving DecidableEq, Repr

/-- The kinds that the program tells apart, and the others by their id. -/
inductive MessageContent where
  | text (text : Bytes)
  | photo (caption : Bytes)
  | animatedEmoji (emoji : Bytes)
  | sticker (emoji : Bytes)
  | other (id : Int32)
  deriving DecidableEq, Repr

structure Message where
  chatId : Int64
  senderId : MessageSender
  content : MessageContent
  date : Int32
  deriving DecidableEq, Repr

inductive Update where
  | newChat (id : Int64) (title : Bytes)
  | chatTitle (chatId : Int64) (title : Bytes)
  | user (id : Int64) (user : User)
  | newMessage (message : Message)
  /-- Updates that are ignored, and those of the authorization state. -/
  | other
  deriving DecidableEq, Repr

structure TdCollector where
  users : List (Int64 × User)
  chatTitles : List (Int64 × Bytes)
  mq : List TgMsg
  itMsgTotal : UInt32
  deriving DecidableEq, Repr

/-- `map[key] = value` -/
def assign {α : Type} (map : List (Int64 × α)) (key : Int64) (value : α) : List (Int64 × α) :=
  (key, value) :: map.filter (·.1 ≠ key)

/-- The constructor of a `TgMsg`, with what `localtime` and `strftime` make of a time. -/
def TgMsg.ofParts (readable : UInt32 → Bytes) (chatTitle sender textContent : Bytes) (tstamp : Int32) : TgMsg where
  title := chatTitle
  sender := sender
  txt := textContent
  tstamp := readable tstamp.toUInt32
  id := 0

namespace TdCollector

def getUserName (c : TdCollector) (userId : Int64) : Bytes :=
  match c.users.lookup userId with
  | none => str "unknown user"
  | some user =>
    let readableUsrname := user.firstName ++ str " " ++ user.lastName
    match user.username with
    | some username => readableUsrname ++ str " @" ++ username
    | none => readableUsrname

def getChatTitle (c : TdCollector) (chatId : Int64) : Bytes :=
  match c.chatTitles.lookup chatId with
  | none => str "unknown chat"
  | some title => title

def senderName (c : TdCollector) : MessageSender → Bytes
  | .user userId => c.getUserName userId
  | .chat chatId => c.getChatTitle chatId ++ str "(chat)"

/-- `text += content_->get_id ()` appends the id as a `char`. -/
def textOf : MessageContent → Bytes
  | .text text => text
  | .photo caption => str "<photo>" ++ str "(" ++ caption ++ str ")"
  | .animatedEmoji emoji => str "<emoji>" ++ str "(" ++ emoji ++ str ")"
  | .sticker emoji => str "<sticker>" ++ str "(" ++ emoji ++ str ")"
  | .other id => str "ignored message with ID " ++ [id.toInt8.toUInt8]

/-- The title of the chat of a message; `__chat_titles[chat_id]` makes an empty one when there is none. -/
def touchTitle (c : TdCollector) (chatId : Int64) : Bytes × TdCollector :=
  match c.chatTitles.lookup chatId with
  | some title => (title, c)
  | none => ([], { c with chatTitles := assign c.chatTitles chatId [] })

/-- What an update changes, and the command that it hands to `handle_tgfcmd`. -/
def processUpdate (readable : UInt32 → Bytes) (latestTgfid : Int64) (c : TdCollector) :
    Update → TdCollector × Option Bytes
  | .newChat id title => ({ c with chatTitles := assign c.chatTitles id title }, none)
  | .chatTitle chatId title => ({ c with chatTitles := assign c.chatTitles chatId title }, none)
  | .user id user => ({ c with users := assign c.users id user }, none)
  | .newMessage m =>
    let (chatTitle, c) := c.touchTitle m.chatId
    if m.chatId = latestTgfid then
      match m.content with
      | .text text => (c, tgfcmdOf text)
      | _ => (c, none)
    else
      let msg := TgMsg.ofParts readable chatTitle (c.senderName m.senderId) (textOf m.content) m.date
      ({ c with mq := msg :: c.mq, itMsgTotal := c.itMsgTotal + 1 }, none)
  | .other => (c, none)

end TdCollector

end TgFocus
