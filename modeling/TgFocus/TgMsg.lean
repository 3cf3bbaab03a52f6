import TgFocus.Text

/-! Messages and how they are rendered for the TG-FOCUS chat (`tg_msg.cc`, `locale_conf.hh`). -/

namespace TgFocus

/-- `tgf::Lang`: the languages that the program tells apart, and the others by their number. -/
inductive Lang where
  | unknown | en_AU | en_GB | en_HK | en_US | en_ZW | zh_CN | zh_HK
  | other (code : UInt8)
  deriving DecidableEq, Repr

structure TgMsg where
  title : Bytes
  sender : Bytes
  txt : Bytes
  tstamp : Bytes
  id : UInt32
  deriving DecidableEq, Repr

namespace TgMsg

def isFromTgfocus (m : TgMsg) : Bool := (Strings.find (str "TG-FOCUS") m.title).isSome

def lines (m : TgMsg) (title sender txt tstamp id : Bytes) : Bytes :=
  title ++ m.title ++ endl ++ sender ++ m.sender ++ endl ++ txt ++ m.txt ++ endl ++
    tstamp ++ m.tstamp ++ endl ++ id ++ decimal m.id.toNat ++ endl

def toLocaleString (hostLang : Lang) (m : TgMsg) : Bytes :=
  match hostLang with
  | .zh_HK => m.lines (str "[ 群組 ] ") (str "[ 用戶 ] ") (str "[ 訊息 ] ") (str "[ 時間 ] ") (str "[ 標識 ] ")
  | .zh_CN => m.lines (str "[ 群组 ] ") (str "[ 用户 ] ") (str "[ 信息 ] ") (str "[ 时间 ] ") (str "[ 标识 ] ")
  | _ => m.lines (str "💡 | ") (str "✉ | ") (str "💬 | ") (str "🕔 | ") (str "♾ | ")

end TgMsg

end TgFocus
