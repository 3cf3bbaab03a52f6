import TgFocus.FilterSessions
import TgFocus.LocaleConf
import TgFocus.StoredIds

/-! The files of the data root and what `UserData` does with them (`user_data.cc`): the constructor, which
    every process runs once and which makes the files that are missing, the getters and the setters. Files
    other than the filters file can be opened; the lock files, the logs and the directory of TDLib hold no
    setting. -/

namespace TgFocus

/-- The files before a constructor has run; `none` where there is no file. -/
structure Disk where
  apiId : Option Bytes := none
  apiHash : Option Bytes := none
  authHint : Option Bytes := none
  filters : Option Bytes := none
  filtersTmp : Option Bytes := none
  tgfid : Option Bytes := none
  tgfidType : Option Bytes := none
  prefLang : Option Bytes := none
  deriving DecidableEq, Repr

/-- The files behind a constructor, none of which is missing. -/
structure DataRoot where
  ids : StoredIds
  userdata : UserData
  apiHash : Bytes
  authHint : Bytes
  filtersTmp : Bytes
  tgfidType : Bytes
  prefLang : Bytes
  deriving DecidableEq, Repr

namespace DataRoot

/-- The text of a new filters file. -/
def defaultCtn : Bytes := str "[[focus-filter]]
titles = []
no-titles = []
senders = []
no-senders = []
keywords = [\"tg-focus\"]
no-keywords = []
"

/-- `UserData::UserData`; `lckFilters` and `writable` are those of `UserData`. A file that is opened with
    `a` is kept or made empty, one that is opened with `w` is empty, and the others are made only when
    there is none. -/
def construct (reset lckFilters writable : Bool) (d : Disk) : DataRoot :=
  let d := if reset then {} else d
  { ids := { apiId := d.apiId.getD [], tgfid := d.tgfid.getD (List.replicate 8 0xff) }
    userdata := { filters := d.filters.getD defaultCtn, lckFilters, writable }
    apiHash := d.apiHash.getD []
    authHint := d.authHint.getD []
    filtersTmp := []
    tgfidType := d.tgfidType.getD [2]
    prefLang := d.prefLang.getD [0] }

/-- The files as the next process finds them. -/
def disk (u : DataRoot) : Disk where
  apiId := some u.ids.apiId
  apiHash := some u.apiHash
  authHint := some u.authHint
  filters := some u.userdata.filters
  filtersTmp := some u.filtersTmp
  tgfid := some u.ids.tgfid
  tgfidType := some u.tgfidType
  prefLang := some u.prefLang

/-! ### Getters -/

def rtrim (s : Bytes) : Bytes := (s.reverse.dropWhile isSpace).reverse

def ltrim (s : Bytes) : Bytes := s.dropWhile isSpace

def trim (s : Bytes) : Bytes := ltrim (rtrim s)

def readOrDash (content : Bytes) : Bytes := ((FileReader.ofContent content).readToString).getD (str "-")

/-- One byte; 0 when there is none. -/
def readByte (content : Bytes) : UInt8 := ((Stdio.fopen content).fread 1).1.headD 0

def getApiId (u : DataRoot) : Int32 := u.ids.getApiId

def getApiHash (u : DataRoot) : Bytes := trim (readOrDash u.apiHash)

def getAuthHint (u : DataRoot) : Bool :=
  let strdata := readOrDash u.authHint
  if strdata = str "a" then true
  else if strdata = str "u" then false
  else false

def getFilters (u : DataRoot) : Bytes := u.userdata.getFilters

def getFiltersTmp (u : DataRoot) : Bytes := FilterSessions.getFiltersTmp u.filtersTmp

def getTgfid (u : DataRoot) : Int64 := u.ids.getTgfid

def isTgfidValid (u : DataRoot) : Bool := u.ids.isTgfidValid

def getPrefLang (u : DataRoot) : Lang := .ofByte (readByte u.prefLang)

def getTgfidType (u : DataRoot) : UInt8 := readByte u.tgfidType

def isBasicTgfid (u : DataRoot) : Bool := u.getTgfidType = 2

def isSuperTgfid (u : DataRoot) : Bool := u.getTgfidType = 3

/-! ### Setters -/

def setApiId (u : DataRoot) (v : Int32) : DataRoot := { u with ids := u.ids.setApiId v }

def setApiHash (u : DataRoot) (s : Bytes) : DataRoot := if s.length = 0 then u else { u with apiHash := s }

def setAuthHint (u : DataRoot) (flag : Bool) : DataRoot :=
  if flag then { u with authHint := str "a" } else { u with authHint := str "u" }

def setFilters (u : DataRoot) (s : Bytes) : DataRoot := { u with userdata := u.userdata.setFilters s }

def prepareFiltersTmp (u : DataRoot) : DataRoot := { u with filtersTmp := u.userdata.filters }

def setTgfid (u : DataRoot) (v : Int64) : DataRoot := { u with ids := u.ids.setTgfid v }

def setPrefLang (u : DataRoot) (l : Lang) : DataRoot := { u with prefLang := [l.toByte] }

def setTgfidType (u : DataRoot) (t : UInt8) : DataRoot := { u with tgfidType := [t] }

def setBasicTgfid (u : DataRoot) : DataRoot := u.setTgfidType 2

def setSuperTgfid (u : DataRoot) : DataRoot := u.setTgfidType 3

/-! ### Runs -/

/-- What the processes do to the files; `construct` is the start of another process, and `edit` what the
    user leaves in the temporary file. -/
inductive Op where
  | construct
  | setApiId (v : Int32)
  | setApiHash (s : Bytes)
  | setAuthHint (flag : Bool)
  | setFilters (s : Bytes)
  | prepareFiltersTmp
  | edit (tmp : Bytes)
  | setTgfid (v : Int64)
  | setPrefLang (l : Lang)
  | setBasicTgfid
  | setSuperTgfid
  deriving DecidableEq, Repr

def apply (u : DataRoot) : Op → DataRoot
  | .construct => DataRoot.construct false u.userdata.lckFilters u.userdata.writable u.disk
  | .setApiId v => u.setApiId v
  | .setApiHash s => u.setApiHash s
  | .setAuthHint flag => u.setAuthHint flag
  | .setFilters s => u.setFilters s
  | .prepareFiltersTmp => u.prepareFiltersTmp
  | .edit tmp => { u with filtersTmp := tmp }
  | .setTgfid v => u.setTgfid v
  | .setPrefLang l => u.setPrefLang l
  | .setBasicTgfid => u.setBasicTgfid
  | .setSuperTgfid => u.setSuperTgfid

end DataRoot

end TgFocus
