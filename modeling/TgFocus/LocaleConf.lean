import TgFocus.Worker.IpcConnHandler

/-! The languages and the locale of a process (`locale_conf.cc`). What locales the system has is a
    parameter: `available name` says whether `setlocale (LC_ALL, name)` succeeds. -/

namespace TgFocus

/-! ### Languages as numbers and names -/

namespace Lang

/-- The number of an enumerator. -/
def toByte : Lang → UInt8
  | .unknown => 0
  | .en_AU => 43
  | .en_GB => 47
  | .en_HK => 48
  | .en_US => 54
  | .en_ZW => 56
  | .zh_CN => 146
  | .zh_HK => 147
  | .other code => code

/-- `static_cast<tgf::Lang> (b)` -/
def ofByte (b : UInt8) : Lang :=
  if b = 0 then .unknown
  else if b = 43 then .en_AU
  else if b = 47 then .en_GB
  else if b = 48 then .en_HK
  else if b = 54 then .en_US
  else if b = 56 then .en_ZW
  else if b = 146 then .zh_CN
  else if b = 147 then .zh_HK
  else .other b

@[simp] theorem toByte_ofByte (b : UInt8) : (ofByte b).toByte = b := by
  unfold ofByte
  repeat' split
  all_goals first | rfl | (rename_i h; exact h.symm)

end Lang

/-- A `const char *` is the bytes before its NUL. -/
def langFromCstr (cstr : Bytes) : Lang :=
  if cstr.length < 5 then .unknown
  else if cstr = str "en-HK" then .en_HK
  else if cstr = str "en-US" then .en_US
  else if cstr = str "en-ZW" then .en_ZW
  else if cstr = str "zh-CN" then .zh_CN
  else if cstr = str "zh-HK" then .zh_HK
  else .unknown

/-! ### The locale of the process -/

/-- `HOST_LANG`, `PREFER_LANG`, and the name that `setlocale` was last successful with. -/
structure LocaleConf where
  hostLang : Lang := .unknown
  preferLang : Lang := .unknown
  locale : Bytes := str "C"
  deriving DecidableEq, Repr

namespace LocaleConf

def lclist : List (Bytes × Lang) :=
  [(str "en-US", .en_US), (str "en-HK", .en_HK), (str "en-ZW", .en_ZW), (str "zh-CN", .zh_CN), (str "zh-HK", .zh_HK)]

/-- The name of the locale that is made of the name of a language in `tmpbuf`. -/
def localeName (strname : Bytes) : Bytes :=
  if strname.length = 5 ∧ strname[2]? = some 0x2d then strname.set 2 0x5f ++ str ".UTF-8"
  else if strname.length = 6 ∧ strname[3]? = some 0x2d then strname.set 3 0x5f ++ str ".UTF-8"
  else strname

def setlocale (available : Bytes → Bool) (name : Bytes) (c : LocaleConf) : LocaleConf × Bool :=
  if available name then ({ c with locale := name }, true) else (c, false)

/-- The loop over `lclist`; `true` for the early return. -/
def ensureLoop (available : Bytes → Bool) :
    List (Bytes × Lang) → LocaleConf → List (Bytes × Lang) → LocaleConf × List (Bytes × Lang) × Bool
  | [], c, supported => (c, supported, false)
  | t :: ts, c, supported =>
    let (c, ok) := setlocale available (localeName t.1) c
    if ok then
      if t.2 = c.preferLang then ({ c with hostLang := t.2 }, supported, true)
      else ensureLoop available ts c (supported ++ [t])
    else ensureLoop available ts c supported

def tryEnsureLocale (available : Bytes → Bool) (c : LocaleConf) : LocaleConf × Bool :=
  let (c, supported, found) := ensureLoop available lclist c []
  if found then (c, true)
  else
    match supported with
    | [] => (c, false)
    | t :: _ =>
      -- the name of the language itself, with its dash
      let (c, _) := setlocale available t.1 c
      ({ c with hostLang := t.2 }, true)

end LocaleConf

end TgFocus
