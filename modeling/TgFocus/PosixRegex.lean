import TgFocus.Text
import TgFocus.Library.TomlReader

/-! POSIX extended regular expressions (`posix_regex.cc`), and the code outside the repository that the
    program calls. -/

namespace TgFocus

/-- The third-party functions: `toml::parse` (`none` for an exception), `regcomp` (0 for a pattern it
    accepts) and `regexec` (whether it returns something else than `REG_NOMATCH`). -/
structure Host where
  tomlParse : Bytes → Option Toml.Value
  regcomp : Bytes → Int
  regexec : Bytes → Bytes → Bool

/-- A host on which every pattern is valid and stands for itself. -/
def Host.literal : Host where
  tomlParse := Toml.Reader.parse (str "focus-filter")
  regcomp _ := 0
  regexec ptn s := (Strings.find ptn s).isSome

structure PosixExtRegex where
  statComp : Int
  ptn : Bytes
  deriving DecidableEq, Repr

def PosixExtRegex.ofPattern (host : Host) (ptn : Bytes) : PosixExtRegex :=
  { statComp := host.regcomp (cStr ptn), ptn }

def PosixExtRegex.isPatternAccept (re : PosixExtRegex) : Bool := re.statComp = 0

def PosixExtRegex.isMatch (host : Host) (re : PosixExtRegex) (s : Bytes) : Option Bool :=
  if re.statComp ≠ 0 then none else some (host.regexec (cStr re.ptn) (cStr s))

end TgFocus
