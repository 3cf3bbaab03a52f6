import TgFocus.Decoration
import TgFocus.DecorPos

/-! What is sent to the TG-FOCUS chat for a message that passes the filters (`decorate_msg` and `collect_msg` in
    `td_coll.cc`). -/

namespace TgFocus

/-- The function returns an empty list at once; what stands behind its `return`, with the labels that
    `getDecorPos` finds, is not run. -/
def decorateMsg (_msg : Bytes) : List TextEntity := []

/-- The `formattedText` of the message that `collect_msg` sends. -/
def collectMsg (hostLang : Lang) (msg : TgMsg) : FormattedText :=
  let tfmsgStr := msg.toLocaleString hostLang
  { text := tfmsgStr, entities := decorateMsg tfmsgStr }

end TgFocus
