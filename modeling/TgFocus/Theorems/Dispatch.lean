import TgFocus.TdColl

/-! Which handler a command runs. The words are searched one after the other in the whole text, so a
    command runs its own handler unless a word that is searched before stands somewhere in the text: in
    the word itself, as `filters` in `rawfilters`, or in what the user wrote behind it. -/

namespace TgFocus

open Strings

/-! ### The words -/

def searchedBefore (typ : ChatCmdType) : List ChatCmdType := dispatchOrder.takeWhile (· ≠ typ)

theorem mem_dispatchOrder (typ : ChatCmdType) : typ ∈ dispatchOrder := by
  cases typ <;> decide

theorem space_not_mem_chatcmd (typ : ChatCmdType) : space ∉ chatcmd typ := by
  cases typ <;> decide

/-- The only word that holds one that is searched before it. -/
theorem chatcmd_infix_chatcmd_iff :
    ∀ typ ∈ dispatchOrder, ∀ t ∈ searchedBefore typ, chatcmd t <:+: chatcmd typ ↔ typ = .rawFilters ∧ t = .filters := by
  decide

/-! ### The search -/

theorem find?_eq_some_iff_takeWhile {α : Type} [DecidableEq α] {p : α → Bool} {a : α} {l : List α} (ha : a ∈ l) :
    l.find? p = some a ↔ p a = true ∧ ∀ b ∈ l.takeWhile (· ≠ a), p b = false := by
  induction l with
  | nil => cases ha
  | cons x l ih =>
    by_cases hx : x = a
    · subst hx
      cases hp : p x with
      | true => simp [hp]
      | false =>
        simp only [List.find?_cons, hp, Bool.false_eq_true, false_and, iff_false]
        intro h
        rw [List.find?_some h] at hp
        cases hp
    · have hal : a ∈ l := (List.mem_cons.mp ha).resolve_left (Ne.symm hx)
      cases hp : p x with
      | true => simp [hp, hx]
      | false => simp [hp, hx, ih hal]

theorem dispatch_eq_some_iff {typ : ChatCmdType} {txt : Bytes} :
    dispatch txt = some typ ↔ chatcmd typ <:+: txt ∧ ∀ t ∈ searchedBefore typ, ¬chatcmd t <:+: txt := by
  rw [dispatch, find?_eq_some_iff_takeWhile (mem_dispatchOrder typ), find_isSome_iff]
  simp only [Option.isSome_eq_false_iff, Option.isNone_iff_eq_none, ← find_ne_none_iff, ne_eq,
    not_not, searchedBefore]

/-! ### Command texts -/

/-- Leading spaces, a command word, and what the user wrote behind it after a space. -/
def commandText (spaces : Nat) (typ : ChatCmdType) (args : Option Bytes) : Bytes :=
  List.replicate spaces space ++ (chatcmd typ ++ (args.map (space :: ·)).getD [])

theorem chatcmd_infix_commandText_iff {n : Nat} {typ t : ChatCmdType} {args : Option Bytes} :
    chatcmd t <:+: commandText n typ args ↔ chatcmd t <:+: chatcmd typ ∨ chatcmd t <:+: args.getD [] := by
  rw [commandText, infix_replicate_append_iff (space_not_mem_chatcmd t)]
  cases args with
  | some rest => exact infix_append_cons_iff (space_not_mem_chatcmd t)
  | none =>
    have hne : ¬chatcmd t <:+: [] := by cases t <;> decide
    simp [hne]

/-- A command runs the handler of its word exactly when it is not `rawfilters` and no word that is
    searched before its own stands in what the user wrote behind it. -/
theorem dispatch_commandText_iff (spaces : Nat) (typ : ChatCmdType) (args : Option Bytes) :
    dispatch (commandText spaces typ args) = some typ ↔
      typ ≠ .rawFilters ∧ ∀ t ∈ searchedBefore typ, ¬chatcmd t <:+: args.getD [] := by
  rw [dispatch_eq_some_iff]
  simp only [chatcmd_infix_commandText_iff, List.infix_refl, true_or, true_and, not_or]
  constructor
  · intro h
    refine ⟨?_, fun t ht => (h t ht).2⟩
    rintro rfl
    exact (h .filters (by decide)).1 (by decide)
  · rintro ⟨hne, h⟩ t ht
    refine ⟨fun hi => hne ?_, h t ht⟩
    exact ((chatcmd_infix_chatcmd_iff typ (mem_dispatchOrder typ) t ht).mp hi).1

/-- Editing a pattern that holds `pause` pauses instead. -/
theorem dispatch_edit_pause :
    dispatch (commandText 1 .editFilter (some (str "1 keywords add \"pause\""))) = some .pause ∧
      ¬∀ (spaces : Nat) (typ : ChatCmdType) (args : Option Bytes), dispatch (commandText spaces typ args) = some typ := by
  have h : dispatch (commandText 1 .editFilter (some (str "1 keywords add \"pause\""))) = some .pause := by decide
  refine ⟨h, fun hall => ?_⟩
  rw [hall] at h
  cases h

end TgFocus
