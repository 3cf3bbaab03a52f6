import TgFocus.Theorems.Handlers

/-! Whether what the program writes into the TG-FOCUS chat is taken for a command when it comes back. A
    reply starts with an echo of the text behind `TGFCMD`, and the marker in front of the answer is no
    space, so the reply is a command exactly when the echoed text is one: when the user wrote `TGFCMD`
    twice. A forwarded message starts with a label and never is. -/

namespace TgFocus

open Strings

section
variable {host : Host} {typ : ChatCmdType} {text rest reply a b : Bytes} {st st' : Stat} {c : UInt8}

/-! ### Recognition -/

def marker : Bytes := str "TGFCMD" ++ [space]

def IsCommand (text : Bytes) : Prop := marker <+: eraseLeading space text

/-- A text is a command when the marker follows its leading spaces, and the space stays in front of what
    is handed over. -/
theorem tgfcmdOf_eq_some_iff :
    tgfcmdOf text = some rest ↔
      ∃ tail, eraseLeading space text = str "TGFCMD" ++ space :: tail ∧ rest = space :: tail := by
  have hlen : (str "TGFCMD").length = 6 := by decide
  simp only [tgfcmdOf, find_eq_zero_iff, Option.ite_none_right_eq_some, Option.some.injEq]
  constructor
  · rintro ⟨⟨hlt, hsp, u, hu⟩, rfl⟩
    rw [← hu, List.getElem?_append_right (by omega), hlen] at hsp
    cases u with
    | nil => cases hsp
    | cons x tail =>
      obtain rfl : x = space := Option.some.inj hsp
      refine ⟨tail, hu.symm, ?_⟩
      rw [← hu, List.drop_append_of_le_length (by omega), ← hlen, List.drop_length, List.nil_append]
  · rintro ⟨tail, htext, rfl⟩
    rw [htext]
    refine ⟨⟨by simp [hlen], ?_, List.prefix_append _ _⟩, ?_⟩
    · rw [List.getElem?_append_right (by omega), hlen]
      rfl
    · rw [List.drop_append_of_le_length (by omega), ← hlen, List.drop_length, List.nil_append]

theorem isCommand_iff : IsCommand text ↔ ∃ tail, eraseLeading space text = str "TGFCMD" ++ space :: tail := by
  constructor
  · rintro ⟨tail, h⟩
    exact ⟨tail, by rw [← h, marker, List.append_assoc, List.singleton_append]⟩
  · rintro ⟨tail, h⟩
    exact ⟨tail, by rw [h, marker, List.append_assoc, List.singleton_append]⟩

theorem tgfcmdOf_eq_none_iff : tgfcmdOf text = none ↔ ¬IsCommand text := by
  rw [isCommand_iff, Option.eq_none_iff_forall_ne_some]
  simp only [ne_eq, tgfcmdOf_eq_some_iff]
  constructor
  · rintro h ⟨tail, ht⟩
    exact h _ ⟨tail, ht, rfl⟩
  · rintro h rest ⟨tail, ht, -⟩
    exact h ⟨tail, ht⟩

theorem isCommand_eraseLeading : IsCommand (eraseLeading space text) ↔ IsCommand text := by
  rw [IsCommand, IsCommand, eraseLeading_eraseLeading]

theorem not_isCommand_cons (hs : c ≠ space) (hT : c ≠ 0x54) : ¬IsCommand (c :: b) := by
  rw [IsCommand, eraseLeading_cons_ne hs]
  intro h
  exact hT (List.cons_prefix_cons.mp (show (0x54 : UInt8) :: _ <+: c :: b from h)).1.symm

theorem not_isCommand_of_word (h : chatcmd typ <+: eraseLeading space text) : ¬IsCommand text := by
  have hword : ∃ c t, chatcmd typ = c :: t ∧ c ≠ space ∧ c ≠ 0x54 := by
    cases typ <;> exact ⟨_, _, rfl, by decide, by decide⟩
  obtain ⟨c, t, hc, hs, hT⟩ := hword
  obtain ⟨u, hu⟩ := h
  rw [← isCommand_eraseLeading, ← hu, hc]
  exact not_isCommand_cons hs hT

/-- What follows a byte that is neither a space nor in the marker does not matter. -/
theorem isCommand_append_cons_iff (hs : c ≠ space) (hc : c ∉ marker) : IsCommand (a ++ c :: b) ↔ IsCommand a := by
  by_cases ha : eraseLeading space a = []
  · have h : ¬IsCommand (c :: b) := not_isCommand_cons hs fun h => hc (h ▸ by decide)
    rw [IsCommand, IsCommand, eraseLeading_append_of_eq_nil ha, ha]
    exact iff_of_false h (by decide)
  · rw [IsCommand, IsCommand, eraseLeading_append_of_ne_nil ha]
    exact ⟨prefix_of_prefix_append_cons hc, fun h => h.trans (List.prefix_append _ _)⟩

/-- Nor does a space behind the text, unless the text is the bare marker. -/
theorem isCommand_append_space_iff (ha : eraseLeading space a ≠ str "TGFCMD") :
    IsCommand (a ++ str " ") ↔ IsCommand a := by
  rw [IsCommand, IsCommand, show str " " = [space] from rfl]
  by_cases hnil : eraseLeading space a = []
  · rw [eraseLeading_append_of_eq_nil hnil, hnil]
    decide
  · rw [eraseLeading_append_of_ne_nil hnil, List.prefix_concat_iff]
    refine or_iff_right fun h => ha ?_
    exact ((List.append_inj' h rfl).1).symm

/-! ### Replies -/

theorem not_isCommand_didWhat (e : EditArgs) (filterId : UInt32) : ¬IsCommand (e.didWhat filterId) := by
  simp only [EditArgs.didWhat, List.append_assoc]
  exact not_isCommand_cons (c := 0x66) (by decide) (by decide)

/-- What a handler says it did is a command exactly when the text it was given is one. -/
theorem Echo.isCommand_iff {d : Bytes} (h : Echo typ (eraseLeading space rest) d)
    (hd : dispatch rest = some typ) : IsCommand d ↔ IsCommand rest := by
  cases h with
  | text => exact isCommand_eraseLeading
  | refused htyp =>
    rw [isCommand_append_space_iff, isCommand_eraseLeading]
    -- the word that was found in the text is not in the bare marker
    intro hbare
    rw [eraseLeading_eraseLeading] at hbare
    have hfound := List.find?_some hd
    have hword : chatcmd typ <:+: rest := find_isSome_iff.mp hfound
    obtain ⟨n, hn⟩ := replicate_append_eraseLeading space rest
    rw [hn, infix_replicate_append_iff (by cases typ <;> decide), hbare] at hword
    revert hword
    cases typ <;> decide
  | edit e filterId hword =>
    exact iff_of_false (not_isCommand_didWhat e filterId) (not_isCommand_of_word hword)

/-- A reply is a command exactly when the text behind `TGFCMD` is one. -/
theorem handleTgfcmd_isCommand_iff (h : handleTgfcmd host rest st = some (reply, st')) :
    IsCommand reply ↔ IsCommand rest := by
  obtain ⟨⟨⟨d, aux⟩, st₁⟩, hr, h⟩ := Option.bind_eq_some_iff.mp h
  cases h
  obtain ⟨hd, u, rfl⟩ := tgfcmdReply_cases hr
  have hcut : IsCommand (d ++ (rplyPrefix ++ u)) ↔ IsCommand d :=
    isCommand_append_cons_iff (c := 0xe3) (by decide) (by decide)
  rw [hcut]
  rcases hd with ⟨-, rfl⟩ | ⟨typ, htyp, hecho⟩
  · exact Iff.rfl
  · exact hecho.isCommand_iff htyp

/-! ### Forwarded messages -/

theorem not_isCommand_toLocaleString (lang : Lang) (m : TgMsg) : ¬IsCommand (m.toLocaleString lang) := by
  have hlines : ∀ (c : UInt8) (t s₁ s₂ s₃ s₄ : Bytes), c ≠ space → c ≠ 0x54 →
      ¬IsCommand (m.lines (c :: t) s₁ s₂ s₃ s₄) := by
    intro c t s₁ s₂ s₃ s₄ hs hT
    simp only [TgMsg.lines, List.append_assoc, List.cons_append]
    exact not_isCommand_cons hs hT
  unfold TgMsg.toLocaleString
  split
  · exact hlines 0x5b _ _ _ _ _ (by decide) (by decide)
  · exact hlines 0x5b _ _ _ _ _ (by decide) (by decide)
  · exact hlines 0xf0 _ _ _ _ _ (by decide) (by decide)

/-! ### The whole round -/

/-- A text that says `TGFCMD` twice: the marker, spaces, and the marker with its space. -/
def RepeatsMarker (text : Bytes) : Prop :=
  ∃ m n tail, text = List.replicate m space ++ (str "TGFCMD" ++ (List.replicate (n + 1) space ++ (marker ++ tail)))

theorem repeatsMarker_iff : RepeatsMarker text ↔ ∃ rest, tgfcmdOf text = some rest ∧ IsCommand rest := by
  constructor
  · rintro ⟨m, n, tail, rfl⟩
    refine ⟨space :: (List.replicate n space ++ (marker ++ tail)), tgfcmdOf_eq_some_iff.mpr ⟨_, ?_, rfl⟩, ?_⟩
    · rw [eraseLeading_replicate_append]
      rfl
    · rw [IsCommand, eraseLeading_cons_self, eraseLeading_replicate_append]
      exact List.prefix_append _ _
  · rintro ⟨rest, hrest, tail, htail⟩
    obtain ⟨t, ht, rfl⟩ := tgfcmdOf_eq_some_iff.mp hrest
    obtain ⟨m, hm⟩ := replicate_append_eraseLeading space text
    obtain ⟨n, hn⟩ := replicate_append_eraseLeading space t
    rw [eraseLeading_cons_self] at htail
    refine ⟨m, n, tail, ?_⟩
    rw [hm, ht, List.replicate_succ, List.cons_append, htail, ← hn]

/-- No reply to a text of the chat and no forwarded message is a command, exactly when the text does not
    repeat the marker. -/
theorem replies_not_command_iff (host : Host) (st : Stat) (text : Bytes) :
    ((∀ rest reply st', tgfcmdOf text = some rest → handleTgfcmd host rest st = some (reply, st') →
        tgfcmdOf reply = none) ∧
      ∀ (lang : Lang) (m : TgMsg), tgfcmdOf (m.toLocaleString lang) = none) ↔ ¬RepeatsMarker text := by
  simp only [tgfcmdOf_eq_none_iff, repeatsMarker_iff]
  constructor
  · rintro ⟨hreply, -⟩ ⟨rest, hrest, hcmd⟩
    -- a text that starts with the marker is refused by every handler, so there is a reply
    have hword : ∀ typ, ¬chatcmd typ <+: eraseLeading space rest := fun typ h => not_isCommand_of_word h hcmd
    obtain ⟨reply, st', hr⟩ := exists_reply host st hword
    exact hreply rest reply st' hrest hr ((handleTgfcmd_isCommand_iff hr).mpr hcmd)
  · intro h
    refine ⟨fun rest reply st' hrest hr hcmd => h ⟨rest, hrest, (handleTgfcmd_isCommand_iff hr).mp hcmd⟩, ?_⟩
    exact fun lang m => not_isCommand_toLocaleString lang m

/-- The reply to `TGFCMD TGFCMD pause` pauses once more. -/
theorem reply_repeats_command :
    tgfcmdOf (str "TGFCMD TGFCMD pause") = some (str " TGFCMD pause") ∧
      (handleTgfcmd .literal (str " TGFCMD pause") ⟨{ filters := [] }, false⟩).map Prod.fst =
        some (str "TGFCMD pause〘 TGFCMD 〙success") ∧
      tgfcmdOf (str "TGFCMD pause〘 TGFCMD 〙success") = some (str " pause〘 TGFCMD 〙success") := by
  decide

end

end TgFocus
