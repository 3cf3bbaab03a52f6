import TgFocus.TdColl

/-! What the handlers answer: every handler says what it did, in one of three ways (`Echo`), and a
    handler whose word does not start the text refuses it. -/

namespace TgFocus

open Strings

section
variable {host : Host} {typ : ChatCmdType} {cmdipt : Bytes} {st st' : Stat} {res : CmdRes}

/-- The ways in which a handler says what it did: the text of the command; the same with a space, when an
    editing command is refused; the edit in its normal form. -/
inductive Echo : ChatCmdType → Bytes → Bytes → Prop where
  | text {typ : ChatCmdType} {cmdipt : Bytes} : Echo typ cmdipt cmdipt
  | refused {typ : ChatCmdType} {cmdipt : Bytes} (h : typ ∈ [.editFilter, .insertFilter, .removeFilter]) :
      Echo typ cmdipt (cmdipt ++ str " ")
  | edit {cmdipt : Bytes} (e : EditArgs) (filterId : UInt32) (h : chatcmd .editFilter <+: cmdipt) :
      Echo .editFilter cmdipt (e.didWhat filterId)

theorem handleInsfilter_echo (h : handleInsfilter host cmdipt st = (res, st')) :
    ∃ d, res.didWhat = some d ∧ Echo .insertFilter cmdipt d := by
  unfold handleInsfilter at h
  split at h
  · cases h
    exact ⟨_, rfl, .refused (by decide)⟩
  · split at h
    · cases h
      exact ⟨_, rfl, .refused (by decide)⟩
    · dsimp only at h
      split at h <;> cases h
      · exact ⟨_, rfl, .text⟩
      · exact ⟨_, rfl, .refused (by decide)⟩

theorem handleRmfilter_echo (h : handleRmfilter host cmdipt st = some (res, st')) :
    ∃ d, res.didWhat = some d ∧ Echo .removeFilter cmdipt d := by
  unfold handleRmfilter at h
  split at h
  · cases h
    exact ⟨_, rfl, .refused (by decide)⟩
  · split at h
    · cases h
      exact ⟨_, rfl, .refused (by decide)⟩
    · obtain ⟨⟨b, fg⟩, -, h⟩ := Option.bind_eq_some_iff.mp h
      cases b <;> cases h
      · exact ⟨_, rfl, .refused (by decide)⟩
      · exact ⟨_, rfl, .text⟩

theorem handleEditfilter_echo (h : handleEditfilter host cmdipt st = some (res, st')) :
    ∃ d, res.didWhat = some d ∧ Echo .editFilter cmdipt d := by
  unfold handleEditfilter at h
  split at h
  · cases h
    exact ⟨_, rfl, .refused (by decide)⟩
  · rename_i hword
    split at h
    · cases h
      exact ⟨_, rfl, .refused (by decide)⟩
    · obtain ⟨⟨b, filterId, fg⟩, -, h⟩ := Option.bind_eq_some_iff.mp h
      cases b <;> cases h
      · exact ⟨_, rfl, .refused (by decide)⟩
      · exact ⟨_, rfl, .edit _ _ (find_eq_zero_iff.mp (not_not.mp hword))⟩

theorem handler_echo (h : handler host typ cmdipt st = some (res, st')) :
    ∃ d, res.didWhat = some d ∧ Echo typ cmdipt d := by
  cases typ with
  | editFilter => exact handleEditfilter_echo h
  | insertFilter => exact handleInsfilter_echo (Option.some.inj h)
  | removeFilter => exact handleRmfilter_echo h
  | pause | resume | filters | rawFilters | help =>
    cases h
    exact ⟨_, rfl, .text⟩

/-- A reply starts with the text handed over, or with the echo of the handler that ran, and the answer
    starts with the reply prefix. -/
theorem tgfcmdReply_cases {incomTxt didWhat auxMsg : Bytes}
    (h : tgfcmdReply host incomTxt st = some ((didWhat, auxMsg), st')) :
    (dispatch incomTxt = none ∧ didWhat = incomTxt ∨
      ∃ typ, dispatch incomTxt = some typ ∧ Echo typ (eraseLeading space incomTxt) didWhat) ∧
    rplyPrefix <+: auxMsg := by
  unfold tgfcmdReply at h
  split at h
  · rename_i hd
    cases h
    exact ⟨Or.inl ⟨hd, rfl⟩, List.prefix_append _ _⟩
  · rename_i typ hd
    obtain ⟨⟨res, st₁⟩, hres, h⟩ := Option.bind_eq_some_iff.mp h
    obtain ⟨d, hdid, h⟩ := Option.bind_eq_some_iff.mp h
    cases h
    obtain ⟨⟨res', st₂⟩, hhandler, heq⟩ := Option.map_eq_some_iff.mp hres
    cases heq
    obtain ⟨d', hd', hecho⟩ := handler_echo hhandler
    obtain rfl : didWhat = d' := Option.some.inj (hdid.symm.trans hd')
    exact ⟨Or.inr ⟨typ, hd, hecho⟩, List.prefix_append _ _⟩

theorem handler_isSome (host : Host) (st : Stat) (h : ¬chatcmd typ <+: cmdipt) :
    (handler host typ cmdipt st).isSome = true := by
  cases typ with
  | editFilter => simp [handler, handleEditfilter, find_eq_zero_iff, h]
  | removeFilter => simp [handler, handleRmfilter, find_eq_zero_iff, h]
  | pause | resume | filters | rawFilters | insertFilter | help => rfl

/-- There is a reply when what is left without the leading spaces does not start with a command word. -/
theorem exists_reply (host : Host) (st : Stat) {incomTxt : Bytes}
    (h : ∀ typ, ¬chatcmd typ <+: eraseLeading space incomTxt) :
    ∃ reply st', handleTgfcmd host incomTxt st = some (reply, st') := by
  unfold handleTgfcmd tgfcmdReply
  split
  · exact ⟨_, _, rfl⟩
  · rename_i typ _
    obtain ⟨⟨res, st₁⟩, hres⟩ := Option.isSome_iff_exists.mp (handler_isSome host st (h typ))
    obtain ⟨d, hd, -⟩ := handler_echo hres
    refine ⟨_, _, Option.bind_eq_some_iff.mpr ⟨((d, rplyPrefix ++ res.auxMsg), st₁), ?_, rfl⟩⟩
    simp [ChatCmdHandler, hres, hd]

end

end TgFocus
