import TgFocus.Theorems.FilterIds
import TgFocus.Theorems.Handlers

/-! Commands that fail. Every handler that comes to an end says what it did, and one that fails leaves the
    state alone; the handlers of `filter.remove` and `filter.edit` do not come to a defined end when the stored group
    has no filter and they go as far as editing it. -/

namespace TgFocus

open Strings

/-- The text of a command that goes as far as removing a filter or editing one. -/
inductive EntersGroup (host : Host) : ChatCmdType → Bytes → Prop where
  | remove {glue id cmdipt : Bytes} (hglue : space ∉ glue) (hid : Word space id)
      (htext : IdText (chatcmd .removeFilter ++ glue) id cmdipt) (hne : atoi id ≠ 0) :
      EntersGroup host .removeFilter cmdipt
  | edit {glue id quoted v cmdipt : Bytes} {p : FilterProperty} {a : EditAction} (hglue : space ∉ glue)
      (hid : Word space id) (htext : EditText (chatcmd .editFilter ++ glue) id p a quoted cmdipt) (hne : atoi id ≠ 0)
      (hquoted : Quoted quoted v) (haccept : (PosixExtRegex.ofPattern host v).isPatternAccept = true) :
      EntersGroup host .editFilter cmdipt

/-- The command comes to an end and says what it did; when it fails, the stored filters and the pause are
    as before. -/
def EndsWell (host : Host) (typ : ChatCmdType) (ipt : Bytes) (st : Stat) : Prop :=
  ∃ res st', ChatCmdHandler host typ ipt st = some (res, st') ∧
    (res.done = false → st'.userdata.filters = st.userdata.filters ∧ st'.pauseDoCsmMq = st.pauseDoCsmMq) ∧
    res.didWhat.isSome = true

section
variable {host : Host} {typ : ChatCmdType} {cmdipt : Bytes} {st st' : Stat} {res : CmdRes}

/-! ### Failures -/

theorem handleRmfilter_failed (h : handleRmfilter host cmdipt st = some (res, st')) (hdone : res.done = false) :
    st' = st := by
  unfold handleRmfilter at h
  split at h
  · cases h
    rfl
  · split at h
    · cases h
      rfl
    · obtain ⟨⟨b, fg⟩, -, h⟩ := Option.bind_eq_some_iff.mp h
      cases b <;> cases h
      · rfl
      · cases hdone

theorem handleInsfilter_failed (h : handleInsfilter host cmdipt st = (res, st')) (hdone : res.done = false) :
    st' = st := by
  unfold handleInsfilter at h
  split at h
  · cases h
    rfl
  · split at h
    · cases h
      rfl
    · dsimp only at h
      split at h <;> cases h
      · cases hdone
      · rfl

theorem handleEditfilter_failed (h : handleEditfilter host cmdipt st = some (res, st')) (hdone : res.done = false) :
    st' = st := by
  by_cases he : ∃ e, Reaches host cmdipt e
  · obtain ⟨e, he⟩ := he
    rw [handleEditfilter_of_reaches he] at h
    obtain ⟨⟨b, filterId, fg⟩, -, heq⟩ := Option.map_eq_some_iff.mp h
    cases b <;> cases heq
    · rfl
    · cases hdone
  · obtain ⟨aux, hbad⟩ := handleEditfilter_of_not_reaches (fun e hr => he ⟨e, hr⟩) st
    rw [hbad] at h
    cases h
    rfl

/-- A command that fails leaves the state alone. -/
theorem handler_failed (h : handler host typ cmdipt st = some (res, st')) (hdone : res.done = false) : st' = st := by
  cases typ with
  | editFilter => exact handleEditfilter_failed h hdone
  | insertFilter => exact handleInsfilter_failed (Option.some.inj h) hdone
  | removeFilter => exact handleRmfilter_failed h hdone
  | pause | resume | filters | rawFilters | help =>
    cases h
    cases hdone

/-! ### Ends -/

theorem entersGroup_edit_iff : EntersGroup host .editFilter cmdipt ↔ ∃ e, Reaches host cmdipt e := by
  constructor
  · intro h
    cases h with
    | @edit glue id quoted v _ p a hglue hid htext hne hquoted haccept =>
      exact ⟨⟨_, p, a, v⟩, reaches_iff.mpr
        ⟨glue, id, quoted, hglue, hid, htext, rfl, mt toUInt32_eq_zero_iff.mp hne, hquoted, haccept⟩⟩
  · rintro ⟨e, he⟩
    obtain ⟨glue, id, quoted, hglue, hid, htext, hatoi, hne, hquoted, haccept⟩ := reaches_iff.mp he
    refine .edit hglue hid htext (fun h0 => hne ?_) hquoted haccept
    rw [← hatoi, h0]
    rfl

theorem entersGroup_remove_iff : EntersGroup host .removeFilter cmdipt ↔
    find (chatcmd .removeFilter) cmdipt = some 0 ∧ ∃ k, rmfFilterId cmdipt = .ok k := by
  rw [find_eq_zero_iff]
  constructor
  · intro h
    cases h with
    | @remove glue id _ hglue hid htext hne =>
      refine ⟨(List.prefix_append _ _).trans (idText_begins htext), (atoi id).toUInt32, ?_⟩
      rw [rmfFilterId_of_idText (space_not_mem_glued hglue) hid htext, if_neg (mt toUInt32_eq_zero_iff.mp hne)]
  · rintro ⟨hword, k, hk⟩
    obtain ⟨word, id, hspace, hid, htext⟩ := rmfFilterId_ok hk
    rw [rmfFilterId_of_idText hspace hid htext] at hk
    obtain ⟨n, rest, hs, hrest⟩ := htext
    simp only [hs, List.append_assoc] at hword
    obtain ⟨glue, rfl⟩ := chatcmd_of_spaces hword
    refine .remove (fun hg => hspace (List.mem_append_right _ hg)) hid ⟨n, rest, hs, hrest⟩ fun h0 => ?_
    rw [if_pos (toUInt32_eq_zero_iff.mpr h0)] at hk
    cases hk

/-- A handler comes to an end when the group has a filter, or when it does not go as far as the group. -/
theorem handler_isSome_iff : (handler host typ cmdipt st).isSome = true ↔
    (FilterGroupToml host st.userdata.getFilters).filters ≠ [] ∨ ¬EntersGroup host typ cmdipt := by
  cases typ with
  | editFilter =>
    rw [handler, entersGroup_edit_iff]
    by_cases he : ∃ e, Reaches host cmdipt e
    · obtain ⟨e, he⟩ := he
      have hno : ¬¬∃ e, Reaches host cmdipt e := fun h => h ⟨e, he⟩
      rw [handleEditfilter_of_reaches he, Option.isSome_map, or_iff_left hno]
      obtain ⟨-, hk, haccept⟩ := he.filterId_eq
      rcases apply_cases hk haccept with ⟨hnil, hnone⟩ | ⟨hne, k', g', hsome⟩
      · exact iff_of_false (by rw [hnone]; decide) (fun h => h hnil)
      · exact iff_of_true (by rw [hsome]; rfl) hne
    · obtain ⟨aux, hbad⟩ := handleEditfilter_of_not_reaches (fun e hr => he ⟨e, hr⟩) st
      exact iff_of_true (by rw [hbad]; rfl) (Or.inr he)
  | removeFilter =>
    rw [handler, entersGroup_remove_iff]
    by_cases henter : find (chatcmd .removeFilter) cmdipt = some 0 ∧ ∃ k, rmfFilterId cmdipt = .ok k
    · rw [or_iff_left (not_not.mpr henter)]
      obtain ⟨hword, k, hk⟩ := henter
      rw [← FilterGroup.rmFilter_isSome_iff (k := k), handleRmfilter, if_neg (not_not.mpr hword), hk]
      dsimp only
      cases (FilterGroupToml host st.userdata.getFilters).rmFilter k with
      | none => rfl
      | some r =>
        obtain ⟨b, fg⟩ := r
        cases b <;> rfl
    · refine iff_of_true ?_ (Or.inr henter)
      rw [handleRmfilter]
      split
      · rfl
      · rename_i hword
        cases hargs : rmfFilterId cmdipt with
        | error aux => rfl
        | ok k => exact absurd ⟨not_not.mp hword, k, hargs⟩ henter
  | pause | resume | filters | rawFilters | insertFilter | help =>
    refine iff_of_true rfl (Or.inr fun h => ?_)
    cases h

/-- A command ends well exactly when the stored group has a filter or the command does not go as far as
    removing or editing one. -/
theorem endsWell_iff (host : Host) (typ : ChatCmdType) (ipt : Bytes) (st : Stat) : EndsWell host typ ipt st ↔
    (FilterGroupToml host st.userdata.getFilters).isEffective = true ∨
      ¬EntersGroup host typ (eraseLeading space ipt) := by
  rw [FilterGroup.isEffective_iff, ← handler_isSome_iff, EndsWell, ChatCmdHandler]
  constructor
  · rintro ⟨res, st', hres, -⟩
    obtain ⟨r, hr, -⟩ := Option.map_eq_some_iff.mp hres
    rw [hr]
    rfl
  · intro h
    obtain ⟨⟨res, st'⟩, hres⟩ := Option.isSome_iff_exists.mp h
    obtain ⟨d, hd, -⟩ := handler_echo hres
    refine ⟨{ res with auxMsg := rplyPrefix ++ res.auxMsg }, st', by rw [hres]; rfl, fun hdone => ?_, by simp [hd]⟩
    rw [handler_failed hres hdone]
    exact ⟨rfl, rfl⟩

end

def noFiltersStat : Stat where
  userdata := { filters := str "focus-filter = []" }
  pauseDoCsmMq := false

/-- Removing a filter from a group without filters. -/
theorem not_endsWell :
    ChatCmdHandler FilterGroup.emptyArrayHost .removeFilter (str "filter.remove 1") noFiltersStat = none ∧
      ¬∀ (host : Host) (typ : ChatCmdType) (ipt : Bytes) (st : Stat), EndsWell host typ ipt st := by
  have hnone : ChatCmdHandler FilterGroup.emptyArrayHost .removeFilter (str "filter.remove 1") noFiltersStat = none := by
    decide +kernel
  refine ⟨hnone, fun h => ?_⟩
  obtain ⟨res, st', hres, -⟩ := h FilterGroup.emptyArrayHost .removeFilter (str "filter.remove 1") noFiltersStat
  rw [hnone] at hres
  cases hres

end TgFocus
