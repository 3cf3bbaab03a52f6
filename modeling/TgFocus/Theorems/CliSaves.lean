import TgFocus.FilterSessions
import TgFocus.Theorems.FilterStore
import TgFocus.Theorems.GroupEdits

/-! What the CLI saves. It looks for errors of the text, and for a group without filters; but a text without
    an array of filters is read as a group of one filter, and a text that fills a buffer as another text. -/

namespace TgFocus.FilterSessions
open Transition

def isTable : Toml.Value → Bool
  | .table _ => true
  | _ => false

/-- The elements of the array `focus-filter` of a text that is TOML. -/
def focusFilter (host : Host) (text : Bytes) : Option (List Toml.Value) := do
  let tomldata ← host.tomlParse text
  let focusFilter ← tomldata.get? (str "focus-filter")
  focusFilter.elems?

/-- The text has an array of tables `focus-filter` that is not empty. -/
def Defines (host : Host) (text : Bytes) : Prop :=
  ∃ vs, focusFilter host text = some vs ∧ vs ≠ [] ∧ ∀ v ∈ vs, isTable v = true

/-- A text that defines filters is stored as it is; every other one is refused, and nothing is stored. -/
def SavesDefined (host : Host) (u : UserData) (text : Bytes) : Prop :=
  (Defines host text → (handleFilters host u text).1 = 0 ∧ (handleFilters host u text).2.filters = text) ∧
    (¬Defines host text → handleFilters host u text = (255, u))

/-- The text does not just fill one of the buffers that it is read with, and is not larger. -/
def ReadWhole (text : Bytes) : Prop := text.length ≠ FileReader.maxSmall ∧ text.length < FileReader.maxLarge

instance : DecidablePred ReadWhole := fun _ => inferInstanceAs (Decidable (_ ∧ _))

section
variable {host : Host} {u : UserData} {text : Bytes}

theorem filters_FilterGroupToml (host : Host) (text : Bytes) :
    (FilterGroupToml host text).filters = ((focusFilter host text).getD [.table []]).map (FilterToml host) := rfl

theorem isEffective_iff_focusFilter :
    (FilterGroupToml host text).isEffective = true ↔ focusFilter host text ≠ some [] := by
  rw [FilterGroup.isEffective_iff, filters_FilterGroupToml, ne_eq, List.map_eq_nil_iff]
  cases focusFilter host text with
  | none => simp
  | some vs => simp

theorem focusFilter_of_error (h : host.tomlParse text = none) : focusFilter host text = none := by
  rw [focusFilter, h]
  rfl

theorem not_defines_of_error (h : host.tomlParse text = none) : ¬Defines host text := by
  rintro ⟨vs, hvs, -⟩
  rw [focusFilter_of_error h] at hvs
  cases hvs

theorem getFiltersTmp_of_readWhole (h : ReadWhole text) : getFiltersTmp text = text := by
  rw [ReadWhole] at h
  rw [getFiltersTmp, FileReader.readToString_ofContent, if_pos h, Option.getD_some]

theorem getFiltersTmp_of_not_readWhole (h : ¬ReadWhole text) : getFiltersTmp text = str "-" := by
  rw [ReadWhole] at h
  rw [getFiltersTmp, FileReader.readToString_ofContent, if_neg h, Option.getD_none]

theorem handleFilters_of_error (h : host.tomlParse text = none) : handleFilters host u text = (255, u) := by
  rw [handleFilters, h]

theorem handleFilters_of_some {v : Toml.Value} (h : host.tomlParse text = some v) :
    handleFilters host u text =
      if (FilterGroupToml host (getFiltersTmp text)).isEffective then (0, u.setFilters (getFiltersTmp text))
      else (255, u) := by
  rw [handleFilters, h]
  rfl

/-- A text that is TOML is refused only for an empty array, which has to be seen. -/
theorem handleFilters_of_empty {v : Toml.Value} (hv : host.tomlParse text = some v) (hwhole : ReadWhole text)
    (hempty : focusFilter host text = some []) : handleFilters host u text = (255, u) := by
  rw [handleFilters_of_some hv, getFiltersTmp_of_readWhole hwhole,
    if_neg (mt isEffective_iff_focusFilter.mp (not_not.mpr hempty))]

theorem handleFilters_of_saved {v : Toml.Value} (hdash : host.tomlParse (str "-") = none)
    (hv : host.tomlParse text = some v) (hseen : ¬(ReadWhole text ∧ focusFilter host text = some [])) :
    handleFilters host u text = (0, u.setFilters (getFiltersTmp text)) := by
  rw [handleFilters_of_some hv, if_pos]
  rw [isEffective_iff_focusFilter]
  by_cases hwhole : ReadWhole text
  · rw [getFiltersTmp_of_readWhole hwhole]
    exact fun hempty => hseen ⟨hwhole, hempty⟩
  · rw [getFiltersTmp_of_not_readWhole hwhole, focusFilter_of_error hdash]
    exact Option.some_ne_none _ ∘ Eq.symm

theorem filters_setFilters_eq (hs : text ≠ []) :
    (u.setFilters text).filters = if u.lckFilters = true ∧ u.writable = true then text else u.filters := by
  rw [UserData.setFilters, if_neg (by simpa using hs)]
  cases u.lckFilters <;> cases u.writable <;> rfl

theorem ne_nil_of_defines (hempty : host.tomlParse [] = some (.table [])) (h : Defines host text) : text ≠ [] := by
  rintro rfl
  obtain ⟨vs, hvs, -⟩ := h
  rw [focusFilter, hempty] at hvs
  cases hvs

theorem not_defines_of_empty (h : focusFilter host text = some []) : ¬Defines host text := by
  rintro ⟨vs, hvs, hne, -⟩
  exact hne (Option.some.inj (hvs.symm.trans h))

/-- What is stored for a text is the text itself when it is read whole, and when nothing can be stored and it
    was there before. -/
theorem filters_setFilters_eq_iff (hne : text ≠ []) :
    (u.setFilters (getFiltersTmp text)).filters = text ↔
      if u.lckFilters = true ∧ u.writable = true then ReadWhole text else u.filters = text := by
  by_cases hwhole : ReadWhole text
  · rw [getFiltersTmp_of_readWhole hwhole, filters_setFilters_eq hne]
    split
    · exact iff_of_true rfl hwhole
    · exact Iff.rfl
  · rw [getFiltersTmp_of_not_readWhole hwhole, filters_setFilters_eq (by decide)]
    split
    · -- the text that stands for a failure is read whole
      refine iff_of_false (fun h => hwhole ?_) hwhole
      rw [← h]
      decide
    · exact Iff.rfl

theorem handleFilters_eq_verify :
    handleFilters host u text = if verify host text then (0, u.setFilters (getFiltersTmp text)) else (255, u) := by
  cases hv : host.tomlParse text with
  | none => rw [handleFilters_of_error hv, verify, hv, Option.isSome_none, Bool.false_and, if_neg Bool.false_ne_true]
  | some v => rw [handleFilters_of_some hv, verify, hv, Option.isSome_some, Bool.true_and]

/-- A session in which nothing else happens does what `handle_filters` does. -/
theorem session_eq {s : State} (hidle : s.cli = .idle) (tmp : Bytes) :
    ∃ n t, (system host).run s (List.replicate n (.cli tmp)) = some t ∧ t.cli = .idle ∧
      t.userdata = (handleFilters host s.userdata tmp).2 := by
  rw [handleFilters_eq_verify]
  cases hverify : verify host tmp with
  | false =>
    refine ⟨3, { s with cli := .idle }, ?_, rfl, rfl⟩
    simp [System.run, system, step, cliStep, hidle, hverify]
  | true =>
    refine ⟨4, { s with
      userdata := s.userdata.setFilters (getFiltersTmp tmp)
      cli := .idle
      acked := s.acked ++ [⟨s.userdata.filters, tmp⟩] }, ?_, rfl, rfl⟩
    simp [System.run, system, step, cliStep, hidle, hverify]

/-- The CLI keeps to the texts that define filters exactly when the text is not TOML, when its array is empty
    and it is read whole, and when it defines filters, is read whole and can be stored. -/
theorem savesDefined_iff (u : UserData) (text : Bytes) (hdash : host.tomlParse (str "-") = none)
    (hempty : host.tomlParse [] = some (.table [])) :
    SavesDefined host u text ↔ host.tomlParse text = none ∨ (ReadWhole text ∧ focusFilter host text = some []) ∨
      (Defines host text ∧ if u.lckFilters = true ∧ u.writable = true then ReadWhole text else u.filters = text) := by
  cases hv : host.tomlParse text with
  | none =>
    exact iff_of_true ⟨fun h => absurd h (not_defines_of_error hv), fun _ => handleFilters_of_error hv⟩ (Or.inl rfl)
  | some v =>
    rw [SavesDefined, or_iff_right (Option.some_ne_none v)]
    by_cases hseen : ReadWhole text ∧ focusFilter host text = some []
    · rw [handleFilters_of_empty hv hseen.1 hseen.2]
      exact iff_of_true ⟨fun h => absurd h (not_defines_of_empty hseen.2), fun _ => rfl⟩ (Or.inl hseen)
    · rw [handleFilters_of_saved hdash hv hseen, or_iff_right hseen]
      by_cases hdef : Defines host text
      · rw [← filters_setFilters_eq_iff (ne_nil_of_defines hempty hdef)]
        exact ⟨fun h => ⟨hdef, (h.1 hdef).2⟩, fun h => ⟨fun _ => ⟨rfl, h.2⟩, fun hno => absurd hdef hno⟩⟩
      · refine iff_of_false (fun h => ?_) (fun h => hdef h.1)
        cases h.2 hdef

end

def oneTitle : Bytes := str "\n[[focus-filter]]\ntitles = [\"a\"]\n"

theorem savesDefined_oneTitle : SavesDefined .literal { filters := str "old" } oneTitle := by
  have hdefines : Defines .literal oneTitle :=
    ⟨[Toml.tableOf [(str "titles", [str "a"])]], rfl, by simp, by simp [isTable, Toml.tableOf]⟩
  exact (savesDefined_iff { filters := str "old" } oneTitle (by decide) rfl).mpr (Or.inr (Or.inr ⟨hdefines, by decide⟩))

/-- A pattern without the header of its filter. -/
def headless : Bytes := str "titles = [\"a\"]"

def headlessHost : Host where
  tomlParse text :=
    if text = headless then some (.table [(str "titles", .array [.string (str "a")])]) else Host.literal.tomlParse text
  regcomp := Host.literal.regcomp
  regexec := Host.literal.regexec

theorem not_savesDefined : ¬SavesDefined headlessHost { filters := str "old" } headless := by
  have hno : ¬Defines headlessHost headless := by
    rintro ⟨vs, hvs, -⟩
    have hnone : focusFilter headlessHost headless = none := by decide
    rw [hnone] at hvs
    cases hvs
  intro h
  cases h.2 hno

end TgFocus.FilterSessions
