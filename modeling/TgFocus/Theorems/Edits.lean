import TgFocus.ChatCmd

/-! The editing commands: an accepted one stores the group it makes of the stored group, and every group
    that comes from a text by accepted commands holds patterns as the constructor makes them. -/

namespace TgFocus

open Strings

section
variable {host : Host} {cmdipt value : Bytes} {st st' : Stat} {res : CmdRes} {typ : ChatCmdType}
  {g g' : FilterGroup} {f : Filter} {p q : FilterProperty} {k k' : UInt32} {b : Bool} {e : EditArgs}

/-! ### Accepted commands -/

/-- The text is that of an editing command that is accepted on the first group and makes the second. -/
inductive Accepted (host : Host) (cmdipt : Bytes) : FilterGroup → FilterGroup → Prop where
  | edit {g g' : FilterGroup} {e : EditArgs} {filterId : UInt32}
      (hword : find (chatcmd .editFilter) cmdipt = some 0) (hargs : editArgs host cmdipt = .ok e)
      (happly : e.apply host g = some (true, filterId, g')) : Accepted host cmdipt g g'
  | insert {g g' : FilterGroup} {filterId filterId' : UInt32}
      (hword : find (chatcmd .insertFilter) cmdipt = some 0) (hargs : insfFilterId cmdipt = .ok filterId)
      (hins : g.insFilter host filterId none = (true, filterId', g')) : Accepted host cmdipt g g'
  | remove {g g' : FilterGroup} {filterId : UInt32}
      (hword : find (chatcmd .removeFilter) cmdipt = some 0) (hargs : rmfFilterId cmdipt = .ok filterId)
      (hrm : g.rmFilter filterId = some (true, g')) : Accepted host cmdipt g g'

/-- An editing command that is done was accepted on the stored group, and stores the group it made; the
    answer depends on nothing but the stored text. -/
theorem handler_done (h : handler host typ cmdipt st = some (res, st')) (hdone : res.done = true)
    (htyp : typ ∈ [.editFilter, .insertFilter, .removeFilter]) :
    ∃ g', Accepted host cmdipt (FilterGroupToml host st.userdata.getFilters) g' ∧ st' = st.store g' ∧
      ∀ st₂ : Stat, st₂.userdata.getFilters = st.userdata.getFilters →
        handler host typ cmdipt st₂ = some (res, st₂.store g') := by
  cases typ with
  | editFilter =>
    rw [handler, handleEditfilter] at h
    split at h
    · cases h
      cases hdone
    · rename_i hword
      split at h
      · cases h
        cases hdone
      · rename_i e hargs
        obtain ⟨⟨b, filterId, g'⟩, happly, h⟩ := Option.bind_eq_some_iff.mp h
        cases b <;> cases h
        · cases hdone
        · refine ⟨g', .edit (not_not.mp hword) hargs happly, rfl, fun st₂ hread => ?_⟩
          rw [handler, handleEditfilter, if_neg hword, hargs, hread]
          exact Option.bind_eq_some_iff.mpr ⟨(true, filterId, g'), happly, rfl⟩
  | insertFilter =>
    have h := Option.some.inj h
    unfold handleInsfilter at h
    split at h
    · cases h
      cases hdone
    · rename_i hword
      split at h
      · cases h
        cases hdone
      · rename_i filterId hargs
        dsimp only at h
        split at h <;> cases h
        · rename_i hins
          refine ⟨_, .insert (not_not.mp hword) hargs hins, rfl, fun st₂ hread => ?_⟩
          rw [handler, handleInsfilter, if_neg hword, hargs, hread]
          dsimp only
          rw [hins]
        · cases hdone
  | removeFilter =>
    rw [handler, handleRmfilter] at h
    split at h
    · cases h
      cases hdone
    · rename_i hword
      split at h
      · cases h
        cases hdone
      · rename_i filterId hargs
        obtain ⟨⟨b, g'⟩, hrm, h⟩ := Option.bind_eq_some_iff.mp h
        cases b <;> cases h
        · cases hdone
        · refine ⟨g', .remove (not_not.mp hword) hargs hrm, rfl, fun st₂ hread => ?_⟩
          rw [handler, handleRmfilter, if_neg hword, hargs, hread]
          exact Option.bind_eq_some_iff.mpr ⟨(true, g'), hrm, rfl⟩
  | pause | resume | filters | rawFilters | help => exact absurd htyp (by decide)

/-- The groups that come from a text by accepted commands. -/
inductive Obtainable (host : Host) : FilterGroup → Prop where
  | loaded (text : Bytes) : Obtainable host (FilterGroupToml host text)
  | accepted {g g' : FilterGroup} {cmdipt : Bytes} (h : Obtainable host g) (ha : Accepted host cmdipt g g') :
      Obtainable host g'

/-! ### What is stored -/

theorem editArgs_valid (h : editArgs host cmdipt = .ok e) :
    ¬e.filterId < 1 ∧ (PosixExtRegex.ofPattern host e.unquotedRe).isPatternAccept = true := by
  unfold editArgs at h
  simp only [bind, Except.bind] at h
  split at h
  · cases h
  · split at h
    · cases h
    · rename_i hid
      split at h
      · cases h
      · cases h
      · split at h
        · cases h
        · split at h
          · cases h
          · rename_i haccept
            cases h
            refine ⟨fun hlt => hid ?_, by simpa using haccept⟩
            rw [← UInt32.toNat_inj]
            exact Nat.lt_one_iff.mp (UInt32.lt_iff_toNat_lt.mp hlt)

theorem addOne_ne_nil (haccept : (PosixExtRegex.ofPattern host value).isPatternAccept = true) (hk : ¬k < 1)
    (h : g.addOne host k p value = some (true, k', g')) : g'.filters ≠ [] := by
  unfold FilterGroup.addOne at h
  rw [if_neg hk] at h
  dsimp only at h
  rw [haccept] at h
  simp only [Bool.not_true, Bool.false_eq_true, ↓reduceIte] at h
  split at h <;> cases h
  rename_i f hf
  have := List.ne_nil_of_mem (List.mem_of_getElem? hf)
  simpa using this

theorem delOne_ne_nil (h : g.delOne host k p value = some (true, k', g')) : g'.filters ≠ [] := by
  unfold FilterGroup.delOne at h
  split at h
  · cases h
  · dsimp only at h
    split at h
    · cases h
    · split at h <;> cases h
      rename_i f hf
      have := List.ne_nil_of_mem (List.mem_of_getElem? hf)
      simpa using this

theorem insFilter_ne_nil (h : g.insFilter host k none = (true, k', g')) : g'.filters ≠ [] := by
  unfold FilterGroup.insFilter at h
  dsimp only at h
  split at h <;> cases h
  refine List.ne_nil_of_mem (List.mem_insertIdx (by split <;> omega) |>.mpr (Or.inl rfl))

theorem rmFilter_ne_nil (h : g.rmFilter k = some (true, g')) : g'.filters ≠ [] := by
  unfold FilterGroup.rmFilter at h
  dsimp only at h
  split at h
  · cases h
  · rename_i hsize
    split at h <;> cases h
    rename_i hidx
    rw [← List.length_pos_iff, List.length_eraseIdx, if_pos hidx]
    omega

/-- An accepted command leaves a group with a filter. -/
theorem Accepted.ne_nil (h : Accepted host cmdipt g g') : g'.filters ≠ [] := by
  cases h with
  | edit hword hargs happly =>
    obtain ⟨hid, haccept⟩ := editArgs_valid hargs
    rw [EditArgs.apply] at happly
    split at happly
    · exact addOne_ne_nil haccept hid happly
    · exact delOne_ne_nil happly
  | insert hword hargs hins => exact insFilter_ne_nil hins
  | remove hword hargs hrm => exact rmFilter_ne_nil hrm

theorem asFsdata_ne_nil (h : g.filters ≠ []) : g.asFsdata ≠ [] := by
  obtain ⟨f, fs, hfs⟩ := List.exists_cons_of_ne_nil h
  rw [FilterGroup.asFsdata, hfs, List.flatMap_cons, Filter.asFsdata]
  simp [endl]

/-! ### Compiled patterns -/

def Filter.Compiled (host : Host) (f : Filter) : Prop := ∀ p, ∀ re ∈ f.list p, re = .ofPattern host re.ptn

def FilterGroup.Compiled (host : Host) (g : FilterGroup) : Prop := ∀ f ∈ g.filters, f.Compiled host

theorem Filter.list_modify {t : List PosixExtRegex → List PosixExtRegex} :
    (f.modify p t).list q = if q = p then t (f.list q) else f.list q := by
  cases p <;> cases q <;> rfl

theorem Filter.compiled_empty : ({} : Filter).Compiled host := by
  intro p re hre
  cases p <;> cases hre

theorem Filter.Compiled.modify {t : List PosixExtRegex → List PosixExtRegex} (h : f.Compiled host)
    (ht : ∀ l, ∀ re ∈ t l, re ∈ l ∨ re = .ofPattern host re.ptn) : (f.modify p t).Compiled host := by
  intro q re hre
  rw [Filter.list_modify] at hre
  split at hre
  · rcases ht _ re hre with hre | hre
    · exact h q re hre
    · exact hre
  · exact h q re hre

theorem FilterToml_compiled {v : Toml.Value} : (FilterToml host v).Compiled host := by
  intro p re hre
  have hlist : ∃ ptns : List Bytes, (FilterToml host v).list p = ptns.map (.ofPattern host) := by
    cases p <;> exact ⟨_, rfl⟩
  obtain ⟨ptns, hptns⟩ := hlist
  rw [hptns] at hre
  obtain ⟨ptn, -, rfl⟩ := List.mem_map.mp hre
  rfl

theorem FilterGroupToml_compiled (text : Bytes) : (FilterGroupToml host text).Compiled host := by
  intro f hf
  obtain ⟨v, -, rfl⟩ := List.mem_map.mp hf
  exact FilterToml_compiled

theorem FilterGroup.Compiled.set {i : Nat} (h : g.Compiled host) (hf : f.Compiled host) :
    FilterGroup.Compiled host { g with filters := g.filters.set i f } := by
  intro f' hf'
  rcases List.mem_or_eq_of_mem_set hf' with hf' | rfl
  · exact h f' hf'
  · exact hf

theorem Filter.compiled_keyword {ptn : Bytes} : ({ keywords := [.ofPattern host ptn] } : Filter).Compiled host := by
  intro p re hre
  cases p <;> simp only [Filter.list, List.mem_singleton, List.not_mem_nil] at hre
  rw [hre]
  rfl

theorem compiled_grow (hg : g.Compiled host) : (g.grow k).2.2.Compiled host := by
  unfold FilterGroup.grow
  dsimp only
  split
  · intro f hf
    rcases List.mem_append.mp hf with hf | hf
    · exact hg f hf
    · rw [List.mem_singleton.mp hf]
      exact Filter.compiled_empty
  · exact hg

theorem compiled_addOne (hg : g.Compiled host) (h : g.addOne host k p value = some (b, k', g')) :
    g'.Compiled host := by
  unfold FilterGroup.addOne at h
  split at h
  · cases h
    exact hg
  · have hgrown := compiled_grow (k := k) hg
    dsimp only at h
    split at h
    · cases h
      exact hgrown
    · split at h
      · rename_i f hf
        cases h
        refine hgrown.set ((hgrown f (List.mem_of_getElem? hf)).modify fun l re hre => ?_)
        rcases List.mem_append.mp hre with hre | hre
        · exact Or.inl hre
        · rw [List.mem_singleton.mp hre]
          exact Or.inr rfl
      · cases h

theorem compiled_delOne (hg : g.Compiled host) (h : g.delOne host k p value = some (b, k', g')) :
    g'.Compiled host := by
  unfold FilterGroup.delOne at h
  split at h
  · cases h
    exact hg
  · dsimp only at h
    split at h
    · cases h
      exact hg
    · split at h
      · rename_i f hf
        cases h
        exact hg.set ((hg f (List.mem_of_getElem? hf)).modify fun l re hre => Or.inl (List.mem_of_mem_eraseP hre))
      · cases h

theorem compiled_insFilter (hg : g.Compiled host) (h : g.insFilter host k none = (b, k', g')) :
    g'.Compiled host := by
  unfold FilterGroup.insFilter at h
  dsimp only at h
  split at h
  · cases h
    exact hg
  · cases h
    intro f hf
    rw [List.mem_insertIdx (by split <;> omega)] at hf
    rcases hf with rfl | hf
    · exact Filter.compiled_keyword
    · exact hg f hf

theorem compiled_rmFilter (hg : g.Compiled host) (h : g.rmFilter k = some (b, g')) : g'.Compiled host := by
  unfold FilterGroup.rmFilter at h
  dsimp only at h
  split at h
  · cases h
    exact hg
  · split at h
    · cases h
      exact fun f hf => hg f (List.mem_of_mem_eraseIdx hf)
    · cases h

theorem Accepted.compiled (h : Accepted host cmdipt g g') (hg : g.Compiled host) : g'.Compiled host := by
  cases h with
  | @edit e filterId hword hargs happly =>
    rw [EditArgs.apply] at happly
    split at happly
    · exact compiled_addOne hg happly
    · exact compiled_delOne hg happly
  | insert hword hargs hins => exact compiled_insFilter hg hins
  | remove hword hargs hrm => exact compiled_rmFilter hg hrm

theorem Obtainable.compiled (h : Obtainable host g) : g.Compiled host := by
  induction h with
  | loaded text => exact FilterGroupToml_compiled text
  | accepted _ ha ih => exact ha.compiled ih

end

end TgFocus
