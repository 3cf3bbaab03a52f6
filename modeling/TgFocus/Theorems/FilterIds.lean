import TgFocus.Theorems.EditForm
import TgFocus.Theorems.GroupEdits

/-! The ids of the editing commands. Each handler reads an id with `atoi`, which cuts it to 32 bits, and
    only `filter.insert` looks at the sign. -/

namespace TgFocus

open Strings

section
variable {host : Host} {word id cmdipt : Bytes} {typ : ChatCmdType} {z : Int}

/-! ### Reading an id -/

/-- The text of a command with an id, behind which another word may follow. -/
def IdText (word id cmdipt : Bytes) : Prop :=
  ∃ n rest, cmdipt = word ++ spaces n ++ id ++ rest ∧ (rest = [] ∨ ∃ t, rest = space :: t)

/-- The positions give the second word. -/
theorem idChunk_iff :
    (∃ endi, findFirstOf space cmdipt 0 = some endi ∧ ∃ begi, findFirstNotOf space cmdipt endi = some begi ∧
      (chunkAt cmdipt begi).1 = id) ↔ ∃ word, space ∉ word ∧ Word space id ∧ IdText word id cmdipt := by
  constructor
  · rintro ⟨endi, hendi, begi, hbegi, rfl⟩
    obtain ⟨word, t, hs, hword, ht, -⟩ := findFirstOf_some hendi
    rw [List.drop_zero] at hs
    rw [chunkAt]
    cases hk : findFirstOf space cmdipt begi with
    | none =>
      obtain ⟨m, hm, hid⟩ := lastWord_none ht hbegi hk
      refine ⟨word, hword, hid, m, [], ?_, Or.inl rfl⟩
      dsimp only
      rw [List.append_nil, spaces, List.append_assoc, ← hm, ht]
      exact hs
    | some k =>
      obtain ⟨m, w, t', hm, hid, -, hsub⟩ := word_some ht hbegi hk
      rw [hsub]
      refine ⟨word, hword, hid, m, space :: t', ?_, Or.inr ⟨t', rfl⟩⟩
      rw [spaces, List.append_assoc, List.append_assoc, ← List.append_assoc (List.replicate _ _), ← hm, ht]
      exact hs
  · rintro ⟨word, hword, hid, n, rest, hs, hrest⟩
    have hs' : cmdipt.drop 0 = word ++ space :: (List.replicate n space ++ (id ++ rest)) := by
      rw [List.drop_zero, hs]
      simp only [spaces, List.replicate_succ, List.append_assoc, List.cons_append]
    obtain ⟨endi, hendi, hdrop, -⟩ := findFirstOf_of_drop hs' hword
    rw [← List.cons_append, ← List.replicate_succ] at hdrop
    rcases hrest with rfl | ⟨t, rfl⟩
    · rw [List.append_nil] at hdrop
      obtain ⟨begi, hbegi, hk, hsub⟩ := lastWord_of_drop hdrop hid
      exact ⟨endi, hendi, begi, hbegi, by rw [chunkAt, hk, hsub]⟩
    · rw [← List.append_assoc] at hdrop
      obtain ⟨begi, k, hbegi, hk, hsub, -⟩ := word_of_drop hdrop hid
      exact ⟨endi, hendi, begi, hbegi, by rw [chunkAt, hk, hsub]⟩

theorem insfFilterId_of_idText (hword : space ∉ word) (hid : Word space id) (h : IdText word id cmdipt) :
    insfFilterId cmdipt = if atoi id ≤ 0 then .error (invalid insfArg1) else .ok (atoi id).toUInt32 := by
  obtain ⟨endi, hendi, begi, hbegi, rfl⟩ := idChunk_iff.mpr ⟨word, hword, hid, h⟩
  rw [insfFilterId, hendi, Option.bind_some, hbegi]

theorem rmfFilterId_of_idText (hword : space ∉ word) (hid : Word space id) (h : IdText word id cmdipt) :
    rmfFilterId cmdipt =
      if (atoi id).toUInt32 = 0 then .error (invalid rmfArg1) else .ok (atoi id).toUInt32 := by
  obtain ⟨endi, hendi, begi, hbegi, rfl⟩ := idChunk_iff.mpr ⟨word, hword, hid, h⟩
  rw [rmfFilterId, hendi, need_some_bind, hbegi, need_some_bind]

/-- The text of a command whose id is read. -/
theorem rmfFilterId_ok {k : UInt32} (h : rmfFilterId cmdipt = .ok k) :
    ∃ word id, space ∉ word ∧ Word space id ∧ IdText word id cmdipt := by
  rw [rmfFilterId, need_bind_eq_ok] at h
  obtain ⟨endi, hendi, h⟩ := h
  obtain ⟨begi, hbegi, -⟩ := need_bind_eq_ok.mp h
  obtain ⟨word, hword, hid, htext⟩ := idChunk_iff.mp ⟨endi, hendi, begi, hbegi, rfl⟩
  exact ⟨word, _, hword, hid, htext⟩

/-! ### Commands with an id -/

/-- The text of an editing command with this id and valid arguments. -/
inductive IdCommand (host : Host) (id : Bytes) : ChatCmdType → Bytes → Prop where
  | insert {cmdipt : Bytes} (h : IdText (chatcmd .insertFilter) id cmdipt) : IdCommand host id .insertFilter cmdipt
  | remove {cmdipt : Bytes} (h : IdText (chatcmd .removeFilter) id cmdipt) : IdCommand host id .removeFilter cmdipt
  | edit {cmdipt : Bytes} {p : FilterProperty} {a : EditAction} {v : Bytes} (h : Documented host cmdipt id p a v) :
      IdCommand host id .editFilter cmdipt

/-- The command fails, and what is stored is as before. -/
def Refused (host : Host) (typ : ChatCmdType) (ipt : Bytes) (st : Stat) : Prop :=
  ∃ res st', ChatCmdHandler host typ ipt st = some (res, st') ∧ res.done = false ∧
    st'.userdata.filters = st.userdata.filters

/-- The answer of a handler is a refusal. -/
def IsRefusal (st : Stat) (r : Option (CmdRes × Stat)) : Prop :=
  ∃ res st', r = some (res, st') ∧ res.done = false ∧ st'.userdata.filters = st.userdata.filters

section
variable {st st' : Stat} {aux usage didWhat auxMsg : Bytes}

theorem isRefusal_badRtn : IsRefusal st (some (badRtn cmdipt aux usage, st)) := ⟨_, _, rfl, rfl, rfl⟩

theorem not_isRefusal_succRes : ¬IsRefusal st (some (succRes didWhat auxMsg, st')) := by
  rintro ⟨res, st', hres, hdone, -⟩
  cases hres
  cases hdone

theorem not_isRefusal_none : ¬IsRefusal st none := fun ⟨_, _, h, _⟩ => by cases h

end

/-- The ids that a command refuses on a group of `n` filters, once they are cut to an `int`. -/
def Refuses (n : Nat) (x : Int32) : ChatCmdType → Prop
  | .insertFilter => x.toInt ≤ 0
  | .removeFilter => x = 0 ∨ n = 1 ∨ (0 < n ∧ n < x.toUInt32.toNat)
  | .editFilter => x = 0
  | _ => False

theorem idText_begins (h : IdText word id cmdipt) : word <+: cmdipt := by
  obtain ⟨n, rest, rfl, -⟩ := h
  simp only [List.append_assoc]
  exact List.prefix_append _ _

theorem IdCommand.begins (h : IdCommand host id typ cmdipt) : chatcmd typ <+: cmdipt := by
  cases h with
  | insert h | remove h => exact idText_begins h
  | edit h =>
    obtain ⟨⟨n₁, n₂, n₃, n₄, rfl⟩, -⟩ := h
    simp only [List.append_assoc]
    exact List.prefix_append _ _

theorem eraseLeading_command (m : Nat) (h : chatcmd typ <+: cmdipt) :
    eraseLeading space (List.replicate m space ++ cmdipt) = cmdipt := by
  obtain ⟨rest, rfl⟩ := h
  rw [eraseLeading_replicate_append]
  cases typ <;> exact eraseLeading_cons_ne (by decide)

/-- The leading spaces and the prefix of the answer do not matter. -/
theorem refused_iff (m : Nat) (h : chatcmd typ <+: cmdipt) (st : Stat) :
    Refused host typ (List.replicate m space ++ cmdipt) st ↔
      IsRefusal st (handler host typ cmdipt st) := by
  rw [Refused, ChatCmdHandler, eraseLeading_command m h]
  constructor
  · rintro ⟨res, st', hres, hdone, hst⟩
    obtain ⟨⟨res', st''⟩, hres', heq⟩ := Option.map_eq_some_iff.mp hres
    cases heq
    exact ⟨res', st'', hres', hdone, hst⟩
  · rintro ⟨res, st', hres, hdone, hst⟩
    refine ⟨{ res with auxMsg := rplyPrefix ++ res.auxMsg }, st', ?_, hdone, hst⟩
    rw [hres]
    rfl

theorem toUInt32_eq_zero_iff {x : Int32} : x.toUInt32 = 0 ↔ x = 0 := by
  constructor
  · intro h
    rw [← Int32.toInt32_toUInt32 x, h]
    rfl
  · rintro rfl
    rfl

variable {x : Int32} {st : Stat}

theorem insert_refused_iff (hid : Word space id) (hx : atoi id = x) (h : IdText (chatcmd .insertFilter) id cmdipt) :
    IsRefusal st (handler host .insertFilter cmdipt st) ↔ x.toInt ≤ 0 := by
  have hword : find (chatcmd .insertFilter) cmdipt = some 0 := find_eq_zero_iff.mpr (idText_begins h)
  have hle : x ≤ 0 ↔ x.toInt ≤ 0 := by rw [Int32.le_iff_toInt_le, Int32.toInt_zero]
  rw [handler, handleInsfilter, if_neg (not_not.mpr hword), insfFilterId_of_idText (space_not_mem_chatcmd _) hid h, hx]
  by_cases hneg : x.toInt ≤ 0
  · rw [if_pos (hle.mpr hneg)]
    exact iff_of_true isRefusal_badRtn hneg
  · rw [if_neg (mt hle.mp hneg)]
    have hto := toNat_toUInt32 (x := x) (by omega)
    have hlt := x.toInt_lt
    have hk : 1 ≤ x.toUInt32 := FilterGroup.one_le_toNat.mp (by omega)
    have hins : (FilterGroupToml host st.userdata.getFilters).insFilter host _ none = _ :=
      FilterGroup.insFilter_eq hk
    rw [if_pos (by omega)] at hins
    dsimp only
    rw [hins]
    exact iff_of_false not_isRefusal_succRes hneg

theorem remove_refused_iff (hid : Word space id) (hx : atoi id = x) (h : IdText (chatcmd .removeFilter) id cmdipt) :
    IsRefusal st (handler host .removeFilter cmdipt st) ↔
      Refuses (FilterGroupToml host st.userdata.getFilters).filters.length x .removeFilter := by
  have hword : find (chatcmd .removeFilter) cmdipt = some 0 := find_eq_zero_iff.mpr (idText_begins h)
  rw [handler, handleRmfilter, if_neg (not_not.mpr hword), rmfFilterId_of_idText (space_not_mem_chatcmd _) hid h, hx,
    Refuses]
  by_cases hzero : x = 0
  · rw [if_pos (toUInt32_eq_zero_iff.mpr hzero)]
    exact iff_of_true isRefusal_badRtn (Or.inl hzero)
  · have hne : x.toUInt32 ≠ 0 := mt toUInt32_eq_zero_iff.mp hzero
    have hk : 1 ≤ x.toUInt32 := FilterGroup.one_le_iff.mpr hne
    rw [if_neg hne]
    dsimp only
    by_cases hnil : (FilterGroupToml host st.userdata.getFilters).filters = []
    · rw [FilterGroup.rmFilter_of_nil hnil, hnil]
      exact iff_of_false not_isRefusal_none (by simp [hzero])
    · have hpos := List.length_pos_iff.mpr hnil
      rw [FilterGroup.rmFilter_eq hnil hk]
      split
      · rename_i hbad
        exact iff_of_true isRefusal_badRtn (Or.inr (hbad.imp_right fun hlt => ⟨hpos, hlt⟩))
      · rename_i hgood
        refine iff_of_false not_isRefusal_succRes ?_
        rintro (h0 | h1 | ⟨-, hlt⟩)
        · exact hzero h0
        · exact hgood (Or.inl h1)
        · exact hgood (Or.inr hlt)

/-- An edit with an id and a valid pattern succeeds on every group that has a filter, and accesses an empty
    one outside. -/
theorem apply_cases {g : FilterGroup} {e : EditArgs} (hk : e.filterId ≠ 0)
    (haccept : (PosixExtRegex.ofPattern host e.unquotedRe).isPatternAccept = true) :
    (g.filters = [] ∧ e.apply host g = none) ∨
      (g.filters ≠ [] ∧ ∃ k' g', e.apply host g = some (true, k', g')) := by
  have hk' := FilterGroup.one_le_iff.mpr hk
  by_cases hne : g.filters = []
  · refine Or.inl ⟨hne, ?_⟩
    rw [EditArgs.apply]
    split
    · rw [← Option.not_isSome_iff_eq_none, FilterGroup.addOne_isSome_iff]
      simp [hne, hk, haccept]
    · rw [← Option.not_isSome_iff_eq_none, FilterGroup.delOne_isSome_iff]
      simp [hne, hk, haccept]
  · refine Or.inr ⟨hne, ?_⟩
    rw [EditArgs.apply]
    split
    · obtain ⟨k₁, -, hadd⟩ := FilterGroup.addOne_accepted (p := e.property) hne hk' haccept
      exact ⟨_, _, hadd⟩
    · obtain ⟨k₁, f, -, -, hdel⟩ := FilterGroup.delOne_accepted (p := e.property) hne hk' haccept
      exact ⟨_, _, hdel⟩

theorem Reaches.filterId_eq {e : EditArgs} (he : Reaches host cmdipt e) :
    e.filterId = (atoi (secondToken cmdipt)).toUInt32 ∧ e.filterId ≠ 0 ∧
      (PosixExtRegex.ofPattern host e.unquotedRe).isPatternAccept = true := by
  obtain ⟨glue, id, quoted, hglue, hid, htext, hatoi, hne, -, haccept⟩ := reaches_iff.mp he
  rw [(tokens_editText (word_chatcmd glue hglue) hid htext).2, hatoi]
  exact ⟨rfl, hne, haccept⟩

theorem edit_refused_iff {p : FilterProperty} {a : EditAction} {v : Bytes} (hid : Word space id) (hx : atoi id = x)
    (h : Documented host cmdipt id p a v) :
    IsRefusal st (handler host .editFilter cmdipt st) ↔ x = 0 := by
  have htoken : secondToken cmdipt = id :=
    (tokens_editText ⟨by decide, space_not_mem_chatcmd _⟩ hid h.1).2
  rw [handler]
  by_cases hzero : x = 0
  · refine iff_of_true ?_ hzero
    have hno : ∀ e, ¬Reaches host cmdipt e := by
      intro e he
      obtain ⟨hk, hne, -⟩ := he.filterId_eq
      rw [htoken, hx] at hk
      exact hne (hk.trans (toUInt32_eq_zero_iff.mpr hzero))
    obtain ⟨aux, hbad⟩ := handleEditfilter_of_not_reaches hno st
    rw [hbad]
    exact isRefusal_badRtn
  · refine iff_of_false ?_ hzero
    have he : Reaches host cmdipt ⟨x.toUInt32, p, a, v⟩ := by
      refine reaches_iff.mpr ⟨[], id, _, by simp, hid, by rw [List.append_nil]; exact h.1, by rw [hx], ?_, Or.inl rfl,
        h.2⟩
      exact mt toUInt32_eq_zero_iff.mp hzero
    rw [handleEditfilter_of_reaches he]
    rcases apply_cases (g := FilterGroupToml host st.userdata.getFilters) he.filterId_eq.2.1 he.filterId_eq.2.2 with
      ⟨-, hnone⟩ | ⟨-, k', g', hsome⟩
    · rw [hnone]
      exact not_isRefusal_none
    · rw [hsome]
      exact not_isRefusal_succRes

/-- A command refuses the ids that, cut to an `int`, are not positive, are zero or name no filter that may
    be removed: each command its own. -/
theorem bad_ids_refused_iff (m : Nat) (st : Stat) (hid : Written id z) (h : IdCommand host id typ cmdipt) :
    Refused host typ (List.replicate m space ++ cmdipt) st ↔
      Refuses (FilterGroupToml host st.userdata.getFilters).filters.length (cutToInt z) typ := by
  rw [refused_iff m h.begins]
  cases h with
  | insert h => exact insert_refused_iff hid.word hid.atoi_eq h
  | remove h => exact remove_refused_iff hid.word hid.atoi_eq h
  | edit h => exact edit_refused_iff hid.word hid.atoi_eq h

end

def someStat : Stat where
  userdata := { filters := str "-" }
  pauseDoCsmMq := false

/-- An edit of the filter with this id. -/
def editWithId (id : String) : Bytes := str "filter.edit " ++ str id ++ str " titles add \"a\""

theorem idCommand_editWithId_zero : IdCommand .literal (str "0") .editFilter (editWithId "0") :=
  .edit (p := .titles) (a := .add) (v := str "a") ⟨⟨0, 0, 0, 0, by decide⟩, by decide⟩

theorem bad_ids_refused_zero : Refused .literal .editFilter (List.replicate 0 space ++ editWithId "0") someStat :=
  (bad_ids_refused_iff 0 someStat written_zero idCommand_editWithId_zero).mpr (by decide : cutToInt 0 = 0)

/-- An id below zero, and one that is cut to 1, are accepted. -/
theorem not_bad_ids_refused :
    (ChatCmdHandler .literal .insertFilter (str "filter.insert 4294967297") someStat).map (·.1.done) = some true ∧
      (ChatCmdHandler .literal .editFilter (editWithId "-1") someStat).map (·.1.done) = some true ∧
      ¬∀ (host : Host) (id cmdipt : Bytes) (typ : ChatCmdType) (z : Int) (m : Nat) (st : Stat), Written id z →
        ¬(1 ≤ z ∧ z ≤ 0x7fffffff) → IdCommand host id typ cmdipt →
          Refused host typ (List.replicate m space ++ cmdipt) st := by
  refine ⟨by decide +kernel, by decide +kernel, fun h => ?_⟩
  have hdoc : Documented .literal (editWithId "-1") (str "-1") .titles .add (str "a") :=
    ⟨⟨0, 0, 0, 0, by decide⟩, by decide⟩
  have hrefused := h .literal _ _ .editFilter (-1) 0 someStat written_minus_one (by decide) (.edit hdoc)
  rw [refused_iff 0 (IdCommand.edit hdoc).begins,
    edit_refused_iff ⟨by decide, by decide⟩ written_minus_one.atoi_eq hdoc] at hrefused
  revert hrefused
  decide

end TgFocus
