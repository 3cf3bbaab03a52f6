import TgFocus.Theorems.Dispatch
import TgFocus.Theorems.Numbers

/-! The texts that `filter.edit` accepts: the command word, the id, the property and the action with spaces
    between them, and a value in quotation marks that a space precedes and nothing follows. The command word
    may go on, and a single quotation mark passes for a value. -/

namespace TgFocus

open Strings

/-- One or more spaces. -/
def spaces (n : Nat) : Bytes := List.replicate (n + 1) space

section
variable {host : Host} {cmdipt : Bytes} {c₁ c₂ c₃ c₄ : Bytes}

/-! ### Chunks -/

theorem need_some_bind {α : Type} {arg : Bytes} {i : Nat} {f : Nat → Except Bytes α} :
    (need arg (some i) >>= f) = f i := rfl

theorem need_bind_eq_ok {α : Type} {arg : Bytes} {pos : Option Nat} {f : Nat → Except Bytes α} {r : α} :
    (need arg pos >>= f) = .ok r ↔ ∃ i, pos = some i ∧ f i = .ok r := by
  cases pos with
  | none => exact iff_of_false (fun h => by cases h) (fun ⟨i, h, _⟩ => by cases h)
  | some i =>
    constructor
    · exact fun h => ⟨i, rfl, h⟩
    · rintro ⟨j, h, hf⟩
      cases h
      exact hf

/-- The positions give the words between the spaces, and all that follows the last of them. -/
theorem editChunks_iff : editChunks cmdipt = .ok (c₁, c₂, c₃, c₄) ↔
    ∃ c₀ n₁ n₂ n₃ n₄, cmdipt = c₀ ++ spaces n₁ ++ c₁ ++ spaces n₂ ++ c₂ ++ spaces n₃ ++ c₃ ++ spaces n₄ ++ c₄ ∧
      space ∉ c₀ ∧ Word space c₁ ∧ Word space c₂ ∧ Word space c₃ ∧ ∃ b t, c₄ = b :: t ∧ b ≠ space := by
  simp only [editChunks, chunkAt, need_bind_eq_ok]
  constructor
  · rintro ⟨e₀, h₀, b₁, hb₁, e₁, he₁, b₂, hb₂, e₂, he₂, b₃, hb₃, e₃, he₃, b₄, hb₄, hok⟩
    cases hok
    obtain ⟨c₀, t₀, hs, hc₀, ht₀, -⟩ := findFirstOf_some h₀
    obtain ⟨n₁, c₁, t₁, hs₁, hc₁, ht₁, hsub₁⟩ := word_some ht₀ hb₁ he₁
    obtain ⟨n₂, c₂, t₂, hs₂, hc₂, ht₂, hsub₂⟩ := word_some ht₁ hb₂ he₂
    obtain ⟨n₃, c₃, t₃, hs₃, hc₃, ht₃, hsub₃⟩ := word_some ht₂ hb₃ he₃
    obtain ⟨n₄, b, t, hs₄, hb, hdrop⟩ := separators_some ht₃ hb₄
    rw [he₁, he₂, he₃, hsub₁, hsub₂, hsub₃, substr, hdrop]
    refine ⟨c₀, n₁, n₂, n₃, n₄, ?_, hc₀, hc₁, hc₂, hc₃, b, t, rfl, hb⟩
    rw [List.drop_zero] at hs
    rw [hs, ← ht₀, hs₁, ← ht₁, hs₂, ← ht₂, hs₃, ← ht₃, hs₄]
    simp only [spaces, List.append_assoc]
  · rintro ⟨c₀, n₁, n₂, n₃, n₄, hs, hc₀, hc₁, hc₂, hc₃, b, t, rfl, hb⟩
    simp only [spaces, List.append_assoc, List.replicate_succ, List.cons_append] at hs
    obtain ⟨e₀, h₀, ht₀, -⟩ := findFirstOf_of_drop (i := 0) hs hc₀
    obtain ⟨b₁, e₁, hb₁, he₁, hsub₁, ht₁⟩ :=
      word_of_drop (n := n₁ + 1) (by rw [ht₀, List.replicate_succ, List.append_assoc]; rfl) hc₁
    obtain ⟨b₂, e₂, hb₂, he₂, hsub₂, ht₂⟩ :=
      word_of_drop (n := n₂ + 1) (by rw [ht₁, List.replicate_succ, List.append_assoc]; rfl) hc₂
    obtain ⟨b₃, e₃, hb₃, he₃, hsub₃, ht₃⟩ :=
      word_of_drop (n := n₃ + 1) (by rw [ht₂, List.replicate_succ, List.append_assoc]; rfl) hc₃
    obtain ⟨b₄, hb₄, hdrop⟩ :=
      findFirstNotOf_of_drop (n := n₄ + 1) (by rw [ht₃, List.replicate_succ]; rfl) hb
    refine ⟨e₀, h₀, b₁, hb₁, e₁, he₁, b₂, hb₂, e₂, he₂, b₃, hb₃, e₃, he₃, b₄, hb₄, ?_⟩
    rw [he₁, he₂, he₃, hsub₁, hsub₂, hsub₃, substr, hdrop]

/-! ### Arguments -/

theorem propertyOf_iff {p : FilterProperty} : propertyOf c₂ = some p ↔ c₂ = p.name := by
  constructor
  · intro h
    have hname := List.find?_some h
    exact (decide_eq_true_iff.mp hname).symm
  · rintro rfl
    cases p <;> decide

theorem actionOf_iff {a : EditAction} : actionOf c₃ = some a ↔ c₃ = a.name := by
  constructor
  · intro h
    have hname := List.find?_some h
    exact (decide_eq_true_iff.mp hname).symm
  · rintro rfl
    cases a <;> decide

/-- What `filter.edit` takes for a value in quotation marks: also a single mark, for the empty value. -/
def Quoted (quoted v : Bytes) : Prop := quoted = quote :: v ++ [quote] ∨ quoted = [quote] ∧ v = []

theorem isQuoted_iff {v : Bytes} :
    isQuoted c₄ = true ∧ v = substr c₄ 1 (some (c₄.length - 1)) ↔ Quoted c₄ v := by
  rw [isQuoted, Bool.and_eq_true, decide_eq_true_iff, decide_eq_true_iff]
  constructor
  · rintro ⟨⟨hhead, hlast⟩, rfl⟩
    obtain ⟨t, rfl⟩ := List.head?_eq_some_iff.mp hhead
    rcases List.eq_nil_or_concat t with rfl | ⟨v, b, rfl⟩
    · exact Or.inr ⟨rfl, rfl⟩
    · left
      simp only [List.concat_eq_append] at hlast ⊢
      rw [← List.cons_append, List.getLast?_concat] at hlast
      cases hlast
      simp [substr]
  · rintro (rfl | ⟨rfl, rfl⟩)
    · exact ⟨⟨rfl, List.getLast?_concat⟩, by simp [substr]⟩
    · exact ⟨⟨rfl, rfl⟩, rfl⟩

theorem editArgs_iff {e : EditArgs} : editArgs host cmdipt = .ok e ↔
    ∃ id quoted, editChunks cmdipt = .ok (id, e.property.name, e.action.name, quoted) ∧
      (atoi id).toUInt32 = e.filterId ∧ e.filterId ≠ 0 ∧ Quoted quoted e.unquotedRe ∧
      (PosixExtRegex.ofPattern host e.unquotedRe).isPatternAccept = true := by
  rw [editArgs]
  cases hchunks : editChunks cmdipt with
  | error aux => exact iff_of_false (fun h => by cases h) (fun ⟨_, _, h, _⟩ => by cases h)
  | ok chunks =>
    obtain ⟨c₁, c₂, c₃, c₄⟩ := chunks
    simp only [bind, Except.bind, Except.ok.injEq, Prod.mk.injEq]
    constructor
    · intro h
      split at h
      · cases h
      · rename_i hid
        split at h
        · cases h
        · cases h
        · rename_i property action hproperty haction
          split at h
          · cases h
          · rename_i hquoted
            split at h
            · cases h
            · rename_i haccept
              cases h
              refine ⟨c₁, c₄, ⟨rfl, propertyOf_iff.mp hproperty, actionOf_iff.mp haction, rfl⟩, rfl, hid,
                isQuoted_iff.mp ⟨by simpa using hquoted, rfl⟩, by simpa using haccept⟩
    · rintro ⟨id, quoted, ⟨rfl, rfl, rfl, rfl⟩, hid, hne, hquoted, haccept⟩
      obtain ⟨hq, hre⟩ := isQuoted_iff.mpr hquoted
      rw [hid, if_neg hne, propertyOf_iff.mpr rfl, actionOf_iff.mpr rfl]
      simp only [hq, ← hre, haccept, Bool.not_true, Bool.false_eq_true, ↓reduceIte]

/-! ### Texts -/

/-- The text of an edit. -/
def EditText (word id : Bytes) (p : FilterProperty) (a : EditAction) (quoted cmdipt : Bytes) : Prop :=
  ∃ n₁ n₂ n₃ n₄, cmdipt =
    word ++ spaces n₁ ++ id ++ spaces n₂ ++ p.name ++ spaces n₃ ++ a.name ++ spaces n₄ ++ quoted

/-- The handler comes to the edit, with these arguments. -/
def Reaches (host : Host) (cmdipt : Bytes) (e : EditArgs) : Prop :=
  find (chatcmd .editFilter) cmdipt = some 0 ∧ editArgs host cmdipt = .ok e

/-- What the handler makes of an edited group. -/
def EditArgs.result (cmdipt : Bytes) (st : Stat) (e : EditArgs) : Bool × UInt32 × FilterGroup → CmdRes × Stat
  | (true, filterId, fg) => (succRes (e.didWhat filterId) (str "success"), st.store fg)
  | (false, _, _) => (badRtn cmdipt (str "failed: " ++ e.property.name ++ e.action.name) editfUsage, st)

theorem handleEditfilter_of_reaches {e : EditArgs} (h : Reaches host cmdipt e) (st : Stat) :
    handleEditfilter host cmdipt st =
      (e.apply host (FilterGroupToml host st.userdata.getFilters)).map (e.result cmdipt st) := by
  rw [handleEditfilter, if_neg (not_not.mpr h.1), h.2]
  dsimp only
  cases e.apply host (FilterGroupToml host st.userdata.getFilters) with
  | none => rfl
  | some r =>
    obtain ⟨b, filterId, fg⟩ := r
    cases b <;> rfl

theorem handleEditfilter_of_not_reaches (h : ∀ e, ¬Reaches host cmdipt e) (st : Stat) :
    ∃ aux, handleEditfilter host cmdipt st = some (badRtn cmdipt aux editfUsage, st) := by
  rw [handleEditfilter]
  by_cases hword : find (chatcmd .editFilter) cmdipt = some 0
  · rw [if_neg (not_not.mpr hword)]
    cases hargs : editArgs host cmdipt with
    | error aux => exact ⟨aux, rfl⟩
    | ok e => exact absurd ⟨hword, hargs⟩ (h e)
  · rw [if_pos hword]
    exact ⟨[], rfl⟩

theorem word_name (p : FilterProperty) : Word space p.name := by
  cases p <;> exact ⟨by decide, by decide⟩

theorem word_actionName (a : EditAction) : Word space a.name := by
  cases a <;> exact ⟨by decide, by decide⟩

/-- A command word at the front of a text is in front of the first space. -/
theorem chatcmd_of_spaces {typ : ChatCmdType} {word rest : Bytes} {n : Nat}
    (h : chatcmd typ <+: word ++ (spaces n ++ rest)) : chatcmd typ <+: word := by
  rw [spaces, List.replicate_succ, List.cons_append] at h
  exact prefix_of_prefix_append_cons (space_not_mem_chatcmd _) h

theorem space_not_mem_glued {typ : ChatCmdType} {glue : Bytes} (h : space ∉ glue) : space ∉ chatcmd typ ++ glue := by
  rw [List.mem_append, not_or]
  exact ⟨space_not_mem_chatcmd typ, h⟩

/-- The handler comes to the edit when the text has the form, except that the command word may go on. -/
theorem reaches_iff {e : EditArgs} : Reaches host cmdipt e ↔
    ∃ glue id quoted, space ∉ glue ∧ Word space id ∧
      EditText (chatcmd .editFilter ++ glue) id e.property e.action quoted cmdipt ∧
      (atoi id).toUInt32 = e.filterId ∧ e.filterId ≠ 0 ∧ Quoted quoted e.unquotedRe ∧
      (PosixExtRegex.ofPattern host e.unquotedRe).isPatternAccept = true := by
  rw [Reaches, find_eq_zero_iff, editArgs_iff]
  constructor
  · rintro ⟨hword, id, quoted, hchunks, hargs⟩
    obtain ⟨c₀, n₁, n₂, n₃, n₄, hs, hc₀, hid, -⟩ := editChunks_iff.mp hchunks
    simp only [hs, List.append_assoc] at hword
    obtain ⟨glue, rfl⟩ := chatcmd_of_spaces hword
    exact ⟨glue, id, quoted, fun hg => hc₀ (List.mem_append_right _ hg), hid, ⟨n₁, n₂, n₃, n₄, hs⟩, hargs⟩
  · rintro ⟨glue, id, quoted, hglue, hid, ⟨n₁, n₂, n₃, n₄, hs⟩, hatoi, hne, hquoted, haccept⟩
    refine ⟨?_, id, quoted, editChunks_iff.mpr ⟨_, n₁, n₂, n₃, n₄, hs, space_not_mem_glued hglue, hid, word_name _,
      word_actionName _, ?_⟩, hatoi, hne, hquoted, haccept⟩
    · rw [hs]
      simp only [List.append_assoc]
      exact List.prefix_append _ _
    · rcases hquoted with rfl | ⟨rfl, -⟩
      · exact ⟨quote, _, rfl, by decide⟩
      · exact ⟨quote, _, rfl, by decide⟩

/-! ### The documented form -/

def secondToken (s : Bytes) : Bytes :=
  (((s.dropWhile (· = space)).dropWhile (· ≠ space)).dropWhile (· = space)).takeWhile (· ≠ space)

/-- The documented form: exactly the command word, and a value between two quotation marks that is a valid
    pattern. -/
def Documented (host : Host) (cmdipt id : Bytes) (p : FilterProperty) (a : EditAction) (v : Bytes) : Prop :=
  EditText (chatcmd .editFilter) id p a (quote :: v ++ [quote]) cmdipt ∧
    (PosixExtRegex.ofPattern host v).isPatternAccept = true

/-- The form with more behind the command word, or with a single quotation mark for the value. -/
def Deviates (host : Host) (cmdipt id : Bytes) : Prop :=
  ∃ glue p a quoted v, space ∉ glue ∧ EditText (chatcmd .editFilter ++ glue) id p a quoted cmdipt ∧
    (PosixExtRegex.ofPattern host v).isPatternAccept = true ∧
    (quoted = quote :: v ++ [quote] ∧ glue ≠ [] ∨ quoted = [quote] ∧ v = [])

/-- The handler comes to the edit exactly for the documented form, and then makes that edit. -/
def AcceptsDocumented (host : Host) (cmdipt : Bytes) (z : Int) : Prop :=
  ((∃ e, Reaches host cmdipt e) ↔ ∃ p a v, Documented host cmdipt (secondToken cmdipt) p a v) ∧
    ∀ p a v, Documented host cmdipt (secondToken cmdipt) p a v →
      ∃ e : EditArgs, Reaches host cmdipt e ∧ e.filterId.toNat = z.toNat ∧ e.property = p ∧ e.action = a ∧
        e.unquotedRe = v ∧ ∀ st, handleEditfilter host cmdipt st =
          (e.apply host (FilterGroupToml host st.userdata.getFilters)).map (e.result cmdipt st)

section
variable {word glue id quoted : Bytes} {p : FilterProperty} {a : EditAction} {v : Bytes}

/-- Both the command word and the id can be read off the text. -/
theorem tokens_editText (hword : Word space word) (hid : Word space id) (h : EditText word id p a quoted cmdipt) :
    cmdipt.takeWhile (· ≠ space) = word ∧ secondToken cmdipt = id := by
  obtain ⟨n₁, n₂, n₃, n₄, rfl⟩ := h
  obtain ⟨x, w, rfl⟩ := List.exists_cons_of_ne_nil hword.1
  obtain ⟨y, w', rfl⟩ := List.exists_cons_of_ne_nil hid.1
  have hx : x ≠ space := fun h => hword.2 (h ▸ List.mem_cons_self)
  have hy : y ≠ space := fun h => hid.2 (h ▸ List.mem_cons_self)
  simp only [spaces, List.replicate_succ, List.append_assoc, List.cons_append]
  constructor
  · rw [← List.cons_append, takeWhile_word hword.2]
  · rw [secondToken, List.dropWhile_cons_of_neg (by simpa using hx), ← List.cons_append, dropWhile_word hword.2,
      ← List.cons_append, ← List.replicate_succ, dropWhile_replicate_append hy, ← List.cons_append,
      takeWhile_word hid.2]

theorem word_chatcmd (glue : Bytes) (hglue : space ∉ glue) : Word space (chatcmd .editFilter ++ glue) :=
  ⟨List.append_ne_nil_of_left_ne_nil (by decide) _, space_not_mem_glued hglue⟩

/-- What is behind the action can be read off the text, too. -/
theorem quoted_editText {word' id' quoted' : Bytes} {p' : FilterProperty} {a' : EditAction} {b b' : UInt8}
    {t t' : Bytes} (hword : Word space word) (hid : Word space id) (hword' : Word space word') (hid' : Word space id')
    (hq : quoted = b :: t ∧ b ≠ space) (hq' : quoted' = b' :: t' ∧ b' ≠ space)
    (h : EditText word id p a quoted cmdipt) (h' : EditText word' id' p' a' quoted' cmdipt) : quoted = quoted' := by
  obtain ⟨n₁, n₂, n₃, n₄, hs⟩ := h
  obtain ⟨m₁, m₂, m₃, m₄, hs'⟩ := h'
  have hok := editChunks_iff.mpr
    ⟨word, n₁, n₂, n₃, n₄, hs, hword.2, hid, word_name p, word_actionName a, b, t, hq⟩
  have hok' := editChunks_iff.mpr
    ⟨word', m₁, m₂, m₃, m₄, hs', hword'.2, hid', word_name p', word_actionName a', b', t', hq'⟩
  rw [hok, Except.ok.injEq, Prod.mk.injEq, Prod.mk.injEq, Prod.mk.injEq] at hok'
  exact hok'.2.2.2

variable {z : Int}

theorem reaches_of_form {e : EditArgs} (glue : Bytes) (hglue : space ∉ glue) (hid : Written id z) (h₁ : 1 ≤ z)
    (h₂ : z ≤ 0x7fffffff) (htext : EditText (chatcmd .editFilter ++ glue) id e.property e.action quoted cmdipt)
    (hidval : e.filterId = (cutToInt z).toUInt32) (hquoted : Quoted quoted e.unquotedRe)
    (haccept : (PosixExtRegex.ofPattern host e.unquotedRe).isPatternAccept = true) : Reaches host cmdipt e := by
  refine reaches_iff.mpr ⟨glue, id, quoted, hglue, hid.word, htext, ?_, ?_, hquoted, haccept⟩
  · rw [hid.atoi_eq, hidval]
  · intro h0
    have hto := toNat_cutToInt h₁ h₂
    rw [← hidval, h0] at hto
    simp only [UInt32.reduceToNat] at hto
    omega

theorem reaches_of_documented (hid : Written id z) (h₁ : 1 ≤ z) (h₂ : z ≤ 0x7fffffff)
    (h : Documented host cmdipt id p a v) : Reaches host cmdipt ⟨(cutToInt z).toUInt32, p, a, v⟩ :=
  reaches_of_form [] (by simp) hid h₁ h₂ (by rw [List.append_nil]; exact h.1) rfl (Or.inl rfl) h.2

/-- The handler comes to the edit for the documented form and for the texts that deviate from it. -/
theorem exists_reaches_iff (hid : Written (secondToken cmdipt) z) (h₁ : 1 ≤ z) (h₂ : z ≤ 0x7fffffff) :
    (∃ e, Reaches host cmdipt e) ↔
      (∃ p a v, Documented host cmdipt (secondToken cmdipt) p a v) ∨ Deviates host cmdipt (secondToken cmdipt) := by
  constructor
  · rintro ⟨e, he⟩
    obtain ⟨glue, id, quoted, hglue, hword, htext, -, -, hquoted, haccept⟩ := reaches_iff.mp he
    rw [(tokens_editText (word_chatcmd glue hglue) hword htext).2]
    rcases hquoted with rfl | ⟨rfl, hnil⟩
    · by_cases hg : glue = []
      · subst hg
        rw [List.append_nil] at htext
        exact Or.inl ⟨_, _, _, htext, haccept⟩
      · exact Or.inr ⟨glue, _, _, _, _, hglue, htext, haccept, Or.inl ⟨rfl, hg⟩⟩
    · exact Or.inr ⟨glue, _, _, _, _, hglue, htext, haccept, Or.inr ⟨rfl, hnil⟩⟩
  · rintro (⟨p, a, v, hdoc⟩ | ⟨glue, p, a, quoted, v, hglue, htext, haccept, hquoted⟩)
    · exact ⟨_, reaches_of_documented hid h₁ h₂ hdoc⟩
    · exact ⟨⟨(cutToInt z).toUInt32, p, a, v⟩, reaches_of_form glue hglue hid h₁ h₂ htext rfl
        (hquoted.imp And.left fun h => h) haccept⟩

/-- A text that deviates does not have the documented form. -/
theorem not_documented_of_deviates (hword : Word space id) (h : Deviates host cmdipt id) :
    ¬∃ p a v, Documented host cmdipt id p a v := by
  rintro ⟨p', a', v', htext', -⟩
  obtain ⟨glue, p, a, quoted, v, hglue, htext, -, hquoted⟩ := h
  have hcmd := word_chatcmd glue hglue
  have hcmd' : Word space (chatcmd .editFilter) := List.append_nil (chatcmd .editFilter) ▸ word_chatcmd [] (by simp)
  rcases hquoted with ⟨-, hne⟩ | ⟨rfl, -⟩
  · have hsame := (tokens_editText hcmd hword htext).1.symm.trans (tokens_editText hcmd' hword htext').1
    exact hne (List.append_right_eq_self.mp hsame)
  · have hsame := quoted_editText hcmd hword hcmd' hword ⟨rfl, by decide⟩ ⟨rfl, by decide⟩ htext htext'
    simp at hsame

/-- The handler keeps to the documented form exactly for the texts that do not deviate from it. -/
theorem acceptsDocumented_iff (host : Host) (hid : Written (secondToken cmdipt) z) (h₁ : 1 ≤ z) (h₂ : z ≤ 0x7fffffff) :
    AcceptsDocumented host cmdipt z ↔ ¬Deviates host cmdipt (secondToken cmdipt) := by
  have hreaches := @exists_reaches_iff host cmdipt z hid h₁ h₂
  constructor
  · rintro ⟨hiff, -⟩ hdev
    exact not_documented_of_deviates hid.word hdev (hiff.mp (hreaches.mpr (Or.inr hdev)))
  · intro hno
    refine ⟨hreaches.trans ⟨fun h => h.resolve_right hno, Or.inl⟩, fun p a v hdoc => ?_⟩
    have hedit : Reaches host cmdipt ⟨(cutToInt z).toUInt32, p, a, v⟩ := reaches_of_documented hid h₁ h₂ hdoc
    exact ⟨_, hedit, toNat_cutToInt h₁ h₂, rfl, rfl, rfl, handleEditfilter_of_reaches hedit⟩

end

end

/-! ### Texts that are accepted -/

def titleEdit : Bytes := str "filter.edit 1 titles add \"a\""

/-- The word goes on, and a single mark stands for the value. -/
def gluedEdit : Bytes := str "filter.editx 1 titles add \"a\""

def loneMarkEdit : Bytes := str "filter.edit 1 titles add \""

theorem acceptsDocumented_titleEdit : AcceptsDocumented .literal titleEdit 1 := by
  have hid : secondToken titleEdit = str "1" := by decide
  refine (acceptsDocumented_iff .literal (hid ▸ written_one) (by decide) (by decide)).mpr fun hdev => ?_
  rw [hid] at hdev
  exact not_documented_of_deviates ⟨by decide, by decide⟩ hdev
    ⟨.titles, .add, str "a", ⟨0, 0, 0, 0, by decide⟩, by decide⟩

theorem not_acceptsDocumented :
    Reaches .literal gluedEdit ⟨1, .titles, .add, str "a"⟩ ∧ Reaches .literal loneMarkEdit ⟨1, .titles, .add, []⟩ ∧
      ¬∀ (host : Host) (cmdipt : Bytes) (z : Int), Written (secondToken cmdipt) z → 1 ≤ z → z ≤ 0x7fffffff →
        AcceptsDocumented host cmdipt z := by
  have hlone : Reaches .literal loneMarkEdit ⟨1, .titles, .add, []⟩ := ⟨by decide, by decide⟩
  refine ⟨⟨by decide, by decide⟩, hlone, fun h => ?_⟩
  have hid : secondToken loneMarkEdit = str "1" := by decide
  obtain ⟨hiff, -⟩ := h .literal loneMarkEdit 1 (hid ▸ written_one) (by decide) (by decide)
  have hdoc := hiff.mp ⟨_, hlone⟩
  rw [hid] at hdoc
  exact not_documented_of_deviates ⟨by decide, by decide⟩
    ⟨[], .titles, .add, [quote], [], by simp, ⟨0, 0, 0, 0, by decide⟩, by decide, Or.inr ⟨rfl, rfl⟩⟩ hdoc

end TgFocus
