import TgFocus.Theorems.Edits

/-! What the editing functions do to a group of filters. `add_one` and `del_one` change one list of one
    filter; `add_one` says that it did so even when it did not. `ins_filter` and `rm_filter` undo each other
    as long as the position fits a signed number. An empty group is accessed outside its vector. -/

namespace TgFocus.FilterGroup

section
variable {host : Host} {g g' : FilterGroup} {f : Filter} {p : FilterProperty} {k k' : UInt32} {value : Bytes}

/-! ### Positions -/

theorem one_le_iff : 1 ≤ k ↔ k ≠ 0 := by
  rw [UInt32.le_iff_toNat_le, ne_eq, ← UInt32.toNat_inj]
  exact Nat.one_le_iff_ne_zero

theorem one_le_toNat : 1 ≤ k.toNat ↔ 1 ≤ k := (@UInt32.le_iff_toNat_le 1 k).symm

theorem toNat_sub_one (hk : 1 ≤ k) : (k - 1).toNat = k.toNat - 1 := UInt32.toNat_sub_of_le _ _ hk

theorem toNat_ofNat {n : Nat} (h : n < 0x100000000) : (UInt32.ofNat n).toNat = n := by
  rw [UInt32.toNat_ofNat', Nat.mod_eq_of_lt h]

theorem lastIndex_of_pos {n : Nat} (h : 0 < n) : lastIndex n = n - 1 := if_neg (Nat.ne_of_gt h)

/-- For an empty vector the last index wraps, and no position is behind it. -/
theorem not_lastIndex_zero_lt (idx : UInt32) : ¬idx.toNat > lastIndex 0 := by
  have := idx.toNat_lt
  simp only [lastIndex, ↓reduceIte]
  omega

/-- The group in which `add_one` puts a pattern. -/
def grown (g : FilterGroup) (k : UInt32) : FilterGroup :=
  if g.filters.length < k.toNat then { g with filters := g.filters ++ [{}] } else g

theorem grow_spec (hne : g.filters ≠ []) (hk : 1 ≤ k) :
    ∃ i k' : UInt32, g.grow k = (i, k', g.grown k) ∧ k'.toNat = min k.toNat (g.filters.length + 1) ∧
      i.toNat = k'.toNat - 1 := by
  have hpos := List.length_pos_iff.mpr hne
  have hk' := one_le_toNat.mpr hk
  have hlt := k.toNat_lt
  rw [grow, grown, toNat_sub_one hk, lastIndex_of_pos hpos]
  by_cases hlast : g.filters.length < k.toNat
  · rw [if_pos (by omega), if_pos hlast]
    dsimp only
    rw [List.length_append, List.length_singleton]
    refine ⟨_, _, rfl, ?_, ?_⟩
    · rw [toNat_ofNat (by omega)]
      omega
    · rw [toNat_ofNat (by omega), toNat_ofNat (by omega)]
  · rw [if_neg (by omega), if_neg hlast]
    exact ⟨_, _, rfl, by omega, toNat_sub_one hk⟩

theorem clamp_spec (hne : g.filters ≠ []) (hk : 1 ≤ k) :
    ∃ i k' : UInt32, g.clamp k = (i, k') ∧ k'.toNat = min k.toNat g.filters.length ∧ i.toNat = k'.toNat - 1 := by
  have hpos := List.length_pos_iff.mpr hne
  have hk' := one_le_toNat.mpr hk
  have hlt := k.toNat_lt
  rw [clamp, toNat_sub_one hk, lastIndex_of_pos hpos]
  by_cases hlast : g.filters.length < k.toNat
  · rw [if_pos (by omega)]
    refine ⟨_, _, rfl, ?_, ?_⟩
    · rw [toNat_ofNat (by omega)]
      omega
    · rw [toNat_ofNat (by omega), toNat_ofNat (by omega)]
  · rw [if_neg (by omega)]
    exact ⟨_, _, rfl, by omega, toNat_sub_one hk⟩

/-- The filter that gets the pattern is the old one, or a new one without patterns. -/
theorem getElem?_grown {i : Nat} (hi : i + 1 = min k.toNat (g.filters.length + 1)) :
    (g.grown k).filters[i]? = some (g.filters[i]?.getD {}) := by
  rw [grown]
  split
  · by_cases hlt : i < g.filters.length
    · rw [List.getElem?_append_left hlt, List.getElem?_eq_getElem hlt, Option.getD_some]
    · obtain rfl : i = g.filters.length := by omega
      rw [List.getElem?_concat_length, List.getElem?_eq_none (Nat.le_refl _), Option.getD_none]
  · rw [List.getElem?_eq_getElem (by omega), Option.getD_some]

theorem getElem?_grown_ne {i j : Nat} (hi : i + 1 = min k.toNat (g.filters.length + 1)) (hj : j ≠ i) :
    (g.grown k).filters[j]? = g.filters[j]? := by
  rw [grown]
  split
  · rw [List.getElem?_append]
    split
    · rfl
    · rw [List.getElem?_eq_none (by simp; omega), List.getElem?_eq_none (by omega)]
  · rfl

/-! ### What the functions return -/

theorem not_lt_one (hk : 1 ≤ k) : ¬k < 1 := UInt32.not_lt.mpr hk

theorem addOne_accepted (hne : g.filters ≠ []) (hk : 1 ≤ k)
    (haccept : (PosixExtRegex.ofPattern host value).isPatternAccept = true) :
    ∃ k', k'.toNat = min k.toNat (g.filters.length + 1) ∧
      g.addOne host k p value = some (true, k', { g with
        filters := (g.grown k).filters.set (k'.toNat - 1)
          ((g.filters[k'.toNat - 1]?.getD {}).modify p (· ++ [.ofPattern host value])) }) := by
  obtain ⟨i, k', hgrow, hk', hi⟩ := grow_spec hne hk
  have hpos := one_le_toNat.mpr hk
  refine ⟨k', hk', ?_⟩
  rw [addOne, if_neg (not_lt_one hk), hgrow]
  dsimp only
  rw [haccept, hi, getElem?_grown (by omega), if_neg (by decide)]
  simp only [grown]
  split <;> rfl

theorem addOne_refused (hk : 1 ≤ k) (hrefuse : (PosixExtRegex.ofPattern host value).isPatternAccept = false) :
    g.addOne host k p value = some (true, (g.grow k).2.1, (g.grow k).2.2) := by
  rw [addOne, if_neg (not_lt_one hk)]
  dsimp only
  rw [hrefuse]
  rfl

theorem delOne_refused (hk : 1 ≤ k) (hrefuse : (PosixExtRegex.ofPattern host value).isPatternAccept = false) :
    g.delOne host k p value = some (false, (g.clamp k).2, g) := by
  rw [delOne, if_neg (not_lt_one hk)]
  dsimp only
  rw [hrefuse]
  rfl

theorem delOne_accepted (hne : g.filters ≠ []) (hk : 1 ≤ k)
    (haccept : (PosixExtRegex.ofPattern host value).isPatternAccept = true) :
    ∃ k' f, k'.toNat = min k.toNat g.filters.length ∧ g.filters[k'.toNat - 1]? = some f ∧
      g.delOne host k p value = some (true, k', { g with
        filters := g.filters.set (k'.toNat - 1) (f.modify p (·.eraseP (·.ptn = value))) }) := by
  obtain ⟨i, k', hclamp, hk', hi⟩ := clamp_spec hne hk
  have hpos := List.length_pos_iff.mpr hne
  have hkpos := one_le_toNat.mpr hk
  have hlt : k'.toNat - 1 < g.filters.length := by omega
  refine ⟨k', _, hk', List.getElem?_eq_getElem hlt, ?_⟩
  rw [delOne, if_neg (not_lt_one hk), hclamp]
  dsimp only
  rw [haccept, hi, List.getElem?_eq_getElem hlt, if_neg (by decide)]

theorem rmFilter_eq (hne : g.filters ≠ []) (hk : 1 ≤ k) :
    g.rmFilter k = some (if g.filters.length = 1 ∨ g.filters.length < k.toNat then (false, g)
      else (true, { g with filters := g.filters.eraseIdx (k.toNat - 1) })) := by
  have hpos := List.length_pos_iff.mpr hne
  have hkpos := one_le_toNat.mpr hk
  rw [rmFilter, toNat_sub_one hk, lastIndex_of_pos hpos]
  by_cases hbad : g.filters.length = 1 ∨ g.filters.length < k.toNat
  · rw [if_pos hbad, if_pos (by omega)]
  · rw [if_neg hbad, if_neg (by omega), if_pos (by omega)]

theorem toInt_toInt32 (u : UInt32) :
    u.toInt32.toInt = if u.toNat < 0x80000000 then (u.toNat : Int) else u.toNat - 0x100000000 := by
  have h : u.toInt32.toInt = _ := BitVec.toInt_eq_toNat_cond u.toBitVec
  rw [UInt32.toNat_toBitVec] at h
  rw [h]
  by_cases hu : u.toNat < 0x80000000
  · rw [if_pos hu, if_pos (by omega)]
  · rw [if_neg hu, if_neg (by omega)]
    rfl

/-- The position of `ins_filter` is computed in 32 bits with a sign. -/
theorem insFilter_eq (hk : 1 ≤ k) :
    g.insFilter host k none =
      if k.toNat ≤ 0x80000000 then
        (true, UInt32.ofNat (min k.toNat (g.filters.length + 1)), { g with
          filters := g.filters.insertIdx (min k.toNat (g.filters.length + 1) - 1)
            { keywords := [.ofPattern host (str "tg-focus")] } })
      else (false, k, g) := by
  have hkpos := one_le_toNat.mpr hk
  have hlt := k.toNat_lt
  have hint := toInt_toInt32 (k - 1)
  rw [toNat_sub_one hk] at hint
  rw [insFilter]
  dsimp only
  by_cases hsign : k.toNat ≤ 0x80000000
  · rw [if_pos (by omega)] at hint
    have hnonneg : ¬(k - 1).toInt32 < 0 := by
      rw [Int32.lt_iff_toInt_lt, hint, Int32.toInt_zero]
      omega
    have hclamp : (k - 1).toInt32.toNatClampNeg = k.toNat - 1 := by
      rw [← Int32.toNat_toInt, hint]
      omega
    have hpos : (if k.toNat - 1 > g.filters.length then g.filters.length else k.toNat - 1) =
        min k.toNat (g.filters.length + 1) - 1 := by
      split <;> omega
    rw [if_neg hnonneg, if_pos hsign, hclamp, hpos, Nat.sub_add_cancel (by omega)]
    rfl
  · rw [if_neg (by omega)] at hint
    have hneg : (k - 1).toInt32 < 0 := by
      rw [Int32.lt_iff_toInt_lt, hint, Int32.toInt_zero]
      omega
    rw [if_pos hneg, if_neg hsign]

/-! ### Adding and removing patterns -/

/-- Of all the lists of all filters only that of the property in the filter at the position is another one;
    a filter behind the last one counts as one without patterns. -/
structure EditsOnly (g g' : FilterGroup) (i : Nat) (p : FilterProperty) (list' : List PosixExtRegex) : Prop where
  others : ∀ j ≠ i, g'.filters[j]? = g.filters[j]?
  edited : ∃ f', g'.filters[i]? = some f' ∧ f'.list p = list' ∧
    ∀ q ≠ p, f'.list q = (g.filters[i]?.getD {}).list q
  visited : g'.iPrevVisited = g.iPrevVisited

theorem editsOnly_set {i : Nat} {fs : List Filter} {t : List PosixExtRegex → List PosixExtRegex}
    (hothers : ∀ j ≠ i, fs[j]? = g.filters[j]?) (hi : fs[i]? = some f) (hf : g.filters[i]?.getD {} = f) :
    EditsOnly g { g with filters := fs.set i (f.modify p t) } i p (t (f.list p)) where
  others j hj := by
    rw [List.getElem?_set_ne (Ne.symm hj)]
    exact hothers j hj
  edited := by
    obtain ⟨hlt, -⟩ := List.getElem?_eq_some_iff.mp hi
    refine ⟨_, List.getElem?_set_self hlt, ?_, fun q hq => ?_⟩
    · rw [Filter.list_modify, if_pos rfl]
    · rw [Filter.list_modify, if_neg hq, hf]
  visited := rfl

/-- The value has been added to the end of the list of the filter that is reported. -/
def Appended (host : Host) (g g' : FilterGroup) (k' : UInt32) (p : FilterProperty) (value : Bytes) : Prop :=
  1 ≤ k' ∧ ∃ f', g'.filters[k'.toNat - 1]? = some f' ∧
    f'.list p = (g.filters[k'.toNat - 1]?.getD {}).list p ++ [.ofPattern host value]

/-- The first pattern that is the value is gone from the list, if there is one. -/
def ErasedFirst (value : Bytes) (list list' : List PosixExtRegex) : Prop :=
  ((∀ re ∈ list, re.ptn ≠ value) ∧ list' = list) ∨
    ∃ before re after, list = before ++ re :: after ∧ (∀ re' ∈ before, re'.ptn ≠ value) ∧ re.ptn = value ∧
      list' = before ++ after

theorem erasedFirst_eraseP {list : List PosixExtRegex} :
    ErasedFirst value list (list.eraseP (·.ptn = value)) := by
  by_cases h : ∃ re ∈ list, re.ptn = value
  · obtain ⟨re, hre, hptn⟩ := h
    obtain ⟨re', before, after, hbefore, hptn', hlist, heq⟩ :=
      List.exists_of_eraseP (p := (·.ptn = value)) hre (by simpa using hptn)
    exact Or.inr ⟨before, re', after, hlist, by simpa using hbefore, by simpa using hptn', heq⟩
  · have hno : ∀ re ∈ list, re.ptn ≠ value := fun re hre hptn => h ⟨re, hre, hptn⟩
    exact Or.inl ⟨hno, List.eraseP_of_forall_not (by simpa using hno)⟩

theorem addOne_edits (p : FilterProperty) (hne : g.filters ≠ []) (hk : 1 ≤ k)
    (haccept : (PosixExtRegex.ofPattern host value).isPatternAccept = true) :
    ∃ k' g', g.addOne host k p value = some (true, k', g') ∧ k'.toNat = min k.toNat (g.filters.length + 1) ∧
      g'.filters.length = g.filters.length + (if g.filters.length < k.toNat then 1 else 0) ∧
      EditsOnly g g' (k'.toNat - 1) p
        ((g.filters[k'.toNat - 1]?.getD {}).list p ++ [.ofPattern host value]) := by
  have hkpos := one_le_toNat.mpr hk
  obtain ⟨k', hk', hadd⟩ := addOne_accepted (p := p) hne hk haccept
  refine ⟨k', _, hadd, hk', ?_, ?_⟩
  · rw [List.length_set, grown]
    split <;> simp
  · exact editsOnly_set (t := (· ++ [PosixExtRegex.ofPattern host value]))
      (fun j hj => getElem?_grown_ne (by omega) hj) (getElem?_grown (by omega)) rfl

theorem delOne_edits (p : FilterProperty) (hne : g.filters ≠ []) (hk : 1 ≤ k)
    (haccept : (PosixExtRegex.ofPattern host value).isPatternAccept = true) :
    ∃ k' g', g.delOne host k p value = some (true, k', g') ∧ k'.toNat = min k.toNat g.filters.length ∧
      g'.filters.length = g.filters.length ∧
      ∃ f list', g.filters[k'.toNat - 1]? = some f ∧ ErasedFirst value (f.list p) list' ∧
        EditsOnly g g' (k'.toNat - 1) p list' := by
  obtain ⟨k', f, hk', hf, hdel⟩ := delOne_accepted (p := p) hne hk haccept
  exact ⟨k', _, hdel, hk', List.length_set, f, _, hf, erasedFirst_eraseP,
    editsOnly_set (fun _ _ => rfl) hf (by rw [hf, Option.getD_some])⟩

/-- An added pattern goes to the end of the list of one filter, which may be a new last one; of a removed
    one the first is taken from the list of one filter. Nothing else changes, and the id is that of the
    filter. -/
theorem edits_touch_only (p : FilterProperty) (hne : g.filters ≠ []) (hk : 1 ≤ k)
    (haccept : (PosixExtRegex.ofPattern host value).isPatternAccept = true) :
    (∃ k' g', g.addOne host k p value = some (true, k', g') ∧ k'.toNat = min k.toNat (g.filters.length + 1) ∧
      g'.filters.length = g.filters.length + (if g.filters.length < k.toNat then 1 else 0) ∧
      EditsOnly g g' (k'.toNat - 1) p
        ((g.filters[k'.toNat - 1]?.getD {}).list p ++ [.ofPattern host value])) ∧
    ∃ k' g', g.delOne host k p value = some (true, k', g') ∧ k'.toNat = min k.toNat g.filters.length ∧
      g'.filters.length = g.filters.length ∧
      ∃ f list', g.filters[k'.toNat - 1]? = some f ∧ ErasedFirst value (f.list p) list' ∧
        EditsOnly g g' (k'.toNat - 1) p list' :=
  ⟨addOne_edits p hne hk haccept, delOne_edits p hne hk haccept⟩

def oneFilter : FilterGroup := { filters := [{}] }

theorem edits_touch_only_oneFilter :
    ∃ k' g', oneFilter.addOne .literal 5 .titles (str "a") = some (true, k', g') ∧ k'.toNat = 2 ∧
      g'.filters.length = 2 := by
  obtain ⟨⟨k', g', hadd, hk', hlen, -⟩, -⟩ :=
    @edits_touch_only .literal oneFilter 5 (str "a") .titles (by decide) (by decide) (by decide)
  exact ⟨k', g', hadd, hk', hlen⟩

/-- What is added is appended, and what is not leaves the group and the id as they were. -/
def AllOrNothing (host : Host) (g : FilterGroup) (k : UInt32) (p : FilterProperty) (value : Bytes) : Prop :=
  ∃ b k' g', g.addOne host k p value = some (b, k', g') ∧ (b = true ↔ Appended host g g' k' p value) ∧
    (b = false → g' = g ∧ k' = k)

/-- `add_one` tells the truth exactly when it adds the pattern: there is an id and the pattern is valid. -/
theorem allOrNothing_iff (k : UInt32) (p : FilterProperty) (value : Bytes) (hne : g.filters ≠ []) :
    AllOrNothing host g k p value ↔
      1 ≤ k ∧ (PosixExtRegex.ofPattern host value).isPatternAccept = true := by
  constructor
  · rintro ⟨b, k', g', hadd, htrue, -⟩
    by_cases hk : 1 ≤ k
    · refine ⟨hk, ?_⟩
      by_contra hrefuse
      obtain ⟨i, k₁, hgrow, hk₁, -⟩ := grow_spec hne hk
      rw [addOne_refused hk (by simpa using hrefuse), hgrow] at hadd
      cases hadd
      have hkpos := one_le_toNat.mpr hk
      obtain ⟨-, f', hf', happended⟩ := htrue.mp rfl
      -- the list of the filter is as long as before
      rw [getElem?_grown (by dsimp only; omega)] at hf'
      cases hf'
      simp at happended
    · rw [addOne, if_pos (UInt32.not_le.mp hk)] at hadd
      cases hadd
      exact absurd (htrue.mp rfl).1 hk
  · rintro ⟨hk, haccept⟩
    obtain ⟨k', g', hadd, hk', -, hedit⟩ := addOne_edits p hne hk haccept
    have hkpos := one_le_toNat.mpr hk
    have hk'pos : 1 ≤ k' := one_le_toNat.mp (by omega)
    obtain ⟨f', hf', hlist, -⟩ := hedit.edited
    exact ⟨true, k', g', hadd, iff_of_true rfl ⟨hk'pos, f', hf', hlist⟩, fun h => by cases h⟩

theorem allOrNothing_oneFilter : AllOrNothing .literal oneFilter 1 .titles (str "a") :=
  (allOrNothing_iff 1 .titles (str "a") (by decide)).mpr ⟨by decide, by decide⟩

/-- A host that knows that a bracket has to be closed. -/
def bracketHost : Host := { Host.literal with regcomp := fun ptn => if ptn = str "[" then 7 else 0 }

/-- A pattern that is refused leaves a second filter behind, and is said to have been added. -/
theorem not_allOrNothing :
    oneFilter.addOne bracketHost 2 .titles (str "[") = some (true, 2, { filters := [{}, {}] }) ∧
      ¬∀ (host : Host) (g : FilterGroup) (k : UInt32) (p : FilterProperty) (value : Bytes), g.filters ≠ [] →
        AllOrNothing host g k p value := by
  have hadd : oneFilter.addOne bracketHost 2 .titles (str "[") = some (true, 2, { filters := [{}, {}] }) := by
    decide
  refine ⟨hadd, fun h => ?_⟩
  obtain ⟨b, k', g', hadd', htrue, -⟩ := h bracketHost oneFilter 2 .titles (str "[") (by decide)
  rw [hadd] at hadd'
  cases hadd'
  obtain ⟨-, f', hf', happended⟩ := htrue.mp rfl
  cases hf'
  cases happended

/-! ### Inserting and removing filters -/

/-- One new filter is placed, with the keyword `tg-focus`, and removing the filter at the position that is
    reported gives the group back. The position is computed as an `i32`. -/
def InsertedRemoved (host : Host) (g : FilterGroup) (k : UInt32) : Prop :=
  ∃ k' g', g.insFilter host k none = (true, k', g') ∧ k'.toNat = min k.toNat (g.filters.length + 1) ∧
    k'.toNat ≤ 0x7fffffff ∧
    g'.filters = g.filters.take (k'.toNat - 1) ++
      { keywords := [.ofPattern host (str "tg-focus")] } :: g.filters.drop (k'.toNat - 1) ∧
    g'.rmFilter k' = some (true, g)

theorem insertIdx_eq_take_append {α : Type} {l : List α} {i : Nat} {x : α} (hi : i ≤ l.length) :
    l.insertIdx i x = l.take i ++ x :: l.drop i := by
  induction i generalizing l with
  | zero => simp
  | succ i ih =>
    obtain ⟨y, l, rfl⟩ := List.exists_cons_of_length_pos (Nat.lt_of_lt_of_le (Nat.succ_pos i) hi)
    rw [List.insertIdx_succ_cons, ih (Nat.le_of_succ_le_succ hi), List.take_succ_cons, List.drop_succ_cons,
      List.cons_append]

/-- Inserting is undone exactly at the positions that an `i32` can hold. -/
theorem insertedRemoved_iff (hne : g.filters ≠ []) (hk : 1 ≤ k) :
    InsertedRemoved host g k ↔ k.toNat ≤ 0x80000000 ∧ min k.toNat (g.filters.length + 1) ≤ 0x7fffffff := by
  have hkpos := one_le_toNat.mpr hk
  have hpos := List.length_pos_iff.mpr hne
  constructor
  · rintro ⟨k', g', hins, hk', hfits, -, -⟩
    rw [insFilter_eq hk] at hins
    split at hins
    · exact ⟨‹_›, hk' ▸ hfits⟩
    · cases hins
  · rintro ⟨hle, hfits⟩
    have hto := toNat_ofNat (n := min k.toNat (g.filters.length + 1)) (by omega)
    have hins : g.insFilter host k none = _ := insFilter_eq hk
    rw [if_pos hle] at hins
    have hk'pos : 1 ≤ UInt32.ofNat (min k.toNat (g.filters.length + 1)) := one_le_toNat.mp (by omega)
    have hle' : min k.toNat (g.filters.length + 1) - 1 ≤ g.filters.length := by omega
    refine ⟨_, _, hins, hto, by rwa [hto], by rw [hto, insertIdx_eq_take_append hle'], ?_⟩
    rw [rmFilter_eq (by rw [← List.length_pos_iff, List.length_insertIdx_of_le_length hle']; omega) hk'pos, hto]
    rw [List.length_insertIdx_of_le_length hle', if_neg (by omega), List.eraseIdx_insertIdx_self]

theorem insertedRemoved_oneFilter : InsertedRemoved .literal oneFilter 1 :=
  (insertedRemoved_iff (by decide) (by decide)).mpr ⟨by decide, by decide⟩

/-- The id that is passed when the user gives none is refused. -/
theorem not_insertedRemoved :
    oneFilter.insFilter .literal 0xffffffff none = (false, 0xffffffff, oneFilter) ∧
      ¬∀ (host : Host) (g : FilterGroup) (k : UInt32), g.filters ≠ [] → 1 ≤ k → InsertedRemoved host g k := by
  have hins : oneFilter.insFilter .literal 0xffffffff none = (false, 0xffffffff, oneFilter) := by decide
  refine ⟨hins, fun h => ?_⟩
  obtain ⟨k', g', hins', -⟩ := h .literal oneFilter 0xffffffff (by decide) (by decide)
  rw [hins] at hins'
  cases hins'

/-! ### Accesses -/

theorem isEffective_iff : g.isEffective = true ↔ g.filters ≠ [] := by
  rw [isEffective, decide_eq_true_iff, gt_iff_lt, List.length_pos_iff]

theorem addOne_of_nil (hnil : g.filters = []) (hk : 1 ≤ k)
    (haccept : (PosixExtRegex.ofPattern host value).isPatternAccept = true) : g.addOne host k p value = none := by
  have hgrow : g.grow k = (k - 1, k, g) := by
    rw [grow, hnil, List.length_nil]
    exact if_neg (not_lastIndex_zero_lt _)
  rw [addOne, if_neg (not_lt_one hk), hgrow]
  dsimp only
  rw [haccept, hnil, List.getElem?_nil, if_neg (by decide)]

theorem delOne_of_nil (hnil : g.filters = []) (hk : 1 ≤ k)
    (haccept : (PosixExtRegex.ofPattern host value).isPatternAccept = true) : g.delOne host k p value = none := by
  have hclamp : g.clamp k = (k - 1, k) := by
    rw [clamp, hnil, List.length_nil]
    exact if_neg (not_lastIndex_zero_lt _)
  rw [delOne, if_neg (not_lt_one hk), hclamp]
  dsimp only
  rw [haccept, hnil, List.getElem?_nil, if_neg (by decide)]

theorem rmFilter_of_nil (hnil : g.filters = []) : g.rmFilter k = none := by
  rw [rmFilter, hnil, List.length_nil]
  rw [if_neg (by simpa using not_lastIndex_zero_lt _), if_neg (by simp)]

/-- Both functions come to their access with an id and a valid pattern only. -/
theorem isSome_iff_of_access {r : Option (Bool × UInt32 × FilterGroup)} (hid : k < 1 → r.isSome = true)
    (hrefuse : 1 ≤ k → (PosixExtRegex.ofPattern host value).isPatternAccept = false → r.isSome = true)
    (haccess : 1 ≤ k → (PosixExtRegex.ofPattern host value).isPatternAccept = true →
      (r.isSome = true ↔ g.filters ≠ [])) :
    r.isSome = true ↔ g.filters ≠ [] ∨ k = 0 ∨ (PosixExtRegex.ofPattern host value).isPatternAccept = false := by
  by_cases hk : 1 ≤ k
  · cases hre : (PosixExtRegex.ofPattern host value).isPatternAccept with
    | false => exact iff_of_true (hrefuse hk hre) (Or.inr (Or.inr rfl))
    | true => simp [haccess hk hre, one_le_iff.mp hk]
  · have hzero : k = 0 := not_not.mp fun h => hk (one_le_iff.mpr h)
    exact iff_of_true (hid (UInt32.not_le.mp hk)) (Or.inr (Or.inl hzero))

theorem addOne_isSome_iff : (g.addOne host k p value).isSome = true ↔
    g.filters ≠ [] ∨ k = 0 ∨ (PosixExtRegex.ofPattern host value).isPatternAccept = false := by
  refine isSome_iff_of_access (fun hk => ?_) (fun hk hrefuse => ?_) fun hk haccept => ?_
  · rw [addOne, if_pos hk]
    rfl
  · rw [addOne_refused hk hrefuse]
    rfl
  · by_cases hnil : g.filters = []
    · simp [addOne_of_nil hnil hk haccept, hnil]
    · obtain ⟨k', -, hadd⟩ := addOne_accepted (p := p) hnil hk haccept
      exact iff_of_true (by rw [hadd]; rfl) hnil

theorem delOne_isSome_iff : (g.delOne host k p value).isSome = true ↔
    g.filters ≠ [] ∨ k = 0 ∨ (PosixExtRegex.ofPattern host value).isPatternAccept = false := by
  refine isSome_iff_of_access (fun hk => ?_) (fun hk hrefuse => ?_) fun hk haccept => ?_
  · rw [delOne, if_pos hk]
    rfl
  · rw [delOne_refused hk hrefuse]
    rfl
  · by_cases hnil : g.filters = []
    · simp [delOne_of_nil hnil hk haccept, hnil]
    · obtain ⟨k', f, -, -, hdel⟩ := delOne_accepted (p := p) hnil hk haccept
      exact iff_of_true (by rw [hdel]; rfl) hnil

theorem rmFilter_isSome_iff : (g.rmFilter k).isSome = true ↔ g.filters ≠ [] := by
  by_cases hnil : g.filters = []
  · simp [rmFilter_of_nil hnil, hnil]
  · refine iff_of_true ?_ hnil
    have hpos := List.length_pos_iff.mpr hnil
    rw [rmFilter, lastIndex_of_pos hpos]
    split
    · rfl
    · rw [if_pos (by omega)]
      rfl

/-- Of the groups that a text can have, the editing functions stay inside the vector of each that has a
    filter; in one without filters, those that do not come to the access do. -/
theorem accesses_inside_iff (host : Host) (text : Bytes) (k : UInt32) (p : FilterProperty) (value : Bytes) :
    let g := FilterGroupToml host text
    ((g.addOne host k p value).isSome = true ↔
        g.isEffective = true ∨ k = 0 ∨ (PosixExtRegex.ofPattern host value).isPatternAccept = false) ∧
      ((g.delOne host k p value).isSome = true ↔
        g.isEffective = true ∨ k = 0 ∨ (PosixExtRegex.ofPattern host value).isPatternAccept = false) ∧
      ((g.rmFilter k).isSome = true ↔ g.isEffective = true) := by
  simp only [isEffective_iff]
  exact ⟨addOne_isSome_iff, delOne_isSome_iff, rmFilter_isSome_iff⟩

end

/-- A host that reads the text in which the array of filters is empty. -/
def emptyArrayHost : Host :=
  { Host.literal with
    tomlParse := fun text =>
      if text = str "focus-filter = []" then some (.table [(str "focus-filter", .array [])])
      else Host.literal.tomlParse text }

/-- The text without filters gives a group in which the editing functions access what is not there. -/
theorem not_accesses_inside :
    (FilterGroupToml emptyArrayHost (str "focus-filter = []")).addOne emptyArrayHost 1 .titles (str "a") = none ∧
      (FilterGroupToml emptyArrayHost (str "focus-filter = []")).delOne emptyArrayHost 1 .titles (str "a") = none ∧
      (FilterGroupToml emptyArrayHost (str "focus-filter = []")).rmFilter 1 = none := by
  decide

end TgFocus.FilterGroup
