import TgFocus.Library.FirstDecision
import TgFocus.Theorems.Decision
import TgFocus.Theorems.GroupEdits

/-! How an edit shifts what a group decides. Rejecting is below skipping and skipping below accepting; in
    this order an edit of one list moves what its filter says in one direction for all messages, and a group
    whose filters say more favourable things accepts what it accepted before. -/

namespace TgFocus
open FirstDecision

/-! ### The order of decisions -/

def FocusDecision.rank : FocusDecision → Nat
  | .reject => 0
  | .skip => 1
  | .accept => 2

instance : PartialOrder FocusDecision := PartialOrder.lift FocusDecision.rank fun a b h => by
  cases a <;> cases b <;> first | rfl | cases h

theorem FocusDecision.le_iff {a b : FocusDecision} : a ≤ b ↔ a.rank ≤ b.rank := Iff.rfl

theorem FocusDecision.skip_lt_iff {a : FocusDecision} : FocusDecision.skip < a ↔ a = .accept := by
  rw [lt_iff_le_not_ge, le_iff, le_iff]
  cases a <;> decide

/-! ### Filters -/

def noProperties : List FilterProperty := [.noTitles, .noSenders, .noKeywords]

def properties : List FilterProperty := [.titles, .senders, .keywords]

/-- What the patterns of a property are matched with. -/
def FilterProperty.field (m : TgMsg) : FilterProperty → Bytes
  | .titles | .noTitles => m.title
  | .senders | .noSenders => m.sender
  | .keywords | .noKeywords => m.txt

/-- A list of one of the properties without `no-` lets a text pass. -/
def Passes (host : Host) (list : List PosixExtRegex) (s : Bytes) : Prop := list = [] ∨ ∃ re ∈ list, re.Matches host s

section
variable {host : Host} {m : TgMsg} {f f' : Filter} {p : FilterProperty} {g g' : FilterGroup} {k : UInt32}
  {value s : Bytes} {list list' : List PosixExtRegex}

namespace Filter

theorem rejects_iff : f.Rejects host m ↔ ∃ p ∈ noProperties, ∃ re ∈ f.list p, re.Matches host (p.field m) := by
  simp [Rejects, noProperties, list, FilterProperty.field]

theorem accepts_iff : f.Accepts host m ↔ ∀ p ∈ properties, Passes host (f.list p) (p.field m) := by
  simp [Accepts, properties, list, FilterProperty.field, Passes]

theorem mtchTgmsg_le (hr : f'.Rejects host m → f.Rejects host m) (ha : f.Accepts host m → f'.Accepts host m) :
    f.mtchTgmsg host m ≤ f'.mtchTgmsg host m := by
  rw [mtchTgmsg_eq, mtchTgmsg_eq, FocusDecision.le_iff]
  by_cases hr' : f'.Rejects host m
  · simp [hr', hr hr', FocusDecision.rank]
  · by_cases hrej : f.Rejects host m
    · simp [hrej, FocusDecision.rank]
    · by_cases hacc : f.Accepts host m
      · simp [hr', hrej, hacc, ha hacc]
      · simp only [hr', hrej, hacc, ↓reduceIte]
        split <;> decide

/-- Two filters that differ in one list: fewer patterns of a `no-` list, and more texts that pass another. -/
theorem mtchTgmsg_le_of_list (hothers : ∀ q ≠ p, f'.list q = f.list q)
    (hno : p ∈ noProperties → ∀ re ∈ f'.list p, re ∈ f.list p)
    (hpos : p ∈ properties → ∀ s, Passes host (f.list p) s → Passes host (f'.list p) s) (m : TgMsg) :
    f.mtchTgmsg host m ≤ f'.mtchTgmsg host m := by
  refine mtchTgmsg_le (fun hr => ?_) fun ha => ?_
  · obtain ⟨q, hq, re, hre, hmatch⟩ := rejects_iff.mp hr
    refine rejects_iff.mpr ⟨q, hq, re, ?_, hmatch⟩
    by_cases hqp : q = p
    · subst hqp
      exact hno hq re hre
    · rwa [hothers q hqp] at hre
  · refine accepts_iff.mpr fun q hq => ?_
    have hpass := accepts_iff.mp ha q hq
    by_cases hqp : q = p
    · subst hqp
      exact hpos hq _ hpass
    · rwa [hothers q hqp]

end Filter

/-! ### Lists -/

theorem FilterGroup.ErasedFirst.mem (h : FilterGroup.ErasedFirst value list list') : ∀ re ∈ list', re ∈ list := by
  rcases h with ⟨-, rfl⟩ | ⟨before, re, after, rfl, -, -, rfl⟩
  · exact fun re hre => hre
  · intro re' hre'
    rw [List.mem_append] at hre' ⊢
    exact hre'.imp_right (List.mem_cons_of_mem _)

theorem passes_concat {re : PosixExtRegex} (hne : list ≠ []) (h : Passes host list s) : Passes host (list ++ [re]) s := by
  obtain ⟨re', hre', hmatch⟩ := h.resolve_left hne
  exact Or.inr ⟨re', List.mem_append_left _ hre', hmatch⟩

theorem passes_erased (hlen : list.length ≤ 1) (h : FilterGroup.ErasedFirst value list list') (hp : Passes host list s) :
    Passes host list' s := by
  rcases h with ⟨-, rfl⟩ | ⟨before, re, after, rfl, -, -, rfl⟩
  · exact hp
  · left
    rw [← List.length_eq_zero_iff]
    simp only [List.length_append, List.length_cons] at hlen ⊢
    omega

theorem passes_of_erased (hlen : 2 ≤ list.length) (h : FilterGroup.ErasedFirst value list list')
    (hp : Passes host list' s) : Passes host list s := by
  rcases hp with hnil | ⟨re, hre, hmatch⟩
  · rcases h with ⟨-, rfl⟩ | ⟨before, re, after, rfl, -, -, rfl⟩
    · exact Or.inl hnil
    · rw [← List.length_eq_zero_iff] at hnil
      simp only [List.length_append, List.length_cons] at hlen hnil
      omega
  · exact Or.inr ⟨re, h.mem re hre, hmatch⟩

/-! ### Groups -/

namespace FilterGroup

/-- The loop looks for the first filter that does not skip the message. -/
theorem mtchLoop_iff_first {fs : List Filter} {n : Nat} :
    (mtchLoop host m fs n).1 = true ↔ FocusDecision.skip < first .skip (fs.map (·.mtchTgmsg host m)) := by
  rw [FocusDecision.skip_lt_iff]
  induction fs generalizing n with
  | nil => simp [mtchLoop]
  | cons f fs ih =>
    rw [List.map_cons, mtchLoop]
    cases hf : f.mtchTgmsg host m with
    | accept => simp [first_cons_of_ne]
    | skip => simpa using ih
    | reject => simp [first_cons_of_ne]

/-- No message that the first group accepts is refused by the second. -/
def NeverRefuses (host : Host) (g g' : FilterGroup) : Prop :=
  ∀ m, (g.mtchTgmsg host m).1 = true → (g'.mtchTgmsg host m).1 = true

/-- No message that the first group refuses is accepted by the second. -/
def NeverAccepts (host : Host) (g g' : FilterGroup) : Prop :=
  ∀ m, (g.mtchTgmsg host m).1 = false → (g'.mtchTgmsg host m).1 = false

theorem neverAccepts_of_neverRefuses (h : NeverRefuses host g' g) : NeverAccepts host g g' := by
  intro m hno
  by_contra hyes
  rw [h m (by simpa using hyes)] at hno
  cases hno

theorem neverRefuses_of_forall₂
    (h : ∀ m, List.Forall₂ (fun f f' => f.mtchTgmsg host m ≤ f'.mtchTgmsg host m) g.filters g'.filters) :
    NeverRefuses host g g' := by
  intro m hacc
  refine mtchLoop_iff_first.mpr (lt_first_of_forall₂ ?_ (mtchLoop_iff_first.mp hacc))
  rw [List.forall₂_map_left_iff, List.forall₂_map_right_iff]
  exact h m

/-- An edit of one filter compares all filters at their places. -/
theorem forall₂_of_edit {r : Filter → Filter → Prop} {i : Nat} (hlen : g'.filters.length = g.filters.length)
    (h : EditsOnly g g' i p list') (hf : g.filters[i]? = some f) (hrefl : ∀ f, r f f)
    (hr : ∀ f', f'.list p = list' → (∀ q ≠ p, f'.list q = f.list q) → r f f') :
    List.Forall₂ r g.filters g'.filters := by
  refine List.forall₂_iff_get.mpr ⟨hlen.symm, fun j hj hj' => ?_⟩
  rw [List.get_eq_getElem, List.get_eq_getElem]
  by_cases hji : j = i
  · subst hji
    obtain ⟨f', hf', hlist, hothers⟩ := h.edited
    rw [hf, Option.getD_some] at hothers
    obtain ⟨_, hget⟩ := List.getElem?_eq_some_iff.mp hf
    obtain ⟨_, hget'⟩ := List.getElem?_eq_some_iff.mp hf'
    rw [hget, hget']
    exact hr f' hlist hothers
  · have heq := h.others j hji
    rw [List.getElem?_eq_getElem hj, List.getElem?_eq_getElem hj'] at heq
    rw [Option.some.inj heq]
    exact hrefl _

section
variable {i : Nat}

/-- What the edited list rejects and lets pass decides the direction of the edit. -/
theorem neverRefuses_of_edit (hlen : g'.filters.length = g.filters.length) (h : EditsOnly g g' i p list')
    (hf : g.filters[i]? = some f) (hno : p ∈ noProperties → ∀ re ∈ list', re ∈ f.list p)
    (hpos : p ∈ properties → ∀ s, Passes host (f.list p) s → Passes host list' s) : NeverRefuses host g g' := by
  refine neverRefuses_of_forall₂ fun m => forall₂_of_edit hlen h hf (fun _ => le_rfl) fun f' hlist hothers => ?_
  rw [← hlist] at hno hpos
  exact Filter.mtchTgmsg_le_of_list hothers hno hpos m

theorem neverAccepts_of_edit (hlen : g'.filters.length = g.filters.length) (h : EditsOnly g g' i p list')
    (hf : g.filters[i]? = some f) (hno : p ∈ noProperties → ∀ re ∈ f.list p, re ∈ list')
    (hpos : p ∈ properties → ∀ s, Passes host list' s → Passes host (f.list p) s) : NeverAccepts host g g' := by
  refine neverAccepts_of_neverRefuses (neverRefuses_of_forall₂ fun m => List.Forall₂.flip ?_)
  refine forall₂_of_edit hlen h hf (fun _ => le_rfl) fun f' hlist hothers => ?_
  rw [← hlist] at hno hpos
  exact Filter.mtchTgmsg_le_of_list (fun q hq => (hothers q hq).symm) hno hpos m

end

/-- Adding to a `no-` list, or the first pattern to another, makes no refused message accepted; adding one
    more to another makes no accepted message refused. Removing does the converse. -/
theorem edits_shift_decision (host : Host) (p : FilterProperty) (hk : 1 ≤ k)
    (hf : g.filters[k.toNat - 1]? = some f) (haccept : (PosixExtRegex.ofPattern host value).isPatternAccept = true) :
    (∃ k' g', g.addOne host k p value = some (true, k', g') ∧
      (p ∈ noProperties → NeverAccepts host g g') ∧
      (p ∈ properties → f.list p = [] → NeverAccepts host g g') ∧
      (p ∈ properties → f.list p ≠ [] → NeverRefuses host g g')) ∧
    ∃ k' g', g.delOne host k p value = some (true, k', g') ∧
      (p ∈ noProperties → NeverRefuses host g g') ∧
      (p ∈ properties → (f.list p).length ≤ 1 → NeverRefuses host g g') ∧
      (p ∈ properties → 2 ≤ (f.list p).length → NeverAccepts host g g') := by
  have hkpos := one_le_toNat.mpr hk
  obtain ⟨hlt, -⟩ := List.getElem?_eq_some_iff.mp hf
  have hne : g.filters ≠ [] := List.ne_nil_of_length_pos (Nat.zero_lt_of_lt hlt)
  have hdisjoint : p ∈ noProperties → p ∉ properties := by cases p <;> decide
  constructor
  · obtain ⟨k', g', hadd, hk', hlen, hedit⟩ := addOne_edits p hne hk haccept
    rw [show k'.toNat = k.toNat by omega, hf, Option.getD_some] at hedit
    rw [if_neg (by omega), Nat.add_zero] at hlen
    refine ⟨k', g', hadd, fun hno => ?_, fun hpos hnil => ?_, fun hpos hsome => ?_⟩
    · exact neverAccepts_of_edit hlen hedit hf (fun _ re hre => List.mem_append_left _ hre)
        fun hpos => absurd hpos (hdisjoint hno)
    · exact neverAccepts_of_edit hlen hedit hf (fun hno => absurd hpos (hdisjoint hno)) fun _ _ _ => Or.inl hnil
    · exact neverRefuses_of_edit hlen hedit hf (fun hno => absurd hpos (hdisjoint hno))
        fun _ _ hpass => passes_concat hsome hpass
  · obtain ⟨k', g', hdel, hk', hlen, f', list', hf', herase, hedit⟩ := delOne_edits p hne hk haccept
    rw [show k'.toNat = k.toNat by omega] at hf' hedit
    obtain rfl : f = f' := Option.some.inj (hf.symm.trans hf')
    refine ⟨k', g', hdel, fun hno => ?_, fun hpos hone => ?_, fun hpos htwo => ?_⟩
    · exact neverRefuses_of_edit hlen hedit hf (fun _ => herase.mem)
        fun hpos => absurd hpos (hdisjoint hno)
    · exact neverRefuses_of_edit hlen hedit hf (fun hno => absurd hpos (hdisjoint hno))
        fun _ _ hpass => passes_erased hone herase hpass
    · exact neverAccepts_of_edit hlen hedit hf (fun hno => absurd hpos (hdisjoint hno))
        fun _ _ hpass => passes_of_erased htwo herase hpass

end FilterGroup

end

/-- Adding the first title to a filter that lets every message pass. -/
theorem edits_shift_decision_oneFilter :
    ∃ k' g', FilterGroup.oneFilter.addOne .literal 1 .titles (str "a") = some (true, k', g') ∧
      FilterGroup.NeverAccepts .literal FilterGroup.oneFilter g' := by
  obtain ⟨⟨k', g', hadd, -, hempty, -⟩, -⟩ :=
    @FilterGroup.edits_shift_decision {} FilterGroup.oneFilter 1 (str "a") .literal .titles (by decide) rfl (by decide)
  exact ⟨k', g', hadd, hempty (by decide) rfl⟩

end TgFocus
