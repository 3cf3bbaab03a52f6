import TgFocus.Filter

/-! What a group of filters decides. A filter rejects a message when one of its `no-` lists has a matching
    pattern, and accepts it when each of the other lists is empty or has one; the first filter that does
    either decides for the group. -/

namespace TgFocus

section
variable {host : Host} {s : Bytes} {l : List PosixExtRegex} {f : Filter} {m : TgMsg}

/-! ### Patterns -/

def PosixExtRegex.Matches (host : Host) (re : PosixExtRegex) (s : Bytes) : Prop := re.isMatch host s = some true

instance (host : Host) (re : PosixExtRegex) (s : Bytes) : Decidable (re.Matches host s) :=
  inferInstanceAs (Decidable (_ = _))

/-- A pattern that did not compile matches nothing. -/
theorem PosixExtRegex.not_matches_of_ne_zero {re : PosixExtRegex} (h : re.statComp ≠ 0) : ¬re.Matches host s := by
  simp [Matches, isMatch, h]

/-- The six matching loops look for one matching pattern. -/
theorem Filter.mtchAny_iff : Filter.mtchAny host s l = true ↔ ∃ re ∈ l, re.Matches host s := by
  induction l with
  | nil => simp [mtchAny]
  | cons re l ih =>
    rw [List.exists_mem_cons_iff, ← ih, mtchAny, PosixExtRegex.Matches]
    split
    · rename_i h
      simp [h]
    · rename_i h
      exact (or_iff_right h).symm

/-! ### Filters -/

namespace Filter

/-- Some pattern of a `no-` list matches its field. -/
def Rejects (host : Host) (f : Filter) (m : TgMsg) : Prop :=
  (∃ re ∈ f.noTitles, re.Matches host m.title) ∨ (∃ re ∈ f.noSenders, re.Matches host m.sender) ∨
    ∃ re ∈ f.noKeywords, re.Matches host m.txt

/-- Each of the other lists is empty or has a pattern that matches its field. -/
def Accepts (host : Host) (f : Filter) (m : TgMsg) : Prop :=
  (f.titles = [] ∨ ∃ re ∈ f.titles, re.Matches host m.title) ∧
    (f.senders = [] ∨ ∃ re ∈ f.senders, re.Matches host m.sender) ∧
    (f.keywords = [] ∨ ∃ re ∈ f.keywords, re.Matches host m.txt)

instance (host : Host) (f : Filter) (m : TgMsg) : Decidable (f.Rejects host m) :=
  inferInstanceAs (Decidable (_ ∨ _ ∨ _))

instance (host : Host) (f : Filter) (m : TgMsg) : Decidable (f.Accepts host m) :=
  inferInstanceAs (Decidable (_ ∧ _ ∧ _))

theorem mtchNo_iff (host : Host) (f : Filter) (s : Bytes) :
    (f.mtchNoTitles host s = true ↔ ∃ re ∈ f.noTitles, re.Matches host s) ∧
      (f.mtchNoSenders host s = true ↔ ∃ re ∈ f.noSenders, re.Matches host s) ∧
      (f.mtchNoKeywords host s = true ↔ ∃ re ∈ f.noKeywords, re.Matches host s) := by
  refine ⟨mtchAny_iff, mtchAny_iff, ?_⟩
  rw [mtchNoKeywords, ← mtchAny_iff]
  split
  · rename_i h
    rw [List.length_eq_zero_iff.mp h]
    exact Iff.rfl
  · exact Iff.rfl

/-- An empty list of one of the other properties lets every message pass. -/
theorem mtchOrEmpty_iff :
    (if l.length = 0 then true else mtchAny host s l) = true ↔ l = [] ∨ ∃ re ∈ l, re.Matches host s := by
  rw [← mtchAny_iff, ← List.length_eq_zero_iff]
  split <;> simp_all

theorem mtchTgmsg_eq :
    f.mtchTgmsg host m = if f.Rejects host m then .reject else if f.Accepts host m then .accept else .skip := by
  obtain ⟨hnt, -, -⟩ := mtchNo_iff host f m.title
  obtain ⟨-, hns, -⟩ := mtchNo_iff host f m.sender
  obtain ⟨-, -, hnk⟩ := mtchNo_iff host f m.txt
  have ht : f.mtchTitles host m.title = true ↔ _ := mtchOrEmpty_iff
  have hs : f.mtchSenders host m.sender = true ↔ _ := mtchOrEmpty_iff
  have hk : f.mtchKeywords host m.txt = true ↔ _ := mtchOrEmpty_iff
  simp only [Rejects, Accepts, ← hnt, ← hns, ← hnk, ← ht, ← hs, ← hk, mtchTgmsg]
  cases f.mtchNoTitles host m.title <;> cases f.mtchNoSenders host m.sender <;>
    cases f.mtchNoKeywords host m.txt <;> cases f.mtchTitles host m.title <;>
    cases f.mtchSenders host m.sender <;> cases f.mtchKeywords host m.txt <;> rfl

/-- The filter leaves the message to the next one. -/
def PassesOn (host : Host) (m : TgMsg) (f : Filter) : Prop := ¬f.Rejects host m ∧ ¬f.Accepts host m

instance (host : Host) (m : TgMsg) : DecidablePred (PassesOn host m) :=
  fun _ => inferInstanceAs (Decidable (_ ∧ _))

end Filter

/-! ### Groups -/

namespace FilterGroup
variable {fs : List Filter} {n : Nat}

theorem mtchLoop_cons_of_passesOn (h : f.PassesOn host m) :
    mtchLoop host m (f :: fs) n = mtchLoop host m fs (n + 1) := by
  simp [mtchLoop, Filter.mtchTgmsg_eq, h.1, h.2]

theorem mtchLoop_cons_of_decides (h : ¬f.PassesOn host m) :
    mtchLoop host m (f :: fs) n = (decide (¬f.Rejects host m ∧ f.Accepts host m), n) := by
  by_cases hr : f.Rejects host m
  · simp [mtchLoop, Filter.mtchTgmsg_eq, hr]
  · have ha : f.Accepts host m := not_not.mp fun ha => h ⟨hr, ha⟩
    simp [mtchLoop, Filter.mtchTgmsg_eq, hr, ha]

/-- The loop counts the filters in front that pass the message on. -/
theorem mtchLoop_snd : (mtchLoop host m fs n).2 = n + (fs.takeWhile (Filter.PassesOn host m)).length := by
  induction fs generalizing n with
  | nil => rfl
  | cons f fs ih =>
    by_cases h : f.PassesOn host m
    · rw [mtchLoop_cons_of_passesOn h, ih, List.takeWhile_cons_of_pos (by simpa using h), List.length_cons]
      omega
    · rw [mtchLoop_cons_of_decides h, List.takeWhile_cons_of_neg (by simpa using h)]
      rfl

/-- The loop answers with what the first filter that does not pass the message on says. -/
theorem mtchLoop_fst_iff :
    (mtchLoop host m fs n).1 = true ↔
      ∃ (i : Nat) (f : Filter), fs[i]? = some f ∧ ¬f.Rejects host m ∧ f.Accepts host m ∧
        ∀ j < i, ∀ f' : Filter, fs[j]? = some f' → f'.PassesOn host m := by
  induction fs generalizing n with
  | nil => simp [mtchLoop]
  | cons f fs ih =>
    by_cases h : f.PassesOn host m
    · rw [mtchLoop_cons_of_passesOn h, ih]
      constructor
      · rintro ⟨i, f', hi, hr, ha, hbefore⟩
        refine ⟨i + 1, f', hi, hr, ha, fun j hj f'' hf'' => ?_⟩
        cases j with
        | zero => exact Option.some.inj hf'' ▸ h
        | succ j => exact hbefore j (by omega) f'' hf''
      · rintro ⟨i, f', hi, hr, ha, hbefore⟩
        cases i with
        | zero =>
          obtain rfl := Option.some.inj hi
          exact absurd ha h.2
        | succ i => exact ⟨i, f', hi, hr, ha, fun j hj f'' hf'' => hbefore (j + 1) (by omega) f'' hf''⟩
    · rw [mtchLoop_cons_of_decides h, decide_eq_true_iff]
      constructor
      · rintro ⟨hr, ha⟩
        exact ⟨0, f, rfl, hr, ha, by simp⟩
      · rintro ⟨i, f', hi, hr, ha, hbefore⟩
        cases i with
        | zero =>
          obtain rfl := Option.some.inj hi
          exact ⟨hr, ha⟩
        | succ i => exact absurd (hbefore 0 (by omega) f rfl) h

/-- A group accepts a message exactly when some filter accepts it, does not reject it, and comes behind
    filters that do neither; the count it leaves is that of the filters in front that do neither. -/
theorem mtchTgmsg_iff (host : Host) (g : FilterGroup) (m : TgMsg) :
    ((g.mtchTgmsg host m).1 = true ↔
        ∃ (i : Nat) (f : Filter), g.filters[i]? = some f ∧ ¬f.Rejects host m ∧ f.Accepts host m ∧
          ∀ j < i, ∀ f' : Filter, g.filters[j]? = some f' → ¬f'.Rejects host m ∧ ¬f'.Accepts host m) ∧
      (g.mtchTgmsg host m).2.iPrevVisited = (g.filters.takeWhile (Filter.PassesOn host m)).length ∧
      (g.mtchTgmsg host m).2.filters = g.filters := by
  refine ⟨mtchLoop_fst_iff, ?_, rfl⟩
  rw [mtchTgmsg, mtchLoop_snd, Nat.zero_add]

end FilterGroup

end

end TgFocus
