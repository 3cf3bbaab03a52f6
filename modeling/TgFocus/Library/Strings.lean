import Mathlib.Data.List.Infix

/-! Searching and cutting character sequences, as `std::string` does it. The sequences are lists over
    any alphabet with decidable equality; `none` stands for `npos`. -/

namespace Strings

/-! ### Operations -/

section Operations
variable {α : Type} [DecidableEq α]

/-- `s.find (pat)`: the first position at which `pat` occurs in `s`. -/
def find (pat : List α) : List α → Option Nat
  | [] => if pat = [] then some 0 else none
  | c :: s => if pat.isPrefixOf (c :: s) then some 0 else (find pat s).map (· + 1)

/-- `s.find_first_of (c, pos)`: the first position from `pos` on that holds `c`. -/
def findFirstOf (c : α) (s : List α) (pos : Nat) : Option Nat :=
  ((s.drop pos).findIdx? (· = c)).map (pos + ·)

/-- `s.find_first_not_of (c, pos)`: the first position from `pos` on that does not hold `c`. -/
def findFirstNotOf (c : α) (s : List α) (pos : Nat) : Option Nat :=
  ((s.drop pos).findIdx? (· ≠ c)).map (pos + ·)

/-- `s.substr (begi, endi - begi)`, where an `endi` of `npos` reaches to the end of `s`. -/
def substr (s : List α) (begi : Nat) : Option Nat → List α
  | some endi => (s.drop begi).take (endi - begi)
  | none => s.drop begi

/-- `s.erase (0, s.find_first_not_of (c))`: `s` without its leading `c`s. -/
def eraseLeading (c : α) (s : List α) : List α :=
  match findFirstNotOf c s 0 with
  | some n => s.drop n
  | none => []

end Operations

/-! ### Occurrences -/

section Occurrences
variable {α : Type} {pat s a b : List α} {c : α}

theorem find_eq_zero_iff [DecidableEq α] : find pat s = some 0 ↔ pat <+: s := by
  cases s with
  | nil => simp [find]
  | cons c s =>
    rw [find, ← List.isPrefixOf_iff_prefix]
    split
    · simp_all
    · simp_all

theorem find_isSome_iff [DecidableEq α] : (find pat s).isSome = true ↔ pat <:+: s := by
  induction s with
  | nil => simp [find]
  | cons c s ih =>
    rw [find, List.infix_cons_iff, ← ih, ← List.isPrefixOf_iff_prefix]
    split <;> simp_all

theorem find_ne_none_iff [DecidableEq α] : find pat s ≠ none ↔ pat <:+: s := by
  rw [← find_isSome_iff, Option.isSome_iff_ne_none]

/-- A pattern without the separator at the front of a text ends before the separator. -/
theorem prefix_of_prefix_append_cons (hc : c ∉ pat) (h : pat <+: a ++ c :: b) : pat <+: a := by
  rcases List.prefix_or_prefix_of_prefix h (List.prefix_append a (c :: b)) with h' | ⟨t, rfl⟩
  · exact h'
  · rw [List.prefix_append_right_inj] at h
    cases t with
    | nil => simp
    | cons d t =>
      obtain ⟨rfl, -⟩ := List.cons_prefix_cons.mp h
      simp at hc

theorem infix_append_cons_iff (hc : c ∉ pat) : pat <:+: a ++ c :: b ↔ pat <:+: a ∨ pat <:+: b := by
  constructor
  · induction a with
    | nil =>
      intro h
      rcases List.infix_cons_iff.mp h with hp | hi
      · cases pat with
        | nil => exact Or.inr List.nil_infix
        | cons p pat =>
          obtain ⟨rfl, -⟩ := List.cons_prefix_cons.mp hp
          exact absurd List.mem_cons_self hc
      · exact Or.inr hi
    | cons d a ih =>
      intro h
      rcases List.infix_cons_iff.mp h with hp | hi
      · exact Or.inl (prefix_of_prefix_append_cons (a := d :: a) hc hp).isInfix
      · rcases ih hi with h' | h'
        · exact Or.inl (List.infix_cons_iff.mpr (Or.inr h'))
        · exact Or.inr h'
  · rintro (h | h)
    · exact h.trans (List.prefix_append _ _).isInfix
    · exact h.trans ((List.suffix_cons c b).trans (List.suffix_append a _)).isInfix

theorem infix_replicate_append_iff {n : Nat} (hc : c ∉ pat) : pat <:+: List.replicate n c ++ s ↔ pat <:+: s := by
  induction n with
  | zero => rfl
  | succ n ih =>
    rw [List.replicate_succ, List.cons_append, ← List.nil_append (c :: _), infix_append_cons_iff hc, ih]
    constructor
    · rintro (h | h)
      · rw [List.infix_nil.mp h]
        exact List.nil_infix
      · exact h
    · exact Or.inr

end Occurrences

/-! ### Leading separators -/

section Leading
variable {α : Type} [DecidableEq α] {s t : List α} {c d : α}

@[simp] theorem eraseLeading_nil : eraseLeading c ([] : List α) = [] := rfl

@[simp] theorem eraseLeading_cons_self : eraseLeading c (c :: s) = eraseLeading c s := by
  simp only [eraseLeading, findFirstNotOf, List.drop_zero, List.findIdx?_cons]
  cases s.findIdx? (· ≠ c) <;> simp

theorem eraseLeading_cons_ne (h : d ≠ c) : eraseLeading c (d :: s) = d :: s := by
  simp [eraseLeading, findFirstNotOf, List.findIdx?_cons, h]

theorem eraseLeading_replicate_append (n : Nat) :
    eraseLeading c (List.replicate n c ++ s) = eraseLeading c s := by
  induction n with
  | zero => rfl
  | succ n ih => rw [List.replicate_succ, List.cons_append, eraseLeading_cons_self, ih]

theorem replicate_append_eraseLeading (c : α) (s : List α) : ∃ n, s = List.replicate n c ++ eraseLeading c s := by
  induction s with
  | nil => exact ⟨0, rfl⟩
  | cons d s ih =>
    by_cases hd : d = c
    · subst hd
      obtain ⟨n, hn⟩ := ih
      refine ⟨n + 1, ?_⟩
      rw [List.replicate_succ, List.cons_append, eraseLeading_cons_self, ← hn]
    · exact ⟨0, by rw [eraseLeading_cons_ne hd]; rfl⟩

@[simp] theorem eraseLeading_eraseLeading : eraseLeading c (eraseLeading c s) = eraseLeading c s := by
  induction s with
  | nil => rfl
  | cons d s ih =>
    by_cases hd : d = c
    · subst hd
      rw [eraseLeading_cons_self, ih]
    · rw [eraseLeading_cons_ne hd, eraseLeading_cons_ne hd]

/-- Erasing stops at the first character that is not a separator, so what follows does not matter. -/
theorem eraseLeading_append_of_ne_nil (h : eraseLeading c s ≠ []) :
    eraseLeading c (s ++ t) = eraseLeading c s ++ t := by
  induction s with
  | nil => exact absurd rfl h
  | cons d s ih =>
    by_cases hd : d = c
    · subst hd
      rw [eraseLeading_cons_self] at h
      rw [List.cons_append, eraseLeading_cons_self, eraseLeading_cons_self, ih h]
    · rw [List.cons_append, eraseLeading_cons_ne hd, eraseLeading_cons_ne hd, List.cons_append]

theorem eraseLeading_append_of_eq_nil (h : eraseLeading c s = []) :
    eraseLeading c (s ++ t) = eraseLeading c t := by
  induction s with
  | nil => rfl
  | cons d s ih =>
    by_cases hd : d = c
    · subst hd
      rw [eraseLeading_cons_self] at h
      rw [List.cons_append, eraseLeading_cons_self, ih h]
    · rw [eraseLeading_cons_ne hd] at h
      cases h

end Leading

/-! ### Words -/

/-- A part between two separators. -/
def Word {α : Type} (c : α) (w : List α) : Prop := w ≠ [] ∧ c ∉ w

section Words
variable {α : Type} {s w t : List α} {c x : α} {i j n : Nat}

theorem findIdx?_eq_some_iff_append {p : α → Bool} {l : List α} :
    l.findIdx? p = some i ↔ ∃ w x t, l = w ++ x :: t ∧ (∀ y ∈ w, p y = false) ∧ p x = true ∧ i = w.length := by
  constructor
  · intro h
    obtain ⟨hlt, hi, hbefore⟩ := List.findIdx?_eq_some_iff_getElem.mp h
    refine ⟨l.take i, l[i], l.drop (i + 1), ?_, fun y hy => ?_, hi, by simp; omega⟩
    · rw [← List.drop_eq_getElem_cons hlt, List.take_append_drop]
    · obtain ⟨j, hj, rfl⟩ := List.mem_iff_getElem.mp hy
      rw [List.length_take] at hj
      rw [List.getElem_take]
      simpa using hbefore j (by omega)
  · rintro ⟨w, x, t, rfl, hw, hx, rfl⟩
    rw [List.findIdx?_append, List.findIdx?_eq_none_iff.mpr hw, List.findIdx?_cons, if_pos hx]
    simp

variable [DecidableEq α]

theorem decide_ne_of_mem (hw : c ∉ w) : ∀ y ∈ w, decide (y ≠ c) = true := by
  intro y hy
  rw [decide_eq_true_iff]
  rintro rfl
  exact hw hy

theorem takeWhile_word (hw : c ∉ w) : (w ++ c :: t).takeWhile (· ≠ c) = w := by
  rw [List.takeWhile_append_of_pos (decide_ne_of_mem hw)]
  simp

theorem dropWhile_word (hw : c ∉ w) : (w ++ c :: t).dropWhile (· ≠ c) = c :: t := by
  rw [List.dropWhile_append_of_pos (decide_ne_of_mem hw)]
  simp

theorem dropWhile_replicate_append (hx : x ≠ c) : (List.replicate n c ++ x :: t).dropWhile (· = c) = x :: t := by
  rw [List.dropWhile_append_of_pos fun y hy => decide_eq_true (List.eq_of_mem_replicate hy)]
  simp [hx]

theorem findFirstOf_some (h : findFirstOf c s i = some j) :
    ∃ w t, s.drop i = w ++ c :: t ∧ c ∉ w ∧ s.drop j = c :: t ∧ substr s i (some j) = w := by
  obtain ⟨k, hk, rfl⟩ := Option.map_eq_some_iff.mp h
  obtain ⟨w, x, t, hs, hw, hx, rfl⟩ := findIdx?_eq_some_iff_append.mp hk
  obtain rfl : x = c := by simpa using hx
  refine ⟨w, t, hs, fun hc => by simpa using hw x hc, ?_, ?_⟩
  · rw [← List.drop_drop, hs, List.drop_left]
  · rw [substr, Nat.add_sub_cancel_left, hs, List.take_left]

theorem findFirstOf_of_drop (h : s.drop i = w ++ c :: t) (hw : c ∉ w) :
    ∃ j, findFirstOf c s i = some j ∧ s.drop j = c :: t ∧ substr s i (some j) = w := by
  refine ⟨i + w.length, Option.map_eq_some_iff.mpr ⟨w.length, ?_, rfl⟩, ?_, ?_⟩
  · exact findIdx?_eq_some_iff_append.mpr
      ⟨w, c, t, h, fun y hy => by simpa using decide_ne_of_mem hw y hy, by simp, rfl⟩
  · rw [← List.drop_drop, h, List.drop_left]
  · rw [substr, Nat.add_sub_cancel_left, h, List.take_left]

theorem findFirstNotOf_some (h : findFirstNotOf c s i = some j) :
    ∃ n x t, s.drop i = List.replicate n c ++ x :: t ∧ x ≠ c ∧ s.drop j = x :: t := by
  obtain ⟨k, hk, rfl⟩ := Option.map_eq_some_iff.mp h
  obtain ⟨w, x, t, hs, hw, hx, rfl⟩ := findIdx?_eq_some_iff_append.mp hk
  have hrep : w = List.replicate w.length c := List.eq_replicate_iff.mpr ⟨rfl, fun y hy => by simpa using hw y hy⟩
  refine ⟨w.length, x, t, by rw [← hrep, hs], by simpa using hx, ?_⟩
  rw [← List.drop_drop, hs, List.drop_left]

theorem findFirstNotOf_of_drop (h : s.drop i = List.replicate n c ++ x :: t) (hx : x ≠ c) :
    ∃ j, findFirstNotOf c s i = some j ∧ s.drop j = x :: t := by
  refine ⟨i + n, Option.map_eq_some_iff.mpr ⟨n, ?_, rfl⟩, ?_⟩
  · exact findIdx?_eq_some_iff_append.mpr ⟨_, x, t, h, fun y hy => by simpa using List.eq_of_mem_replicate hy,
      by simpa using hx, by simp⟩
  · rw [← List.drop_drop, h, List.drop_append_of_le_length (by simp)]
    simp

/-- Behind a separator, there are only separators up to the next word. -/
theorem separators_some (hi : s.drop i = c :: t) (hj : findFirstNotOf c s i = some j) :
    ∃ m x r, s.drop i = List.replicate (m + 1) c ++ x :: r ∧ x ≠ c ∧ s.drop j = x :: r := by
  obtain ⟨m, x, r, hr, hx, hdrop⟩ := findFirstNotOf_some hj
  cases m with
  | zero =>
    rw [hi] at hr
    exact absurd (List.cons.inj hr).1.symm hx
  | succ m => exact ⟨m, x, r, hr, hx, hdrop⟩

/-- The next word, when a separator follows it. -/
theorem word_some (hi : s.drop i = c :: t) (hj : findFirstNotOf c s i = some j) (hk : findFirstOf c s j = some n) :
    ∃ m w t', s.drop i = List.replicate (m + 1) c ++ w ++ c :: t' ∧ Word c w ∧ s.drop n = c :: t' ∧
      substr s j (some n) = w := by
  obtain ⟨m, x, r, hr, hx, hdrop⟩ := separators_some hi hj
  obtain ⟨w, t', hw, hcw, hdrop', hsub⟩ := findFirstOf_some hk
  have hne : w ≠ [] := by
    rintro rfl
    rw [hdrop] at hw
    exact hx (List.cons.inj hw).1
  exact ⟨m, w, t', by rw [hr, ← hdrop, hw, List.append_assoc], ⟨hne, hcw⟩, hdrop', hsub⟩

theorem word_of_drop (h : s.drop i = List.replicate n c ++ w ++ c :: t) (hw : Word c w) :
    ∃ j k, findFirstNotOf c s i = some j ∧ findFirstOf c s j = some k ∧ substr s j (some k) = w ∧
      s.drop k = c :: t := by
  obtain ⟨x, w', rfl⟩ := List.exists_cons_of_ne_nil hw.1
  rw [List.append_assoc, List.cons_append] at h
  obtain ⟨j, hj, hdrop⟩ := findFirstNotOf_of_drop h fun hx => hw.2 (hx ▸ List.mem_cons_self)
  obtain ⟨k, hk, hdrop', hsub⟩ := findFirstOf_of_drop (w := x :: w') hdrop hw.2
  exact ⟨j, k, hj, hk, hsub, hdrop'⟩

/-- The same for a word at the end of the text. -/
theorem lastWord_of_drop (h : s.drop i = List.replicate n c ++ w) (hw : Word c w) :
    ∃ j, findFirstNotOf c s i = some j ∧ findFirstOf c s j = none ∧ substr s j none = w := by
  obtain ⟨x, w', rfl⟩ := List.exists_cons_of_ne_nil hw.1
  obtain ⟨j, hj, hdrop⟩ := findFirstNotOf_of_drop h fun hx => hw.2 (hx ▸ List.mem_cons_self)
  refine ⟨j, hj, ?_, hdrop⟩
  rw [findFirstOf, hdrop, Option.map_eq_none_iff, List.findIdx?_eq_none_iff]
  intro y hy
  simpa using decide_ne_of_mem hw.2 y hy

/-- The next word, when no separator follows it, is the rest of the text. -/
theorem lastWord_none (hi : s.drop i = c :: t) (hj : findFirstNotOf c s i = some j) (hk : findFirstOf c s j = none) :
    ∃ m, s.drop i = List.replicate (m + 1) c ++ substr s j none ∧ Word c (substr s j none) := by
  obtain ⟨m, x, r, hr, hx, hdrop⟩ := separators_some hi hj
  rw [findFirstOf, Option.map_eq_none_iff, List.findIdx?_eq_none_iff] at hk
  refine ⟨m, by rw [hr, substr, hdrop], by rw [substr, hdrop]; exact List.cons_ne_nil _ _, fun hc => ?_⟩
  simpa using hk c hc

end Words

/-! ### Separated lists -/

section Separated
variable {α : Type} {sep x : List α} {l l' : List (List α)}

theorem intercalate_cons : sep.intercalate (x :: l) = x ++ l.flatMap (sep ++ ·) := by
  induction l generalizing x with
  | nil => simp [List.intercalate]
  | cons y l ih => rw [List.intercalate_cons_cons, ih, List.flatMap_cons, List.append_assoc, List.append_assoc]

/-- The elements in front of one, each with the separator behind it, and those behind it, each with the
    separator in front. -/
theorem intercalate_append_cons :
    sep.intercalate (l ++ x :: l') = l.flatMap (· ++ sep) ++ (x ++ l'.flatMap (sep ++ ·)) := by
  induction l with
  | nil => exact intercalate_cons
  | cons y l ih =>
    rw [List.cons_append, List.intercalate_cons_of_ne_nil (by simp), ih, List.flatMap_cons]
    simp only [List.append_assoc]

end Separated

end Strings
