import Mathlib.Algebra.Order.Ring.Int
import Mathlib.Data.List.Pairwise

/-! Ranges of positions, as a start and a length: those between the marks of consecutive pairs, and those
    of blocks, from an opening position to the end of the next closing mark. Positions are natural numbers;
    where they come from elsewhere they may be others. -/

namespace Ranges

section
variable {α : Type} [Zero α] [Add α] [LE α] [LT α]

/-- The range is not empty and lies between `0` and `n`. -/
def Fits (n : α) (r : α × α) : Prop := 0 ≤ r.1 ∧ 0 < r.2 ∧ r.1 + r.2 ≤ n

omit [Zero α] [LT α] in
def Apart (r s : α × α) : Prop := r.1 + r.2 ≤ s.1 ∨ s.1 + s.2 ≤ r.1

end

def toInts (r : Nat × Nat) : Int × Int := (r.1, r.2)

/-- The ranges from the first position to the second, from the third to the fourth, and so on. -/
def pairUp : List Nat → List (Nat × Nat)
  | a :: b :: l => (a, b - a + 1) :: pairUp l
  | _ => []

/-- The first position from `i` on that has the property. -/
def First (P : Nat → Prop) (i j : Nat) : Prop := i ≤ j ∧ P j ∧ ∀ k, i ≤ k → k < j → ¬P k

/-- The blocks from `i` on. In a block nothing opens another one; its end is that of a closing mark, which
    takes `width` positions. -/
inductive Blocks (opens closes : Nat → Prop) (width : Nat) : Nat → List (Nat × Nat) → Prop where
  | none {i : Nat} (hno : ∀ j, i ≤ j → ¬opens j) : Blocks opens closes width i []
  | unclosed {i h : Nat} (hopen : First opens i h) (hno : ∀ j, h ≤ j → ¬closes j) : Blocks opens closes width i []
  | block {i h c : Nat} {l : List (Nat × Nat)} (hopen : First opens i h) (hclose : First closes h c)
      (hl : Blocks opens closes width (c + 1) l) : Blocks opens closes width i ((h, c + width - h) :: l)

/-- A block from `i` on opens there, closed or not. -/
inductive Opening (opens closes : Nat → Prop) : Nat → Nat → Prop where
  | first {i h : Nat} (hopen : First opens i h) : Opening opens closes i h
  | behind {i h c j : Nat} (hopen : First opens i h) (hclose : First closes h c)
      (hj : Opening opens closes (c + 1) j) : Opening opens closes i j

section
variable {P opens closes : Nat → Prop} {width n i j : Nat} {l : List Nat} {rs rs' : List (Nat × Nat)} {r r' : Nat × Nat}

theorem fits_toInts : Fits (n : Int) (toInts r) ↔ Fits n r := by
  simp only [Fits, toInts]
  omega

theorem apart_toInts : Apart (toInts r) (toInts r') ↔ Apart r r' := by
  simp only [Apart, toInts]
  omega

/-! ### Pairs -/

theorem fst_mem_of_mem_pairUp {r : Nat × Nat} (hr : r ∈ pairUp l) : r.1 ∈ l := by
  induction l using pairUp.induct with
  | case1 a b l ih =>
    rcases List.mem_cons.mp hr with rfl | hr
    · exact List.mem_cons_self
    · exact List.mem_cons_of_mem a (List.mem_cons_of_mem b (ih hr))
  | case2 l h =>
    rw [pairUp] at hr
    · cases hr
    · exact h

theorem pairwise_apart_pairUp (hl : l.Pairwise (· < ·)) : (pairUp l).Pairwise Apart := by
  induction l using pairUp.induct with
  | case1 a b l ih =>
    refine List.pairwise_cons.mpr ⟨fun r hr => Or.inl ?_, ih hl.tail.tail⟩
    have hab : a < b := (List.pairwise_cons.mp hl).1 b List.mem_cons_self
    have hbr : b < r.1 := (List.pairwise_cons.mp hl.tail).1 r.1 (fst_mem_of_mem_pairUp hr)
    dsimp only
    omega
  | case2 l h =>
    rw [pairUp]
    · exact List.Pairwise.nil
    · exact h

theorem fits_pairUp (hl : l.Pairwise (· < ·)) (hn : ∀ p ∈ l, p < n) : ∀ r ∈ pairUp l, Fits n r := by
  intro r hr
  induction l using pairUp.induct with
  | case1 a b l ih =>
    rcases List.mem_cons.mp hr with rfl | hr
    · have hb : b < n := hn b (List.mem_cons_of_mem a List.mem_cons_self)
      have hab : a < b := (List.pairwise_cons.mp hl).1 b List.mem_cons_self
      refine ⟨Nat.zero_le a, Nat.succ_pos _, ?_⟩
      dsimp only
      omega
    · exact ih hl.tail.tail (fun p hp => hn p (List.mem_cons_of_mem a (List.mem_cons_of_mem b hp))) hr
  | case2 l h =>
    rw [pairUp] at hr
    · cases hr
    · exact h

/-! ### Blocks -/

theorem First.unique (h : First P i j) {k : Nat} (h' : First P i k) : j = k := by
  rcases Nat.lt_trichotomy j k with hlt | heq | hgt
  · exact absurd h.2.1 (h'.2.2 j h.1 hlt)
  · exact heq
  · exact absurd h'.2.1 (h.2.2 k h'.1 hgt)

theorem First.here (h : P i) : First P i i :=
  ⟨Nat.le_refl i, h, fun _ hle hlt => absurd hlt (Nat.not_lt.mpr hle)⟩

/-- No position from `i` on, when there is none behind `i`. -/
theorem not_from (hi : ¬P i) (hno : ∀ j, i + 1 ≤ j → ¬P j) : ∀ j, i ≤ j → ¬P j := by
  intro j hij
  rcases Nat.eq_or_lt_of_le hij with rfl | hij
  · exact hi
  · exact hno j hij

/-- A position without the property may come before. -/
theorem First.before (h : First P (i + 1) j) (hi : ¬P i) : First P i j := by
  obtain ⟨hle, hj, hno⟩ := h
  refine ⟨Nat.le_of_succ_le hle, hj, fun k hik hkj => ?_⟩
  rcases Nat.eq_or_lt_of_le hik with rfl | hik
  · exact hi
  · exact hno k hik hkj

theorem first_iff_of_not (hi : ¬P i) : First P i j ↔ First P (i + 1) j := by
  refine ⟨fun ⟨hle, hj, hno⟩ => ⟨?_, hj, fun k hk hkj => hno k (Nat.le_of_succ_le hk) hkj⟩, fun h => h.before hi⟩
  refine Nat.lt_of_le_of_ne hle ?_
  rintro rfl
  exact hi hj

theorem Blocks.before (h : Blocks opens closes width (i + 1) rs) (hi : ¬opens i) : Blocks opens closes width i rs := by
  cases h with
  | none hno => exact .none (not_from hi hno)
  | unclosed hopen hno => exact .unclosed (hopen.before hi) hno
  | block hopen hclose hl => exact .block (hopen.before hi) hclose hl

theorem Blocks.opens_fst (h : Blocks opens closes width i rs) : ∀ r ∈ rs, i ≤ r.1 ∧ opens r.1 := by
  induction h with
  | none hno => exact fun r hr => nomatch hr
  | unclosed hopen hno => exact fun r hr => nomatch hr
  | @block i h c l hopen hclose hl ih =>
    intro r hr
    rcases List.mem_cons.mp hr with rfl | hr
    · exact ⟨hopen.1, hopen.2.1⟩
    · obtain ⟨hle, hopens⟩ := ih r hr
      have hih := hopen.1
      have hhc := hclose.1
      exact ⟨by omega, hopens⟩

/-- There is one way to divide a text into blocks. -/
theorem Blocks.unique (h : Blocks opens closes width i rs) (h' : Blocks opens closes width i rs') : rs = rs' := by
  induction h generalizing rs' with
  | none hno =>
    cases h' with
    | none | unclosed => rfl
    | block hopen' => exact absurd hopen'.2.1 (hno _ hopen'.1)
  | unclosed hopen hno =>
    cases h' with
    | none | unclosed => rfl
    | block hopen' hclose' =>
      obtain rfl := hopen.unique hopen'
      exact absurd hclose'.2.1 (hno _ hclose'.1)
  | block hopen hclose hl ih =>
    cases h' with
    | none hno' => exact absurd hopen.2.1 (hno' _ hopen.1)
    | unclosed hopen' hno' =>
      obtain rfl := hopen.unique hopen'
      exact absurd hclose.2.1 (hno' _ hclose.1)
    | block hopen' hclose' hl' =>
      obtain rfl := hopen.unique hopen'
      obtain rfl := hclose.unique hclose'
      rw [ih hl']

theorem Opening.opens_at (h : Opening opens closes i j) : i ≤ j ∧ opens j := by
  induction h with
  | first hopen => exact ⟨hopen.1, hopen.2.1⟩
  | behind hopen hclose _ ih =>
    have hih := hopen.1
    have hhc := hclose.1
    exact ⟨by omega, ih.2⟩

theorem opening_iff_of_not_opens (hi : ¬opens i) : Opening opens closes i j ↔ Opening opens closes (i + 1) j := by
  constructor
  · intro h
    cases h with
    | first hopen => exact .first ((first_iff_of_not hi).mp hopen)
    | behind hopen hclose hj => exact .behind ((first_iff_of_not hi).mp hopen) hclose hj
  · intro h
    cases h with
    | first hopen => exact .first (hopen.before hi)
    | behind hopen hclose hj => exact .behind (hopen.before hi) hclose hj

theorem opening_iff_of_opens (hi : opens i) :
    Opening opens closes i j ↔ j = i ∨ ∃ c, First closes i c ∧ Opening opens closes (c + 1) j := by
  constructor
  · intro h
    cases h with
    | first hopen => exact Or.inl (hopen.unique (.here hi))
    | behind hopen hclose hj =>
      obtain rfl := hopen.unique (.here hi)
      exact Or.inr ⟨_, hclose, hj⟩
  · rintro (rfl | ⟨c, hclose, hj⟩)
    · exact .first (.here hi)
    · exact .behind (.here hi) hclose hj

theorem Blocks.fits (h : Blocks opens closes width i rs) (hwidth : 0 < width)
    (hn : ∀ c, closes c → c + width ≤ n) : ∀ r ∈ rs, Fits n r := by
  induction h with
  | none hno => exact fun r hr => nomatch hr
  | unclosed hopen hno => exact fun r hr => nomatch hr
  | @block i h c l hopen hclose hl ih =>
    intro r hr
    rcases List.mem_cons.mp hr with rfl | hr
    · have hle := hclose.1
      have hc := hn c hclose.2.1
      refine ⟨Nat.zero_le h, ?_, ?_⟩
      · dsimp only
        omega
      · dsimp only
        omega
    · exact ih r hr

/-- When nothing opens a block inside a closing mark, the blocks are apart. -/
theorem Blocks.pairwise_apart (h : Blocks opens closes width i rs)
    (hsep : ∀ c j, closes c → opens j → c ≤ j → c + width ≤ j) : rs.Pairwise Apart := by
  induction h with
  | none hno => exact List.Pairwise.nil
  | unclosed hopen hno => exact List.Pairwise.nil
  | @block i h c l hopen hclose hl ih =>
    refine List.pairwise_cons.mpr ⟨fun r hr => Or.inl ?_, ih⟩
    obtain ⟨hle, hopens⟩ := hl.opens_fst r hr
    have hafter := hsep c r.1 hclose.2.1 hopens (Nat.le_of_succ_le hle)
    have hhc := hclose.1
    dsimp only
    omega

end

end Ranges
