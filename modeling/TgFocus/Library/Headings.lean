import Mathlib.Data.List.Nodup

/-! Headings in a text that is made of pieces. Each heading holds one mark, the text between them holds none, and
    what a heading holds from its mark on tells it from the others; then a search at every position finds the
    headings at the places where they were written, and nowhere else. -/

namespace Headings

structure Piece (α : Type) where
  isHeading : Bool
  units : List α

def text {α : Type} (ps : List (Piece α)) : List α := ps.flatMap (·.units)

/-- The headings that were written. -/
def written {α : Type} (ps : List (Piece α)) : List (List α) := (ps.filter (·.isHeading)).map (·.units)

/-- The headings that were written, with their places in a text that begins at `n`. -/
def places {α : Type} (n : Nat) : List (Piece α) → List (Nat × List α)
  | [] => []
  | p :: ps =>
    if p.isHeading then (n, p.units) :: places (n + p.units.length) ps else places (n + p.units.length) ps

section
variable {α : Type} {ps ps' : List (Piece α)} {n : Nat}

theorem text_append : text (ps ++ ps') = text ps ++ text ps' := List.flatMap_append

theorem written_append : written (ps ++ ps') = written ps ++ written ps' := by
  rw [written, List.filter_append, List.map_append]
  rfl

theorem map_snd_places : (places n ps).map (·.2) = written ps := by
  induction ps generalizing n with
  | nil => rfl
  | cons p ps ih =>
    rw [places, written, List.filter_cons]
    split
    · rw [List.map_cons, List.map_cons, ih]
      rfl
    · exact ih

theorem le_of_mem_places {q : Nat × List α} (hq : q ∈ places n ps) : n ≤ q.1 := by
  induction ps generalizing n with
  | nil => cases hq
  | cons p ps ih =>
    rw [places] at hq
    split at hq
    · rcases List.mem_cons.mp hq with rfl | hq
      · exact Nat.le_refl n
      · exact Nat.le_trans (Nat.le_add_right n _) (ih hq)
    · exact Nat.le_trans (Nat.le_add_right n _) (ih hq)

theorem pairwise_places (hne : ∀ p ∈ ps, p.isHeading = true → p.units ≠ []) :
    (places n ps).Pairwise fun q r => q.1 < r.1 := by
  induction ps generalizing n with
  | nil => exact List.Pairwise.nil
  | cons p ps ih =>
    have hps := ih (n := n + p.units.length) fun q hq => hne q (List.mem_cons_of_mem p hq)
    rw [places]
    split
    · rename_i hheading
      have hpos := List.length_pos_iff.mpr (hne p List.mem_cons_self hheading)
      refine List.pairwise_cons.mpr ⟨fun r hr => ?_, hps⟩
      have hle := le_of_mem_places hr
      dsimp only
      omega
    · exact hps

theorem map_places (k : Nat) : (places n ps).map (fun q => (k + q.1, q.2)) = places (k + n) ps := by
  induction ps generalizing n with
  | nil => rfl
  | cons p ps ih =>
    rw [places, places]
    split
    · rw [List.map_cons, ih, Nat.add_assoc]
    · rw [ih, Nat.add_assoc]

end

section
variable {α : Type} [DecidableEq α]

/-- What is found at a position. -/
def foundAt (hs : List (List α)) (seq : List α) (i : Nat) : List (Nat × List α) :=
  (hs.filter fun h => h.isPrefixOf (seq.drop i)).map fun h => (i, h)

def found (hs : List (List α)) (seq : List α) : List (Nat × List α) := (List.range seq.length).flatMap (foundAt hs seq)

/-- A heading from its mark on. -/
def fromMark (mark : α) (h : List α) : List α := h.dropWhile (· ≠ mark)

structure Marked (mark : α) (hs : List (List α)) : Prop where
  once : ∀ h ∈ hs, mark ∈ h ∧ mark ∉ (fromMark mark h).tail
  apart : ∀ h ∈ hs, ∀ h' ∈ hs, fromMark mark h <+: fromMark mark h' → h = h'
  nodup : hs.Nodup

def WellPieced (mark : α) (hs : List (List α)) (ps : List (Piece α)) : Prop :=
  ∀ p ∈ ps, if p.isHeading then p.units ∈ hs else mark ∉ p.units

variable {mark : α} {hs : List (List α)} {h h' x r : List α} {ps ps' : List (Piece α)} {p : Piece α} {i n : Nat}

omit [DecidableEq α] in
theorem WellPieced.append (h : WellPieced mark hs ps) (h' : WellPieced mark hs ps') : WellPieced mark hs (ps ++ ps') :=
  fun p hp => (List.mem_append.mp hp).elim (h p) (h' p)

/-! ### Marks -/

theorem split_unique {y s : List α} (hx : mark ∉ x) (hy : mark ∉ y) (heq : x ++ mark :: r = y ++ mark :: s) :
    x = y ∧ r = s := by
  have htake : ∀ {x r : List α}, mark ∉ x → (x ++ mark :: r).takeWhile (· ≠ mark) = x := by
    intro x r hx
    have hpos : ∀ a ∈ x, decide (a ≠ mark) = true := fun a ha => decide_eq_true fun h : a = mark => hx (h ▸ ha)
    rw [List.takeWhile_append_of_pos hpos, List.takeWhile_cons_of_neg (by simp), List.append_nil]
  have hxy : x = y := by rw [← htake (r := r) hx, heq, htake hy]
  subst hxy
  exact ⟨rfl, (List.cons.inj (List.append_cancel_left heq)).2⟩

theorem Marked.exists_split (hm : Marked mark hs) (hh : h ∈ hs) :
    ∃ pre post, h = pre ++ mark :: post ∧ mark ∉ pre ∧ mark ∉ post ∧ fromMark mark h = mark :: post := by
  obtain ⟨hmem, hpost⟩ := hm.once h hh
  obtain ⟨pre, post, heq, hpre⟩ := List.eq_append_cons_of_mem hmem
  have hfrom : fromMark mark h = mark :: post := by
    rw [fromMark, heq, List.dropWhile_append_of_pos]
    · exact List.dropWhile_cons_of_neg (by simp)
    · intro a ha
      exact decide_eq_true fun h => hpre (h ▸ ha)
  rw [hfrom, List.tail_cons] at hpost
  exact ⟨pre, post, heq, hpre, hpost, hfrom⟩

/-- A heading that begins in front of the mark of another one is that one, and begins where it does. -/
theorem Marked.eq_of_prefix (hm : Marked mark hs) (hh : h ∈ hs) (hh' : h' ∈ hs) (hx : mark ∉ x)
    (hp : h <+: x ++ (fromMark mark h' ++ r)) : h = h' ∧ x ++ fromMark mark h' = h' := by
  obtain ⟨pre, post, heq, hpre, hpost, hfrom⟩ := hm.exists_split hh
  obtain ⟨pre', post', heq', hpre', hpost', hfrom'⟩ := hm.exists_split hh'
  obtain ⟨s, hs⟩ := hp
  have hcons : pre ++ mark :: (post ++ s) = x ++ mark :: (post' ++ r) := by
    rw [hfrom', heq, List.append_assoc] at hs
    exact hs
  obtain ⟨rfl, hrest⟩ := split_unique hpre hx hcons
  have hsame : h = h' := by
    rcases List.prefix_or_prefix_of_prefix (List.prefix_append post s) (hrest ▸ List.prefix_append post' r) with hle | hle
    · exact hm.apart h hh h' hh' (by rw [hfrom, hfrom']; exact List.cons_prefix_cons.mpr ⟨rfl, hle⟩)
    · exact (hm.apart h' hh' h hh (by rw [hfrom, hfrom']; exact List.cons_prefix_cons.mpr ⟨rfl, hle⟩)).symm
  subst hsame
  exact ⟨rfl, by rw [hfrom, ← heq]⟩

/-- No heading begins in plain text: the next mark is that of a heading that begins later. -/
theorem WellPieced.not_prefix (hm : Marked mark hs) (hw : WellPieced mark hs ps) (hh : h ∈ hs) (hx : mark ∉ x)
    (hne : x ≠ []) : ¬h <+: x ++ text ps := by
  induction ps generalizing x with
  | nil =>
    intro hp
    rw [text, List.flatMap_nil, List.append_nil] at hp
    exact hx (hp.subset (hm.once h hh).1)
  | cons p ps ih =>
    have hp := hw p List.mem_cons_self
    have hps : WellPieced mark hs ps := fun q hq => hw q (List.mem_cons_of_mem p hq)
    rw [text, List.flatMap_cons, ← List.append_assoc]
    split at hp
    · intro hprefix
      obtain ⟨pre', post', heq', hpre', -, hfrom'⟩ := hm.exists_split hp
      rw [heq', List.append_assoc, List.append_assoc] at hprefix
      have hprefix : h <+: (x ++ pre') ++ (fromMark mark p.units ++ text ps) := by
        rw [hfrom', List.append_assoc]
        exact hprefix
      obtain ⟨-, hstart⟩ := hm.eq_of_prefix hh hp (by simp [hx, hpre']) hprefix
      rw [hfrom', List.append_assoc, ← heq'] at hstart
      exact hne (List.append_left_eq_self.mp hstart)
    · exact ih hps (by simp [hx, hp]) (by simp [hne])

/-- No heading begins inside another one. -/
theorem WellPieced.not_prefix_drop (hm : Marked mark hs) (hw : WellPieced mark hs ps) (hh : h ∈ hs) (hh' : h' ∈ hs)
    (hi : 0 < i) (hlt : i < h'.length) : ¬h <+: h'.drop i ++ text ps := by
  obtain ⟨pre', post', heq', hpre', hpost', hfrom'⟩ := hm.exists_split hh'
  by_cases hle : i ≤ pre'.length
  · intro hp
    have hdrop : h'.drop i = pre'.drop i ++ fromMark mark h' := by
      rw [hfrom', heq', List.drop_append_of_le_length hle]
    rw [hdrop, List.append_assoc] at hp
    obtain ⟨-, hstart⟩ := hm.eq_of_prefix hh hh' (fun h => hpre' (List.mem_of_mem_drop h)) hp
    have hlen := congrArg List.length hstart
    rw [hfrom', heq'] at hlen
    simp only [List.length_append, List.length_drop] at hlen
    omega
  · refine hw.not_prefix hm hh (fun hmem => hpost' ?_) (by simpa using hlt)
    rw [heq', List.drop_append, List.mem_append] at hmem
    rcases hmem with hmem | hmem
    · exact absurd (List.mem_of_mem_drop hmem) hpre'
    · obtain ⟨k, hk⟩ : ∃ k, i - pre'.length = k + 1 := ⟨i - pre'.length - 1, by omega⟩
      rw [hk, List.drop_succ_cons] at hmem
      exact List.mem_of_mem_drop hmem

/-! ### What is found -/

theorem foundAt_eq_nil (h : ∀ h ∈ hs, ¬h <+: x.drop i) : foundAt hs x i = [] := by
  have hnil : hs.filter (fun h => h.isPrefixOf (x.drop i)) = [] :=
    List.filter_eq_nil_iff.mpr fun h' hh' hp => h h' hh' (List.isPrefixOf_iff_prefix.mp hp)
  rw [foundAt, hnil, List.map_nil]

theorem foundAt_heading (hm : Marked mark hs) (hh' : h' ∈ hs) : foundAt hs (h' ++ r) 0 = [(0, h')] := by
  obtain ⟨pre', post', heq', hpre', -, hfrom'⟩ := hm.exists_split hh'
  have honly : ∀ h ∈ hs, h.isPrefixOf (h' ++ r) = decide (h = h') := by
    intro h hh
    rw [Bool.eq_iff_iff, decide_eq_true_iff, List.isPrefixOf_iff_prefix]
    constructor
    · intro hp
      refine (hm.eq_of_prefix (x := pre') (r := r) hh hh' hpre' ?_).1
      rw [hfrom', ← List.append_assoc, ← heq']
      exact hp
    · rintro rfl
      exact List.prefix_append h r
  rw [foundAt, List.drop_zero, List.filter_congr honly, List.filter_eq, List.count_eq_one_of_mem hm.nodup hh']
  rfl

theorem mem_found {q : Nat × List α} (hne : [] ∉ hs) : q ∈ found hs x ↔ q.2 ∈ hs ∧ q.2 <+: x.drop q.1 := by
  rw [found, List.mem_flatMap]
  simp only [foundAt, List.mem_map, List.mem_filter, List.isPrefixOf_iff_prefix]
  constructor
  · rintro ⟨i, -, h, hh, rfl⟩
    exact hh
  · rintro ⟨hmem, hp⟩
    refine ⟨q.1, List.mem_range.mpr ?_, q.2, ⟨hmem, hp⟩, rfl⟩
    by_contra hle
    rw [List.drop_eq_nil_iff.mpr (Nat.not_lt.mp hle), List.prefix_nil] at hp
    exact hne (hp ▸ hmem)

theorem found_append (u : List α) :
    found hs (u ++ r) = (List.range u.length).flatMap (foundAt hs (u ++ r)) ++
      (found hs r).map fun q => (u.length + q.1, q.2) := by
  have hshift : ∀ i, foundAt hs (u ++ r) (u.length + i) = (foundAt hs r i).map fun q => (u.length + q.1, q.2) := by
    intro i
    rw [foundAt, foundAt, List.drop_length_add_append, List.map_map]
    rfl
  rw [found, List.length_append, List.range_add, List.flatMap_append, List.flatMap_map, found, List.map_flatMap]
  simp only [hshift]

/-- A search at every position finds the headings where they were written. -/
theorem found_text (hm : Marked mark hs) (hw : WellPieced mark hs ps) : found hs (text ps) = places 0 ps := by
  induction ps with
  | nil => rfl
  | cons p ps ih =>
    have hp := hw p List.mem_cons_self
    have hps : WellPieced mark hs ps := fun q hq => hw q (List.mem_cons_of_mem p hq)
    rw [text, List.flatMap_cons, found_append, ← text, ih hps, map_places, places, Nat.add_zero, Nat.zero_add]
    split at hp <;> rename_i hheading
    · rw [if_pos hheading]
      obtain ⟨a, u, hu⟩ : ∃ a u, p.units = a :: u := by
        obtain ⟨pre', post', heq', -⟩ := hm.exists_split hp
        cases pre' with
        | nil => exact ⟨_, _, heq'⟩
        | cons a pre' => exact ⟨_, _, heq'⟩
      have hlen : p.units.length = u.length + 1 := congrArg List.length hu
      have hinside : (List.range u.length).flatMap (fun i => foundAt hs (p.units ++ text ps) (i + 1)) = [] := by
        rw [List.flatMap_eq_nil_iff]
        intro i hi
        refine foundAt_eq_nil fun h hh => ?_
        have hlt := List.mem_range.mp hi
        rw [List.drop_append_of_le_length (by omega)]
        exact hps.not_prefix_drop hm hh hp (Nat.zero_lt_succ i) (by omega)
      rw [hlen, List.range_succ_eq_map, List.flatMap_cons, List.flatMap_map, foundAt_heading hm hp]
      simp only [Nat.succ_eq_add_one]
      rw [hinside]
      rfl
    · rw [if_neg hheading]
      have hplain : (List.range p.units.length).flatMap (foundAt hs (p.units ++ text ps)) = [] := by
        rw [List.flatMap_eq_nil_iff]
        intro i hi
        refine foundAt_eq_nil fun h hh => ?_
        have hlt := List.mem_range.mp hi
        rw [List.drop_append_of_le_length (by omega)]
        refine hps.not_prefix hm hh (fun hmem => hp (List.mem_of_mem_drop hmem)) ?_
        simpa using hlt
      rw [hplain, List.nil_append]

end

end Headings
