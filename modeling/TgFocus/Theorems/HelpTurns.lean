import TgFocus.Decoration
import TgFocus.Library.Ranges

/-! The turns of `extra_decoration_help`. Each part of a turn deals with its own kind of blocks: a mark of
    a code block or of a link, a heading, and a mark to hide what is behind a heading. -/

namespace TgFocus
open Ranges

/-- The positions of a unit in a text. -/
def positions (mark : UInt16) (seq : List UInt16) : List Nat :=
  (List.range seq.length).filter fun i => seq[i]? = some mark

def opensExamples (seq : List UInt16) (i : Nat) : Prop :=
  headingAt examplesHeading seq i = true ∨ headingAt moreExamplesHeading seq i = true

def hidesExamples (seq : List UInt16) (i : Nat) : Prop := headingAt clickToHide seq i = true

def TextEntity.range (e : TextEntity) : Int × Int := (e.offset.toInt, e.length.toInt)

/-- The ranges of the entities of a type, in their order. -/
def ranges (type : TextEntityType) (es : List TextEntity) : List (Int × Int) :=
  (es.filter fun e => e.type = type).map (·.range)

/-- What an entity makes of a range of positions. -/
def cut (r : Nat × Nat) : Int × Int := ((Int32.ofNat r.1).toInt, (Int32.ofNat r.2).toInt)

/-- The length of the heading that stands there. -/
def headingLength (seq : List UInt16) (i : Nat) : Nat :=
  if headingAt examplesHeading seq i then examplesHeading.length else moreExamplesHeading.length

/-- The ranges that end at some of the marks, which are met one after the other. -/
def Block.marks (b : Block) : List Nat → List (Nat × Nat)
  | [] => []
  | i :: l => (b.mark i).2.toList ++ (b.mark i).1.marks l

/-! ### Marks -/

section
variable {b : Block} {i : Nat} {l : List Nat}

theorem mark_of_not_ent (h : b.ent = false) : b.mark i = ({ ent := true, lasti := i }, none) := by
  simp [Block.mark, h]

theorem mark_of_pos {p : Nat} (hp : 0 < p) : Block.mark ⟨true, p⟩ i = (.outside, some (p, i - p + 1)) := by
  simp [Block.mark, hp, Block.outside]

theorem mark_zero : Block.mark ⟨true, 0⟩ i = (⟨false, i⟩, none) := rfl

theorem marks_of_pos (hb : b.ent = false) (hl : ∀ p ∈ l, 0 < p) : b.marks l = pairUp l := by
  induction l using pairUp.induct generalizing b with
  | case1 a c l ih =>
    rw [Block.marks, mark_of_not_ent hb, Block.marks, mark_of_pos (hl a List.mem_cons_self)]
    rw [ih rfl fun p hp => hl p (List.mem_cons_of_mem a (List.mem_cons_of_mem c hp))]
    rfl
  | case2 l h =>
    rw [pairUp]
    · rcases l with - | ⟨a, - | ⟨c, l⟩⟩
      · rfl
      · rw [Block.marks, mark_of_not_ent hb]
        rfl
      · exact absurd rfl (h a c l)
    · exact h

/-- The mark at the start of the text loses its pair. -/
theorem marks_zero_cons (hl : ∀ p ∈ l, 0 < p) : Block.outside.marks (0 :: i :: l) = pairUp l := by
  rw [Block.marks, mark_of_not_ent rfl, Block.marks, mark_zero, marks_of_pos rfl hl]
  rfl

theorem length_pairUp_cons_cons (a c : Nat) (l : List Nat) :
    (pairUp (a :: c :: l)).length = (pairUp l).length + 1 := rfl

theorem marks_eq_pairUp_iff (hl : l.Pairwise (· < ·)) :
    Block.outside.marks l = pairUp l ↔ ¬∃ c l', l = 0 :: c :: l' := by
  match l, hl with
  | [], _ => exact iff_of_true rfl fun ⟨_, _, h⟩ => nomatch h
  | [a], _ => exact iff_of_true (by cases a <;> rfl) fun ⟨_, _, h⟩ => nomatch h
  | a :: c :: l, hl =>
    have hac := (List.pairwise_cons.mp hl).1
    rcases Nat.eq_zero_or_pos a with rfl | ha
    · rw [marks_zero_cons fun p hp => hac p (List.mem_cons_of_mem c hp)]
      refine iff_of_false (fun h => ?_) fun h => h ⟨c, l, rfl⟩
      have hlen := congrArg List.length h
      rw [length_pairUp_cons_cons] at hlen
      omega
    · rw [marks_of_pos rfl]
      · refine iff_of_true rfl ?_
        rintro ⟨c', l', h⟩
        cases h
        exact absurd ha (Nat.lt_irrefl 0)
      · intro p hp
        rcases List.mem_cons.mp hp with rfl | hp
        · exact ha
        · exact Nat.lt_trans ha (hac p hp)

theorem pairwise_positions (mark : UInt16) (seq : List UInt16) : (positions mark seq).Pairwise (· < ·) :=
  List.pairwise_lt_range.filter _

theorem mem_positions {mark : UInt16} {seq : List UInt16} : i ∈ positions mark seq ↔ seq[i]? = some mark := by
  rw [positions, List.mem_filter, List.mem_range, decide_eq_true_eq, and_iff_right_iff_imp]
  intro h
  exact (List.getElem?_eq_some_iff.mp h).1

theorem mem_tail_iff {mark : UInt16} {seq : List UInt16} : mark ∈ seq.tail ↔ ∃ j, 0 < j ∧ j ∈ positions mark seq := by
  rw [List.mem_iff_getElem?]
  constructor
  · rintro ⟨j, hj⟩
    rw [List.getElem?_tail] at hj
    exact ⟨j + 1, Nat.succ_pos j, mem_positions.mpr hj⟩
  · rintro ⟨j, hpos, hj⟩
    refine ⟨j - 1, ?_⟩
    rw [List.getElem?_tail, Nat.sub_add_cancel hpos]
    exact mem_positions.mp hj

end

/-! ### Turns -/

namespace HelpDeco

section
variable {seq units : List UInt16} {s : HelpDeco} {i : Nat} {type type' : TextEntityType} {r : Option (Nat × Nat)}

@[simp] theorem emplace_foldblk : (s.emplace type r).foldblk = s.foldblk := by
  cases r <;> rfl

@[simp] theorem emplace_codeblk : (s.emplace type r).codeblk = s.codeblk := by
  cases r <;> rfl

@[simp] theorem emplace_urlblk : (s.emplace type r).urlblk = s.urlblk := by
  cases r <;> rfl

theorem ranges_append (es fs : List TextEntity) : ranges type (es ++ fs) = ranges type es ++ ranges type fs := by
  rw [ranges, List.filter_append, List.map_append]
  rfl

theorem ranges_emplace :
    ranges type (s.emplace type' r).decoList =
      ranges type s.decoList ++ if type' = type then (r.map cut).toList else [] := by
  cases r with
  | none => simp [emplace]
  | some p =>
    rw [emplace, ranges_append]
    by_cases h : type' = type
    · simp [ranges, textEntity, TextEntity.range, cut, h]
    · simp [ranges, textEntity, h]

/-! Each part of a turn changes its own block, and adds entities of its own type. -/

@[simp] theorem heading_codeblk : (heading units seq i s).codeblk = s.codeblk := by
  unfold heading
  split <;> simp

@[simp] theorem heading_urlblk : (heading units seq i s).urlblk = s.urlblk := by
  unfold heading
  split <;> simp

theorem ranges_heading (h : .bold ≠ type) : ranges type (heading units seq i s).decoList = ranges type s.decoList := by
  unfold heading
  split
  · rw [ranges_emplace, if_neg h, List.append_nil]
  · rfl

@[simp] theorem hide_codeblk : (hide seq i s).codeblk = s.codeblk := by
  unfold hide
  split <;> simp

@[simp] theorem hide_urlblk : (hide seq i s).urlblk = s.urlblk := by
  unfold hide
  split <;> simp

theorem ranges_hide (h : .expandableBlockQuote ≠ type) :
    ranges type (hide seq i s).decoList = ranges type s.decoList := by
  unfold hide
  split
  · rw [ranges_emplace, if_neg h, List.append_nil]
  · rfl

@[simp] theorem codeMark_foldblk : (codeMark seq i s).foldblk = s.foldblk := by
  unfold codeMark
  split <;> simp

@[simp] theorem codeMark_urlblk : (codeMark seq i s).urlblk = s.urlblk := by
  unfold codeMark
  split <;> simp

theorem ranges_codeMark (h : .code ≠ type) : ranges type (codeMark seq i s).decoList = ranges type s.decoList := by
  unfold codeMark
  split
  · rw [ranges_emplace, if_neg h, List.append_nil]
  · rfl

@[simp] theorem urlMark_foldblk : (urlMark seq i s).foldblk = s.foldblk := by
  unfold urlMark
  split <;> simp

@[simp] theorem urlMark_codeblk : (urlMark seq i s).codeblk = s.codeblk := by
  unfold urlMark
  split <;> simp

theorem ranges_urlMark (h : helpLink ≠ type) : ranges type (urlMark seq i s).decoList = ranges type s.decoList := by
  unfold urlMark
  split
  · rw [ranges_emplace, if_neg h, List.append_nil]
  · rfl

/-! ### Code blocks and links -/

theorem codeblk_turn :
    (turn seq s i).codeblk = if seq[i]? = some 0x2002 then (s.codeblk.mark i).1 else s.codeblk := by
  rw [turn, urlMark_codeblk, codeMark]
  split <;> simp

theorem ranges_code_turn :
    ranges .code (turn seq s i).decoList =
      ranges .code s.decoList ++ if seq[i]? = some 0x2002 then ((s.codeblk.mark i).2.map cut).toList else [] := by
  have hrest : ranges .code (hide seq i (heading moreExamplesHeading seq i (heading examplesHeading seq i s))).decoList =
      ranges .code s.decoList := by
    rw [ranges_hide (by decide), ranges_heading (by decide), ranges_heading (by decide)]
  rw [turn, ranges_urlMark (by decide), codeMark]
  split
  · rw [ranges_emplace, if_pos rfl, hrest, hide_codeblk, heading_codeblk, heading_codeblk]
  · rw [hrest, List.append_nil]

theorem urlblk_turn :
    (turn seq s i).urlblk = if seq[i]? = some 0x2003 then (s.urlblk.mark i).1 else s.urlblk := by
  rw [turn, urlMark]
  split <;> simp

theorem ranges_link_turn :
    ranges helpLink (turn seq s i).decoList =
      ranges helpLink s.decoList ++ if seq[i]? = some 0x2003 then ((s.urlblk.mark i).2.map cut).toList else [] := by
  have hrest : ranges helpLink
      (codeMark seq i (hide seq i (heading moreExamplesHeading seq i (heading examplesHeading seq i s)))).decoList =
        ranges helpLink s.decoList := by
    rw [ranges_codeMark (by decide), ranges_hide (by decide), ranges_heading (by decide), ranges_heading (by decide)]
  rw [turn, urlMark]
  split
  · rw [ranges_emplace, if_pos rfl, hrest]
    simp
  · rw [hrest, List.append_nil]

/-- The turns add the ranges that end at the marks among their positions. -/
theorem ranges_foldl (get : HelpDeco → Block) {mark : UInt16}
    (hget : ∀ s i, get (turn seq s i) = if seq[i]? = some mark then ((get s).mark i).1 else get s)
    (hranges : ∀ s i, ranges type (turn seq s i).decoList =
      ranges type s.decoList ++ if seq[i]? = some mark then (((get s).mark i).2.map cut).toList else [])
    (l : List Nat) (s : HelpDeco) :
    ranges type (l.foldl (turn seq) s).decoList =
      ranges type s.decoList ++ ((get s).marks (l.filter fun i => seq[i]? = some mark)).map cut := by
  induction l generalizing s with
  | nil => exact (List.append_nil _).symm
  | cons i l ih =>
    rw [List.foldl_cons, ih, hranges, hget]
    by_cases h : seq[i]? = some mark
    · rw [if_pos h, if_pos h, List.filter_cons_of_pos (by simpa using h), Block.marks, List.map_append,
        List.append_assoc, Option.toList_map]
    · rw [if_neg h, if_neg h, List.filter_cons_of_neg (by simpa using h), List.append_nil]

/-! ### Headings and blocks -/

theorem headingAt_iff : headingAt units seq i = true ↔ units <+: seq.drop i := List.isPrefixOf_iff_prefix

/-- A heading does not begin inside `<CLICK-TO-HIDE>`. -/
theorem not_prefix_of_hides {c k : Nat} (hc : hidesExamples seq c) (hk : k < clickToHide.length)
    (hunits : ∀ k < clickToHide.length, ¬clickToHide.drop k <+: units ∧ ¬units <+: clickToHide.drop k) :
    ¬headingAt units seq (c + k) = true := by
  intro h
  have hmark : clickToHide.drop k <+: seq.drop (c + k) := by
    rw [← List.drop_drop]
    exact (headingAt_iff.mp hc).drop k
  rcases List.prefix_or_prefix_of_prefix hmark (headingAt_iff.mp h) with hle | hle
  · exact (hunits k hk).1 hle
  · exact (hunits k hk).2 hle

theorem add_le_of_hides_of_opens {c j : Nat} (hc : hidesExamples seq c) (hj : opensExamples seq j) (hle : c ≤ j) :
    c + clickToHide.length ≤ j := by
  by_contra hlt
  obtain ⟨k, rfl⟩ := Nat.exists_eq_add_of_le hle
  have hk : k < clickToHide.length := by omega
  rcases hj with h | h
  · exact not_prefix_of_hides hc hk (by decide) h
  · exact not_prefix_of_hides hc hk (by decide) h

theorem not_hides_of_opens (h : opensExamples seq i) : ¬hidesExamples seq i := by
  intro hhides
  have hle := add_le_of_hides_of_opens hhides h (Nat.le_refl i)
  exact absurd hle (Nat.not_le.mpr (Nat.lt_add_of_pos_right (by decide)))

theorem add_length_le_of_headingAt (h : headingAt units seq i = true) (hne : units ≠ []) :
    i + units.length ≤ seq.length := by
  have hle := (headingAt_iff.mp h).length_le
  have hpos := List.length_pos_of_ne_nil hne
  rw [List.length_drop] at hle
  omega

theorem heading_of_ent (h : s.foldblk.ent = true) : heading units seq i s = s := by
  rw [heading, h]
  rfl

theorem heading_of_not (h : ¬headingAt units seq i = true) : heading units seq i s = s := by
  rw [heading, if_neg]
  rw [Bool.and_eq_true]
  exact fun hand => h hand.2

theorem foldblk_heading (hent : s.foldblk.ent = false) (h : headingAt units seq i = true) :
    (heading units seq i s).foldblk = { ent := true, lasti := i } := by
  rw [heading, if_pos, emplace_foldblk]
  rw [hent, h]
  rfl

theorem hide_of_not (h : ¬(s.foldblk.ent = true ∧ hidesExamples seq i)) : hide seq i s = s := by
  rw [hide, if_neg]
  rw [Bool.and_eq_true]
  exact h

/-- The part of a turn that deals with the headings. -/
abbrev headings (seq : List UInt16) (i : Nat) (s : HelpDeco) : HelpDeco :=
  heading moreExamplesHeading seq i (heading examplesHeading seq i s)

theorem foldblk_headings (hent : s.foldblk.ent = false) (h : opensExamples seq i) :
    (headings seq i s).foldblk = { ent := true, lasti := i } := by
  by_cases hexamples : headingAt examplesHeading seq i = true
  · rw [headings, heading_of_ent (by rw [foldblk_heading hent hexamples])]
    exact foldblk_heading hent hexamples
  · rw [headings, heading_of_not hexamples]
    exact foldblk_heading hent (h.resolve_left hexamples)

theorem headings_of_ent (h : s.foldblk.ent = true) : headings seq i s = s := by
  rw [headings, heading_of_ent h, heading_of_ent h]

theorem headings_of_not (h : ¬opensExamples seq i) : headings seq i s = s := by
  rw [headings, heading_of_not fun hex => h (Or.inl hex), heading_of_not fun hmore => h (Or.inr hmore)]

theorem foldblk_turn : (turn seq s i).foldblk = (hide seq i (headings seq i s)).foldblk := by
  rw [turn, urlMark_foldblk, codeMark_foldblk]

theorem ranges_quote_turn :
    ranges .expandableBlockQuote (turn seq s i).decoList =
      ranges .expandableBlockQuote (hide seq i (headings seq i s)).decoList := by
  rw [turn, ranges_urlMark (by decide), ranges_codeMark (by decide)]

theorem ranges_quote_headings :
    ranges .expandableBlockQuote (headings seq i s).decoList = ranges .expandableBlockQuote s.decoList := by
  rw [headings, ranges_heading (by decide), ranges_heading (by decide)]

theorem ranges_bold_turn : ranges .bold (turn seq s i).decoList = ranges .bold (headings seq i s).decoList := by
  rw [turn, ranges_urlMark (by decide), ranges_codeMark (by decide), ranges_hide (by decide)]

theorem ranges_bold_heading (hent : s.foldblk.ent = false) (h : headingAt units seq i = true) :
    ranges .bold (heading units seq i s).decoList = ranges .bold s.decoList ++ [cut (i, units.length)] := by
  rw [heading, if_pos, ranges_emplace, if_pos rfl]
  · rfl
  · rw [hent, h]
    rfl

theorem ranges_bold_headings (hent : s.foldblk.ent = false) (h : opensExamples seq i) :
    ranges .bold (headings seq i s).decoList = ranges .bold s.decoList ++ [cut (i, headingLength seq i)] := by
  rw [headingLength]
  by_cases hexamples : headingAt examplesHeading seq i = true
  · rw [headings, heading_of_ent (by rw [foldblk_heading hent hexamples]), if_pos hexamples]
    exact ranges_bold_heading hent hexamples
  · rw [headings, heading_of_not hexamples, if_neg hexamples]
    exact ranges_bold_heading hent (h.resolve_left hexamples)

/-- A turn outside a block. -/
theorem turn_outside (seq : List UInt16) (i : Nat) (hent : s.foldblk.ent = false) :
    ranges .expandableBlockQuote (turn seq s i).decoList = ranges .expandableBlockQuote s.decoList ∧
      ((opensExamples seq i ∧ (turn seq s i).foldblk = { ent := true, lasti := i } ∧
          ranges .bold (turn seq s i).decoList = ranges .bold s.decoList ++ [cut (i, headingLength seq i)]) ∨
        (¬opensExamples seq i ∧ (turn seq s i).foldblk.ent = false ∧
          ranges .bold (turn seq s i).decoList = ranges .bold s.decoList)) := by
  rw [ranges_quote_turn, foldblk_turn, ranges_bold_turn]
  by_cases hopens : opensExamples seq i
  · rw [hide_of_not fun h => not_hides_of_opens hopens h.2]
    exact ⟨ranges_quote_headings, Or.inl ⟨hopens, foldblk_headings hent hopens, ranges_bold_headings hent hopens⟩⟩
  · rw [headings_of_not hopens, hide_of_not (by simp [hent])]
    exact ⟨rfl, Or.inr ⟨hopens, hent, rfl⟩⟩

/-- A turn inside a block. -/
theorem turn_inside (seq : List UInt16) {h : Nat} (hblk : s.foldblk = { ent := true, lasti := h }) (hle : h ≤ i) :
    ranges .bold (turn seq s i).decoList = ranges .bold s.decoList ∧
    ((hidesExamples seq i ∧ (turn seq s i).foldblk.ent = false ∧
      ranges .expandableBlockQuote (turn seq s i).decoList =
        ranges .expandableBlockQuote s.decoList ++ [cut (h, i + clickToHide.length - h)]) ∨
    (¬hidesExamples seq i ∧ (turn seq s i).foldblk = { ent := true, lasti := h } ∧
      ranges .expandableBlockQuote (turn seq s i).decoList = ranges .expandableBlockQuote s.decoList)) := by
  have hent : s.foldblk.ent = true := by rw [hblk]
  rw [ranges_bold_turn, ranges_quote_turn, foldblk_turn, headings_of_ent hent]
  refine ⟨rfl, ?_⟩
  by_cases hhides : hidesExamples seq i
  · have hcond : (s.foldblk.ent && headingAt clickToHide seq i) = true := by
      rw [hent, hhides]
      rfl
    have hlen : i + 14 - s.foldblk.lasti + 1 = i + clickToHide.length - h := by
      rw [hblk]
      change i + 14 - h + 1 = i + 15 - h
      omega
    rw [hide, if_pos hcond, hlen, emplace_foldblk, ranges_emplace, if_pos rfl, hblk]
    exact Or.inl ⟨hhides, rfl, rfl⟩
  · rw [hide_of_not fun h => hhides h.2]
    exact Or.inr ⟨hhides, hblk, rfl⟩

theorem lt_length_of_opens (h : opensExamples seq i) : i < seq.length := by
  rcases h with h | h
  · have hle := add_length_le_of_headingAt h (by decide)
    exact Nat.lt_of_lt_of_le (Nat.lt_add_of_pos_right (by decide)) hle
  · have hle := add_length_le_of_headingAt h (by decide)
    exact Nat.lt_of_lt_of_le (Nat.lt_add_of_pos_right (by decide)) hle

theorem add_le_length_of_hides (h : hidesExamples seq i) : i + clickToHide.length ≤ seq.length :=
  add_length_le_of_headingAt h (by decide)

theorem lt_length_of_hides (h : hidesExamples seq i) : i < seq.length :=
  Nat.lt_of_lt_of_le (Nat.lt_add_of_pos_right (by decide)) (add_le_length_of_hides h)

/-- The turns from `i` on add the blocks from there on; a block that is open ends at the next mark. -/
theorem blocks_foldl (k : Nat) : ∀ (i : Nat) (s : HelpDeco), i + k = seq.length →
    (s.foldblk.ent = false →
      ∃ l, Blocks (opensExamples seq) (hidesExamples seq) clickToHide.length i l ∧
        ranges .expandableBlockQuote ((List.range' i k).foldl (turn seq) s).decoList =
          ranges .expandableBlockQuote s.decoList ++ l.map cut) ∧
    ∀ h, s.foldblk = { ent := true, lasti := h } → h ≤ i →
      ((∀ j, i ≤ j → ¬hidesExamples seq j) ∧
        ranges .expandableBlockQuote ((List.range' i k).foldl (turn seq) s).decoList =
          ranges .expandableBlockQuote s.decoList) ∨
      ∃ c l, First (hidesExamples seq) i c ∧
        Blocks (opensExamples seq) (hidesExamples seq) clickToHide.length (c + 1) l ∧
        ranges .expandableBlockQuote ((List.range' i k).foldl (turn seq) s).decoList =
          ranges .expandableBlockQuote s.decoList ++ cut (h, c + clickToHide.length - h) :: l.map cut := by
  induction k with
  | zero =>
    intro i s hi
    refine ⟨fun _ => ⟨[], .none fun j hij hopens => ?_, (List.append_nil _).symm⟩, fun h _ _ => Or.inl ⟨?_, rfl⟩⟩
    · have hlt := lt_length_of_opens hopens
      omega
    · intro j hij hhides
      have hlt := lt_length_of_hides hhides
      omega
  | succ k ih =>
    intro i s hi
    obtain ⟨houtside, hinside⟩ := ih (i + 1) (turn seq s i) (by omega)
    rw [List.range'_succ, List.foldl_cons]
    constructor
    · intro hent
      obtain ⟨hranges, ⟨hopens, hblk, -⟩ | ⟨hno, hent', -⟩⟩ := turn_outside seq i hent
      · have hhere := not_hides_of_opens hopens
        rcases hinside i hblk (Nat.le_succ i) with ⟨hno, hrest⟩ | ⟨c, l, hc, hl, hrest⟩
        · refine ⟨[], .unclosed (.here hopens) (not_from hhere hno), ?_⟩
          rw [hrest, hranges, List.map_nil, List.append_nil]
        · refine ⟨_, .block (.here hopens) (hc.before hhere) hl, ?_⟩
          rw [hrest, hranges, List.map_cons]
      · obtain ⟨l, hl, hrest⟩ := houtside hent'
        exact ⟨l, hl.before hno, by rw [hrest, hranges]⟩
    · intro h hblk hle
      rcases (turn_inside seq hblk hle).2 with ⟨hhides, hent, hranges⟩ | ⟨hno, hblk', hranges⟩
      · obtain ⟨l, hl, hrest⟩ := houtside hent
        refine Or.inr ⟨i, l, .here hhides, hl, ?_⟩
        rw [hrest, hranges, List.append_assoc]
        rfl
      · rcases hinside h hblk' (Nat.le_succ_of_le hle) with ⟨hnone, hrest⟩ | ⟨c, l, hc, hl, hrest⟩
        · exact Or.inl ⟨not_from hno hnone, by rw [hrest, hranges]⟩
        · exact Or.inr ⟨c, l, hc.before hno, hl, by rw [hrest, hranges]⟩

/-- The turns from `i` on mark the headings that open a block from there on. -/
theorem headings_foldl (k : Nat) : ∀ (i : Nat) (s : HelpDeco), i + k = seq.length →
    (s.foldblk.ent = false →
      ∃ hs : List Nat, (∀ j, j ∈ hs ↔ Opening (opensExamples seq) (hidesExamples seq) i j) ∧
        ranges .bold ((List.range' i k).foldl (turn seq) s).decoList =
          ranges .bold s.decoList ++ hs.map fun j => cut (j, headingLength seq j)) ∧
    ∀ h, s.foldblk = { ent := true, lasti := h } → h ≤ i →
      ∃ hs : List Nat, (∀ j, j ∈ hs ↔ ∃ c, First (hidesExamples seq) i c ∧
          Opening (opensExamples seq) (hidesExamples seq) (c + 1) j) ∧
        ranges .bold ((List.range' i k).foldl (turn seq) s).decoList =
          ranges .bold s.decoList ++ hs.map fun j => cut (j, headingLength seq j) := by
  induction k with
  | zero =>
    intro i s hi
    refine ⟨fun _ => ⟨[], fun j => ?_, (List.append_nil _).symm⟩, fun h _ _ => ⟨[], fun j => ?_, (List.append_nil _).symm⟩⟩
    · refine iff_of_false List.not_mem_nil fun hj => ?_
      obtain ⟨hle, hopens⟩ := hj.opens_at
      have hlt := lt_length_of_opens hopens
      omega
    · refine iff_of_false List.not_mem_nil ?_
      rintro ⟨c, hc, -⟩
      have hle := hc.1
      have hlt := lt_length_of_hides hc.2.1
      omega
  | succ k ih =>
    intro i s hi
    obtain ⟨houtside, hinside⟩ := ih (i + 1) (turn seq s i) (by omega)
    rw [List.range'_succ, List.foldl_cons]
    constructor
    · intro hent
      rcases (turn_outside seq i hent).2 with ⟨hopens, hblk, hbold⟩ | ⟨hno, hent', hbold⟩
      · obtain ⟨hs, hmem, hrest⟩ := hinside i hblk (Nat.le_succ i)
        refine ⟨i :: hs, fun j => ?_, ?_⟩
        · rw [List.mem_cons, hmem, opening_iff_of_opens hopens]
          simp only [first_iff_of_not (not_hides_of_opens hopens)]
        · rw [hrest, hbold, List.append_assoc]
          rfl
      · obtain ⟨hs, hmem, hrest⟩ := houtside hent'
        refine ⟨hs, fun j => ?_, by rw [hrest, hbold]⟩
        rw [hmem, opening_iff_of_not_opens hno]
    · intro h hblk hle
      obtain ⟨hbold, hcases⟩ := turn_inside seq hblk hle
      rcases hcases with ⟨hhides, hent, -⟩ | ⟨hno, hblk', -⟩
      · obtain ⟨hs, hmem, hrest⟩ := houtside hent
        refine ⟨hs, fun j => ?_, by rw [hrest, hbold]⟩
        rw [hmem]
        refine ⟨fun hj => ⟨i, .here hhides, hj⟩, ?_⟩
        rintro ⟨c, hc, hj⟩
        rwa [hc.unique (.here hhides)] at hj
      · obtain ⟨hs, hmem, hrest⟩ := hinside h hblk' (Nat.le_succ_of_le hle)
        refine ⟨hs, fun j => ?_, by rw [hrest, hbold]⟩
        rw [hmem]
        simp only [first_iff_of_not hno]

/-! ### The types -/

def types : List TextEntityType := [.bold, .code, helpLink, .expandableBlockQuote]

theorem types_emplace (hs : ∀ e ∈ s.decoList, e.type ∈ types) (htype : type ∈ types) :
    ∀ e ∈ (s.emplace type r).decoList, e.type ∈ types := by
  cases r with
  | none => exact hs
  | some p =>
    intro e he
    rcases List.mem_append.mp he with he | he
    · exact hs e he
    · rw [List.mem_singleton.mp he]
      exact htype

theorem types_heading (hs : ∀ e ∈ s.decoList, e.type ∈ types) :
    ∀ e ∈ (heading units seq i s).decoList, e.type ∈ types := by
  unfold heading
  split
  · exact types_emplace hs (by decide)
  · exact hs

theorem types_turn (hs : ∀ e ∈ s.decoList, e.type ∈ types) : ∀ e ∈ (turn seq s i).decoList, e.type ∈ types := by
  have hhide : ∀ {s : HelpDeco}, (∀ e ∈ s.decoList, e.type ∈ types) →
      ∀ e ∈ (hide seq i s).decoList, e.type ∈ types := by
    intro s hs
    unfold hide
    split
    · exact types_emplace hs (by decide)
    · exact hs
  have hcode : ∀ {s : HelpDeco}, (∀ e ∈ s.decoList, e.type ∈ types) →
      ∀ e ∈ (codeMark seq i s).decoList, e.type ∈ types := by
    intro s hs
    unfold codeMark
    split
    · exact types_emplace hs (by decide)
    · exact hs
  have hurl : ∀ {s : HelpDeco}, (∀ e ∈ s.decoList, e.type ∈ types) →
      ∀ e ∈ (urlMark seq i s).decoList, e.type ∈ types := by
    intro s hs
    unfold urlMark
    split
    · exact types_emplace hs (by decide)
    · exact hs
  exact hurl (hcode (hhide (types_heading (types_heading hs))))

theorem types_foldl (l : List Nat) (s : HelpDeco) (hs : ∀ e ∈ s.decoList, e.type ∈ types) :
    ∀ e ∈ (l.foldl (turn seq) s).decoList, e.type ∈ types := by
  induction l generalizing s with
  | nil => exact hs
  | cons i l ih => exact ih (turn seq s i) (types_turn hs)

/-! ### Behind other entities -/

/-- The same with entities that were there before. -/
def behind (es : List TextEntity) (s : HelpDeco) : HelpDeco := { s with decoList := es ++ s.decoList }

variable {es : List TextEntity}

theorem emplace_behind : (behind es s).emplace type r = behind es (s.emplace type r) := by
  cases r with
  | none => rfl
  | some p => simp [behind, emplace]

theorem heading_behind : heading units seq i (behind es s) = behind es (heading units seq i s) := by
  unfold heading
  change (if (!s.foldblk.ent && headingAt units seq i) = true then _ else _) = _
  split
  · exact emplace_behind (s := { s with foldblk := { ent := true, lasti := i } })
  · rfl

theorem hide_behind : hide seq i (behind es s) = behind es (hide seq i s) := by
  unfold hide
  change (if (s.foldblk.ent && headingAt clickToHide seq i) = true then _ else _) = _
  split
  · exact emplace_behind (s := { s with foldblk := .outside })
  · rfl

theorem codeMark_behind : codeMark seq i (behind es s) = behind es (codeMark seq i s) := by
  unfold codeMark
  split
  · exact emplace_behind (s := { s with codeblk := (s.codeblk.mark i).1 })
  · rfl

theorem urlMark_behind : urlMark seq i (behind es s) = behind es (urlMark seq i s) := by
  unfold urlMark
  split
  · exact emplace_behind (s := { s with urlblk := (s.urlblk.mark i).1 })
  · rfl

theorem turn_behind : turn seq (behind es s) i = behind es (turn seq s i) := by
  rw [turn, heading_behind, heading_behind, hide_behind, codeMark_behind, urlMark_behind]
  rfl

theorem foldl_behind (l : List Nat) (s : HelpDeco) :
    l.foldl (turn seq) (behind es s) = behind es (l.foldl (turn seq) s) := by
  induction l generalizing s with
  | nil => rfl
  | cons i l ih => rw [List.foldl_cons, turn_behind, ih, List.foldl_cons]

end

end HelpDeco

end TgFocus
