import TgFocus.Theorems.HelpTurns

/-! The ranges that `extra_decoration_help` marks. A mark of a code block or of a link ends a range when
    one was begun at a position above `0`; so a mark at the start of the text begins none. -/

namespace TgFocus
open Ranges

/-- What the entities of a help text are meant to be. -/
structure Decorated (seq : List UInt16) (es : List TextEntity) : Prop where
  code : ranges .code es = (pairUp (positions 0x2002 seq)).map toInts
  link : ranges helpLink es = (pairUp (positions 0x2003 seq)).map toInts
  quote :
    ∃ l, Blocks (opensExamples seq) (hidesExamples seq) clickToHide.length 0 l ∧
      ranges .expandableBlockQuote es = l.map toInts
  fits : ∀ e ∈ es, Fits (seq.length : Int) e.range
  apart : ∀ type ∈ [.code, helpLink, .expandableBlockQuote], (ranges type es).Pairwise Apart

/-- A signed number of 32 bits holds the start and the length. -/
def Held (r : Nat × Nat) : Prop := r.1 < 0x80000000 ∧ r.2 < 0x80000000

/-- What is to be marked in a text can be said with signed numbers of 32 bits; a heading, whose length
    is small, needs only the low bits of its position to be those of such a number. -/
structure HeldByInts (seq : List UInt16) : Prop where
  code : ∀ r ∈ pairUp (positions 0x2002 seq), Held r
  link : ∀ r ∈ pairUp (positions 0x2003 seq), Held r
  quote :
    ∀ l, Blocks (opensExamples seq) (hidesExamples seq) clickToHide.length 0 l → ∀ r ∈ l, Held r
  heading : ∀ i, Opening (opensExamples seq) (hidesExamples seq) 0 i → i % 0x100000000 < 0x80000000

/-- The first unit of the text is this one, and it occurs again. -/
def BeginsPair (mark : UInt16) (seq : List UInt16) : Prop := seq.head? = some mark ∧ mark ∈ seq.tail

instance (mark : UInt16) (seq : List UInt16) : Decidable (BeginsPair mark seq) := inferInstanceAs (Decidable (_ ∧ _))

section
variable {mark : UInt16} {seq : List UInt16} {msgtxt : Bytes} {i n : Nat} {l : List (Nat × Nat)}

open HelpDeco

theorem beginsPair_iff :
    BeginsPair mark seq ↔ ∃ c l, positions mark seq = 0 :: c :: l := by
  have hsorted := pairwise_positions mark seq
  rw [BeginsPair, mem_tail_iff, List.head?_eq_getElem?, ← mem_positions]
  constructor
  · rintro ⟨hzero, j, hpos, hj⟩
    match hps : positions mark seq, hsorted with
    | [], _ =>
      rw [hps] at hzero
      cases hzero
    | [a], _ =>
      rw [hps, List.mem_singleton] at hzero hj
      omega
    | a :: c :: l, hsorted =>
      rw [hps] at hzero
      rcases List.mem_cons.mp hzero with rfl | hzero
      · exact ⟨c, l, rfl⟩
      · exact absurd ((List.pairwise_cons.mp hsorted).1 0 hzero) (Nat.not_lt_zero a)
  · rintro ⟨c, l, hps⟩
    rw [hps] at hsorted ⊢
    exact ⟨List.mem_cons_self, c, (List.pairwise_cons.mp hsorted).1 c List.mem_cons_self,
      List.mem_cons_of_mem 0 List.mem_cons_self⟩

theorem extraDecorationHelp_eq_append (decoList : List TextEntity) (msgtxt : Bytes) :
    extraDecorationHelp decoList msgtxt = decoList ++ extraDecorationHelp [] msgtxt := by
  have hstart : start decoList = behind decoList (start []) := by simp [start, behind]
  rw [extraDecorationHelp, hstart, foldl_behind]
  rfl

/-! ### The numbers of an entity -/

theorem toInt_ofNat_eq_iff : (Int32.ofNat n).toInt = n ↔ n < 0x80000000 := by
  refine ⟨fun h => ?_, Int32.toInt_ofNat_of_lt⟩
  have hlt := (Int32.ofNat n).toInt_lt
  rw [h] at hlt
  exact Int.ofNat_lt.mp hlt

theorem cut_eq_iff {r : Nat × Nat} : cut r = toInts r ↔ Held r := by
  rw [cut, toInts, Prod.mk.injEq, toInt_ofNat_eq_iff, toInt_ofNat_eq_iff, Held]

theorem map_cut_eq_iff : l.map cut = l.map toInts ↔ ∀ r ∈ l, Held r := by
  rw [List.map_inj_left]
  exact forall₂_congr fun r _ => cut_eq_iff

theorem toInt_ofNat_of_mod_lt (h : n % 0x100000000 < 0x80000000) :
    (Int32.ofNat n).toInt = (n % 0x100000000 : Nat) := by
  rw [Int32.toInt_ofNat', Int.bmod_def]
  change (if (n : Int) % 4294967296 < (4294967296 + 1) / 2 then _ else _) = _
  rw [if_pos (by omega)]
  exact (Int.natCast_mod n 4294967296).symm

theorem toInt_ofNat_nonneg_iff : 0 ≤ (Int32.ofNat n).toInt ↔ n % 0x100000000 < 0x80000000 := by
  constructor
  · intro h
    by_contra hge
    rw [Int32.toInt_ofNat', Int.bmod_def] at h
    change 0 ≤ (if (n : Int) % 4294967296 < (4294967296 + 1) / 2 then _ else _) at h
    rw [if_neg (by omega)] at h
    change 0 ≤ (n : Int) % 4294967296 - 4294967296 at h
    omega
  · intro h
    rw [toInt_ofNat_of_mod_lt h]
    exact Int.natCast_nonneg _

theorem held_of_fits (h : Fits n r) (hn : n < 0x80000000) : Held r := by
  obtain ⟨-, hpos, hle⟩ := h
  exact ⟨by omega, by omega⟩

/-! ### Code blocks, links and quotes -/

theorem ranges_code_help :
    ranges .code (extraDecorationHelp [] msgtxt) =
      (Block.outside.marks (positions 0x2002 (getC16Seq msgtxt))).map cut :=
  ranges_foldl HelpDeco.codeblk (fun _ _ => codeblk_turn) (fun _ _ => ranges_code_turn) _ (start [])

theorem ranges_link_help :
    ranges helpLink (extraDecorationHelp [] msgtxt) =
      (Block.outside.marks (positions 0x2003 (getC16Seq msgtxt))).map cut :=
  ranges_foldl HelpDeco.urlblk (fun _ _ => urlblk_turn) (fun _ _ => ranges_link_turn) _ (start [])

/-- The pairs are marked exactly when none is lost and an entity holds each. -/
theorem marks_map_cut_eq_iff :
    (Block.outside.marks (positions mark seq)).map cut = (pairUp (positions mark seq)).map toInts ↔
      ¬BeginsPair mark seq ∧ ∀ r ∈ pairUp (positions mark seq), Held r := by
  have hpairs := marks_eq_pairUp_iff (pairwise_positions mark seq)
  rw [← beginsPair_iff] at hpairs
  constructor
  · intro h
    have hno : ¬BeginsPair mark seq := by
      intro hbegins
      obtain ⟨c, l, hps⟩ := beginsPair_iff.mp hbegins
      have hsorted := pairwise_positions mark seq
      have hlen := congrArg List.length h
      rw [hps] at hsorted hlen
      have hpos := (List.pairwise_cons.mp hsorted).1
      rw [marks_zero_cons fun p hp => hpos p (List.mem_cons_of_mem c hp), List.length_map, List.length_map,
        length_pairUp_cons_cons] at hlen
      omega
    rw [hpairs.mpr hno] at h
    exact ⟨hno, map_cut_eq_iff.mp h⟩
  · rintro ⟨hno, hheld⟩
    rw [hpairs.mpr hno]
    exact map_cut_eq_iff.mpr hheld

theorem blocks_help (msgtxt : Bytes) :
    ∃ l, Blocks (opensExamples (getC16Seq msgtxt)) (hidesExamples (getC16Seq msgtxt)) clickToHide.length 0 l ∧
      ranges .expandableBlockQuote (extraDecorationHelp [] msgtxt) = l.map cut := by
  obtain ⟨l, hl, heq⟩ := (@blocks_foldl (getC16Seq msgtxt) _ 0 (start []) (Nat.zero_add _)).1 rfl
  rw [← List.range_eq_range'] at heq
  exact ⟨l, hl, heq⟩

theorem fits_positions : ∀ r ∈ pairUp (positions mark seq), Fits seq.length r := by
  refine fits_pairUp (pairwise_positions mark seq) fun p hp => ?_
  exact (List.getElem?_eq_some_iff.mp (mem_positions.mp hp)).1

theorem fits_blocks (h : Blocks (opensExamples seq) (hidesExamples seq) clickToHide.length 0 l) :
    ∀ r ∈ l, Fits seq.length r :=
  h.fits (by decide) fun _ hc => add_le_length_of_hides hc

/-! ### Headings -/

theorem headings_help (msgtxt : Bytes) :
    ∃ hs : List Nat,
      (∀ j, j ∈ hs ↔ Opening (opensExamples (getC16Seq msgtxt)) (hidesExamples (getC16Seq msgtxt)) 0 j) ∧
        ranges .bold (extraDecorationHelp [] msgtxt) =
          hs.map fun j => cut (j, headingLength (getC16Seq msgtxt) j) := by
  obtain ⟨hs, hmem, heq⟩ := (@headings_foldl (getC16Seq msgtxt) _ 0 (start []) (Nat.zero_add _)).1 rfl
  rw [← List.range_eq_range'] at heq
  exact ⟨hs, hmem, heq⟩

theorem fits_heading_iff (h : opensExamples seq i) :
    Fits (seq.length : Int) (cut (i, headingLength seq i)) ↔ i % 0x100000000 < 0x80000000 := by
  have hlength : i + headingLength seq i ≤ seq.length ∧ 0 < headingLength seq i ∧ headingLength seq i < 16 := by
    rw [headingLength]
    by_cases hexamples : headingAt examplesHeading seq i = true
    · rw [if_pos hexamples]
      exact ⟨add_length_le_of_headingAt hexamples (by decide), by decide, by decide⟩
    · rw [if_neg hexamples]
      exact ⟨add_length_le_of_headingAt (h.resolve_left hexamples) (by decide), by decide, by decide⟩
  obtain ⟨hle, hpos, hlt⟩ := hlength
  have hlen : (Int32.ofNat (headingLength seq i)).toInt = headingLength seq i := Int32.toInt_ofNat_of_lt (by omega)
  rw [Fits, cut, hlen, toInt_ofNat_nonneg_iff]
  refine ⟨fun h => h.1, fun hmod => ⟨hmod, Int.ofNat_lt.mpr hpos, ?_⟩⟩
  rw [toInt_ofNat_of_mod_lt hmod]
  have hmodle := Nat.mod_le i 0x100000000
  omega

theorem mem_ranges {es : List TextEntity} {e : TextEntity} (he : e ∈ es) : e.range ∈ ranges e.type es :=
  List.mem_map_of_mem (List.mem_filter.mpr ⟨he, decide_eq_true rfl⟩)

/-! ### The whole text -/

theorem heldByInts_of_lt (h : seq.length < 0x80000000) : HeldByInts seq where
  code r hr := held_of_fits (fits_positions r hr) h
  link r hr := held_of_fits (fits_positions r hr) h
  quote l hl r hr := held_of_fits (fits_blocks hl r hr) h
  heading i hi := by
    have hlt := lt_length_of_opens hi.opens_at.2
    omega

theorem Decorated.heldByInts (h : Decorated (getC16Seq msgtxt) (extraDecorationHelp [] msgtxt)) :
    HeldByInts (getC16Seq msgtxt) where
  code := (marks_map_cut_eq_iff.mp (ranges_code_help.symm.trans h.code)).2
  link := (marks_map_cut_eq_iff.mp (ranges_link_help.symm.trans h.link)).2
  quote l hl := by
    obtain ⟨l', hl', hcut⟩ := blocks_help msgtxt
    obtain ⟨l'', hl'', hints⟩ := h.quote
    obtain rfl := hl.unique hl'
    obtain rfl := hl.unique hl''
    exact map_cut_eq_iff.mp (hcut.symm.trans hints)
  heading i hi := by
    obtain ⟨hs, hmem, hbold⟩ := headings_help msgtxt
    have hrange := List.mem_map_of_mem (f := fun j => cut (j, headingLength (getC16Seq msgtxt) j)) ((hmem i).mpr hi)
    rw [← hbold] at hrange
    obtain ⟨e, he, heq⟩ := List.mem_map.mp hrange
    rw [← fits_heading_iff hi.opens_at.2, ← heq]
    exact h.fits e (List.mem_filter.mp he).1

theorem fits_toInts_of_mem {r : Int × Int} (hr : r ∈ l.map toInts) (hl : ∀ r ∈ l, Fits n r) : Fits (n : Int) r := by
  obtain ⟨r', hr', rfl⟩ := List.mem_map.mp hr
  exact fits_toInts.mpr (hl r' hr')

theorem pairwise_map_toInts (hl : l.Pairwise Apart) : (l.map toInts).Pairwise Apart :=
  List.pairwise_map.mpr (hl.imp fun h => apart_toInts.mpr h)

theorem HeldByInts.decorated (hcode : ¬BeginsPair 0x2002 (getC16Seq msgtxt))
    (hlink : ¬BeginsPair 0x2003 (getC16Seq msgtxt)) (hheld : HeldByInts (getC16Seq msgtxt)) :
    Decorated (getC16Seq msgtxt) (extraDecorationHelp [] msgtxt) := by
  have hcodes := ranges_code_help.trans (marks_map_cut_eq_iff.mpr ⟨hcode, hheld.code⟩)
  have hlinks := ranges_link_help.trans (marks_map_cut_eq_iff.mpr ⟨hlink, hheld.link⟩)
  obtain ⟨l, hl, hquotes⟩ := blocks_help msgtxt
  rw [map_cut_eq_iff.mpr (hheld.quote l hl)] at hquotes
  obtain ⟨hs, hmem, hbold⟩ := headings_help msgtxt
  refine ⟨hcodes, hlinks, ⟨l, hl, hquotes⟩, fun e he => ?_, fun type htype => ?_⟩
  · have hrange := mem_ranges he
    have htype := types_foldl _ (start []) (fun e he => nomatch he) e he
    rcases List.mem_cons.mp htype with htype | htype
    · rw [htype, hbold] at hrange
      obtain ⟨i, hi, heq⟩ := List.mem_map.mp hrange
      have hopening := (hmem i).mp hi
      rw [← heq]
      exact (fits_heading_iff hopening.opens_at.2).mpr (hheld.heading i hopening)
    rcases List.mem_cons.mp htype with htype | htype
    · rw [htype, hcodes] at hrange
      exact fits_toInts_of_mem hrange fits_positions
    rcases List.mem_cons.mp htype with htype | htype
    · rw [htype, hlinks] at hrange
      exact fits_toInts_of_mem hrange fits_positions
    · rw [List.mem_singleton.mp htype, hquotes] at hrange
      exact fits_toInts_of_mem hrange (fits_blocks hl)
  · rcases List.mem_cons.mp htype with rfl | htype
    · rw [hcodes]
      exact pairwise_map_toInts (pairwise_apart_pairUp (pairwise_positions _ _))
    rcases List.mem_cons.mp htype with rfl | htype
    · rw [hlinks]
      exact pairwise_map_toInts (pairwise_apart_pairUp (pairwise_positions _ _))
    · obtain rfl := List.mem_singleton.mp htype
      rw [hquotes]
      exact pairwise_map_toInts (hl.pairwise_apart fun c j hc hj => add_le_of_hides_of_opens hc hj)

/-- A help text is decorated as it is meant to be exactly when it does not begin with the first mark of a
    pair, and the numbers of its ranges fit into those of an entity, as in every text of less than `2 ^ 31`
    units. -/
theorem decorated_iff (decoList : List TextEntity) (msgtxt : Bytes) :
    extraDecorationHelp decoList msgtxt = decoList ++ extraDecorationHelp [] msgtxt ∧
      (Decorated (getC16Seq msgtxt) (extraDecorationHelp [] msgtxt) ↔
        ¬BeginsPair 0x2002 (getC16Seq msgtxt) ∧ ¬BeginsPair 0x2003 (getC16Seq msgtxt) ∧
          HeldByInts (getC16Seq msgtxt)) ∧
      ((getC16Seq msgtxt).length < 0x80000000 → HeldByInts (getC16Seq msgtxt)) := by
  refine ⟨extraDecorationHelp_eq_append decoList msgtxt, ⟨fun h => ?_, ?_⟩, heldByInts_of_lt⟩
  · have hcode := marks_map_cut_eq_iff.mp (ranges_code_help.symm.trans h.code)
    have hlink := marks_map_cut_eq_iff.mp (ranges_link_help.symm.trans h.link)
    exact ⟨hcode.1, hlink.1, h.heldByInts⟩
  · rintro ⟨hcode, hlink, hheld⟩
    exact hheld.decorated hcode hlink

/-- Of two marks at the start of a text, nothing is marked. -/
theorem not_decorated : ¬Decorated (getC16Seq (str "\u2002a\u2002")) (extraDecorationHelp [] (str "\u2002a\u2002")) := by
  intro h
  have hcode := h.code
  revert hcode
  decide

end

end TgFocus
