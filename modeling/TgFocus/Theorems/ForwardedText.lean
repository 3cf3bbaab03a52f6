import TgFocus.Forwarded
import TgFocus.Theorems.LabelOffsets

/-! The labels of a forwarded message. In Chinese the search finds the five labels, each without the space behind it;
    in the other languages it looks for labels that the text does not have. The message that is sent marks none of
    them. -/

namespace TgFocus

/-- What a position that the search gives back covers. -/
def posReads (seq : List UInt16) (pos : Int32 × Int32) : List UInt16 :=
  (seq.drop pos.1.toInt.toNat).take pos.2.toInt.toNat

section
variable {lang : Lang} {m : TgMsg} {s s' : Bytes} {seq : List UInt16} {ls : List (Bytes × Bytes)}

/-! ### Labels that are not found -/

theorem Unlabelled.append (h : Unlabelled s) (h' : Unlabelled s') : Unlabelled (s ++ s') := by
  obtain ⟨hvalid, hnul, hmark⟩ := h
  obtain ⟨hvalid', hnul', hmark'⟩ := h'
  exact ⟨hvalid.append hvalid', by simp [hnul, hnul'], by simp [hmark, hmark']⟩

theorem Unlabelled.lines {title sender txt tstamp id : Bytes}
    (hm : ∀ f ∈ [m.title, m.sender, m.txt, m.tstamp], Unlabelled f)
    (hlabels : ∀ label ∈ [title, sender, txt, tstamp, id], Unlabelled label) :
    Unlabelled (m.lines title sender txt tstamp id) := by
  have hendl : Unlabelled endl := by decide
  simp only [List.forall_mem_cons, List.not_mem_nil, false_implies, implies_true, and_true] at hm hlabels
  obtain ⟨htitle, hsender, htxt, htstamp⟩ := hm
  obtain ⟨ltitle, lsender, ltxt, ltstamp, lid⟩ := hlabels
  exact (ltitle.append htitle |>.append hendl |>.append lsender |>.append hsender |>.append hendl |>.append ltxt
    |>.append htxt |>.append hendl |>.append ltstamp |>.append htstamp |>.append hendl |>.append lid
    |>.append (unlabelled_decimal m.id.toNat) |>.append hendl)

theorem getEndi_eq_none {label : List UInt16} (hlabel : 0x5b ∈ label) (hseq : 0x5b ∉ seq) (i : Nat) :
    getEndi label seq i = none := by
  refine if_neg fun h => hseq ?_
  exact List.mem_of_mem_drop ((List.isPrefixOf_iff_prefix.mp h).subset hlabel)

theorem decorAt_eq_nil (hseq : 0x5b ∉ seq) (i : Nat) : decorAt lang seq i = [] := by
  have hnone : ∀ label : List UInt16, 0x5b ∈ label → getEndi label seq i = none := fun label hlabel =>
    getEndi_eq_none hlabel hseq i
  have hby : ∀ enUs zhHk zhCn : List UInt16, 0x5b ∈ enUs → 0x5b ∈ zhHk → 0x5b ∈ zhCn →
      byLang lang (getEndi enUs) (getEndi zhHk) (getEndi zhCn) seq i = none := by
    intro enUs zhHk zhCn hen hhk hcn
    unfold byLang
    split
    · exact hnone enUs hen
    · exact hnone enUs hen
    · exact hnone enUs hen
    · exact hnone enUs hen
    · exact hnone zhHk hhk
    · exact hnone zhCn hcn
    · rfl
  have hchat : getEndiChat lang seq i = none := hby _ _ _ (by decide) (by decide) (by decide)
  have hsender : getEndiSender lang seq i = none := hby _ _ _ (by decide) (by decide) (by decide)
  have hcontent : getEndiContent lang seq i = none := hby _ _ _ (by decide) (by decide) (by decide)
  have hdate : getEndiDate lang seq i = none := hby _ _ _ (by decide) (by decide) (by decide)
  have hid : getEndiId lang seq i = none := hby _ _ _ (by decide) (by decide) (by decide)
  simp only [decorAt, hchat, hsender, hcontent, hdate, hid]
  rfl

/-- In a text without `[` nothing is found. -/
theorem getDecorPos_eq_nil (h : Unlabelled s) : getDecorPos lang s = [] := by
  obtain ⟨cs, rfl, hnul, hseq⟩ := h.exists_chars
  rw [getDecorPos]
  split
  · rfl
  · rw [Conv.run_encode_nul hnul]
    dsimp only
    rw [if_pos rfl]
    exact List.flatMap_eq_nil_iff.mpr fun i _ => decorAt_eq_nil hseq i

theorem unlabelled_toLocaleString (hlang : ¬Chinese lang)
    (hm : ∀ f ∈ [m.title, m.sender, m.txt, m.tstamp], Unlabelled f) : Unlabelled (m.toLocaleString lang) := by
  have hhk : lang ≠ .zh_HK := fun h => hlang (Or.inr h)
  have hcn : lang ≠ .zh_CN := fun h => hlang (Or.inl h)
  unfold TgMsg.toLocaleString
  split
  · exact absurd rfl hhk
  · exact absurd rfl hcn
  · exact Unlabelled.lines hm (by decide)

/-! ### Labels that are found -/

theorem lengthOf_label (hlang : Chinese lang) : ∀ label ∈ labels lang, Utf16.lengthOf label = 7 := by
  rcases hlang with rfl | rfl <;> decide

/-- The labels of the lines, without the space behind them, are what stands at the offsets. -/
theorem reads_labelOffsets (hlang : Chinese lang) (hls : ∀ l ∈ ls, LabelledLine lang l) :
    ∃ cs, render ls = Utf8.encode cs ∧ '\x00' ∉ cs ∧ (∀ p ∈ labelOffsets ls, p ≤ (Utf16.encode cs).length) ∧
      (labelOffsets ls).map (fun p => ((Utf16.encode cs).drop p).take 6) = ls.map fun l => (getC16Seq l.1).take 6 := by
  induction ls with
  | nil => exact ⟨[], rfl, List.not_mem_nil, nofun, rfl⟩
  | cons l ls ih =>
    obtain ⟨label, field⟩ := l
    obtain ⟨hlabel, hfield⟩ := hls _ List.mem_cons_self
    obtain ⟨ds, hds, hdsnul, hle, hrest⟩ := ih fun l hl => hls l (List.mem_cons_of_mem _ hl)
    obtain ⟨lc, rfl, hlnul, hfound⟩ := isLabel_labels hlang label hlabel
    obtain ⟨fc, rfl, hfnul, hfree⟩ := hfield.exists_chars
    have hendl : endl = Utf8.encode ['\n'] := by decide
    have hline : Utf8.encode lc ++ Utf8.encode fc ++ endl = Utf8.encode (lc ++ (fc ++ ['\n'])) := by
      rw [hendl, Utf8.encode_append, Utf8.encode_append, List.append_assoc]
    have hsix : 6 ≤ (Utf16.encode lc).length := by
      rw [← Utf16.lengthOf_encode, lengthOf_label hlang _ hlabel]
      decide
    refine ⟨lc ++ (fc ++ ['\n']) ++ ds, ?_, ?_, ?_, ?_⟩
    · rw [render_cons, hline, hds, ← Utf8.encode_append]
    · simp only [List.mem_append, List.mem_singleton, not_or]
      exact ⟨⟨hlnul, hfnul, by decide⟩, hdsnul⟩
    · intro p hp
      rw [labelOffsets_cons, hline, Utf16.lengthOf_encode] at hp
      rw [Utf16.encode_append _ ds, List.length_append]
      rcases List.mem_cons.mp hp with rfl | hp
      · exact Nat.zero_le _
      · obtain ⟨q, hq, rfl⟩ := List.mem_map.mp hp
        exact Nat.add_le_add_left (hle q hq) _
    · rw [labelOffsets_cons, hline, Utf16.lengthOf_encode, List.map_cons, List.map_cons, List.map_map, ← hrest,
        getC16Seq_encode hlnul, Utf16.encode_append _ ds]
      refine congrArg₂ List.cons ?_ (List.map_congr_left fun p _ => ?_)
      · rw [List.drop_zero, Utf16.encode_append lc, List.append_assoc, List.take_append_of_le_length hsix]
      · rw [Function.comp_apply, List.drop_length_add_append]

theorem labels_eq_nil (hlang : ¬Chinese lang) : labels lang = [] := by
  unfold labels
  split
  · exact absurd (Or.inr rfl) hlang
  · exact absurd (Or.inl rfl) hlang
  · rfl

/-- The search finds the labels of the rendered message, in the languages other than Chinese none; the message is
    sent without any of it. -/
theorem getDecorPos_reads (hm : ∀ f ∈ [m.title, m.sender, m.txt, m.tstamp], Unlabelled f)
    (hlen : (m.toLocaleString lang).length < 0x80000000) :
    (getDecorPos lang (m.toLocaleString lang)).map (posReads (getC16Seq (m.toLocaleString lang))) =
        ((labels lang).map fun label => (getC16Seq label).take 6) ∧
      collectMsg lang m = { text := m.toLocaleString lang, entities := [] } := by
  refine ⟨?_, rfl⟩
  by_cases hlang : Chinese lang
  · have hls : ∀ l ∈ labelledLines lang m, LabelledLine lang l := labelledLine_of_unlabelled hm
    have hlabels : (labelledLines lang m).map (·.1) = labels lang := by
      rw [labelledLines, List.map_fst_zip]
      rcases hlang with rfl | rfl <;> exact Nat.le_refl 5
    obtain ⟨cs, hcs, hnul, hle, hreads⟩ := reads_labelOffsets hlang hls
    rw [toLocaleString_eq_render hlang, hcs] at hlen
    rw [toLocaleString_eq_render hlang, getDecorPos_render hlang hls, List.map_map, hcs, getC16Seq_encode hnul,
      ← hlabels, List.map_map]
    refine Eq.trans (List.map_congr_left fun p hp => ?_) hreads
    have hsmall : p < 0x80000000 := Nat.lt_of_le_of_lt (Nat.le_trans (hle p hp) (Utf16.length_encode_le cs)) hlen
    have hoffset : (Int32.ofNat p).toInt.toNat = p := by
      rw [Int32.toInt_ofNat_of_lt hsmall, Int.toNat_natCast]
    simp only [Function.comp_apply, posReads, hoffset]
    rfl
  · rw [getDecorPos_eq_nil (unlabelled_toLocaleString hlang hm), labels_eq_nil hlang]
    rfl

end

/-- In Chinese the labels are found, in English nothing is. -/
theorem getDecorPos_reads_fruitMsg :
    (getDecorPos .zh_CN (fruitMsg.toLocaleString .zh_CN)).map (posReads (getC16Seq (fruitMsg.toLocaleString .zh_CN))) =
        [str "[ 群组 ]", str "[ 用户 ]", str "[ 信息 ]", str "[ 时间 ]", str "[ 标识 ]"].map getC16Seq ∧
      getDecorPos .en_US (fruitMsg.toLocaleString .en_US) = [] := by
  have hfields : ∀ f ∈ [fruitMsg.title, fruitMsg.sender, fruitMsg.txt, fruitMsg.tstamp], Unlabelled f := by decide
  have hzh := (@getDecorPos_reads .zh_CN fruitMsg hfields (by decide)).1
  have hen := (@getDecorPos_reads .en_US fruitMsg hfields (by decide)).1
  exact ⟨hzh.trans (by decide), List.map_eq_nil_iff.mp hen⟩

end TgFocus
