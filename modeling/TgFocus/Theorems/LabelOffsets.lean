import TgFocus.DecorPos
import TgFocus.Theorems.Numbers
import TgFocus.Theorems.Utf16Texts

/-! Where `get_decor_pos` finds the labels of a message in Chinese. A label is found at its first unit, `[`,
    and the texts between the labels have none. -/

namespace TgFocus

/-- The labels of a message, in their order. -/
def labels : Lang → List Bytes
  | .zh_HK => [str "[ 群組 ] ", str "[ 用戶 ] ", str "[ 訊息 ] ", str "[ 時間 ] ", str "[ 標識 ] "]
  | .zh_CN => [str "[ 群组 ] ", str "[ 用户 ] ", str "[ 信息 ] ", str "[ 时间 ] ", str "[ 标识 ] "]
  | _ => []

/-- The labels, each with the text behind it. -/
def labelledLines (lang : Lang) (m : TgMsg) : List (Bytes × Bytes) :=
  (labels lang).zip [m.title, m.sender, m.txt, m.tstamp, decimal m.id.toNat]

def render (ls : List (Bytes × Bytes)) : Bytes := ls.flatMap fun l => l.1 ++ l.2 ++ endl

/-- How many units come before each label. -/
def labelOffsets (ls : List (Bytes × Bytes)) : List Nat :=
  (List.range ls.length).map fun k => Utf16.lengthOf (render (ls.take k))

def Chinese (lang : Lang) : Prop := lang = .zh_CN ∨ lang = .zh_HK

/-- A text that holds neither a NUL nor the first byte of a label. -/
def Unlabelled (s : Bytes) : Prop := Utf8.Valid s ∧ 0 ∉ s ∧ 0x5b ∉ s

instance : DecidablePred Unlabelled := fun _ => inferInstanceAs (Decidable (_ ∧ _ ∧ _))

/-- The ends of the labels that are found at `i`. -/
def endisAt (lang : Lang) (cuseq : List UInt16) (i : Nat) : List Nat :=
  (getEndiChat lang cuseq i).toList ++ (getEndiSender lang cuseq i).toList ++ (getEndiContent lang cuseq i).toList ++
    (getEndiDate lang cuseq i).toList ++ (getEndiId lang cuseq i).toList

/-- What is found at the first unit of a text, which is at `i` in the whole one. -/
def decorHere (lang : Lang) (cuseq : List UInt16) (i : Nat) : List (Int32 × Int32) :=
  (endisAt lang cuseq 0).map fun endi => (Int32.ofNat i, Int32.ofNat (endi + 1))

def decorFrom (lang : Lang) (i : Nat) : List UInt16 → List (Int32 × Int32)
  | [] => []
  | u :: s => decorHere lang (u :: s) i ++ decorFrom lang (i + 1) s

/-- The units of a label. -/
structure IsLabel (lang : Lang) (units : List UInt16) : Prop where
  found : ∀ t i, decorHere lang (units ++ t) i = [(Int32.ofNat i, 6)]
  tail : ∃ rest, units = 0x5b :: rest ∧ 0x5b ∉ rest

section
variable {lang : Lang} {m : TgMsg} {cuseq s t units : List UInt16} {u : UInt16} {i : Nat} {ls : List (Bytes × Bytes)}

theorem toLocaleString_eq_render (hlang : Chinese lang) : m.toLocaleString lang = render (labelledLines lang m) := by
  rcases hlang with rfl | rfl
  · simp [TgMsg.toLocaleString, TgMsg.lines, render, labelledLines, labels]
  · simp [TgMsg.toLocaleString, TgMsg.lines, render, labelledLines, labels]

theorem endisAt_eq_drop : endisAt lang cuseq i = endisAt lang (cuseq.drop i) 0 := by
  cases lang <;> rfl

theorem decorAt_eq (lang : Lang) (cuseq : List UInt16) (i : Nat) :
    decorAt lang cuseq i = decorHere lang (cuseq.drop i) i := by
  rw [decorHere, ← endisAt_eq_drop]
  simp only [decorAt, endisAt, List.map_append, Option.toList_map]

theorem flatMap_decorAt (lang : Lang) (pre s : List UInt16) :
    (List.range' pre.length s.length).flatMap (decorAt lang (pre ++ s)) = decorFrom lang pre.length s := by
  induction s generalizing pre with
  | nil => rfl
  | cons u s ih =>
    have hrest := ih (pre ++ [u])
    rw [List.length_append, List.length_singleton, List.append_assoc, List.singleton_append] at hrest
    rw [List.length_cons, List.range'_succ, List.flatMap_cons, hrest, decorAt_eq, List.drop_left]
    rfl

theorem decorHere_of_ne (hlang : Chinese lang) (hu : u ≠ 0x5b) : decorHere lang (u :: s) i = [] := by
  have hbeq : ((0x5b : UInt16) == u) = false := beq_eq_false_iff_ne.mpr (Ne.symm hu)
  have hnone : ∀ label : List UInt16, getEndi (0x5b :: label) (u :: s) 0 = none := by
    intro label
    rw [getEndi, List.drop_zero, List.isPrefixOf, hbeq]
    rfl
  rcases hlang with rfl | rfl
  · simp only [decorHere, endisAt, getEndiChat, getEndiSender, getEndiContent, getEndiDate, getEndiId, byLang,
      LZhCn.getEndiChat, LZhCn.getEndiSender, LZhCn.getEndiContent, LZhCn.getEndiDate, LZhCn.getEndiId, hnone]
    rfl
  · simp only [decorHere, endisAt, getEndiChat, getEndiSender, getEndiContent, getEndiDate, getEndiId, byLang,
      LZhHk.getEndiChat, LZhHk.getEndiSender, LZhHk.getEndiContent, LZhHk.getEndiDate, LZhHk.getEndiId, hnone]
    rfl

theorem decorFrom_append (hlang : Chinese lang) (hs : 0x5b ∉ s) (t : List UInt16) (i : Nat) :
    decorFrom lang i (s ++ t) = decorFrom lang (i + s.length) t := by
  induction s generalizing i with
  | nil => rfl
  | cons u s ih =>
    have hu : u ≠ 0x5b := fun h => hs (h ▸ List.mem_cons_self)
    rw [List.cons_append, decorFrom, decorHere_of_ne hlang hu, ih fun h => hs (List.mem_cons_of_mem u h)]
    rw [List.nil_append, List.length_cons, Nat.add_assoc, Nat.add_comm 1]

theorem IsLabel.decorFrom (hlang : Chinese lang) (h : IsLabel lang units) (t : List UInt16) (i : Nat) :
    decorFrom lang i (units ++ t) = (Int32.ofNat i, 6) :: decorFrom lang (i + units.length) t := by
  have hfound := h.found t i
  obtain ⟨rest, rfl, hrest⟩ := h.tail
  rw [List.cons_append] at hfound ⊢
  rw [TgFocus.decorFrom, hfound, decorFrom_append hlang hrest]
  rw [List.singleton_append, List.length_cons, Nat.add_assoc, Nat.add_comm 1]

theorem isLabel_labels (hlang : Chinese lang) :
    ∀ label ∈ labels lang, ∃ cs, label = Utf8.encode cs ∧ '\x00' ∉ cs ∧ IsLabel lang (Utf16.encode cs) := by
  intro label hlabel
  rcases hlang with rfl | rfl
  · simp only [labels, List.mem_cons, List.not_mem_nil, or_false] at hlabel
    rcases hlabel with rfl | rfl | rfl | rfl | rfl
    · exact ⟨"[ 群组 ] ".toList, by decide, by decide, fun t i => rfl, _, rfl, by decide⟩
    · exact ⟨"[ 用户 ] ".toList, by decide, by decide, fun t i => rfl, _, rfl, by decide⟩
    · exact ⟨"[ 信息 ] ".toList, by decide, by decide, fun t i => rfl, _, rfl, by decide⟩
    · exact ⟨"[ 时间 ] ".toList, by decide, by decide, fun t i => rfl, _, rfl, by decide⟩
    · exact ⟨"[ 标识 ] ".toList, by decide, by decide, fun t i => rfl, _, rfl, by decide⟩
  · simp only [labels, List.mem_cons, List.not_mem_nil, or_false] at hlabel
    rcases hlabel with rfl | rfl | rfl | rfl | rfl
    · exact ⟨"[ 群組 ] ".toList, by decide, by decide, fun t i => rfl, _, rfl, by decide⟩
    · exact ⟨"[ 用戶 ] ".toList, by decide, by decide, fun t i => rfl, _, rfl, by decide⟩
    · exact ⟨"[ 訊息 ] ".toList, by decide, by decide, fun t i => rfl, _, rfl, by decide⟩
    · exact ⟨"[ 時間 ] ".toList, by decide, by decide, fun t i => rfl, _, rfl, by decide⟩
    · exact ⟨"[ 標識 ] ".toList, by decide, by decide, fun t i => rfl, _, rfl, by decide⟩

theorem Unlabelled.exists_chars {f : Bytes} (h : Unlabelled f) :
    ∃ cs, f = Utf8.encode cs ∧ '\x00' ∉ cs ∧ 0x5b ∉ Utf16.encode cs := by
  obtain ⟨hvalid, hnul, hbracket⟩ := h
  obtain ⟨cs, rfl⟩ := Utf8.valid_iff.mp hvalid
  refine ⟨cs, rfl, fun hmem => hnul ((Utf8.mem_encode_iff (by decide)).mpr hmem), ?_⟩
  exact Utf16.notMem_encode (by decide) fun hmem => hbracket ((Utf8.mem_encode_iff (by decide)).mpr hmem)

theorem unlabelled_decimal (n : Nat) : Unlabelled (decimal n) := by
  have hdigit : ∀ b ∈ decimal n, b < 0x80 ∧ b ≠ 0 ∧ b ≠ 0x5b := by
    intro b hb
    have h := isDigit_decimal b hb
    simp only [isDigit, Bool.and_eq_true, decide_eq_true_eq, UInt8.le_iff_toNat_le] at h
    refine ⟨?_, ?_, ?_⟩
    · exact UInt8.lt_iff_toNat_lt.mpr (Nat.lt_of_le_of_lt h.2 (by decide))
    · rintro rfl
      exact absurd h.1 (by decide)
    · rintro rfl
      exact absurd h.2 (by decide)
  refine ⟨Utf8.valid_of_ascii fun b hb => (hdigit b hb).1, fun h => (hdigit 0 h).2.1 rfl, fun h => ?_⟩
  exact (hdigit 0x5b h).2.2 rfl

/-! ### Lines -/

/-- A line that is found at its label, and nowhere else. -/
def LabelledLine (lang : Lang) (l : Bytes × Bytes) : Prop := l.1 ∈ labels lang ∧ Unlabelled l.2

theorem render_cons (l : Bytes × Bytes) (ls : List (Bytes × Bytes)) : render (l :: ls) = l.1 ++ l.2 ++ endl ++ render ls := rfl

theorem labelOffsets_cons (l : Bytes × Bytes) (ls : List (Bytes × Bytes)) :
    labelOffsets (l :: ls) = 0 :: (labelOffsets ls).map fun p => Utf16.lengthOf (l.1 ++ l.2 ++ endl) + p := by
  rw [labelOffsets, List.length_cons, List.range_succ_eq_map, List.map_cons, List.map_map, labelOffsets, List.map_map]
  refine congrArg (0 :: ·) (List.map_congr_left fun k _ => ?_)
  rw [Function.comp_apply, Function.comp_apply, List.take_succ_cons, render_cons, Utf16.lengthOf_append]

/-- Of lines from the position `i` on, exactly the labels are found. -/
theorem exists_chars_render (hlang : Chinese lang) (hls : ∀ l ∈ ls, LabelledLine lang l) :
    ∃ cs, render ls = Utf8.encode cs ∧ '\x00' ∉ cs ∧
      ∀ i, decorFrom lang i (Utf16.encode cs) = (labelOffsets ls).map fun p => (Int32.ofNat (i + p), 6) := by
  induction ls with
  | nil => exact ⟨[], rfl, List.not_mem_nil, fun i => rfl⟩
  | cons l ls ih =>
    obtain ⟨label, field⟩ := l
    obtain ⟨hlabel, hfield⟩ := hls _ List.mem_cons_self
    obtain ⟨ds, hds, hdsnul, hrest⟩ := ih fun l hl => hls l (List.mem_cons_of_mem _ hl)
    obtain ⟨lc, rfl, hlnul, hfound⟩ := isLabel_labels hlang label hlabel
    obtain ⟨fc, rfl, hfnul, hfree⟩ := hfield.exists_chars
    have hendl : endl = Utf8.encode ['\n'] := by decide
    have hline : Utf8.encode lc ++ Utf8.encode fc ++ endl = Utf8.encode (lc ++ (fc ++ ['\n'])) := by
      rw [hendl, Utf8.encode_append, Utf8.encode_append, List.append_assoc]
    refine ⟨lc ++ (fc ++ ['\n']) ++ ds, ?_, ?_, fun i => ?_⟩
    · rw [render_cons, hline, hds, ← Utf8.encode_append]
    · simp only [List.mem_append, List.mem_singleton, not_or]
      exact ⟨⟨hlnul, hfnul, by decide⟩, hdsnul⟩
    · have hafter : 0x5b ∉ Utf16.encode (fc ++ ['\n']) := by
        rw [Utf16.encode_append, List.mem_append, not_or]
        exact ⟨hfree, by decide⟩
      have hlen : (Utf16.encode lc).length + (Utf16.encode (fc ++ ['\n'])).length =
          Utf16.lengthOf (Utf8.encode lc ++ Utf8.encode fc ++ endl) := by
        rw [hline, Utf16.lengthOf_encode, Utf16.encode_append lc, List.length_append]
      rw [Utf16.encode_append _ ds, Utf16.encode_append lc, List.append_assoc, hfound.decorFrom hlang]
      rw [decorFrom_append hlang hafter, hrest, labelOffsets_cons, List.map_cons, List.map_map]
      refine congrArg _ (List.map_congr_left fun p _ => ?_)
      rw [Function.comp_apply, ← hlen, Nat.add_assoc i, Nat.add_assoc i]

theorem getDecorPos_render (hlang : Chinese lang) (hls : ∀ l ∈ ls, LabelledLine lang l) :
    getDecorPos lang (render ls) = (labelOffsets ls).map fun p => (Int32.ofNat p, 6) := by
  obtain ⟨cs, hcs, hnul, hfound⟩ := exists_chars_render hlang hls
  have hunknown : lang ≠ .unknown := by
    rintro rfl
    exact hlang.elim Lang.noConfusion Lang.noConfusion
  have hall := flatMap_decorAt lang [] (Utf16.encode cs)
  rw [List.length_nil, ← List.range_eq_range', List.nil_append, hfound 0] at hall
  rw [getDecorPos, if_neg hunknown, hcs, Conv.run_encode_nul hnul]
  dsimp only
  rw [if_pos rfl]
  refine hall.trans (List.map_congr_left fun p _ => ?_)
  rw [Nat.zero_add]

theorem labelledLine_of_unlabelled (hm : ∀ f ∈ [m.title, m.sender, m.txt, m.tstamp], Unlabelled f) :
    ∀ l ∈ labelledLines lang m, LabelledLine lang l := by
  intro l hl
  obtain ⟨hlabel, hfield⟩ := List.of_mem_zip hl
  refine ⟨hlabel, ?_⟩
  rw [show [m.title, m.sender, m.txt, m.tstamp, decimal m.id.toNat] =
    [m.title, m.sender, m.txt, m.tstamp] ++ [decimal m.id.toNat] from rfl, List.mem_append, List.mem_singleton] at hfield
  rcases hfield with hfield | heq
  · exact hm _ hfield
  · rw [heq]
    exact unlabelled_decimal _

/-- In a message in Chinese the labels are found, each at its offset as an `int`. -/
theorem getDecorPos_toLocaleString (hlang : Chinese lang)
    (hm : ∀ f ∈ [m.title, m.sender, m.txt, m.tstamp], Unlabelled f) :
    (labelOffsets (labelledLines lang m)).length = 5 ∧
      getDecorPos lang (m.toLocaleString lang) =
        (labelOffsets (labelledLines lang m)).map fun p => (Int32.ofNat p, 6) := by
  have hlen : (labels lang).length = 5 := by rcases hlang with rfl | rfl <;> rfl
  constructor
  · rw [labelOffsets, List.length_map, List.length_range, labelledLines, List.length_zip, hlen]
    rfl
  · rw [toLocaleString_eq_render hlang]
    exact getDecorPos_render hlang (labelledLine_of_unlabelled hm)

end

def fruitMsg : TgMsg where
  title := str "zß水🍌"
  sender := str "用户"
  txt := str "a"
  tstamp := str "unknown timestamp"
  id := 0

theorem getDecorPos_fruitMsg :
    getDecorPos .zh_CN (fruitMsg.toLocaleString .zh_CN) = [(0, 6), (13, 6), (23, 6), (32, 6), (57, 6)] :=
  have hfields : ∀ f ∈ [fruitMsg.title, fruitMsg.sender, fruitMsg.txt, fruitMsg.tstamp], Unlabelled f := by decide
  (getDecorPos_toLocaleString (Or.inl rfl) hfields).2.trans (by decide)

/-! ### Offsets above those of an `int` -/

theorem unlabelled_replicate (n : Nat) : Unlabelled (List.replicate n 0x61) := by
  refine ⟨Utf8.valid_of_ascii fun b hb => ?_, fun h => ?_, fun h => ?_⟩
  · rw [List.eq_of_mem_replicate hb]
    decide
  · exact absurd (List.eq_of_mem_replicate h) (by decide)
  · exact absurd (List.eq_of_mem_replicate h) (by decide)

theorem lengthOf_replicate (n : Nat) : Utf16.lengthOf (List.replicate n 0x61) = n := by
  rw [Utf16.lengthOf, List.map_replicate, List.sum_replicate_nat]
  exact Nat.mul_one n

def longMsg (n : Nat) : TgMsg where
  title := List.replicate n 0x61
  sender := []
  txt := []
  tstamp := []
  id := 0

theorem unlabelled_longMsg (n : Nat) :
    ∀ f ∈ [(longMsg n).title, (longMsg n).sender, (longMsg n).txt, (longMsg n).tstamp], Unlabelled f := by
  intro f hf
  have hnil : Unlabelled [] := unlabelled_replicate 0
  simp only [longMsg, List.mem_cons, List.not_mem_nil, or_false] at hf
  rcases hf with rfl | rfl | rfl | rfl
  · exact unlabelled_replicate n
  · exact hnil
  · exact hnil
  · exact hnil

/-- The offset of the second label. -/
theorem mem_labelOffsets_longMsg (n : Nat) : n + 8 ∈ labelOffsets (labelledLines .zh_CN (longMsg n)) := by
  have hlabel : Utf16.lengthOf (str "[ 群组 ] ") = 7 := by decide
  have hlen : Utf16.lengthOf (str "[ 群组 ] " ++ (longMsg n).title ++ endl) = n + 8 := by
    rw [Utf16.lengthOf_append, Utf16.lengthOf_append, longMsg, lengthOf_replicate, hlabel, Nat.add_comm 7]
    rfl
  rw [labelledLines, labels, List.zip_cons_cons, labelOffsets_cons, hlen, List.zip_cons_cons, labelOffsets_cons]
  exact List.mem_cons_of_mem _ List.mem_cons_self

theorem getDecorPos_ne_labelOffsets {n : Nat} (hn : (Int32.ofNat (n + 8)).toInt ≠ Int.ofNat (n + 8)) :
    (getDecorPos .zh_CN ((longMsg n).toLocaleString .zh_CN)).map (fun d => (d.1.toInt, d.2.toInt)) ≠
      (labelOffsets (labelledLines .zh_CN (longMsg n))).map fun p => (Int.ofNat p, 6) := by
  intro heq
  have hlines : ∀ l ∈ labelledLines .zh_CN (longMsg n), LabelledLine .zh_CN l :=
    labelledLine_of_unlabelled (unlabelled_longMsg n)
  rw [toLocaleString_eq_render (Or.inl rfl), getDecorPos_render (Or.inl rfl) hlines, List.map_map] at heq
  exact hn (congrArg Prod.fst (List.map_inj_left.mp heq _ (mem_labelOffsets_longMsg n)))

/-- Behind a title of `2 ^ 31` bytes a label is found at a position below `0`. -/
theorem getDecorPos_longMsg :
    (∀ f ∈ [(longMsg (2 ^ 31)).title, (longMsg (2 ^ 31)).sender, (longMsg (2 ^ 31)).txt, (longMsg (2 ^ 31)).tstamp],
      Unlabelled f) ∧
    (getDecorPos .zh_CN ((longMsg (2 ^ 31)).toLocaleString .zh_CN)).map (fun d => (d.1.toInt, d.2.toInt)) ≠
      (labelOffsets (labelledLines .zh_CN (longMsg (2 ^ 31)))).map fun p => (Int.ofNat p, 6) :=
  ⟨unlabelled_longMsg (2 ^ 31), getDecorPos_ne_labelOffsets (by decide)⟩

end TgFocus
