import Mathlib.Data.List.Nodup
import TgFocus.ChatCmd
import TgFocus.Theorems.Escape

/-! The stored form of a group as a TOML document: a section for each filter, a line for each list. Where
    the patterns hold no forbidden byte the text is that of a document; in front of a pattern it is one as
    far as all patterns before are. -/

namespace TgFocus

section
variable {f : Filter} {fs : List Filter} {p : FilterProperty} {ps : List FilterProperty} {ptn : Bytes}
  {ptns ptns' : List Bytes}

def storeName : Bytes := str "focus-filter"

def Filter.patterns (f : Filter) (p : FilterProperty) : List Bytes := (f.list p).map PosixExtRegex.ptn

/-- The order in which the lists of a filter are stored. -/
def storedOrder : List FilterProperty := [.titles, .noTitles, .senders, .noSenders, .keywords, .noKeywords]

theorem mem_storedOrder (p : FilterProperty) : p ∈ storedOrder := by
  cases p <;> decide

theorem name_injective : Function.Injective FilterProperty.name := by
  intro p q h
  cases p <;> cases q <;> first | rfl | exact absurd h (by decide)

/-! ### Lines and sections -/

def quoted (ptn : Bytes) : Bytes := Toml.quote :: escape ptn ++ [Toml.quote]

def lineText (p : FilterProperty) (ptns : List Bytes) : Bytes :=
  p.name ++ Toml.opening ++ Toml.comma.intercalate (ptns.map quoted) ++ Toml.closing

theorem fsdataLine_eq (key : String) (list : List PosixExtRegex) :
    fsdataLine key list =
      str key ++ Toml.opening ++ Toml.comma.intercalate ((list.map PosixExtRegex.ptn).map quoted) ++ Toml.closing := by
  simp only [fsdataLine, joinWith, List.map_map, List.append_assoc]
  rfl

theorem asFsdata_eq (f : Filter) :
    f.asFsdata = Toml.header storeName ++ storedOrder.flatMap fun p => lineText p (f.patterns p) := by
  have hheader : endl ++ str "[[focus-filter]]" ++ endl = Toml.header storeName := by decide
  rw [Filter.asFsdata, hheader]
  simp only [fsdataLine_eq, storedOrder, lineText, List.flatMap_cons, List.flatMap_nil, List.append_nil,
    List.append_assoc]
  rfl

/-- The item of a pattern without forbidden bytes. -/
def itemOf (ptn : Bytes) : Toml.Item :=
  if h : ∀ b ∈ ptn, Keeps b then ⟨escape ptn, ptn, body_escape h⟩ else ⟨[], [], .nil⟩

theorem itemOf_text (h : ∀ b ∈ ptn, Keeps b) : (itemOf ptn).text = quoted ptn := by
  rw [itemOf, dif_pos h]
  rfl

theorem itemOf_value (h : ∀ b ∈ ptn, Keeps b) : (itemOf ptn).value = ptn := by
  rw [itemOf, dif_pos h]

def lineOf (p : FilterProperty) (ptns : List Bytes) : Toml.Line where
  key := p.name
  items := ptns.map itemOf
  bare := by cases p <;> decide

theorem lineOf_text (h : ∀ ptn ∈ ptns, ∀ b ∈ ptn, Keeps b) : (lineOf p ptns).text = lineText p ptns := by
  have hitems : ptns.map (Toml.Item.text ∘ itemOf) = ptns.map quoted :=
    List.map_congr_left fun ptn hptn => itemOf_text (h ptn hptn)
  simp only [lineOf, Toml.Line.text, lineText, List.map_map, hitems]

theorem lineOf_entry (h : ∀ ptn ∈ ptns, ∀ b ∈ ptn, Keeps b) : (lineOf p ptns).entry = (p.name, ptns) := by
  have hitems : ptns.map (Toml.Item.value ∘ itemOf) = ptns.map id :=
    List.map_congr_left fun ptn hptn => itemOf_value (h ptn hptn)
  simp only [lineOf, Toml.Line.entry, List.map_map, hitems, List.map_id]

/-- The section of a filter as far as the lists `ps`. -/
def sectionOf (ps : List FilterProperty) (hps : ps.Nodup) (f : Filter) : Toml.Section where
  lines := ps.map fun p => lineOf p (f.patterns p)
  nodup := by
    rw [List.map_map]
    exact List.Nodup.map name_injective hps

theorem sectionOf_text {hps : ps.Nodup} (h : ∀ p ∈ ps, ∀ ptn ∈ f.patterns p, ∀ b ∈ ptn, Keeps b) :
    (sectionOf ps hps f).text storeName = Toml.header storeName ++ ps.flatMap fun p => lineText p (f.patterns p) := by
  rw [sectionOf, Toml.Section.text, List.flatMap_map]
  congr 1
  exact List.flatMap_congr fun p hp => lineOf_text (h p hp)

theorem sectionOf_entries {hps : ps.Nodup} (h : ∀ p ∈ ps, ∀ ptn ∈ f.patterns p, ∀ b ∈ ptn, Keeps b) :
    (sectionOf ps hps f).entries = ps.map fun p => (p.name, f.patterns p) := by
  rw [sectionOf, Toml.Section.entries, List.map_map]
  exact List.map_congr_left fun p hp => lineOf_entry (h p hp)

def fullSection : Filter → Toml.Section := sectionOf storedOrder (by decide)

/-- Filters whose patterns hold no forbidden byte are stored as the document of their sections. -/
theorem text_fullSection (h : ∀ f ∈ fs, ∀ p, ∀ ptn ∈ f.patterns p, ∀ b ∈ ptn, Keeps b) :
    Toml.text storeName (fs.map fullSection) = fs.flatMap Filter.asFsdata := by
  rw [Toml.text, List.flatMap_map]
  refine List.flatMap_congr fun f hf => ?_
  rw [fullSection, sectionOf_text fun p _ => h f hf p, asFsdata_eq]

/-! ### UTF-8 -/

theorem valid_quoted (h : Utf8.Valid ptn) : Utf8.Valid (quoted ptn) := by
  have hq : Utf8.Valid [Toml.quote] := by decide
  exact hq.append ((valid_escape_iff.mpr h).append hq)

theorem valid_lineText (h : ∀ ptn ∈ ptns, Utf8.Valid ptn) : Utf8.Valid (lineText p ptns) := by
  have hname : Utf8.Valid p.name := by cases p <;> decide
  have hitems : Utf8.Valid (Toml.comma.intercalate (ptns.map quoted)) := by
    cases ptns with
    | nil => decide
    | cons ptn ptns =>
      rw [List.map_cons, Strings.intercalate_cons, List.flatMap_map]
      refine (valid_quoted (h ptn List.mem_cons_self)).append (Utf8.valid_flatMap fun ptn' h' => ?_)
      exact Utf8.Valid.append (by decide) (valid_quoted (h ptn' (List.mem_cons_of_mem ptn h')))
  exact ((hname.append (by decide)).append hitems).append (by decide)

theorem valid_asFsdata (h : ∀ p, ∀ ptn ∈ f.patterns p, Utf8.Valid ptn) : Utf8.Valid f.asFsdata := by
  rw [asFsdata_eq]
  exact Utf8.Valid.append (by decide) (Utf8.valid_flatMap fun p _ => valid_lineText (h p))

/-! ### The text around a pattern -/

/-- The stored form up to the quotation mark of a pattern, and what follows: the escaped pattern, its
    closing mark, and a comma or a bracket. -/
theorem asFsdata_split (gs : List Filter) {qs : List FilterProperty}
    (hfs : ∀ f ∈ fs, ∀ p, ∀ ptn ∈ f.patterns p, ∀ b ∈ ptn, Keeps b)
    (hps : ∀ p ∈ ps, ∀ ptn ∈ f.patterns p, ∀ b ∈ ptn, Keeps b) (hptns : ∀ ptn ∈ ptns, ∀ b ∈ ptn, Keeps b)
    (horder : storedOrder = ps ++ p :: qs) (hlist : f.patterns p = ptns ++ ptn :: ptns') (hnodup : ps.Nodup) :
    ∃ c u, Toml.Unescaped c ∧
      (fs ++ f :: gs).flatMap Filter.asFsdata =
        Toml.text storeName (fs.map fullSection) ++ (sectionOf ps hnodup f).text storeName ++ p.name ++
          Toml.opening ++ (ptns.map itemOf).flatMap (fun i => i.text ++ Toml.comma) ++
          Toml.quote :: (escape ptn ++ Toml.quote :: c :: u) := by
  have hitems : (ptns.map itemOf).flatMap (fun i => i.text ++ Toml.comma) =
      (ptns.map quoted).flatMap (· ++ Toml.comma) := by
    rw [List.flatMap_map, List.flatMap_map]
    exact List.flatMap_congr fun ptn hptn => by rw [itemOf_text (hptns ptn hptn)]
  have hlineText : lineText p (f.patterns p) =
      p.name ++ Toml.opening ++ ((ptns.map quoted).flatMap (· ++ Toml.comma) ++
        (quoted ptn ++ (ptns'.map quoted).flatMap (Toml.comma ++ ·))) ++ Toml.closing := by
    rw [lineText, hlist, List.map_append, List.map_cons, Strings.intercalate_append_cons]
  have htail : ∀ rest : Bytes, ∃ c u, Toml.Unescaped c ∧
      (ptns'.map quoted).flatMap (Toml.comma ++ ·) ++ (Toml.closing ++ rest) = c :: u := by
    intro rest
    cases ptns' with
    | nil => exact ⟨0x5d, _, by decide, rfl⟩
    | cons ptn' ptns' => exact ⟨0x2c, _, by decide, rfl⟩
  obtain ⟨c, u, hc, hu⟩ := htail ((qs.flatMap fun p => lineText p (f.patterns p)) ++ gs.flatMap Filter.asFsdata)
  refine ⟨c, u, hc, ?_⟩
  rw [List.flatMap_append, List.flatMap_cons, ← text_fullSection hfs, asFsdata_eq, horder, List.flatMap_append,
    List.flatMap_cons, hlineText, sectionOf_text hps, hitems, ← hu]
  simp only [quoted, List.append_assoc, List.cons_append, List.nil_append]

end

end TgFocus
