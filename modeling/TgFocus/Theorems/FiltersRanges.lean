import TgFocus.Library.Headings
import TgFocus.Theorems.Dispatch
import TgFocus.Theorems.LabelOffsets
import TgFocus.Theorems.ReplyRanges

/-! The bold ranges of the reply to `filters`. The reply is made of the headings of the filters and of plain text,
    and a `<` stands in the headings alone when no pattern and not the command has one; so the search of
    `extra_decoration_filters` marks the six headings of each filter, in their order, and nothing else. -/

namespace TgFocus
open Strings

/-- `<` -/
def headingMark : UInt16 := 0x3c

/-- A text that says nothing to the search. -/
def Unmarked (s : Bytes) : Prop := Utf8.Valid s ∧ 0 ∉ s ∧ 0x3c ∉ s

instance (s : Bytes) : Decidable (Unmarked s) := inferInstanceAs (Decidable (_ ∧ _))

def Filter.Unmarked (f : Filter) : Prop := ∀ p, ∀ re ∈ f.list p, TgFocus.Unmarked re.ptn

/-- The text has these UTF-16 units. -/
def Reads (s : Bytes) (units : List UInt16) : Prop := ∃ cs, s = Utf8.encode cs ∧ '\x00' ∉ cs ∧ units = Utf16.encode cs

/-- The text is made of plain text and these headings. -/
def Built (s : Bytes) (headings : List (List UInt16)) : Prop :=
  ∃ ps, Reads s (Headings.text ps) ∧ Headings.WellPieced headingMark filterHeadings ps ∧ Headings.written ps = headings

/-- What an entity covers. -/
def TextEntity.reads (seq : List UInt16) (e : TextEntity) : List UInt16 :=
  (seq.drop e.offset.toInt.toNat).take e.length.toInt.toNat

section
variable {host : Host} {s s' : Bytes} {units units' : List UInt16} {hs hs' : List (List UInt16)} {f : Filter}
  {fs : List Filter} {list : List PosixExtRegex} {incomTxt : Bytes} {st : Stat}

/-! ### Texts -/

theorem marked_filterHeadings : Headings.Marked headingMark filterHeadings := by
  constructor <;> decide

theorem Unmarked.append (h : Unmarked s) (h' : Unmarked s') : Unmarked (s ++ s') := by
  obtain ⟨hvalid, hnul, hmark⟩ := h
  obtain ⟨hvalid', hnul', hmark'⟩ := h'
  exact ⟨hvalid.append hvalid', by simp [hnul, hnul'], by simp [hmark, hmark']⟩

theorem unmarked_decimal (n : Nat) : Unmarked (decimal n) := by
  obtain ⟨hvalid, hnul, -⟩ := unlabelled_decimal n
  refine ⟨hvalid, hnul, fun h => ?_⟩
  exact absurd (isDigit_decimal 0x3c h) (by decide)

theorem unmarked_flatMap {α : Type} {g : α → Bytes} {l : List α} (h : ∀ x ∈ l, Unmarked (g x)) :
    Unmarked (l.flatMap g) := by
  refine ⟨Utf8.valid_flatMap fun x hx => (h x hx).1, fun hmem => ?_, fun hmem => ?_⟩ <;>
    obtain ⟨x, hx, hmem⟩ := List.mem_flatMap.mp hmem
  · exact (h x hx).2.1 hmem
  · exact (h x hx).2.2 hmem

theorem unmarked_eraseLeading (h : Unmarked s) : Unmarked (eraseLeading space s) := by
  obtain ⟨n, hn⟩ := replicate_append_eraseLeading space s
  obtain ⟨hvalid, hnul, hmark⟩ := h
  rw [hn] at hvalid hnul hmark
  have hspaces : Utf8.Valid (List.replicate n space) :=
    Utf8.valid_of_ascii fun b hb => by rw [List.eq_of_mem_replicate hb]; decide
  rw [Utf8.Valid, Utf8.run_append, show Utf8.run .start (List.replicate n space) = some .start from hspaces] at hvalid
  exact ⟨hvalid, fun h => hnul (List.mem_append_right _ h), fun h => hmark (List.mem_append_right _ h)⟩

theorem unmarked_readableEles (h : ∀ re ∈ list, Unmarked re.ptn) : Unmarked (Filter.readableEles list) := by
  have hele : ∀ re ∈ list, Unmarked (str "(" ++ re.ptn ++ str ")") := fun re hre =>
    ((show Unmarked (str "(") by decide).append (h re hre)).append (by decide)
  have hlist : Unmarked (joinWith (str "  ") (fun el => str "(" ++ el.ptn ++ str ")") list) := by
    cases list with
    | nil => decide
    | cons re list =>
      rw [joinWith, List.map_cons, intercalate_cons, List.flatMap_map]
      refine (hele re List.mem_cons_self).append (unmarked_flatMap fun re' hre' => ?_)
      exact (show Unmarked (str "  ") by decide).append (hele re' (List.mem_cons_of_mem re hre'))
  exact ((show Unmarked (str "⤷ ") by decide).append hlist).append (by decide)

/-! ### Units -/

theorem Reads.append (h : Reads s units) (h' : Reads s' units') : Reads (s ++ s') (units ++ units') := by
  obtain ⟨cs, rfl, hnul, rfl⟩ := h
  obtain ⟨cs', rfl, hnul', rfl⟩ := h'
  exact ⟨cs ++ cs', (Utf8.encode_append cs cs').symm, by simp [hnul, hnul'], (Utf16.encode_append cs cs').symm⟩

theorem Reads.getC16Seq_eq (h : Reads s units) : getC16Seq s = units := by
  obtain ⟨cs, rfl, hnul, rfl⟩ := h
  exact getC16Seq_encode hnul

theorem Reads.length_le (h : Reads s units) : units.length ≤ s.length := by
  obtain ⟨cs, rfl, -, rfl⟩ := h
  exact Utf16.length_encode_le cs

theorem Built.append (h : Built s hs) (h' : Built s' hs') : Built (s ++ s') (hs ++ hs') := by
  obtain ⟨ps, hreads, hwell, rfl⟩ := h
  obtain ⟨ps', hreads', hwell', rfl⟩ := h'
  refine ⟨ps ++ ps', ?_, hwell.append hwell', Headings.written_append⟩
  rw [Headings.text_append]
  exact hreads.append hreads'

theorem Unmarked.built (h : Unmarked s) : Built s [] := by
  obtain ⟨hvalid, hnul, hmark⟩ := h
  obtain ⟨cs, rfl⟩ := Utf8.valid_iff.mp hvalid
  have hunits : headingMark ∉ Utf16.encode cs :=
    Utf16.notMem_encode (by decide) fun hmem => hmark ((Utf8.mem_encode_iff (by decide)).mpr hmem)
  refine ⟨[⟨false, Utf16.encode cs⟩], ⟨cs, rfl, fun hmem => hnul ((Utf8.mem_encode_iff (by decide)).mpr hmem), ?_⟩, ?_, rfl⟩
  · simp [Headings.text]
  · intro p hp
    rw [List.mem_singleton.mp hp]
    exact hunits

/-- A line with a heading. -/
theorem built_heading (cs : List Char) (hs : s = Utf8.encode cs) (hnul : '\x00' ∉ cs) (hmem : units ∈ filterHeadings)
    (hunits : Utf16.encode cs = [0xd83d, 0xdf86, 0x20] ++ units) : Built s [units] := by
  refine ⟨[⟨false, [0xd83d, 0xdf86, 0x20]⟩, ⟨true, units⟩], ⟨cs, hs, hnul, ?_⟩, ?_, rfl⟩
  · rw [hunits]
    simp [Headings.text]
  · intro p hp
    rcases List.mem_cons.mp hp with rfl | hp
    · decide
    · rw [List.mem_singleton.mp hp]
      exact hmem

/-- A heading of a filter with the patterns of its property. -/
theorem built_property {heading : Bytes} (h : Built heading [units]) (hlist : ∀ re ∈ list, Unmarked re.ptn) :
    Built (heading ++ endl ++ Filter.readableEles list) [units] :=
  (h.append (show Unmarked endl by decide).built).append (unmarked_readableEles hlist).built

/-- The reply shows a filter property by property. -/
theorem Filter.asReadable_eq (f : Filter) : f.asReadable = endl ++
    ((str "🞆 Titles <titles>" ++ endl ++ readableEles f.titles) ++
    ((str "🞆 Senders <senders>" ++ endl ++ readableEles f.senders) ++
    ((str "🞆 Keywords <keywords>" ++ endl ++ readableEles f.keywords) ++
    ((str "🞆 NO Titles <no-titles>" ++ endl ++ readableEles f.noTitles) ++
    ((str "🞆 NO Senders <no-senders>" ++ endl ++ readableEles f.noSenders) ++
    (str "🞆 NO Keywords <no-keywords>" ++ endl ++ readableEles f.noKeywords)))))) := by
  delta asReadable
  simp only [List.append_assoc]

theorem built_asReadable (hf : f.Unmarked) : Built f.asReadable filterHeadings := by
  have htitles := built_property (built_heading (s := str "🞆 Titles <titles>") "🞆 Titles <titles>".toList (by decide)
    (by decide) (List.mem_of_getElem? (i := 0) rfl) (by decide)) (hf .titles)
  have hsenders := built_property (built_heading (s := str "🞆 Senders <senders>") "🞆 Senders <senders>".toList (by decide)
    (by decide) (List.mem_of_getElem? (i := 1) rfl) (by decide)) (hf .senders)
  have hkeywords := built_property (built_heading (s := str "🞆 Keywords <keywords>") "🞆 Keywords <keywords>".toList
    (by decide) (by decide) (List.mem_of_getElem? (i := 2) rfl) (by decide)) (hf .keywords)
  have hnoTitles := built_property (built_heading (s := str "🞆 NO Titles <no-titles>") "🞆 NO Titles <no-titles>".toList
    (by decide) (by decide) (List.mem_of_getElem? (i := 3) rfl) (by decide)) (hf .noTitles)
  have hnoSenders := built_property (built_heading (s := str "🞆 NO Senders <no-senders>")
    "🞆 NO Senders <no-senders>".toList (by decide) (by decide) (List.mem_of_getElem? (i := 4) rfl) (by decide))
    (hf .noSenders)
  have hnoKeywords := built_property (built_heading (s := str "🞆 NO Keywords <no-keywords>")
    "🞆 NO Keywords <no-keywords>".toList (by decide) (by decide) (List.mem_of_getElem? (i := 5) rfl) (by decide))
    (hf .noKeywords)
  rw [Filter.asReadable_eq]
  exact (show Unmarked endl by decide).built.append (htitles.append (hsenders.append (hkeywords.append
    (hnoTitles.append (hnoSenders.append hnoKeywords)))))

theorem built_readableFrom (hfs : ∀ f ∈ fs, f.Unmarked) (i : Nat) :
    Built (FilterGroup.readableFrom i fs) (List.replicate fs.length filterHeadings).flatten := by
  induction fs generalizing i with
  | nil => exact (show Unmarked [] by decide).built
  | cons f fs ih =>
    have hnumber := (unmarked_decimal (i + 1)).built
    have hfilter := built_asReadable (hfs f List.mem_cons_self)
    have hrest := ih (fun f' hf' => hfs f' (List.mem_cons_of_mem f hf')) (i + 1)
    have hall := (((((((((show Unmarked endl by decide).append (show Unmarked (str "🞆 🞆 🞆 🞆 🞆 ") by decide)).append
      (show Unmarked (str "FILTER ") by decide)).built.append hnumber).append
      (show Unmarked (str " 🞆 🞆 🞆 🞆 🞆") by decide).built).append (show Unmarked endl by decide).built).append
      (show Unmarked (str "🞆") by decide).built).append hfilter).append hrest)
    exact hall

/-! ### The search -/

theorem extraDecorationFilters_eq (decoList : List TextEntity) (msgtxt : Bytes) :
    extraDecorationFilters decoList msgtxt = decoList ++ (Headings.found filterHeadings (getC16Seq msgtxt)).map fun q =>
      textEntity q.1 q.2.length .bold := by
  have hheadings : ∀ (hs : List (List UInt16)) (seq : List UInt16) (i : Nat) (decoList : List TextEntity),
      hs.foldl (fun decoList heading =>
        if headingAt heading seq i then decoList ++ [textEntity i heading.length .bold] else decoList) decoList =
      decoList ++ (Headings.foundAt hs seq i).map fun q => textEntity q.1 q.2.length .bold := by
    intro hs seq i decoList
    induction hs generalizing decoList with
    | nil => simp [Headings.foundAt]
    | cons h hs ih =>
      rw [List.foldl_cons, ih, Headings.foundAt, Headings.foundAt]
      rw [List.filter_cons, show headingAt h seq i = h.isPrefixOf (seq.drop i) from rfl]
      cases h.isPrefixOf (seq.drop i) with
      | true => exact List.append_assoc decoList _ _
      | false => rfl
  have hturns : ∀ (is : List Nat) (seq : List UInt16) (decoList : List TextEntity),
      is.foldl (fun decoList i => filterHeadings.foldl (fun decoList heading =>
        if headingAt heading seq i then decoList ++ [textEntity i heading.length .bold] else decoList) decoList)
        decoList =
      decoList ++ (is.flatMap (Headings.foundAt filterHeadings seq)).map fun q =>
        textEntity q.1 q.2.length .bold := by
    intro is seq decoList
    induction is generalizing decoList with
    | nil => simp
    | cons i is ih => rw [List.foldl_cons, ih, hheadings, List.flatMap_cons, List.map_append, List.append_assoc]
  exact hturns _ _ _

/-- The entity of a heading that is found, in a text whose positions an `int32` holds. -/
theorem range_of_mem_found {seq : List UInt16} {q : Nat × List UInt16} (hq : q ∈ Headings.found filterHeadings seq)
    (hlen : seq.length < 0x80000000) : (textEntity q.1 q.2.length .bold).range = Ranges.toInts (q.1, q.2.length) := by
  obtain ⟨hmem, hprefix⟩ := (Headings.mem_found (by decide)).mp hq
  have hne : q.2 ≠ [] := fun h => absurd (h ▸ hmem) (by decide)
  have hle := HelpDeco.add_length_le_of_headingAt (List.isPrefixOf_iff_prefix.mpr hprefix) hne
  have hheld : Held (q.1, q.2.length) := ⟨by dsimp only; omega, by dsimp only; omega⟩
  exact cut_eq_iff.mpr hheld

/-- The ranges in a text that is made of plain text and headings. -/
theorem Built.ranges (h : Built s hs) (decoList : List TextEntity) :
    ∃ bolds, extraDecorationFilters decoList s = decoList ++ bolds ∧ (∀ e ∈ bolds, e.type = .bold) ∧
      (s.length < 0x80000000 →
        bolds.map (·.reads (getC16Seq s)) = hs ∧ (bolds.map (·.offset.toInt)).Pairwise (· < ·) ∧
          ∀ i, ∀ heading ∈ filterHeadings, headingAt heading (getC16Seq s) i = true →
            ∃ e ∈ bolds, e.offset.toInt = i ∧ e.length.toInt = heading.length) := by
  obtain ⟨ps, hreads, hwell, rfl⟩ := h
  have hfound := Headings.found_text marked_filterHeadings hwell
  rw [extraDecorationFilters_eq, hreads.getC16Seq_eq]
  refine ⟨_, rfl, fun e he => ?_, fun hbytes => ?_⟩
  · obtain ⟨q, -, rfl⟩ := List.mem_map.mp he
    rfl
  have hlen := Nat.lt_of_le_of_lt hreads.length_le hbytes
  refine ⟨?_, ?_, ?_⟩
  · rw [List.map_map, ← Headings.map_snd_places (n := 0), ← hfound]
    refine List.map_congr_left fun q hq => ?_
    obtain ⟨-, hprefix⟩ := (Headings.mem_found (by decide)).mp hq
    obtain ⟨hoffset, hlength⟩ := Prod.mk.inj (range_of_mem_found hq hlen)
    rw [Function.comp_apply, TextEntity.reads, hoffset, hlength]
    exact (List.prefix_iff_eq_take.mp hprefix).symm
  · rw [List.map_map, List.pairwise_map]
    have hsorted : (Headings.found filterHeadings (Headings.text ps)).Pairwise fun q q' => q.1 < q'.1 := by
      rw [hfound]
      refine Headings.pairwise_places fun p hp hheading hnil => ?_
      have hmem := hwell p hp
      rw [if_pos hheading, hnil] at hmem
      exact absurd hmem (by decide)
    refine hsorted.imp_of_mem fun hq hq' hlt => ?_
    have hoffset := (Prod.mk.inj (range_of_mem_found hq hlen)).1
    have hoffset' := (Prod.mk.inj (range_of_mem_found hq' hlen)).1
    rw [Function.comp_apply, Function.comp_apply, hoffset, hoffset']
    exact Int.ofNat_lt.mpr hlt
  · intro i heading hmem hat
    have hq : (i, heading) ∈ Headings.found filterHeadings (Headings.text ps) :=
      (Headings.mem_found (by decide)).mpr ⟨hmem, List.isPrefixOf_iff_prefix.mp hat⟩
    exact ⟨_, List.mem_map_of_mem hq, Prod.mk.inj (range_of_mem_found hq hlen)⟩

/-! ### The reply -/

/-- The text of the reply to `filters`. -/
def filtersText (host : Host) (incomTxt : Bytes) (st : Stat) : Bytes :=
  eraseLeading space incomTxt ++ rplyPrefix ++ endl ++ (FilterGroupToml host st.userdata.getFilters).asReadable

/-- Behind the quote and the bold range of every reply, the reply to `filters` has bold ranges that cover the six
    headings of each filter, in their order, and there is no heading elsewhere. -/
theorem filters_ranges (hcmd : dispatch incomTxt = some .filters) (hhelp : ¬chatcmd .help <:+: incomTxt)
    (htext : Unmarked incomTxt) (hfs : ∀ f ∈ (FilterGroupToml host st.userdata.getFilters).filters, f.Unmarked)
    (hlen : (filtersText host incomTxt st).length < 0x80000000) :
    ∃ bolds, tgfcmdMessage host incomTxt st = some ({
        text := filtersText host incomTxt st
        entities := replyEntities (eraseLeading space incomTxt) ++ bolds }, st) ∧
      (∀ e ∈ bolds, e.type = .bold) ∧
      bolds.map (·.reads (getC16Seq (filtersText host incomTxt st))) =
        (List.replicate (FilterGroupToml host st.userdata.getFilters).filters.length filterHeadings).flatten ∧
      (bolds.map (·.offset.toInt)).Pairwise (· < ·) ∧
      ∀ i, ∀ heading ∈ filterHeadings, headingAt heading (getC16Seq (filtersText host incomTxt st)) i = true →
        ∃ e ∈ bolds, e.offset.toInt = i ∧ e.length.toInt = heading.length := by
  have hbuilt : Built (filtersText host incomTxt st) _ :=
    (((unmarked_eraseLeading htext).append (show Unmarked rplyPrefix by decide)).append
      (show Unmarked endl by decide)).built.append (built_readableFrom hfs 0)
  obtain ⟨bolds, heq, hbold, hall⟩ := hbuilt.ranges (replyEntities (eraseLeading space incomTxt))
  refine ⟨bolds, ?_, hbold, hall hlen⟩
  have hfilters : (find (chatcmd .filters) incomTxt).isSome = true :=
    find_isSome_iff.mpr (dispatch_eq_some_iff.mp hcmd).1
  have hnohelp : (find (chatcmd .help) incomTxt).isSome = false := by
    rw [Bool.eq_false_iff]
    exact fun h => hhelp (find_isSome_iff.mp h)
  have hreply : tgfcmdReply host incomTxt st = some ((eraseLeading space incomTxt,
      rplyPrefix ++ (endl ++ (FilterGroupToml host st.userdata.getFilters).asReadable)), st) := by
    rw [tgfcmdReply, hcmd]
    rfl
  have htxt : eraseLeading space incomTxt ++
      (rplyPrefix ++ (endl ++ (FilterGroupToml host st.userdata.getFilters).asReadable)) =
        filtersText host incomTxt st := by
    simp only [filtersText, List.append_assoc]
  rw [tgfcmdMessage, hreply]
  simp only [Option.bind_eq_bind, Option.bind_some, hfilters, hnohelp, if_true, htxt, heq]
  rfl

end

/-- After `filter.edit 1 titles add "b"` on an empty store. -/
def storedB : Stat where
  userdata := { filters := FilterGroup.asFsdata { filters := [{ titles := [.ofPattern .literal (str "b")] }] } }
  pauseDoCsmMq := false

theorem filters_storedB :
    (FilterGroupToml .literal storedB.userdata.getFilters).filters = [{ titles := [.ofPattern .literal (str "b")] }] := by
  decide

theorem filters_ranges_storedB :
    ∃ text bolds, tgfcmdMessage .literal (str " filters") storedB =
        some ({ text, entities := replyEntities (str "filters") ++ bolds }, storedB) ∧
      bolds.map (·.reads (getC16Seq text)) = filterHeadings := by
  have hfs : ∀ f ∈ (FilterGroupToml .literal storedB.userdata.getFilters).filters, f.Unmarked := by
    rw [filters_storedB]
    intro f hf p re hre
    rw [List.mem_singleton.mp hf] at hre
    cases p <;> simp only [Filter.list, List.mem_singleton, List.not_mem_nil] at hre
    rw [hre]
    decide
  have hlen : (filtersText .literal (str " filters") storedB).length < 0x80000000 := by
    rw [filtersText, FilterGroup.asReadable, filters_storedB]
    decide +kernel
  obtain ⟨bolds, heq, -, hreads, -⟩ :=
    @filters_ranges .literal (str " filters") storedB (by decide) (by decide) (by decide) hfs hlen
  rw [filters_storedB] at hreads
  exact ⟨_, bolds, heq, hreads⟩

end TgFocus
