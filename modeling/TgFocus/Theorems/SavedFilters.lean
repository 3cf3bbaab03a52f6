import TgFocus.Theorems.Edits
import TgFocus.Theorems.StoredText

/-! Saving a group and loading it again, with a parser that reads TOML as TOML 1.0 says. Nothing is lost
    exactly when the group has a filter and no pattern holds a byte that a basic string must escape,
    backslashes apart. The patterns are read one after the other: in front of each stands the text of a
    document, so the parser must find there the string that is spelled, and that is the pattern only if
    the pattern holds no such byte. -/

namespace TgFocus

section
variable {host : Host} {f : Filter} {g : FilterGroup} {p : FilterProperty} {v t : Toml.Value} {key s : Bytes}

/-! ### Reading the lists -/

theorem FilterToml_list : (FilterToml host v).list p = (findOrStrings v p.name).map (.ofPattern host) := by
  cases p <;> rfl

theorem FilterToml_patterns : (FilterToml host v).patterns p = findOrStrings v p.name := by
  rw [Filter.patterns, FilterToml_list, List.map_map]
  exact List.map_id _

theorem mapM_string? (ss : List Bytes) : (ss.map Toml.Value.string).mapM Toml.Value.string? = some ss := by
  induction ss with
  | nil => rfl
  | cons s ss ih => rw [List.map_cons, List.mapM_cons, ih]; rfl

theorem findOrStrings_tableOf {kvs : List (Bytes × List Bytes)} :
    findOrStrings (Toml.tableOf kvs) key = (kvs.lookup key).getD [] := by
  rw [findOrStrings, Toml.tableOf, Toml.Value.get?]
  induction kvs with
  | nil => rfl
  | cons kv kvs ih =>
    rw [List.map_cons, List.lookup_cons, List.lookup_cons]
    cases hk : key == kv.1 with
    | true => exact congrArg (Option.getD · []) (mapM_string? kv.2)
    | false => exact ih

theorem mapM_string?_getElem? {vs : List Toml.Value} {ss : List Bytes} {j : Nat}
    (h : vs.mapM Toml.Value.string? = some ss) (hj : vs[j]? = some (.string s)) : ss[j]? = some s := by
  induction vs generalizing ss j with
  | nil => cases hj
  | cons x vs ih =>
    simp only [List.mapM_cons, Option.bind_eq_bind, Option.bind_eq_some_iff, Option.pure_def, Option.some.injEq] at h
    obtain ⟨a, ha, as, has, rfl⟩ := h
    cases j with
    | zero =>
      obtain rfl := Option.some.inj hj
      exact ha.symm
    | succ j =>
      rw [List.getElem?_cons_succ] at hj ⊢
      exact ih has hj

theorem findOrStrings_getElem? {vs : List Toml.Value} {j : Nat} (hv : v.get? key >>= Toml.Value.elems? = some vs)
    (hj : vs[j]? = some (.string s)) (hne : findOrStrings v key ≠ []) : (findOrStrings v key)[j]? = some s := by
  rw [findOrStrings, hv] at hne ⊢
  cases hm : vs.mapM Toml.Value.string? with
  | none => simp [hm] at hne
  | some ss =>
    rw [Option.bind_eq_bind, Option.bind_some, hm]
    exact mapM_string?_getElem? hm hj

/-! ### Reading a group -/

/-- The tables under the key of the store, when the parser accepts the text and finds them. -/
def storedTables (host : Host) (text : Bytes) : Option (List Toml.Value) := do
  let tomldata ← host.tomlParse text
  tomldata.get? storeName >>= Toml.Value.elems?

theorem FilterGroupToml_filters (text : Bytes) :
    (FilterGroupToml host text).filters = ((storedTables host text).getD [.table []]).map (FilterToml host) := rfl

theorem FilterToml_empty_patterns : (FilterToml host (.table [])).patterns p = [] := FilterToml_patterns

theorem FilterToml_fullSection (h : ∀ p, ∀ ptn ∈ f.patterns p, ∀ b ∈ ptn, Keeps b) :
    (FilterToml host (Toml.tableOf (fullSection f).entries)).patterns = f.patterns := by
  funext p
  rw [FilterToml_patterns, findOrStrings_tableOf, fullSection, sectionOf_entries fun p _ => h p]
  cases p <;> rfl

/-- A group with filters whose patterns can all be stored is read back. -/
theorem reload_of_storable (hconf : Toml.Conforms storeName host.tomlParse) (hne : g.filters ≠ [])
    (h : ∀ f ∈ g.filters, ∀ p, ∀ ptn ∈ f.patterns p, Storable ptn) :
    (FilterGroupToml host g.asFsdata).filters.map Filter.patterns = g.filters.map Filter.patterns := by
  have hkeeps : ∀ f ∈ g.filters, ∀ p, ∀ ptn ∈ f.patterns p, ∀ b ∈ ptn, Keeps b :=
    fun f hf p ptn hptn => (h f hf p ptn hptn).2
  have htext : g.asFsdata = Toml.text storeName (g.filters.map fullSection) := (text_fullSection hkeeps).symm
  have hvalid : Utf8.Valid g.asFsdata :=
    Utf8.valid_flatMap fun f hf => valid_asFsdata fun p ptn hptn => (h f hf p ptn hptn).1
  have hparse := @Toml.Conforms.accepts _ _ hconf (g.filters.map fullSection) (by simpa using hne) (htext ▸ hvalid)
  rw [← htext] at hparse
  have htables : storedTables host g.asFsdata =
      some (g.filters.map fun f => Toml.tableOf (fullSection f).entries) := by
    simp [storedTables, hparse, Toml.Value.get?, Toml.Value.elems?, Function.comp_def]
  rw [FilterGroupToml_filters, htables, Option.getD_some, List.map_map, List.map_map]
  exact List.map_congr_left fun f hf => FilterToml_fullSection (hkeeps f hf)

/-! ### What is read back could be stored -/

/-- What holds of an element when it holds of those in front holds of all elements. -/
theorem forall_mem_of_prefix {α : Type} {P : α → Prop} {L : List α}
    (h : ∀ l a l', L = l ++ a :: l' → (∀ b ∈ l, P b) → P a) : ∀ a ∈ L, P a := by
  suffices hpre : ∀ l l', L = l ++ l' → ∀ b ∈ l, P b from hpre L [] (List.append_nil L).symm
  intro l
  induction l using List.reverseRecOn with
  | nil => simp
  | append_singleton l a ih =>
    intro l' hL
    have hL' : L = l ++ a :: l' := by rw [hL, List.append_assoc, List.singleton_append]
    have hl := ih _ hL'
    intro b hb
    rcases List.mem_append.mp hb with hb | hb
    · exact hl b hb
    · rw [List.mem_singleton.mp hb]
      exact h l a l' hL' hl

theorem patterns_getElem? {tables : List Toml.Value} {pats : FilterProperty → List Bytes} {i j : Nat}
    (htables : v.get? storeName >>= Toml.Value.elems? = some tables)
    (hi : (tables.map fun t => (FilterToml host t).patterns)[i]? = some pats)
    (helem : Toml.elementAt storeName i p.name j v = some (.string s)) (hne : pats p ≠ []) :
    (pats p)[j]? = some s := by
  rw [List.getElem?_map] at hi
  obtain ⟨t, ht, rfl⟩ := Option.map_eq_some_iff.mp hi
  obtain ⟨tables', htables', helem⟩ := Option.bind_eq_some_iff.mp helem
  obtain ⟨elems, helems, hj⟩ := Option.bind_eq_some_iff.mp helem
  obtain rfl : tables' = tables := Option.some.inj (htables'.symm.trans htables)
  rw [ht] at helems
  rw [FilterToml_patterns] at hne ⊢
  exact findOrStrings_getElem? helems hj hne

/-- A pattern that is read back, behind filters, lists and patterns that can be stored, can be stored. -/
theorem storable_of_reload_at (hconf : Toml.Conforms storeName host.tomlParse) {tables : List Toml.Value}
    {fs gs : List Filter} {ps qs : List FilterProperty} {ptns ptns' : List Bytes} {ptn : Bytes}
    (htables : storedTables host ((fs ++ f :: gs).flatMap Filter.asFsdata) = some tables)
    (hsame : tables.map (fun t => (FilterToml host t).patterns) = (fs ++ f :: gs).map Filter.patterns)
    (horder : storedOrder = ps ++ p :: qs) (hlist : f.patterns p = ptns ++ ptn :: ptns')
    (hfs : ∀ f ∈ fs, ∀ p, ∀ ptn ∈ f.patterns p, Storable ptn)
    (hps : ∀ p ∈ ps, ∀ ptn ∈ f.patterns p, Storable ptn) (hptns : ∀ ptn ∈ ptns, Storable ptn) : Storable ptn := by
  have hnodup : (ps ++ p :: qs).Nodup := horder ▸ by decide
  have hps_nodup := (List.nodup_append.mp hnodup).1
  obtain ⟨c, u, hc, htext⟩ := asFsdata_split gs (fun f hf p ptn hptn => (hfs f hf p ptn hptn).2)
    (fun p hp ptn hptn => (hps p hp ptn hptn).2) (fun ptn hptn => (hptns ptn hptn).2) horder hlist hps_nodup
  obtain ⟨v, hparse, htables⟩ := Option.bind_eq_some_iff.mp htables
  have hfresh : p.name ∉ (sectionOf ps hps_nodup f).lines.map Toml.Line.key := by
    rw [sectionOf, List.map_map]
    intro hmem
    obtain ⟨p', hp', heq⟩ := List.mem_map.mp hmem
    obtain rfl := name_injective heq
    exact (List.disjoint_of_nodup_append hnodup) hp' List.mem_cons_self
  -- the string at the place of the pattern is spelled by the text, and it is the pattern
  obtain ⟨str, hspells, helem⟩ := hconf.position (lineOf p []).bare hfresh (htext ▸ hparse)
  have hstr : str = ptn := by
    have hi : (tables.map fun t => (FilterToml host t).patterns)[fs.length]? = some f.patterns := by
      rw [hsame, List.map_append, List.map_cons, List.getElem?_append_right (by simp)]
      simp
    rw [List.length_map, List.length_map] at helem
    have hj := patterns_getElem? htables hi helem (by simp [hlist])
    rw [hlist, List.getElem?_append_right (le_refl _), Nat.sub_self, List.getElem?_cons_zero] at hj
    exact (Option.some.inj hj).symm
  subst hstr
  refine ⟨?_, keeps_of_spells hspells hc⟩
  have hvalid := hconf.utf8 hparse
  rw [htext, Utf8.valid_append_cons_iff (by decide), Utf8.valid_append_cons_iff (by decide)] at hvalid
  exact valid_escape_iff.mp hvalid.2.1

theorem storable_of_reload (hconf : Toml.Conforms storeName host.tomlParse)
    (h : (FilterGroupToml host g.asFsdata).filters.map Filter.patterns = g.filters.map Filter.patterns) :
    ∀ f ∈ g.filters, ∀ p, ∀ ptn ∈ f.patterns p, Storable ptn := by
  rw [FilterGroupToml_filters, List.map_map] at h
  cases htables : storedTables host g.asFsdata with
  | none =>
    -- the group that is read has no pattern, hence neither has the other
    rw [htables] at h
    intro f hf p ptn hptn
    have hmem : f.patterns ∈ g.filters.map Filter.patterns := List.mem_map_of_mem hf
    rw [← h] at hmem
    simp only [Option.getD_none, List.map_cons, List.map_nil, List.mem_singleton] at hmem
    rw [hmem, Function.comp_apply, FilterToml_empty_patterns] at hptn
    cases hptn
  | some tables =>
    rw [htables] at h
    refine forall_mem_of_prefix fun fs f gs hfilters hfs => ?_
    rw [FilterGroup.asFsdata, hfilters] at htables
    rw [hfilters] at h
    have hlists : ∀ p ∈ storedOrder, ∀ ptn ∈ f.patterns p, Storable ptn :=
      forall_mem_of_prefix fun ps p qs horder hps =>
        forall_mem_of_prefix fun ptns ptn ptns' hlist hptns =>
          storable_of_reload_at hconf htables h horder hlist hfs hps hptns
    exact fun p => hlists p (mem_storedOrder p)

/-- A group without filters is stored as the empty document, which is read as a group with one filter. -/
theorem reload_ne_of_no_filters (hconf : Toml.Conforms storeName host.tomlParse) (h : g.filters = []) :
    (FilterGroupToml host g.asFsdata).filters.map Filter.patterns ≠ g.filters.map Filter.patterns := by
  have hparse : host.tomlParse g.asFsdata = some (.table []) := by
    rw [FilterGroup.asFsdata, h]
    exact hconf.empty
  rw [FilterGroupToml_filters, storedTables, hparse, h]
  simp [Toml.Value.get?]

/-- A group is read back with the same patterns exactly when it has filters and all patterns can be stored. -/
theorem reload_patterns_iff (hconf : Toml.Conforms storeName host.tomlParse) :
    (FilterGroupToml host g.asFsdata).filters.map Filter.patterns = g.filters.map Filter.patterns ↔
      g.filters ≠ [] ∧ ∀ f ∈ g.filters, ∀ p, ∀ ptn ∈ f.patterns p, Storable ptn := by
  constructor
  · exact fun h => ⟨fun hnil => reload_ne_of_no_filters hconf hnil h, storable_of_reload hconf h⟩
  · exact fun ⟨hne, h⟩ => reload_of_storable hconf hne h

/-! ### Groups that come from a text by accepted commands -/

def Filter.ofPatterns (host : Host) (pats : FilterProperty → List Bytes) : Filter :=
  let regexes (p : FilterProperty) := (pats p).map (PosixExtRegex.ofPattern host)
  { titles := regexes .titles
    noTitles := regexes .noTitles
    senders := regexes .senders
    noSenders := regexes .noSenders
    keywords := regexes .keywords
    noKeywords := regexes .noKeywords }

theorem Filter.Compiled.ofPatterns_patterns (h : f.Compiled host) : Filter.ofPatterns host f.patterns = f := by
  have hlist : ∀ p, (f.patterns p).map (PosixExtRegex.ofPattern host) = f.list p := by
    intro p
    rw [Filter.patterns, List.map_map]
    exact (List.map_congr_left fun re hre => (h p re hre).symm).trans (List.map_id _)
  simp only [Filter.ofPatterns, hlist]
  rfl

/-- Filters with compiled patterns are determined by the patterns. -/
theorem filters_eq_of_patterns {g' : FilterGroup} (hg : g.Compiled host) (hg' : g'.Compiled host)
    (h : g.filters.map Filter.patterns = g'.filters.map Filter.patterns) : g.filters = g'.filters := by
  have hmap : ∀ {fs : List Filter}, (∀ f ∈ fs, f.Compiled host) →
      (fs.map Filter.patterns).map (Filter.ofPatterns host) = fs := by
    intro fs hfs
    rw [List.map_map]
    exact (List.map_congr_left fun f hf => (hfs f hf).ofPatterns_patterns).trans (List.map_id _)
  rw [← hmap hg, h, hmap hg']

/-- A group that comes from a text by accepted commands is saved and loaded again without a loss exactly
    when it has a filter and every pattern can be stored. -/
theorem reload_iff (host : Host) (g : FilterGroup) (hconf : Toml.Conforms storeName host.tomlParse)
    (hg : Obtainable host g) :
    (FilterGroupToml host g.asFsdata).filters = g.filters ↔
      g.filters ≠ [] ∧ ∀ f ∈ g.filters, ∀ p, ∀ re ∈ f.list p, Storable re.ptn := by
  have hpatterns : (∀ f ∈ g.filters, ∀ p, ∀ re ∈ f.list p, Storable re.ptn) ↔
      ∀ f ∈ g.filters, ∀ p, ∀ ptn ∈ f.patterns p, Storable ptn := by
    simp only [Filter.patterns, List.forall_mem_map]
  rw [hpatterns, ← reload_patterns_iff hconf]
  constructor
  · intro h
    rw [h]
  · exact filters_eq_of_patterns (FilterGroupToml_compiled _) hg.compiled

/-- After `filter.edit 1 titles add "a\\.b"` on an empty store. -/
theorem reload_backslash :
    (FilterGroupToml .literal
        (FilterGroup.asFsdata { filters := [{ titles := [.ofPattern .literal (str "a\\.b")] }] })).filters =
      [{ titles := [.ofPattern .literal (str "a\\.b")] }] :=
  (reload_iff .literal { filters := [{ titles := [.ofPattern .literal (str "a\\.b")] }] } (Toml.Reader.conforms _)
    (.accepted (.loaded []) (@Accepted.edit _ (str "filter.edit 1 titles add \"a\\.b\"") _ _
      ⟨1, .titles, .add, str "a\\.b"⟩ 1 (by decide) (by decide) (by decide)))).mpr
    ⟨by decide, by
      intro f hf p re hre
      rw [List.mem_singleton.mp hf] at hre
      cases p <;> simp only [Filter.list, List.mem_singleton, List.not_mem_nil] at hre
      rw [hre]
      decide⟩

/-- The pattern `a"b` passes the edit and is not stored in a readable way: the group that is read back has
    one filter that accepts every message. -/
theorem reload_quote :
    ∃ g, Toml.Conforms storeName Host.literal.tomlParse ∧ Obtainable .literal g ∧
      (FilterGroupToml .literal g.asFsdata).filters = [{}] ∧ g.filters ≠ [{}] := by
  refine ⟨{ filters := [{ titles := [.ofPattern .literal (str "a\"b")] }] }, Toml.Reader.conforms _, ?_, by decide,
    by decide⟩
  exact .accepted (.loaded []) (@Accepted.edit _ (str "filter.edit 1 titles add \"a\"b\"") _ _
    ⟨1, .titles, .add, str "a\"b"⟩ 1 (by decide) (by decide) (by decide))

end

end TgFocus
