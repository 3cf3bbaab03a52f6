import TgFocus.LocaleConf

/-! The locale that a process ends up with. The loop tries the locales one after another, each of them sets
    the process when the system has it, and only the preferred one ends the loop. -/

namespace TgFocus.LocaleConf

/-- The system has the locale that belongs to an entry of the list. -/
def usable (available : Bytes → Bool) (t : Bytes × Lang) : Bool := available (localeName t.1)

section
variable {available : Bytes → Bool} {c : LocaleConf} {l supported : List (Bytes × Lang)} {t : Bytes × Lang}

/-- The loop leaves with the first usable entry that is preferred. -/
theorem ensureLoop_of_find (supported : List (Bytes × Lang))
    (h : l.find? (fun t => usable available t && decide (t.2 = c.preferLang)) = some t) :
    ∃ supported', ensureLoop available l c supported =
      ({ c with hostLang := t.2, locale := localeName t.1 }, supported', true) := by
  induction l generalizing c supported with
  | nil => cases h
  | cons u l ih =>
    rw [ensureLoop, setlocale]
    cases hu : available (localeName u.1) with
    | false =>
      rw [List.find?_cons_of_neg (by simp [usable, hu])] at h
      exact ih supported h
    | true =>
      by_cases hp : u.2 = c.preferLang
      · rw [List.find?_cons_of_pos (by simp [usable, hu, hp])] at h
        obtain rfl := Option.some.inj h
        exact ⟨supported, by simp [hp]⟩
      · rw [List.find?_cons_of_neg (by simp [hp])] at h
        obtain ⟨supported', hloop⟩ := ih (supported ++ [u]) (c := { c with locale := localeName u.1 }) h
        exact ⟨supported', by simpa [hp] using hloop⟩

/-- When none is preferred the loop goes through all of them, and the last usable one stays set. -/
theorem ensureLoop_of_not_find (supported : List (Bytes × Lang))
    (h : ∀ t ∈ l, usable available t = true → t.2 ≠ c.preferLang) :
    ensureLoop available l c supported =
      ({ c with locale := ((l.filter (usable available)).getLast?.map fun t => localeName t.1).getD c.locale },
        supported ++ l.filter (usable available), false) := by
  induction l generalizing c supported with
  | nil => simp [ensureLoop]
  | cons u l ih =>
    have hrest : ∀ t ∈ l, usable available t = true → t.2 ≠ c.preferLang := fun t ht =>
      h t (List.mem_cons_of_mem u ht)
    rw [ensureLoop, setlocale]
    cases hu : available (localeName u.1) with
    | false =>
      rw [List.filter_cons_of_neg (by simp [usable, hu])]
      simpa using ih supported hrest
    | true =>
      have hp : u.2 ≠ c.preferLang := h u List.mem_cons_self hu
      rw [List.filter_cons_of_pos (by simp [usable, hu])]
      simp only [↓reduceIte, hp]
      rw [ih (supported ++ [u]) (c := { c with locale := localeName u.1 }) hrest, List.getLast?_cons]
      cases hlast : (l.filter (usable available)).getLast? <;> simp

end

/-- The entries are those of `lang_to_cstr`. -/
theorem langToCstr_of_mem {t : Bytes × Lang} (h : t ∈ lclist) : IpcConnHandler.langToCstr t.2 = t.1 := by
  simp only [lclist, List.mem_cons, List.not_mem_nil, or_false] at h
  rcases h with rfl | rfl | rfl | rfl | rfl <;> rfl

/-- Without a usable locale nothing changes. Else the language of the process is the preferred one, when its
    locale is usable, and its locale is set; when it is not, the language is the first usable one of the list,
    and what stays set is the locale of the last usable one, unless the system has a locale under the name of
    the language itself. -/
theorem tryEnsureLocale_eq (available : Bytes → Bool) (c : LocaleConf) :
    tryEnsureLocale available c =
      match lclist.filter (usable available) with
      | [] => (c, false)
      | t :: ts =>
        if c.preferLang ∈ (t :: ts).map Prod.snd then
          ({ c with hostLang := c.preferLang, locale := localeName (IpcConnHandler.langToCstr c.preferLang) }, true)
        else
          ({ c with
              hostLang := t.2
              locale := if available t.1 then t.1 else localeName ((t :: ts).getLast (List.cons_ne_nil t ts)).1 },
            true) := by
  cases hfind : lclist.find? (fun t => usable available t && decide (t.2 = c.preferLang)) with
  | some u =>
    obtain ⟨supported, hloop⟩ := ensureLoop_of_find [] hfind
    have hu := List.find?_some hfind
    simp only [Bool.and_eq_true, decide_eq_true_eq] at hu
    have hmem : u ∈ lclist.filter (usable available) := List.mem_filter.mpr ⟨List.mem_of_find?_eq_some hfind, hu.1⟩
    rw [tryEnsureLocale, hloop]
    rcases hlist : lclist.filter (usable available) with _ | ⟨t, ts⟩
    · rw [hlist] at hmem
      cases hmem
    · have hin : c.preferLang ∈ (t :: ts).map Prod.snd := hu.2 ▸ List.mem_map_of_mem (hlist ▸ hmem)
      simp only [↓reduceIte, if_pos hin, ← langToCstr_of_mem (List.mem_of_find?_eq_some hfind), hu.2]
  | none =>
    have hnone : ∀ t ∈ lclist, usable available t = true → t.2 ≠ c.preferLang := by
      simpa using List.find?_eq_none.mp hfind
    rw [tryEnsureLocale, ensureLoop_of_not_find [] hnone]
    rcases hlist : lclist.filter (usable available) with _ | ⟨t, ts⟩
    · simp
    · have hout : c.preferLang ∉ (t :: ts).map Prod.snd := by
        rintro hmem
        obtain ⟨u, hu, hp⟩ := List.mem_map.mp hmem
        obtain ⟨hu, huse⟩ := List.mem_filter.mp (hlist ▸ hu)
        exact hnone u hu huse hp
      simp only [if_neg hout, setlocale, List.getLast?_eq_some_getLast (List.cons_ne_nil t ts), Option.map_some,
        Option.getD_some, List.nil_append]
      cases available t.1 <;> simp

end TgFocus.LocaleConf
