import TgFocus.Cli
import TgFocus.Theorems.HostLocale
import TgFocus.Theorems.Settings

/-! What a command line does to the settings. The last argument that is not an option is the command, so the
    language code behind `lang` would be taken for it: the handler of `lang` never sees a code. -/

namespace TgFocus.Cli
open LocaleConf FilterSessions

section
variable {argv : List Bytes} {arg langCode : Bytes} {available : Bytes → Bool}

/-! ### The argument vector -/

theorem foldl_options (args : List Bytes) (sub : Bytes) :
    args.foldl (fun subcmd arg => if isOption arg then subcmd else arg) sub =
      (args.filter fun arg => !isOption arg).getLast?.getD sub := by
  induction args generalizing sub with
  | nil => rfl
  | cons arg args ih =>
    rw [List.foldl_cons, ih]
    cases hopt : isOption arg with
    | true => rw [List.filter_cons_of_neg (by simp [hopt]), if_pos rfl]
    | false =>
      rw [List.filter_cons_of_pos (by simp [hopt]), if_neg Bool.false_ne_true, List.getLast?_cons]
      rfl

theorem subcmd_eq : subcmd argv = ((argv.drop 1).filter fun arg => !isOption arg).getLast?.getD [] :=
  foldl_options _ _

theorem langFromCstr_of_isOption (h : isOption arg = true) : langFromCstr arg = .unknown := by
  have hne : ∀ name : Bytes, name.head? ≠ some 0x2d → arg ≠ name := by
    rintro name hname rfl
    exact hname (by simpa [isOption] using h)
  rw [langFromCstr, if_neg (hne _ (by decide)), if_neg (hne _ (by decide)), if_neg (hne _ (by decide)),
    if_neg (hne _ (by decide)), if_neg (hne _ (by decide)), ite_self]

theorem of_ite_eq {P : Prop} [Decidable P] {a b c : Command} (h : (if P then a else b) = c) (ha : a ≠ c) :
    b = c := by
  by_cases hP : P
  · rw [if_pos hP] at h
    exact (ha h).elim
  · rwa [if_neg hP] at h

theorem command_eq_lang (h : command argv = .lang langCode) :
    argv.length = 3 ∧ subcmd argv = str "lang" ∧ langCode = argv[2]?.getD [] := by
  unfold command at h
  -- the commands before `lang`
  iterate 13 replace h := of_ite_eq h nofun
  by_cases hsub : subcmd argv = str "lang"
  · rw [if_pos hsub] at h
    by_cases hlen : argv.length = 3
    · rw [if_neg (not_not.mpr hlen)] at h
      exact ⟨hlen, hsub, (Command.lang.inj h).symm⟩
    · rw [if_pos hlen] at h
      cases h
  · rw [if_neg hsub] at h
    cases of_ite_eq (of_ite_eq h nofun) nofun

/-- What stands where the code should be is an option or the word `lang` itself. -/
theorem langFromCstr_of_command (h : command argv = .lang langCode) : langFromCstr langCode = .unknown := by
  obtain ⟨hlen, hsub, rfl⟩ := command_eq_lang h
  obtain ⟨prog, first, code, rfl⟩ := List.length_eq_three.mp hlen
  change langFromCstr code = .unknown
  cases hopt : isOption code with
  | true => exact langFromCstr_of_isOption hopt
  | false =>
    have hcode : code = str "lang" := by
      rw [← hsub, subcmd_eq]
      simp [List.filter_cons, hopt]
      split <;> rfl
    rw [hcode]
    decide

/-! ### The language -/

theorem hostLang_tryEnsureLocale {c : LocaleConf} (hpref : c.preferLang = .unknown) :
    (tryEnsureLocale available c).1.hostLang =
      ((lclist.filter (usable available)).head?.map Prod.snd).getD c.hostLang := by
  have hnot : ∀ l : List (Bytes × Lang), l ⊆ lclist → c.preferLang ∉ l.map Prod.snd := by
    intro l hl hmem
    obtain ⟨t, ht, hlang⟩ := List.mem_map.mp hmem
    have hname := langToCstr_of_mem (hl ht)
    have hunknown : ∀ t ∈ lclist, t.2 ≠ Lang.unknown := by decide
    exact hunknown t (hl ht) (hlang.trans hpref)
  rw [tryEnsureLocale_eq]
  rcases hlist : lclist.filter (usable available) with _ | ⟨t, ts⟩
  · rfl
  · have hsub : t :: ts ⊆ lclist := hlist ▸ List.filter_subset_self lclist
    simp only [if_neg (hnot _ hsub)]
    rfl

theorem hostLang_start (available : Bytes → Bool) (lckFilters writable : Bool) (d : Disk) :
    (start available lckFilters writable d).conf.hostLang =
      ((lclist.filter (usable available)).head?.map Prod.snd).getD .unknown :=
  hostLang_tryEnsureLocale rfl

/-- The handler of `lang` compares what is always `unknown` with the language of the process. -/
theorem hostLang_unknown_iff (available : Bytes → Bool) {c : LocaleConf} (hpref : c.preferLang = .unknown)
    (hhost : c.hostLang = ((lclist.filter (usable available)).head?.map Prod.snd).getD .unknown) :
    (tryEnsureLocale available c).1.hostLang = .unknown ↔ ∀ t ∈ lclist, usable available t = false := by
  rw [hostLang_tryEnsureLocale hpref, hhost]
  rcases hlist : lclist.filter (usable available) with _ | ⟨t, ts⟩
  · refine iff_of_true rfl fun t ht => ?_
    simpa using List.filter_eq_nil_iff.mp hlist t ht
  · have ht : t ∈ lclist.filter (usable available) := hlist ▸ List.mem_cons_self
    obtain ⟨ht, huse⟩ := List.mem_filter.mp ht
    have hunknown : ∀ t ∈ lclist, t.2 ≠ Lang.unknown := by decide
    refine iff_of_false (hunknown t ht) fun h => ?_
    rw [h t ht] at huse
    cases huse

end

/-! ### The settings -/

/-- What a command makes of the settings. -/
def commandSettings (env : Env) (canSave : Bool) (a : Settings) : Command → Settings
  | .lang _ => { a with prefLang := .unknown }
  | .superTgfid t => { a with chatKind := if t = 2 then .super else if t = 1 then .basic else a.chatKind }
  | .authReset => { a with authHint := false, tgfid := if env.removed then -1 else a.tgfid }
  | .filters =>
    match env.editor with
    | none => { a with filtersTmp := a.filters }
    | some tmp =>
      { a with
        filtersTmp := whole tmp
        filters := if canSave ∧ tmp ≠ [] ∧ verify env.host tmp then whole tmp else a.filters }
  | _ => a

/-- Where the exit status of a command is 0. For `filters` what the editor left is valid, saved or not; for
    `lang` there is no locale to set. -/
def ExitsZero (env : Env) : Command → Prop
  | .lang _ => ∀ t ∈ lclist, usable env.available t = false
  | .authReset => env.removed = true
  | .filters => ∃ tmp, env.editor = some tmp ∧ verify env.host tmp = true
  | _ => True

section
variable {u : DataRoot} {p q : Process} {env : Env} {canSave : Bool} {ret : Nat} {t : UInt8} {tmp : Bytes}

theorem settings_superTgfid (h : (p.root.userdata.lckFilters && p.root.userdata.writable) = canSave) :
    (handleSuperTgfid t p).2.root.settings = commandSettings env canSave p.root.settings (.superTgfid t) := by
  have hsuper := DataRoot.settings_apply h .setSuperTgfid
  have hbasic := DataRoot.settings_apply h .setBasicTgfid
  change _ = { p.root.settings with
    chatKind := if t = 2 then .super else if t = 1 then .basic else p.root.settings.chatKind }
  rw [handleSuperTgfid]
  by_cases h₂ : t = 2
  · have h₁ : t ≠ 1 := by rw [h₂]; decide
    rw [if_pos h₂, if_neg h₁, if_pos h₂]
    exact hsuper
  · rw [if_neg h₂, if_neg h₂]
    split
    · exact hbasic
    · rfl

theorem settings_authReset (env : Env) (h : (p.root.userdata.lckFilters && p.root.userdata.writable) = canSave) :
    (handleAuthReset env.removed p).2.root.settings = commandSettings env canSave p.root.settings .authReset := by
  have hhint := DataRoot.settings_apply h (.setAuthHint false)
  change _ = { p.root.settings with
    authHint := false, tgfid := if env.removed then -1 else p.root.settings.tgfid }
  cases hr : env.removed with
  | false => exact hhint
  | true =>
    have htgfid := DataRoot.settings_apply (DataRoot.canSave_apply.trans h) (.setTgfid (-1))
      (u := p.root.apply (.setAuthHint false))
    rw [hhint] at htgfid
    exact htgfid

/-- What the editor leaves is verified as it is, and saved as it is read. -/
theorem settings_filters (env : Env) (h : (p.root.userdata.lckFilters && p.root.userdata.writable) = canSave) :
    (handleFilters env.host env.editor p).2.root.settings =
      commandSettings env canSave p.root.settings .filters := by
  have hprep := DataRoot.settings_apply h .prepareFiltersTmp
  delta commandSettings
  dsimp only
  cases he : env.editor with
  | none => exact hprep
  | some tmp =>
    have hedit := DataRoot.settings_apply h (.edit tmp)
    rw [handleFilters]
    simp only [handleFilters_eq_verify]
    by_cases hv : verify env.host tmp = true
    · have hset := DataRoot.settings_apply (DataRoot.canSave_apply.trans h) (.setFilters (whole tmp))
        (u := p.root.apply (.edit tmp))
      rw [hedit] at hset
      simp only [Settings.apply, whole_eq_nil, whole_whole] at hset
      rw [if_pos hv]
      refine Eq.trans ?_ (hset.trans ?_)
      · rw [show getFiltersTmp tmp = whole tmp from DataRoot.readOrDash_eq_whole]
        rfl
      · cases canSave <;> by_cases hne : tmp = [] <;> simp [hv, hne]
    · rw [if_neg hv, if_neg fun hs => hv hs.2.2]
      exact hedit

/-- What every command line that ends without the daemon and TDLib does to the settings, and its exit status.
    `lang` forgets the preferred language, whatever its arguments are. -/
theorem settings_command (env : Env) (lckFilters writable : Bool) (d : Disk) (argv : List Bytes)
    (h : handle env (start env.available lckFilters writable d) (command argv) = some (ret, q)) :
    q.root.settings = commandSettings env (lckFilters && writable) (Settings.ofDisk d) (command argv) ∧
      (ret = 0 ↔ ExitsZero env (command argv)) := by
  have hstart : (start env.available lckFilters writable d).root.settings = Settings.ofDisk d :=
    DataRoot.settings_construct lckFilters writable d
  have hsave : ((start env.available lckFilters writable d).root.userdata.lckFilters &&
      (start env.available lckFilters writable d).root.userdata.writable) = (lckFilters && writable) := rfl
  rw [← hstart]
  cases hc : command argv with
  | usage | version =>
    rw [hc] at h
    cases h
    exact ⟨rfl, iff_of_true rfl trivial⟩
  | auth ours | startup | shutdown | focusStart | focusStop | quickstart | status =>
    rw [hc] at h
    cases h
  | superTgfid t =>
    rw [hc] at h
    cases h
    exact ⟨settings_superTgfid hsave, iff_of_true rfl trivial⟩
  | authReset =>
    have hset := settings_authReset env hsave
    rw [hc] at h
    have hq := Option.some.inj h
    rw [hq] at hset
    refine ⟨hset, ?_⟩
    have hret : ret = (handleAuthReset env.removed (start env.available lckFilters writable d)).1 := by rw [hq]
    rw [hret, ExitsZero]
    cases hr : env.removed <;> simp [handleAuthReset, TdAuth.handleAuthReset]
  | filters =>
    have hset := settings_filters env hsave
    rw [hc] at h
    have hq := Option.some.inj h
    rw [hq] at hset
    refine ⟨hset, ?_⟩
    have hret : ret = (handleFilters env.host env.editor (start env.available lckFilters writable d)).1 := by rw [hq]
    rw [hret, ExitsZero]
    cases he : env.editor with
    | none => simp [handleFilters]
    | some tmp =>
      simp only [handleFilters, handleFilters_eq_verify]
      by_cases hv : verify env.host tmp = true <;> simp [hv]
  | lang langCode =>
    have hcode := langFromCstr_of_command hc
    have hset := DataRoot.settings_apply hsave (.setPrefLang .unknown)
    have hhost := hostLang_unknown_iff env.available
      (c := { (start env.available lckFilters writable d).conf with preferLang := .unknown }) rfl
      (hostLang_start _ _ _ _)
    rw [hc] at h
    have hq := Option.some.inj h
    rw [handleLang, hcode] at hq
    have hret := congrArg Prod.fst hq
    have hroot := congrArg (fun r => r.2.root) hq
    dsimp only at hret hroot
    refine ⟨hroot ▸ hset, ?_⟩
    rw [← hret, ExitsZero, ← hhost]
    simp

/-- On a system with every locale: the language is not set, and the command has failed. -/
theorem settings_command_lang :
    ∃ ret q, handle { available := fun _ => true, host := .literal, editor := none, removed := false }
        (start (fun _ => true) true true {}) (command [str "tgfocus", str "en-US", str "lang"]) = some (ret, q) ∧
      q.root.settings = Settings.default ∧ ret ≠ 0 := by
  have hc : command [str "tgfocus", str "en-US", str "lang"] = .lang (str "lang") := by decide
  obtain ⟨r, hr⟩ : ∃ r, handle { available := fun _ => true, host := .literal, editor := none, removed := false }
      (start (fun _ => true) true true {}) (command [str "tgfocus", str "en-US", str "lang"]) = some r := by
    rw [hc]
    exact ⟨_, rfl⟩
  have h := settings_command _ true true {} [str "tgfocus", str "en-US", str "lang"] hr
  refine ⟨r.1, r.2, hr, ?_, ?_⟩
  · rw [h.1, hc]
    rfl
  · rw [ne_eq, h.2, hc]
    exact fun hno => Bool.noConfusion (hno (str "en-US", .en_US) List.mem_cons_self)

end

end TgFocus.Cli
