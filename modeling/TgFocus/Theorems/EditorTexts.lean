import TgFocus.FiltersTmp
import TgFocus.Theorems.Settings

/-! What the `filters` sessions of several processes store. It is a text that was verified while nobody writes
    the temporary file between the first and the last look of a session at it; else a session stores what another
    user has left there. -/

namespace TgFocus.FiltersTmp
open FilterSessions Transition

/-! ### Steps -/

inductive ProcStep (host : Host) (s : State) (k : Nat) (found : Bytes) : State → Prop where
  | prepare (hpc : s.procs[k]? = some .started) :
      ProcStep host s k found ((s.writeTmp []).move k (.copying !s.busy))
  | copy {clean : Bool} (hpc : s.procs[k]? = some (.copying clean)) :
      ProcStep host s k found ((s.writeTmp (if clean then s.userdata.filters else found)).move k .editing)
  | leave (hpc : s.procs[k]? = some .editing) : ProcStep host s k found (s.move k (.opening .parsing))
  | look {look : Look} (hpc : s.procs[k]? = some (.opening look)) :
      ProcStep host s k found (s.move k (.looking look true))
  | parse {clean : Bool} (hpc : s.procs[k]? = some (.looking .parsing clean))
      (hok : (host.tomlParse (if clean then s.filtersTmp else found)).isSome = true) :
      ProcStep host s k found (s.move k (.opening .testing))
  | test {clean : Bool} (hpc : s.procs[k]? = some (.looking .testing clean))
      (hok : (FilterGroupToml host (getFiltersTmp (if clean then s.filtersTmp else found))).isEffective = true) :
      ProcStep host s k found (s.move k (.opening .reading))
  | read {clean : Bool} (hpc : s.procs[k]? = some (.looking .reading clean)) :
      ProcStep host s k found (s.move k (.locking (whole (if clean then s.filtersTmp else found))))
  | refuse {pc : Pc} (hpc : s.procs[k]? = some pc) (hstores : pc.stores = false) :
      ProcStep host s k found (s.move k .gone)
  | lock {text : Bytes} (hpc : s.procs[k]? = some (.locking text)) :
      ProcStep host s k found ((s.writeFilters []).move k (.storing text))
  | store {text : Bytes} (hpc : s.procs[k]? = some (.storing text)) :
      ProcStep host s k found ((s.writeFilters text).move k .gone)

section
variable {host : Host} {userdata : UserData} {s t : State} {a : Act} {k j : Nat} {pc pc' : Pc} {c found : Bytes}
  {text tmp tmp' : Bytes}

theorem getFiltersTmp_eq_whole : getFiltersTmp c = whole c := DataRoot.readOrDash_eq_whole

theorem lookStep_cases {look : Look} {clean : Bool} (hpc : s.procs[k]? = some (.looking look clean)) :
    ProcStep host s k found (lookStep host s k look (if clean then s.filtersTmp else found)) := by
  cases look with
  | parsing =>
    by_cases hok : (host.tomlParse (if clean then s.filtersTmp else found)).isSome = true
    · rw [lookStep, if_pos hok]
      exact .parse hpc hok
    · rw [lookStep, if_neg hok]
      exact .refuse hpc rfl
  | testing =>
    by_cases hok : (FilterGroupToml host (getFiltersTmp (if clean then s.filtersTmp else found))).isEffective = true
    · rw [lookStep, if_pos hok]
      exact .test hpc hok
    · rw [lookStep, if_neg hok]
      exact .refuse hpc rfl
  | reading =>
    rw [lookStep, getFiltersTmp_eq_whole]
    exact .read hpc

theorem procStep_cases (h : procStep host s k found = some t) : ProcStep host s k found t := by
  obtain ⟨pc, hpc, h⟩ := Option.bind_eq_some_iff.mp h
  cases pc with
  | started => cases h; exact .prepare hpc
  | copying clean => cases h; exact .copy hpc
  | editing => cases h; exact .leave hpc
  | opening look => cases h; exact .look hpc
  | looking look clean => cases h; exact lookStep_cases hpc
  | locking text =>
    dsimp only at h
    split at h
    · cases h
      exact .refuse hpc rfl
    · obtain ⟨-, h⟩ := Option.ite_none_left_eq_some.mp h
      split at h <;> cases h
      · exact .refuse hpc rfl
      · exact .lock hpc
  | storing text => cases h; exact .store hpc
  | gone => cases h

/-! ### Who stores -/

theorem busy_eq_false : s.busy = false ↔ ∀ pc ∈ s.procs, pc.stores = false := by
  simp [State.busy, List.any_eq_false]

theorem forall_map {P : Pc → Prop} {f : Pc → Pc} {procs : List Pc} (h : ∀ pc ∈ procs, P (f pc)) :
    ∀ pc ∈ procs.map f, P pc := by
  intro pc hmem
  obtain ⟨pc', hmem', rfl⟩ := List.mem_map.mp hmem
  exact h pc' hmem'

theorem forall_set {P : Pc → Prop} {procs : List Pc} (h : ∀ pc ∈ procs, P pc) (hpc : P pc) :
    ∀ pc' ∈ procs.set k pc, P pc' := by
  intro pc' hmem
  rcases List.mem_or_eq_of_mem_set hmem with hmem | rfl
  · exact h pc' hmem
  · exact hpc

theorem forall_start {P : Pc → Prop} {procs : List Pc} (h : ∀ pc ∈ procs, P pc) (hpc : P .started) :
    ∀ pc ∈ procs ++ [.started], P pc := by
  intro pc hmem
  rcases List.mem_append.mp hmem with hmem | hmem
  · exact h pc hmem
  · exact List.mem_singleton.mp hmem ▸ hpc

theorem stores_soilTmp : pc.soilTmp.stores = pc.stores := by cases pc <;> rfl

theorem stores_soilFilters : pc.soilFilters.stores = pc.stores := by cases pc <;> rfl

theorem busy_writeTmp : (s.writeTmp text).busy = s.busy := by
  simp [State.busy, State.writeTmp, Function.comp_def, stores_soilTmp]

theorem busy_writeFilters : (s.writeFilters text).busy = s.busy := by
  simp [State.busy, State.writeFilters, Function.comp_def, stores_soilFilters]

/-- Nobody stored before the step of a process that does not. -/
theorem busy_of_move (hpc : s.procs[k]? = some pc) (hstores : pc.stores = false) (h : (s.move k pc').busy = false) :
    s.busy = false := by
  rw [busy_eq_false] at h ⊢
  intro pc₀ hmem
  obtain ⟨j, hj⟩ := List.mem_iff_getElem?.mp hmem
  by_cases hjk : k = j
  · subst hjk
    obtain rfl := Option.some.inj (hpc.symm.trans hj)
    exact hstores
  · exact h pc₀ (List.mem_iff_getElem?.mpr ⟨j, (List.getElem?_set_ne hjk).trans hj⟩)

theorem getElem?_writeTmp (hpc : s.procs[k]? = some pc) : (s.writeTmp text).procs[k]? = some pc.soilTmp := by
  simp [State.writeTmp, hpc]

/-! ### Texts that were verified -/

/-- Between the beginning of the first and the end of the last look of a session at the file. -/
def Pc.looks : Pc → Bool
  | .looking _ _ | .opening .testing | .opening .reading => true
  | _ => false

/-- Inside `prepare_filters_tmp`, or in front of it. -/
def Pc.prepares : Pc → Bool
  | .started | .copying _ => true
  | _ => false

/-- The temporary file is written only while no session is between its looks. -/
def Undisturbed (s : State) : Act → Prop
  | .start | .write _ _ => ∀ pc ∈ s.procs, pc.looks = false
  | .proc k _ => (∃ pc, s.procs[k]? = some pc ∧ pc.prepares = true) → ∀ pc ∈ s.procs, pc.looks = false
  | .flush _ _ => True

/-- It is read like the text that was stored at first, or like one that was verified. -/
def Verified (host : Host) (userdata : UserData) (c : Bytes) : Prop :=
  ∃ text, (text = userdata.filters ∨ verify host text = true) ∧ whole c = whole text

/-- What a session knows of the file in front of a look. -/
def Look.Seen (host : Host) (tmp : Bytes) : Look → Prop
  | .parsing => True
  | .testing => (host.tomlParse tmp).isSome = true
  | .reading => verify host tmp = true

/-- What a session has seen of the file is still so. -/
def Pc.Holds (host : Host) (userdata : UserData) (tmp : Bytes) : Pc → Prop
  | .opening look => look.Seen host tmp
  | .looking look clean => clean = true ∧ look.Seen host tmp
  | .locking text | .storing text => Verified host userdata text
  | _ => True

theorem Pc.Holds.soilTmp (h : pc.Holds host userdata tmp) (hlooks : pc.looks = false) :
    pc.soilTmp.Holds host userdata tmp' := by
  cases pc with
  | opening look =>
    cases look with
    | parsing => trivial
    | testing | reading => cases hlooks
  | looking look clean => cases hlooks
  | locking text | storing text => exact h
  | started | copying clean | editing | gone => trivial

theorem Pc.Holds.soilFilters (h : pc.Holds host userdata tmp) : pc.soilFilters.Holds host userdata tmp := by
  cases pc <;> exact h

structure Checked (host : Host) (userdata : UserData) (s : State) : Prop where
  filters : s.busy = false → Verified host userdata s.userdata.filters
  procs : ∀ pc ∈ s.procs, pc.Holds host userdata s.filtersTmp

/-- The file may change while nobody is between his looks. -/
theorem Checked.writeTmp (hi : Checked host userdata s) (hok : ∀ pc ∈ s.procs, pc.looks = false) (text : Bytes) :
    Checked host userdata (s.writeTmp text) where
  filters := fun hfree => hi.filters (busy_writeTmp.symm.trans hfree)
  procs := forall_map fun pc hmem => (hi.procs pc hmem).soilTmp (hok pc hmem)

theorem Checked.move (hi : Checked host userdata s) (hpc : s.procs[k]? = some pc) (hstores : pc.stores = false)
    (hholds : pc'.Holds host userdata s.filtersTmp) : Checked host userdata (s.move k pc') where
  filters := fun hfree => hi.filters (busy_of_move hpc hstores hfree)
  procs := forall_set hi.procs hholds

/-- While a process stores nothing is said of the filters file. -/
theorem Checked.storing (hi : Checked host userdata s) (text : Bytes) :
    ∀ pc ∈ (s.writeFilters text).procs, pc.Holds host userdata s.filtersTmp :=
  forall_map fun pc hmem => (hi.procs pc hmem).soilFilters

theorem Checked.procStep (hi : Checked host userdata s) (hok : Undisturbed s (.proc k found))
    (h : ProcStep host s k found t) : Checked host userdata t := by
  cases h with
  | prepare hpc => exact (hi.writeTmp (hok ⟨_, hpc, rfl⟩) _).move (getElem?_writeTmp hpc) rfl trivial
  | copy hpc => exact (hi.writeTmp (hok ⟨_, hpc, rfl⟩) _).move (getElem?_writeTmp hpc) rfl trivial
  | leave hpc => exact hi.move hpc rfl trivial
  | look hpc => exact hi.move hpc rfl ⟨rfl, hi.procs _ (List.mem_of_getElem? hpc)⟩
  | parse hpc hparse =>
    obtain ⟨rfl, -⟩ := hi.procs _ (List.mem_of_getElem? hpc)
    exact hi.move hpc rfl hparse
  | test hpc htest =>
    obtain ⟨rfl, hparse⟩ := hi.procs _ (List.mem_of_getElem? hpc)
    exact hi.move hpc rfl (Bool.and_eq_true_iff.mpr ⟨hparse, htest⟩)
  | read hpc =>
    obtain ⟨rfl, hverify⟩ := hi.procs _ (List.mem_of_getElem? hpc)
    exact hi.move hpc rfl ⟨s.filtersTmp, Or.inr hverify, whole_whole _⟩
  | refuse hpc hstores => exact hi.move hpc hstores trivial
  | @lock text hpc =>
    have hholds : Verified host userdata text := hi.procs _ (List.mem_of_getElem? hpc)
    refine ⟨fun hfree => ?_, forall_set (hi.storing []) hholds⟩
    -- it stores from now on
    have hk : k < (s.writeFilters []).procs.length := by
      simpa [State.writeFilters] using (List.getElem?_eq_some_iff.mp hpc).1
    cases busy_eq_false.mp hfree _ (List.mem_set hk _)
  | @store text hpc =>
    have hholds : Verified host userdata text := hi.procs _ (List.mem_of_getElem? hpc)
    exact ⟨fun _ => hholds, forall_set (hi.storing text) trivial⟩

theorem Checked.step (hi : Checked host userdata s) (hok : Undisturbed s a) (hs : step host s a = some t) :
    Checked host userdata t := by
  cases a with
  | start =>
    cases hs
    obtain ⟨hfilters, hprocs⟩ := hi.writeTmp hok []
    refine ⟨fun hfree => hfilters ?_, forall_start hprocs trivial⟩
    exact busy_eq_false.mpr fun pc hmem => busy_eq_false.mp hfree pc (List.mem_append_left _ hmem)
  | write k text =>
    obtain ⟨pc, hpc, hs⟩ := Option.bind_eq_some_iff.mp hs
    obtain ⟨hmay, hs⟩ := Option.ite_none_right_eq_some.mp hs
    cases hs
    cases pc with
    | copying clean | editing => exact (hi.writeTmp hok text).move (getElem?_writeTmp hpc) rfl trivial
    | started | opening look | looking look clean | locking text | storing text | gone => cases hmay
  | flush k n =>
    obtain ⟨pc, hpc, hs⟩ := Option.bind_eq_some_iff.mp hs
    cases pc with
    | storing text =>
      cases hs
      refine ⟨fun hfree => ?_, hi.storing _⟩
      have hno : s.busy = false := busy_writeFilters.symm.trans hfree
      cases busy_eq_false.mp hno _ (List.mem_of_getElem? hpc)
    | started | copying clean | editing | opening look | looking look clean | locking text | gone => cases hs
  | proc k found => exact hi.procStep hok (procStep_cases hs)

end

end TgFocus.FiltersTmp
