import TgFocus.Worker.Lifecycle

/-! What a step of the handler and of a `CollIniter` can do, and what it does to the `CollIniter` that has
    not finished. -/

namespace TgFocus.Lifecycle

/-! ### Handler -/

inductive HandlerStep (s : State) : State → Prop where
  | upDown (hpc : s.handler = .upLoad) (hup : s.collIniterUp = false) :
      HandlerStep s { s with handler := .clearSwitcher }
  | upUp (hpc : s.handler = .upLoad) (hup : s.collIniterUp = true) : HandlerStep s { s with handler := .upReply }
  | clearSwitcher (hpc : s.handler = .clearSwitcher) :
      HandlerStep s { s with collSwitcher := false, handler := .clearSwitcherSucc }
  | clearSwitcherSucc (hpc : s.handler = .clearSwitcherSucc) :
      HandlerStep s { s with collSwitcherSucc := false, handler := .clearIniter }
  | clearIniter (hpc : s.handler = .clearIniter) :
      HandlerStep s { s with collIniter := false, handler := .clearIniterSucc }
  | clearIniterSucc (hpc : s.handler = .clearIniterSucc) :
      HandlerStep s { s with collIniterSucc := false, handler := .spawn }
  | spawn (hpc : s.handler = .spawn) :
      HandlerStep s { s with threads := s.threads ++ [⟨.spawned, false⟩], handler := .upReply }
  | upReply (hpc : s.handler = .upReply) : HandlerStep s (s.answer .upColl)
  | shutUp (hpc : s.handler = .shutLoad) (hup : s.collIniterUp = true) :
      HandlerStep s { s with handler := .shutStore }
  | shutDown (hpc : s.handler = .shutLoad) (hup : s.collIniterUp = false) :
      HandlerStep s { s with handler := .shutReply }
  | shutStore (hpc : s.handler = .shutStore) : HandlerStep s { s.ask with handler := .shutWait }
  | shutWait (hpc : s.handler = .shutWait) (hsucc : s.collIniterSucc = true) :
      HandlerStep s { s with handler := .shutReply }
  | shutReply (hpc : s.handler = .shutReply) : HandlerStep s (s.answer .shutdownColl)
  | ipcUp (hpc : s.handler = .ipcLoad) (hup : s.collIniterUp = true) : HandlerStep s { s with handler := .ipcStore }
  | ipcDown (hpc : s.handler = .ipcLoad) (hup : s.collIniterUp = false) : HandlerStep s { s with handler := .ipcAck }
  | ipcStore (hpc : s.handler = .ipcStore) : HandlerStep s { s.ask with handler := .ipcWait }
  | ipcAck (hpc : s.handler = .ipcAck) : HandlerStep s { s with collIniterSucc := true, handler := .ipcWait }
  | ipcWait (hpc : s.handler = .ipcWait) (hsucc : s.collIniterSucc = true) :
      HandlerStep s { s with handler := .ipcReply }
  | ipcReply (hpc : s.handler = .ipcReply) : HandlerStep s (s.answer .shutdownIpcSrv)
  | statusReply (hpc : s.handler = .statusReply) : HandlerStep s (s.answer .reportStatus)

section
variable {s t : State} {k : Nat} {th : Thread}

theorem handlerStep_inv (h : handlerStep s = some t) : HandlerStep s t := by
  unfold handlerStep at h
  split at h <;> rename_i hpc
  · cases h
  · split at h <;> cases h <;> rename_i hup
    · exact .upDown hpc (by simpa using hup)
    · exact .upUp hpc (by simpa using hup)
  · cases h; exact .clearSwitcher hpc
  · cases h; exact .clearSwitcherSucc hpc
  · cases h; exact .clearIniter hpc
  · cases h; exact .clearIniterSucc hpc
  · cases h; exact .spawn hpc
  · cases h; exact .upReply hpc
  · split at h <;> cases h <;> rename_i hup
    · exact .shutUp hpc hup
    · exact .shutDown hpc (by simpa using hup)
  · cases h; exact .shutStore hpc
  · split at h <;> cases h
    rename_i hsucc
    exact .shutWait hpc hsucc
  · cases h; exact .shutReply hpc
  · split at h <;> cases h <;> rename_i hup
    · exact .ipcUp hpc hup
    · exact .ipcDown hpc (by simpa using hup)
  · cases h; exact .ipcStore hpc
  · cases h; exact .ipcAck hpc
  · split at h <;> cases h
    rename_i hsucc
    exact .ipcWait hpc hsucc
  · cases h; exact .ipcReply hpc
  · cases h; exact .statusReply hpc

/-! ### CollIniter -/

inductive IniterStep (s : State) (k : Nat) (th : Thread) : State → Prop where
  | up (hpc : th.pc = .spawned) : IniterStep s k th { s.move k th .readHint with collIniterUp := true }
  | hint (hpc : th.pc = .readHint) (hhint : s.authHint = true) : IniterStep s k th (s.move k th .recheck)
  | noHint (hpc : th.pc = .readHint) (hhint : s.authHint = false) : IniterStep s k th (s.move k th .testStop)
  | breakOff (hpc : th.pc = .testStop) (hstop : s.collIniter = true) : IniterStep s k th (s.move k th .recheck)
  | again (hpc : th.pc = .testStop) (hstop : s.collIniter = false) : IniterStep s k th (s.move k th .readHint)
  | run (hpc : th.pc = .recheck) (hhint : s.authHint = true) : IniterStep s k th (s.move k th .running)
  | unauthorized (hpc : th.pc = .recheck) (hhint : s.authHint = false) : IniterStep s k th (s.move k th .acking)
  | stopped (hpc : th.pc = .running) (hstop : s.collIniter = true) : IniterStep s k th (s.move k th .closing)
  | close (hpc : th.pc = .closing) : IniterStep s k th { s.move k th .waitSwitcher with collSwitcher := true }
  | switcherGone (hpc : th.pc = .waitSwitcher) (hsucc : s.collSwitcherSucc = true) :
      IniterStep s k th (s.move k th .acking)
  | ack (hpc : th.pc = .acking) : IniterStep s k th { s.move k th .clearing with collIniterSucc := true }
  | clear (hpc : th.pc = .clearing) : IniterStep s k th { s.move k th .returning with collIniterUp := false }
  | finish (hpc : th.pc = .returning) : IniterStep s k th (s.move k th .finished)

theorem initerStep_inv (h : initerStep s k = some t) : ∃ th, s.threads[k]? = some th ∧ IniterStep s k th t := by
  obtain ⟨th, hth, h⟩ := Option.bind_eq_some_iff.mp h
  refine ⟨th, hth, ?_⟩
  split at h <;> rename_i hpc
  · cases h; exact .up hpc
  · split at h <;> cases h <;> rename_i hhint
    · exact .hint hpc hhint
    · exact .noHint hpc (by simpa using hhint)
  · split at h <;> cases h <;> rename_i hstop
    · exact .breakOff hpc hstop
    · exact .again hpc (by simpa using hstop)
  · split at h <;> cases h <;> rename_i hhint
    · exact .run hpc hhint
    · exact .unauthorized hpc (by simpa using hhint)
  · split at h <;> cases h
    rename_i hstop
    exact .stopped hpc hstop
  · cases h; exact .close hpc
  · split at h <;> cases h
    rename_i hsucc
    exact .switcherGone hpc hsucc
  · cases h; exact .ack hpc
  · cases h; exact .clear hpc
  · cases h; exact .finish hpc
  · cases h

theorem IniterStep.not_finished (h : IniterStep s k th t) : th.pc ≠ .finished := by
  cases h <;> rename_i hpc <;> simp_all

/-! ### The CollIniter that has not finished -/

/-- The first `CollIniter` that was spawned and has not finished. -/
def State.live (s : State) : Option Thread := s.threads.find? (·.pc ≠ .finished)

def Alone (s : State) : Prop := ∃ ds, (∀ d ∈ ds, d.pc = .finished) ∧ s.threads = ds ++ s.live.toList

theorem mem_of_live (h : s.live = some th) : th ∈ s.threads ∧ th.pc ≠ .finished :=
  ⟨List.mem_of_find?_eq_some h, by simpa using List.find?_some h⟩

theorem live_eq_none : s.live = none ↔ ∀ th ∈ s.threads, th.pc = .finished := by
  simp [State.live, List.find?_eq_none]

theorem find?_append_of_finished {ds ts : List Thread} (hds : ∀ d ∈ ds, d.pc = .finished) :
    (ds ++ ts).find? (·.pc ≠ .finished) = ts.find? (·.pc ≠ .finished) := by
  rw [List.find?_append, List.find?_eq_none.mpr (by simpa using hds), Option.none_or]

theorem Alone.length_le_one (h : Alone s) : (s.threads.filter (·.pc ≠ .finished)).length ≤ 1 := by
  obtain ⟨ds, hds, hts⟩ := h
  have hnil : ds.filter (·.pc ≠ .finished) = [] := by simpa [List.filter_eq_nil_iff] using hds
  rw [hts, List.filter_append, hnil, List.nil_append]
  refine Nat.le_trans (List.length_filter_le _ _) ?_
  cases s.live <;> simp

theorem Alone.live_eq (h : Alone s) (hth : s.threads[k]? = some th) (hpc : th.pc ≠ .finished) :
    s.live = some th := by
  obtain ⟨ds, hds, hts⟩ := h
  rw [hts] at hth
  rcases List.mem_append.mp (List.mem_of_getElem? hth) with hmem | hmem
  · exact absurd (hds th hmem) hpc
  · simpa using hmem

/-- A step of the last `CollIniter` changes it alone. -/
theorem Alone.move (h : Alone s) (hth : s.threads[k]? = some th) (hpc : th.pc ≠ .finished) (pc : IniterPc) :
    ∃ ds, (∀ d ∈ ds, d.pc = .finished) ∧ (s.move k th pc).threads = ds ++ [{ th with pc }] := by
  have hlive := h.live_eq hth hpc
  obtain ⟨ds, hds, hts⟩ := h
  refine ⟨ds, hds, ?_⟩
  rw [hlive, Option.toList_some] at hts
  have hk : k = ds.length := by
    rw [hts] at hth
    rcases Nat.lt_or_ge k ds.length with hk | hk
    · rw [List.getElem?_append_left hk] at hth
      exact absurd (hds th (List.mem_of_getElem? hth)) hpc
    · have := (List.getElem?_eq_some_iff.mp hth).1
      simp only [List.length_append, List.length_singleton] at this
      omega
  rw [State.move, hts, hk]
  simp

theorem Alone.live_move (h : Alone s) (hth : s.threads[k]? = some th) (hpc : th.pc ≠ .finished) (pc : IniterPc) :
    (s.move k th pc).live = if pc = .finished then none else some { th with pc } := by
  obtain ⟨ds, hds, hts⟩ := h.move hth hpc pc
  rw [State.live, hts, find?_append_of_finished hds]
  by_cases hfin : pc = .finished <;> simp [hfin]

theorem Alone.kept_move (h : Alone s) (hth : s.threads[k]? = some th) (hpc : th.pc ≠ .finished) (pc : IniterPc) :
    Alone (s.move k th pc) := by
  have hlive := h.live_move hth hpc pc
  obtain ⟨ds, hds, hts⟩ := h.move hth hpc pc
  by_cases hfin : pc = .finished
  · refine ⟨ds ++ [{ th with pc }], ?_, by rw [hlive, if_pos hfin, hts]; simp⟩
    simpa [or_imp, forall_and, hfin] using hds
  · exact ⟨ds, hds, by rw [hlive, if_neg hfin, hts]; simp⟩

theorem live_ask : s.ask.live = s.live.map fun th => { th with asked := true } := by
  rw [State.live, State.ask, List.find?_map]
  rfl

theorem Alone.ask (h : Alone s) : Alone s.ask := by
  obtain ⟨ds, hds, hts⟩ := h
  refine ⟨ds.map fun th => { th with asked := true }, by simpa using hds, ?_⟩
  rw [live_ask, State.ask, hts, List.map_append]
  cases s.live <;> rfl

theorem live_spawn (pc : HandlerPc) (h : s.live = none) :
    { s with threads := s.threads ++ [⟨.spawned, false⟩], handler := pc : State }.live = some ⟨.spawned, false⟩ := by
  rw [State.live, find?_append_of_finished (live_eq_none.mp h)]
  rfl

theorem alone_spawn {pc : HandlerPc} (h : s.live = none) :
    Alone { s with threads := s.threads ++ [⟨.spawned, false⟩], handler := pc } :=
  ⟨s.threads, live_eq_none.mp h, by rw [live_spawn pc h]; rfl⟩

end

end TgFocus.Lifecycle
