import TgFocus.Theorems.SoleCollector

/-! `Success` answers tell the truth about the collector. The handler decides by `collIniterUp` and waits
    for `collIniterSucc`; the first is late at the start of a `CollIniter`, the second early at its end.
    When no flag is read in such a moment, and no `CollIniter` gives up by itself, an answered `UpColl`
    leaves a collector running and an answered `ShutdownColl` leaves none. -/

namespace TgFocus.Lifecycle
open Transition

/-! ### Places -/

/-- Behind the acknowledgement, and not finished. -/
def IniterPc.acked : IniterPc → Bool
  | .clearing | .returning => true
  | _ => false

def IniterPc.leaving : IniterPc → Bool
  | .closing | .waitSwitcher | .acking | .clearing | .returning => true
  | _ => false

/-- Behind the store that asks the collector to stop. -/
def HandlerPc.waits : HandlerPc → Bool
  | .shutWait | .ipcWait => true
  | _ => false

/-- No later request has had an effect. -/
def HandlerPc.quiet : HandlerPc → Bool
  | .idle | .upLoad | .shutLoad | .ipcLoad | .statusReply => true
  | _ => false

/-- What the handler reads now does not show where the `CollIniter` is: not started yet, about to clear
    the flag, about to end. -/
def HandlerPc.misses : HandlerPc → IniterPc → Bool
  | .upLoad, .spawned | .upLoad, .clearing | .upLoad, .returning => true
  | .shutLoad, .spawned | .shutLoad, .returning => true
  | .shutWait, .clearing | .shutWait, .returning => true
  | .ipcLoad, .spawned => true
  | _, _ => false

def State.misread (s : State) : Act → Bool
  | .handler => s.threads.any fun th => s.handler.misses th.pc
  | _ => false

/-- A `CollIniter` that was not asked to stop finds the login gone, behind a loop that found it. -/
def State.givesUp (s : State) : Act → Bool
  | .initer k => s.threads[k]?.any fun th => th.pc = .recheck && !s.authHint && !th.asked
  | _ => false

/-- The handler reads no flag that does not show the `CollIniter`, and no `CollIniter` gives up. -/
def InTime (s : State) (a : Act) : Prop := s.misread a = false ∧ s.givesUp a = false

instance (s : State) (a : Act) : Decidable (InTime s a) := inferInstanceAs (Decidable (_ ∧ _))

def State.Running (s : State) : Prop := ∃ th, s.live = some th ∧ th.asked = false

def State.AnswerTrue (s : State) : Prop :=
  match s.answered with
  | some .upColl => s.Running
  | some .shutdownColl => s.live = none
  | _ => True

def State.Says (s : State) : HandlerPc → Prop
  | .idle | .upLoad | .shutLoad | .ipcLoad | .statusReply => s.AnswerTrue
  | .clearIniterSucc => s.collIniter = false
  | .spawn => s.collIniter = false ∧ s.collIniterSucc = false
  | .upReply => s.Running
  | .shutReply => s.live = none
  | .ipcAck => ∀ th, s.live = some th → th.pc.acked = true
  | _ => True

/-- What the flags say about a `CollIniter` that has not finished. -/
structure Thread.Agrees (th : Thread) (up stop succ : Bool) : Prop where
  cleared : th.pc = .returning → up = false
  unacked : th.pc.acked = false → succ = false
  unasked : th.asked = false → stop = false ∧ th.pc.leaving = false

structure Truthful (s : State) : Prop where
  down : s.live = none → s.collIniterUp = false
  flags : ∀ th, s.live = some th → th.Agrees s.collIniterUp s.collIniter s.collIniterSucc
  asked : ∀ th, s.live = some th → th.asked = true → th.pc.acked = false → s.handler.waits = true
  place : s.Says s.handler

section
variable {s t : State} {a : Act} {k : Nat} {th : Thread}

theorem misses_of_hidden {pc : IniterPc} (h : pc.hidden = true) : HandlerPc.upLoad.misses pc = true := by
  cases pc <;> simp_all [HandlerPc.misses, IniterPc.hidden]

theorem not_acked_of_upLoad {pc : IniterPc} (h : HandlerPc.upLoad.misses pc = false) : pc.acked = false := by
  cases pc <;> simp_all [HandlerPc.misses, IniterPc.acked]

theorem not_hidden_of_shutLoad {pc : IniterPc} (h : HandlerPc.shutLoad.misses pc = false) : pc.hidden = false := by
  cases pc <;> simp_all [HandlerPc.misses, IniterPc.hidden]

theorem not_acked_of_shutWait {pc : IniterPc} (h : HandlerPc.shutWait.misses pc = false) : pc.acked = false := by
  cases pc <;> simp_all [HandlerPc.misses, IniterPc.acked]

theorem acked_of_ipcLoad {pc : IniterPc} (h : HandlerPc.ipcLoad.misses pc = false) (hh : pc.hidden = true) :
    pc.acked = true := by
  cases pc <;> simp_all [HandlerPc.misses, IniterPc.hidden, IniterPc.acked]

theorem InTime.startsInSight (h : InTime s a) : StartsInSight s a := by
  rintro ⟨rfl, hpc, hhidden⟩
  obtain ⟨th, hth, hhidden⟩ := List.any_eq_true.mp hhidden
  have hseen := List.any_eq_false.mp h.1 th hth
  rw [hpc] at hseen
  exact hseen (misses_of_hidden hhidden)

theorem InTime.sees (h : InTime s .handler) (hlive : s.live = some th) : s.handler.misses th.pc = false := by
  simpa using List.any_eq_false.mp h.1 th (mem_of_live hlive).1

theorem Truthful.of_none (hlive : t.live = none) (hup : t.collIniterUp = false) (hplace : t.Says t.handler) :
    Truthful t where
  down := fun _ => hup
  flags := by simp [hlive]
  asked := by simp [hlive]
  place := hplace

theorem Truthful.of_some (hlive : t.live = some th) (hflags : th.Agrees t.collIniterUp t.collIniter t.collIniterSucc)
    (hasked : th.asked = true → th.pc.acked = false → t.handler.waits = true) (hplace : t.Says t.handler) :
    Truthful t where
  down := by simp [hlive]
  flags := by simpa [hlive] using hflags
  asked := by simpa [hlive] using hasked
  place := hplace

/-! ### Steps of the handler -/

theorem Truthful.ask (ht : Truthful s) {pc : HandlerPc} (hpc : pc = .shutWait ∨ pc = .ipcWait) :
    Truthful { s.ask with handler := pc } := by
  have hplace : State.Says { s.ask with handler := pc } pc := by rcases hpc with rfl | rfl <;> trivial
  have hlive : State.live { s.ask with handler := pc } = _ := live_ask (s := s)
  cases hth : s.live with
  | none =>
    rw [hth] at hlive
    exact .of_none hlive (ht.down hth) hplace
  | some th =>
    rw [hth] at hlive
    obtain ⟨hcleared, hunacked, -⟩ := ht.flags th hth
    exact .of_some hlive ⟨hcleared, hunacked, fun h => by cases h⟩ (fun _ _ => by rcases hpc with rfl | rfl <;> rfl)
      hplace

theorem Truthful.handlerStep (ht : Truthful s) (hi : Sole s) (hok : InTime s .handler) (h : HandlerStep s t) :
    Truthful t := by
  obtain ⟨hdown, hflags, hasked, hplace⟩ := id ht
  have hsees : ∀ th, s.live = some th → s.handler.misses th.pc = false := fun th hth => hok.sees hth
  cases h with
  | upDown hpc hup =>
    rw [hpc] at hasked
    exact ⟨hdown, hflags, hasked, trivial⟩
  | upUp hpc hup =>
    rw [hpc] at hasked hsees
    refine ⟨hdown, hflags, hasked, ?_⟩
    -- the flag is up, so there is one; it is in its main part, and nobody has asked it
    obtain ⟨th, hth⟩ := Option.ne_none_iff_exists'.mp fun hnone => by
      rw [hdown hnone] at hup
      cases hup
    refine ⟨th, hth, ?_⟩
    by_contra hask
    cases hasked th hth (by simpa using hask) (not_acked_of_upLoad (hsees th hth))
  | clearSwitcher hpc | clearSwitcherSucc hpc =>
    have hnone := hi.starting (by rw [hpc]; rfl)
    exact .of_none hnone (hdown hnone) trivial
  | clearIniter hpc =>
    have hnone := hi.starting (by rw [hpc]; rfl)
    exact .of_none hnone (hdown hnone) rfl
  | clearIniterSucc hpc =>
    have hnone := hi.starting (by rw [hpc]; rfl)
    rw [hpc] at hplace
    exact .of_none hnone (hdown hnone) ⟨hplace, rfl⟩
  | spawn hpc =>
    have hlive := live_spawn .upReply (hi.starting (by rw [hpc]; rfl))
    rw [hpc] at hplace
    exact .of_some hlive ⟨fun h => (by cases h), fun _ => hplace.2, fun _ => ⟨hplace.1, rfl⟩⟩ (fun h => by cases h)
      ⟨_, hlive, rfl⟩
  | shutStore hpc => exact ht.ask (Or.inl rfl)
  | ipcStore hpc => exact ht.ask (Or.inr rfl)
  | shutDown hpc hup =>
    rw [hpc] at hasked hsees
    refine ⟨hdown, hflags, hasked, ?_⟩
    by_contra hlive
    obtain ⟨th, hth⟩ := Option.ne_none_iff_exists'.mp hlive
    rw [hi.shown th hth (not_hidden_of_shutLoad (hsees th hth))] at hup
    cases hup
  | shutWait hpc hsucc =>
    rw [hpc] at hsees
    have hnone : s.live = none := by
      by_contra hlive
      obtain ⟨th, hth⟩ := Option.ne_none_iff_exists'.mp hlive
      rw [(hflags th hth).unacked (not_acked_of_shutWait (hsees th hth))] at hsucc
      cases hsucc
    exact .of_none hnone (hdown hnone) hnone
  | ipcDown hpc hup =>
    rw [hpc] at hasked hsees
    refine ⟨hdown, hflags, hasked, fun th hth => ?_⟩
    refine acked_of_ipcLoad (hsees th hth) ?_
    by_contra hvisible
    rw [hi.shown th hth (by simpa using hvisible)] at hup
    cases hup
  | ipcAck hpc =>
    rw [hpc] at hplace
    refine ⟨hdown, fun th hth => ?_, fun _ _ _ _ => rfl, trivial⟩
    obtain ⟨hcleared, -, hunasked⟩ := hflags th hth
    exact ⟨hcleared, fun h => (by cases (hplace th hth).symm.trans h), hunasked⟩
  | ipcWait hpc hsucc =>
    refine ⟨hdown, hflags, fun th hth _ hacked => ?_, trivial⟩
    rw [(hflags th hth).unacked hacked] at hsucc
    cases hsucc
  | shutUp hpc | ipcUp hpc =>
    rw [hpc] at hasked
    exact ⟨hdown, hflags, hasked, trivial⟩
  | upReply hpc | shutReply hpc =>
    rw [hpc] at hasked hplace
    exact ⟨hdown, hflags, hasked, hplace⟩
  | ipcReply hpc | statusReply hpc =>
    rw [hpc] at hasked
    exact ⟨hdown, hflags, hasked, trivial⟩

/-! ### Steps of the `CollIniter` -/

theorem State.AnswerTrue.kept (h : s.AnswerTrue) (hans : t.answered = s.answered) (hup : s.Running → t.Running)
    (hshut : s.live = none → t.live = none) : t.AnswerTrue := by
  unfold State.AnswerTrue at h ⊢
  rw [hans]
  cases hr : s.answered with
  | none => trivial
  | some r =>
    rw [hr] at h
    cases r with
    | upColl => exact hup h
    | shutdownColl => exact hshut h
    | reportStatus | shutdownIpcSrv => trivial

theorem State.Says.kept {pc : HandlerPc} (h : s.Says pc) (hpc : pc.starting = false) (hans : t.answered = s.answered)
    (hup : s.Running → t.Running) (hshut : s.live = none → t.live = none)
    (hack : (∀ th, s.live = some th → th.pc.acked = true) → ∀ th, t.live = some th → th.pc.acked = true) :
    t.Says pc := by
  cases pc with
  | idle | upLoad | shutLoad | ipcLoad | statusReply => exact State.AnswerTrue.kept h hans hup hshut
  | upReply => exact hup h
  | shutReply => exact hshut h
  | ipcAck => exact hack h
  | clearSwitcher | clearSwitcherSucc | clearIniter | clearIniterSucc | spawn => cases hpc
  | shutStore | shutWait | ipcStore | ipcWait | ipcReply => trivial

theorem Truthful.move (ht : Truthful s) (hi : Sole s) {pc : IniterPc} (hlive : s.live = some th)
    (hlive' : t.live = some { th with pc }) (hhandler : t.handler = s.handler) (hans : t.answered = s.answered)
    (hacked : th.pc.acked = false ∨ pc.acked = true)
    (hflags : Thread.Agrees { th with pc } t.collIniterUp t.collIniter t.collIniterSucc) : Truthful t := by
  refine .of_some hlive' hflags (fun hask hnot => ?_) ?_ <;> rw [hhandler]
  · rcases hacked with hacked | hacked
    · exact ht.asked th hlive hask hacked
    · cases hacked.symm.trans hnot
  · refine ht.place.kept (hi.not_starting hlive) hans ?_ (fun h => by cases hlive.symm.trans h) ?_
    · rintro ⟨th₀, hth₀, hask⟩
      cases hlive.symm.trans hth₀
      exact ⟨_, hlive', hask⟩
    · intro hack th' hth'
      cases hlive'.symm.trans hth'
      rcases hacked with hacked | hacked
      · cases (hack th hlive).symm.trans hacked
      · exact hacked

/-- The last step of a `CollIniter`; it was asked to stop. -/
theorem Truthful.finish (ht : Truthful s) (hi : Sole s) (hlive : s.live = some th) (hpc : th.pc = .returning)
    (hlive' : (s.move k th .finished).live = none) : Truthful (s.move k th .finished) := by
  obtain ⟨hcleared, -, hunasked⟩ := ht.flags th hlive
  refine .of_none hlive' (hcleared hpc) (ht.place.kept (hi.not_starting hlive) rfl ?_ (fun _ => hlive') ?_)
  · rintro ⟨th₀, hth₀, hask⟩
    cases hlive.symm.trans hth₀
    have hleaving := (hunasked hask).2
    rw [hpc] at hleaving
    cases hleaving
  · intro _ th' hth'
    cases hlive'.symm.trans hth'

/-- Before the acknowledgement a step changes what the flags say only by the place it leads to. -/
theorem Thread.Agrees.move {up up' stop succ : Bool} (h : th.Agrees up stop succ) {pc : IniterPc}
    (hacked : th.pc.acked = false) (hpc : pc ≠ .returning) (hleaving : th.asked = false → pc.leaving = false) :
    Thread.Agrees { th with pc } up' stop succ where
  cleared := fun hret => absurd hret hpc
  unacked := fun _ => h.unacked hacked
  unasked := fun hask => ⟨(h.unasked hask).1, hleaving hask⟩

theorem Truthful.initerStep (ht : Truthful s) (hi : Sole s) (hok : InTime s (.initer k)) (hth : s.threads[k]? = some th)
    (h : IniterStep s k th t) : Truthful t := by
  have hfin := h.not_finished
  have hlive := hi.alone.live_eq hth hfin
  have hmove := hi.alone.live_move hth hfin
  have hflags := ht.flags th hlive
  cases h with
  | up hpc | hint hpc | noHint hpc | breakOff hpc | again hpc | run hpc =>
    have hacked : th.pc.acked = false := by rw [hpc]; rfl
    exact ht.move hi hlive (hmove _) rfl rfl (Or.inl hacked) (hflags.move hacked nofun fun _ => rfl)
  | unauthorized hpc hhint =>
    have hacked : th.pc.acked = false := by rw [hpc]; rfl
    have hask : th.asked = true := by
      have := hok.2
      simpa [State.givesUp, hth, hpc, hhint] using this
    exact ht.move hi hlive (hmove _) rfl rfl (Or.inl hacked)
      (hflags.move hacked nofun fun h => by cases hask.symm.trans h)
  | stopped hpc hstop =>
    have hacked : th.pc.acked = false := by rw [hpc]; rfl
    exact ht.move hi hlive (hmove _) rfl rfl (Or.inl hacked)
      (hflags.move hacked nofun fun h => by cases (hflags.unasked h).1.symm.trans hstop)
  | close hpc | switcherGone hpc =>
    have hacked : th.pc.acked = false := by rw [hpc]; rfl
    -- on the way to the end it was asked, and so it stays
    have hleaving : th.asked = false → th.pc.leaving = false := fun h => (hflags.unasked h).2
    rw [hpc] at hleaving
    exact ht.move hi hlive (hmove _) rfl rfl (Or.inl hacked) (hflags.move hacked nofun hleaving)
  | ack hpc =>
    have hleaving : th.asked = false → th.pc.leaving = false := fun h => (hflags.unasked h).2
    rw [hpc] at hleaving
    exact ht.move hi hlive (hmove _) rfl rfl (Or.inr rfl)
      ⟨nofun, fun h => (by cases h), fun h => by cases hleaving h⟩
  | clear hpc =>
    have hleaving : th.asked = false → th.pc.leaving = false := fun h => (hflags.unasked h).2
    rw [hpc] at hleaving
    exact ht.move hi hlive (hmove _) rfl rfl (Or.inr rfl)
      ⟨fun _ => rfl, fun h => (by cases h), fun h => by cases hleaving h⟩
  | finish hpc => exact ht.finish hi hlive hpc (hmove .finished)

/-! ### Runs -/

theorem Truthful.step (ht : Truthful s) (hi : Sole s) (hok : InTime s a) (hs : step s a = some t) : Truthful t := by
  cases a with
  | request r =>
    obtain ⟨hpc, hs⟩ := Option.ite_none_right_eq_some.mp hs
    cases hs
    obtain ⟨hdown, hflags, hasked, hplace⟩ := ht
    rw [hpc] at hasked hplace
    refine ⟨hdown, hflags, fun th hth h h' => (by cases hasked th hth h h'), ?_⟩
    cases r <;> exact hplace
  | handler => exact ht.handlerStep hi hok (handlerStep_inv hs)
  | initer k =>
    obtain ⟨th, hth, h⟩ := initerStep_inv hs
    exact ht.initerStep hi hok hth h
  | switcherSucc | setAuthHint flag =>
    cases hs
    obtain ⟨hdown, hflags, hasked, hplace⟩ := ht
    refine ⟨hdown, hflags, hasked, ?_⟩
    cases hpc : s.handler <;> rw [hpc] at hplace <;> exact hplace

theorem truthful_of_reachable (h : system.ReachableBy InTime s) : Truthful s := by
  have hsole : ∀ s, system.ReachableBy InTime s → Sole s := fun s h =>
    sole_of_reachable (h.mono fun _ _ hok => hok.startsInSight)
  refine h.invariant_of hsole ?_ fun s a t hi ht hok hs => ht.step hi hok hs
  rintro s ⟨authHint, rfl⟩
  exact .of_none rfl rfl trivial

theorem State.Says.answerTrue {pc : HandlerPc} (h : s.Says pc) (hq : pc.quiet = true) : s.AnswerTrue := by
  cases pc <;> first | exact h | cases hq

/-- In runs in which the handler reads no flag that does not show the `CollIniter`, and none gives up,
    the answer is true until a later request has an effect: after `UpColl` there is one that has not
    finished and was not asked to stop, after `ShutdownColl` all have finished. -/
theorem success_true (h : system.ReachableBy InTime s) (hq : s.handler.quiet = true) :
    (s.answered = some .upColl → ∃ th ∈ s.threads, th.pc ≠ .finished ∧ th.asked = false) ∧
      (s.answered = some .shutdownColl → ∀ th ∈ s.threads, th.pc = .finished) := by
  have htrue := (truthful_of_reachable h).place.answerTrue hq
  rw [State.AnswerTrue] at htrue
  constructor <;> intro hans <;> rw [hans] at htrue
  · obtain ⟨th, hth, hask⟩ := htrue
    exact ⟨th, (mem_of_live hth).1, (mem_of_live hth).2, hask⟩
  · exact live_eq_none.mp htrue

end

/-- The collector is started, logs in, is stopped and ends before the handler looks again. -/
theorem success_true_run :
    ∃ s : State, s.answered = some .shutdownColl ∧
      (s.answered = some .upColl → ∃ th ∈ s.threads, th.pc ≠ .finished ∧ th.asked = false) ∧
      (s.answered = some .shutdownColl → ∀ th ∈ s.threads, th.pc = .finished) :=
  have h : system.ReachableBy InTime _ := .runBy (.init ⟨true, rfl⟩)
    (upColl ++ [.initer 0, .initer 0, .initer 0] ++ [.request .shutdownColl, .handler, .handler] ++
      [.initer 0, .initer 0, .switcherSucc, .initer 0, .initer 0, .initer 0, .initer 0] ++ [.handler, .handler]) rfl
  ⟨_, rfl, success_true h rfl⟩

/-- `ShutdownColl` comes before the `CollIniter` has started: `Success`, and it starts afterwards. -/
theorem success_untrue :
    ∃ s, system.Reachable s ∧ s.handler = .idle ∧ s.answered = some .shutdownColl ∧
      ¬∀ th ∈ s.threads, th.pc = .finished :=
  ⟨_, Transition.System.Reachable.run (.init ⟨true, rfl⟩)
    (upColl ++ [.request .shutdownColl, .handler, .handler]) rfl, rfl, rfl, by decide⟩

end TgFocus.Lifecycle
