import TgFocus.Worker.Collector
import TgFocus.Theorems.TrueReplies
import TgFocus.Theorems.PipelineInv

/-! A stopped collector does nothing. The three threads exist between the moment when a `CollIniter` begins to
    run and the one when it acknowledges; so when the answer to `ShutdownColl` is true, they have ended, and
    until the next `UpColl` no message is looked at or forwarded. -/

namespace TgFocus.Collector
open Transition Lifecycle

/-! ### Places -/

/-- The three threads exist. -/
def hasThreads : IniterPc → Bool
  | .running | .closing | .waitSwitcher => true
  | _ => false

/-- Before the start of the three threads. -/
def starts : IniterPc → Bool
  | .spawned | .readHint | .testStop | .recheck => true
  | _ => false

/-- How many of the flags that `UpColl` clears are down. -/
def down (cleared : Nat) : HandlerPc → Nat
  | .clearSwitcher => cleared
  | .clearSwitcherSucc => 5
  | .clearIniter | .clearIniterSucc | .spawn => 6
  | _ => 0

structure Down (n : Nat) (p : Pipeline.State) : Prop where
  producer : 1 ≤ n → p.collProducer = false
  producerSucc : 2 ≤ n → p.collProducerSucc = false
  consumer : 3 ≤ n → p.collConsumer = false
  consumerSucc : 4 ≤ n → p.collConsumerSucc = false
  switcher : 5 ≤ n → p.collSwitcher = false
  switcherSucc : 6 ≤ n → p.collSwitcherSucc = false

/-- The three threads as the places of handler and `CollIniter` say. -/
structure Linked (s : State) : Prop where
  stop : s.pipe.collSwitcher = s.life.collSwitcher
  succ : s.pipe.collSwitcherSucc = s.life.collSwitcherSucc
  clearing : Down (down s.cleared s.life.handler) s.pipe
  fresh : ∀ th, s.life.live = some th → starts th.pc = true → Down 6 s.pipe
  still : (∀ th, s.life.live = some th → hasThreads th.pc = false) → ended s.pipe = true ∧ s.pipe.mqLock = none
  base : ∀ th, s.life.live = some th → hasThreads th.pc = true → Pipeline.Base s.pipe

/-- The condition of `Lifecycle.InTime` on the steps that `Lifecycle` has: the handler reads no flag that does not
    show where a `CollIniter` is, and none that was not asked to stop finds the login gone behind its loop. -/
def InTime (s : State) : Act → Prop
  | .request r => Lifecycle.InTime s.life (.request r)
  | .handler => Lifecycle.InTime s.life .handler
  | .initer k => Lifecycle.InTime s.life (.initer k)
  | _ => True

instance (s : State) (a : Act) : Decidable (InTime s a) := by
  cases a <;> first | exact inferInstanceAs (Decidable (Lifecycle.InTime _ _)) | exact .isTrue trivial

section
variable {s t : State} {a : Act} {k n : Nat} {p p' : Pipeline.State} {life : Lifecycle.State} {th : Thread}

theorem ended_iff : ended p = true ↔ p.producer = .done ∧ p.consumer = .done ∧ p.switcher = .done := by
  simp [ended, and_assoc]

theorem Down.mono {m : Nat} (h : Down n p) (hmn : m ≤ n) : Down m p where
  producer := fun hm => h.producer (Nat.le_trans hm hmn)
  producerSucc := fun hm => h.producerSucc (Nat.le_trans hm hmn)
  consumer := fun hm => h.consumer (Nat.le_trans hm hmn)
  consumerSucc := fun hm => h.consumerSucc (Nat.le_trans hm hmn)
  switcher := fun hm => h.switcher (Nat.le_trans hm hmn)
  switcherSucc := fun hm => h.switcherSucc (Nat.le_trans hm hmn)

theorem down_zero : Down 0 p := ⟨nofun, nofun, nofun, nofun, nofun, nofun⟩

theorem Down.clear (h : Down n p) (hn : n < 4) : Down (n + 1) (clear p n) := by
  obtain ⟨h1, h2, h3, h4, h5, h6⟩ := h
  have hcases : n = 0 ∨ n = 1 ∨ n = 2 ∨ n = 3 := by omega
  rcases hcases with rfl | rfl | rfl | rfl
  · exact ⟨fun _ => rfl, nofun, nofun, nofun, nofun, nofun⟩
  · exact ⟨fun _ => h1 (by decide), fun _ => rfl, nofun, nofun, nofun, nofun⟩
  · exact ⟨fun _ => h1 (by decide), fun _ => h2 (by decide), fun _ => rfl, nofun, nofun, nofun⟩
  · exact ⟨fun _ => h1 (by decide), fun _ => h2 (by decide), fun _ => h3 (by decide), fun _ => rfl, nofun, nofun⟩

theorem ended_clear (n : Nat) : ended (clear p n) = ended p ∧ (clear p n).mqLock = p.mqLock ∧
    (clear p n).collSwitcher = p.collSwitcher ∧ (clear p n).collSwitcherSucc = p.collSwitcherSucc := by
  unfold clear
  split <;> exact ⟨rfl, rfl, rfl, rfl⟩

/-- The three threads start with all flags down. -/
theorem base_launch (hdown : Down 6 p) (hlock : p.mqLock = none) : Pipeline.Base (launch p) where
  locks := by
    constructor <;> simp [launch, hlock, Pipeline.ProducerPc.locked, Pipeline.ConsumerPc.locked,
      Pipeline.SwitcherPc.locked]
  shutdown := by
    have hps := hdown.producerSucc (by decide)
    have hc := hdown.consumer (by decide)
    have hcs := hdown.consumerSucc (by decide)
    constructor <;> simp [launch, hps, hc, hcs, Pipeline.SwitcherPc.pastProducer, Pipeline.SwitcherPc.pastStop]
  inQueue := by constructor <;> simp [launch]

/-- A step that leaves the flags of the switcher alone shares nothing. -/
theorem Linked.share_eq (hi : Linked s) (life : Lifecycle.State) (hstop : life.collSwitcher = s.life.collSwitcher)
    (hsucc : life.collSwitcherSucc = s.life.collSwitcherSucc) : s.share life = { s with life } := by
  rw [State.share, hstop, hsucc, ← hi.stop, ← hi.succ]

/-- What the handler does without touching the flags that it clears. -/
theorem Linked.handler (hi : Linked s) (hstop : life.collSwitcher = s.life.collSwitcher)
    (hsucc : life.collSwitcherSucc = s.life.collSwitcherSucc) (hdown : Down (down 0 life.handler) s.pipe)
    (hlive : ∀ th, life.live = some th → ∃ th₀, s.life.live = some th₀ ∧ th.pc = th₀.pc)
    (hnone : life.live = none → s.life.live = none) : Linked { s.share life with cleared := 0 } := by
  rw [hi.share_eq life hstop hsucc]
  refine ⟨hi.stop.trans hstop.symm, hi.succ.trans hsucc.symm, hdown, ?_, fun hno => hi.still ?_, ?_⟩
  · intro th hth hpc
    obtain ⟨th₀, hth₀, heq⟩ := hlive th hth
    exact hi.fresh th₀ hth₀ (heq ▸ hpc)
  · intro th₀ hth₀
    cases hl : life.live with
    | none => cases hth₀.symm.trans (hnone hl)
    | some th =>
      obtain ⟨th₁, hth₁, heq⟩ := hlive th hl
      obtain rfl := Option.some.inj (hth₀.symm.trans hth₁)
      rw [← heq]
      exact hno th hl
  · intro th hth hpc
    obtain ⟨th₀, hth₀, heq⟩ := hlive th hth
    exact hi.base th₀ hth₀ (heq ▸ hpc)

theorem Linked.handlerStep (hi : Linked s) (hsole : Sole s.life) (h : handlerStep s = some t) : Linked t := by
  unfold Collector.handlerStep at h
  split at h
  · rename_i hclear
    obtain ⟨hpc, hlt⟩ := hclear
    cases h
    have hnone : s.life.live = none := hsole.starting (by rw [hpc]; rfl)
    have hclearing := hi.clearing
    rw [hpc] at hclearing
    obtain ⟨hended, hlock, hstop, hsucc⟩ := ended_clear (p := s.pipe) s.cleared
    refine ⟨hstop.trans hi.stop, hsucc.trans hi.succ, ?_, fun th hth => (by cases hnone.symm.trans hth), fun _ => ?_,
      fun th hth => (by cases hnone.symm.trans hth)⟩
    · dsimp only
      rw [hpc]
      exact hclearing.clear hlt
    · dsimp only
      rw [hended, hlock]
      exact hi.still fun th hth => by cases hnone.symm.trans hth
  · rename_i hnot
    obtain ⟨life, hlife, rfl⟩ := Option.map_eq_some_iff.mp h
    have hsame : ∀ {l : Lifecycle.State}, l.live = s.life.live → (∀ th, l.live = some th →
        ∃ th₀, s.life.live = some th₀ ∧ th.pc = th₀.pc) ∧ (l.live = none → s.life.live = none) := by
      intro l hl
      rw [hl]
      exact ⟨fun th hth => ⟨th, hth, rfl⟩, id⟩
    have hclearing := hi.clearing
    cases Lifecycle.handlerStep_inv hlife with
    | clearSwitcher hpc =>
      have hnone : s.life.live = none := hsole.starting (by rw [hpc]; rfl)
      have hfour : ¬s.cleared < 4 := fun hlt => hnot ⟨hpc, hlt⟩
      rw [hpc] at hclearing
      have hdown : Down 4 s.pipe := hclearing.mono (by simpa [down] using hfour)
      refine ⟨rfl, rfl, ?_, fun th hth => (by cases hnone.symm.trans hth), fun _ => ?_,
        fun th hth => (by cases hnone.symm.trans hth)⟩
      · exact ⟨fun _ => hdown.producer (by decide), fun _ => hdown.producerSucc (by decide),
          fun _ => hdown.consumer (by decide), fun _ => hdown.consumerSucc (by decide), fun _ => rfl,
          fun h => absurd (show 6 ≤ 5 from h) (by decide)⟩
      · exact hi.still fun th hth => by cases hnone.symm.trans hth
    | clearSwitcherSucc hpc =>
      have hnone : s.life.live = none := hsole.starting (by rw [hpc]; rfl)
      rw [hpc] at hclearing
      have hdown : Down 5 s.pipe := hclearing
      refine ⟨rfl, rfl, ?_, fun th hth => (by cases hnone.symm.trans hth), fun _ => ?_,
        fun th hth => (by cases hnone.symm.trans hth)⟩
      · exact ⟨fun _ => hdown.producer (by decide), fun _ => hdown.producerSucc (by decide),
          fun _ => hdown.consumer (by decide), fun _ => hdown.consumerSucc (by decide),
          fun _ => hi.stop.symm.trans (hdown.switcher (by decide)), fun _ => rfl⟩
      · exact hi.still fun th hth => by cases hnone.symm.trans hth
    | clearIniter hpc | clearIniterSucc hpc =>
      rw [hpc] at hclearing
      exact hi.handler rfl rfl hclearing (hsame rfl).1 (hsame rfl).2
    | spawn hpc =>
      have hnone : s.life.live = none := hsole.starting (by rw [hpc]; rfl)
      have hlive := live_spawn .upReply hnone
      rw [hpc] at hclearing
      have hthread : ∀ th, State.live { s.life with threads := s.life.threads ++ [⟨.spawned, false⟩], handler := .upReply } =
          some th → th = ⟨.spawned, false⟩ := fun th hth => Option.some.inj (hth.symm.trans hlive)
      rw [hi.share_eq { s.life with threads := s.life.threads ++ [⟨.spawned, false⟩], handler := .upReply } rfl rfl]
      refine ⟨hi.stop, hi.succ, down_zero, fun _ _ _ => hclearing, fun _ => ?_, fun th hth hpc => ?_⟩
      · exact hi.still fun th hth => by cases hnone.symm.trans hth
      · rw [hthread th hth] at hpc
        cases hpc
    | shutStore hpc | ipcStore hpc =>
      refine hi.handler rfl rfl down_zero ?_ ?_
      · intro th hth
        have hth : s.life.ask.live = some th := hth
        rw [live_ask] at hth
        obtain ⟨th₀, hth₀, rfl⟩ := Option.map_eq_some_iff.mp hth
        exact ⟨th₀, hth₀, rfl⟩
      · intro hnone
        have hnone : s.life.ask.live = none := hnone
        rw [live_ask] at hnone
        exact Option.map_eq_none_iff.mp hnone
    | upDown hpc | upUp hpc | upReply hpc | shutUp hpc | shutDown hpc | shutWait hpc | shutReply hpc | ipcUp hpc
    | ipcDown hpc | ipcAck hpc | ipcWait hpc | ipcReply hpc | statusReply hpc =>
      exact hi.handler rfl rfl down_zero (hsame rfl).1 (hsame rfl).2

/-! ### Steps of the `CollIniter` -/

/-- While a `CollIniter` is there, the handler clears nothing. -/
theorem down_of_live (n : Nat) (hsole : Sole s.life) (hlive : s.life.live = some th) : down n s.life.handler = 0 := by
  have hstart := hsole.not_starting hlive
  revert hstart
  cases s.life.handler with
  | clearSwitcher | clearSwitcherSucc | clearIniter | clearIniterSucc | spawn => exact nofun
  | idle | upLoad | upReply | shutLoad | shutStore | shutWait | shutReply | ipcLoad | ipcStore | ipcAck | ipcWait
  | ipcReply | statusReply => exact fun _ => rfl

theorem not_hasThreads {pc : IniterPc} (h : starts pc = true) : hasThreads pc = false := by
  cases pc <;> first | rfl | cases h

/-- Before the three threads a `CollIniter` moves alone. -/
theorem Linked.early (hi : Linked s) (hlive : s.life.live = some th) {pc : IniterPc}
    (hlive' : life.live = some { th with pc }) (hhandler : life.handler = s.life.handler)
    (hstop : life.collSwitcher = s.life.collSwitcher) (hsucc : life.collSwitcherSucc = s.life.collSwitcherSucc)
    (hpc : starts th.pc = true) (hpc' : starts pc = true) : Linked (s.share life) := by
  have hthread : ∀ th', life.live = some th' → th' = { th with pc } := fun th' hth' =>
    Option.some.inj (hth'.symm.trans hlive')
  have hclearing := hi.clearing
  rw [← hhandler] at hclearing
  rw [hi.share_eq life hstop hsucc]
  refine ⟨hi.stop.trans hstop.symm, hi.succ.trans hsucc.symm, hclearing, fun _ _ _ => hi.fresh th hlive hpc,
    fun _ => hi.still fun th₀ hth₀ => ?_, fun th' hth' hrun => ?_⟩
  · obtain rfl := Option.some.inj (hlive.symm.trans hth₀)
    exact not_hasThreads hpc
  · rw [hthread th' hth', not_hasThreads hpc'] at hrun
    cases hrun

/-- Without the three threads a `CollIniter` goes on without them. -/
theorem Linked.late (hi : Linked s)
    (hhandler : life.handler = s.life.handler) (hstop : life.collSwitcher = s.life.collSwitcher)
    (hsucc : life.collSwitcherSucc = s.life.collSwitcherSucc) (hended : ended s.pipe = true ∧ s.pipe.mqLock = none)
    (hout : ∀ th', life.live = some th' → hasThreads th'.pc = false ∧ starts th'.pc = false) :
    Linked (s.share life) := by
  have hclearing := hi.clearing
  rw [← hhandler] at hclearing
  rw [hi.share_eq life hstop hsucc]
  refine ⟨hi.stop.trans hstop.symm, hi.succ.trans hsucc.symm, hclearing, fun th' hth' hpc => ?_, fun _ => hended,
    fun th' hth' hpc => ?_⟩
  · cases (hout th' hth').2.symm.trans hpc
  · cases (hout th' hth').1.symm.trans hpc

theorem initerStep_inv (h : initerStep s k = some t) :
    ∃ th life, s.life.threads[k]? = some th ∧ Lifecycle.initerStep s.life k = some life ∧
      IniterStep s.life k th life ∧
      (th.pc = .recheck ∧ s.life.authHint = true ∧ ended s.pipe = true ∧ t = { s with life, pipe := launch s.pipe } ∨
        ¬(th.pc = .recheck ∧ s.life.authHint = true) ∧ (th.pc = .waitSwitcher → ended s.pipe = true) ∧
          t = s.share life) := by
  obtain ⟨th, hth, h⟩ := Option.bind_eq_some_iff.mp h
  obtain ⟨life, hlife, h⟩ := Option.bind_eq_some_iff.mp h
  obtain ⟨th', hth', hstep⟩ := Lifecycle.initerStep_inv hlife
  obtain rfl := Option.some.inj (hth.symm.trans hth')
  refine ⟨th, life, hth, hlife, hstep, ?_⟩
  split at h <;> rename_i hpc
  · split at h <;> rename_i hhint
    · obtain ⟨hended, h⟩ := Option.ite_none_right_eq_some.mp h
      exact .inl ⟨hpc, hhint, hended, (Option.some.inj h).symm⟩
    · refine .inr ⟨fun hrun => hhint hrun.2, fun hwait => ?_, (Option.some.inj h).symm⟩
      cases hpc.symm.trans hwait
  · obtain ⟨hended, h⟩ := Option.ite_none_right_eq_some.mp h
    refine .inr ⟨fun hrun => ?_, fun _ => hended, (Option.some.inj h).symm⟩
    cases hpc.symm.trans hrun.1
  · rename_i hrun
    exact .inr ⟨fun h => hrun h.1, fun hwait => absurd hwait hpc, (Option.some.inj h).symm⟩

theorem Linked.initerStep (hi : Linked s) (hsole : Sole s.life) (h : initerStep s k = some t) : Linked t := by
  obtain ⟨th, life, hth, -, hstep, hcases⟩ := initerStep_inv h
  have hfin := hstep.not_finished
  have hlive := hsole.alone.live_eq hth hfin
  have hmove := hsole.alone.live_move hth hfin
  have hidle := down_of_live s.cleared hsole hlive
  have hstill : hasThreads th.pc = false → ended s.pipe = true ∧ s.pipe.mqLock = none := by
    intro hpc
    refine hi.still fun th₀ hth₀ => ?_
    obtain rfl := Option.some.inj (hlive.symm.trans hth₀)
    exact hpc
  have hone : ∀ {l : Lifecycle.State} {pc : IniterPc}, l.live = some { th with pc } → hasThreads pc = false →
      starts pc = false → ∀ th', l.live = some th' → hasThreads th'.pc = false ∧ starts th'.pc = false := by
    intro l pc hl hpc hpc' th' hth'
    obtain rfl := Option.some.inj (hl.symm.trans hth')
    exact ⟨hpc, hpc'⟩
  rcases hcases with ⟨hpc, hhint, hended, rfl⟩ | ⟨hrun, hjoined, rfl⟩
  · -- the three threads start
    have hfresh : Down 6 s.pipe := hi.fresh th hlive (by rw [hpc]; rfl)
    have hbase := base_launch hfresh (hstill (by rw [hpc]; rfl)).2
    cases hstep with
    | run =>
      refine ⟨hi.stop, hi.succ, ?_, fun th' hth' hpc' => ?_, fun hno => ?_, fun _ _ _ => hbase⟩
      · exact hidle.symm ▸ down_zero
      · obtain rfl := Option.some.inj ((hmove .running).symm.trans hth')
        cases hpc'
      · cases hno _ (hmove .running)
    | unauthorized _ hno => cases hno.symm.trans hhint
    | up hpc' | hint hpc' | noHint hpc' | breakOff hpc' | again hpc' | stopped hpc' | close hpc' | switcherGone hpc'
    | ack hpc' | clear hpc' | finish hpc' => cases hpc.symm.trans hpc'
  · cases hstep with
    | up hpc | hint hpc | noHint hpc | breakOff hpc | again hpc =>
      exact hi.early hlive (hmove _) rfl rfl rfl (by rw [hpc]; rfl) rfl
    | run hpc hhint => exact absurd ⟨hpc, hhint⟩ hrun
    | unauthorized hpc | ack hpc | clear hpc =>
      exact hi.late rfl rfl rfl (hstill (by rw [hpc]; rfl)) (hone (hmove _) rfl rfl)
    | finish hpc =>
      refine hi.late rfl rfl rfl (hstill (by rw [hpc]; rfl)) fun th' hth' => ?_
      cases (hmove .finished).symm.trans hth'
    | switcherGone hpc =>
      -- the three threads have ended, so nobody holds the lock
      have hended := hjoined hpc
      obtain ⟨hp, hc, hs⟩ := ended_iff.mp hended
      have hlock := (hi.base th hlive (by rw [hpc]; rfl)).locks.free (by rw [hp]; rfl) (by rw [hc]; rfl)
        (by rw [hs]; rfl)
      exact hi.late rfl rfl rfl ⟨hended, hlock⟩ (hone (hmove _) rfl rfl)
    | stopped hpc =>
      have hbase := hi.base th hlive (by rw [hpc]; rfl)
      rw [hi.share_eq (s.life.move k th .closing) rfl rfl]
      refine ⟨hi.stop, hi.succ, hi.clearing, fun th' hth' hpc' => ?_, fun hno => ?_, fun _ _ _ => hbase⟩
      · obtain rfl := Option.some.inj ((hmove .closing).symm.trans hth')
        cases hpc'
      · cases hno _ (hmove .closing)
    | close hpc =>
      have hbase := hi.base th hlive (by rw [hpc]; rfl)
      refine ⟨rfl, rfl, ?_, fun th' hth' hpc' => ?_, fun hno => ?_, fun _ _ _ => ?_⟩
      · exact hidle.symm ▸ down_zero
      · obtain rfl := Option.some.inj ((hmove .waitSwitcher).symm.trans hth')
        cases hpc'
      · cases hno _ (hmove .waitSwitcher)
      · have hstop := hbase.step (a := .stop) rfl
        rw [hi.succ] at hstop
        exact hstop

/-! ### Steps of the three threads -/

/-- One of the three threads. -/
def isThread : Pipeline.Act → Bool
  | .producer _ | .consumer _ | .switcher => true
  | _ => false

/-- The three threads never take the request to the switcher back, and its acknowledgement only goes up. -/
theorem thread_flags {b : Pipeline.Act} (hb : isThread b = true) (h : Pipeline.step p b = some p') :
    p'.collSwitcher = p.collSwitcher ∧
      (p'.collSwitcherSucc = p.collSwitcherSucc ∨ p'.collSwitcherSucc = true) := by
  cases b with
  | producer incoming => cases Pipeline.producerStep_inv h <;> exact ⟨rfl, .inl rfl⟩
  | consumer need => cases Pipeline.consumerStep_inv h <;> exact ⟨rfl, .inl rfl⟩
  | switcher => cases Pipeline.switcherStep_inv h <;> first | exact ⟨rfl, .inl rfl⟩ | exact ⟨rfl, .inr rfl⟩
  | stop | restart | resetTgfid => cases hb

/-- Threads that have ended do nothing. -/
theorem step_of_ended {b : Pipeline.Act} (hb : isThread b = true) (h : ended s.pipe = true) : pipeStep s b = none := by
  obtain ⟨hproducer, hconsumer, hswitcher⟩ := ended_iff.mp h
  cases b with
  | producer incoming => simp [pipeStep, Pipeline.step, Pipeline.producerStep, hproducer]
  | consumer need => simp [pipeStep, Pipeline.step, Pipeline.consumerStep, hconsumer]
  | switcher => simp [pipeStep, Pipeline.step, Pipeline.switcherStep, hswitcher]
  | stop | restart | resetTgfid => cases hb

theorem Linked.pipeStep (hi : Linked s) (hsole : Sole s.life) {b : Pipeline.Act} (hb : isThread b = true)
    (h : pipeStep s b = some t) : Linked t := by
  -- the step is one of a thread that exists
  have hex : ∃ th, s.life.live = some th ∧ hasThreads th.pc = true := by
    by_contra hno
    have hended := (hi.still fun th hth => by
      by_contra hpc
      exact hno ⟨th, hth, by simpa using hpc⟩).1
    cases (step_of_ended hb hended).symm.trans h
  obtain ⟨p', hp', rfl⟩ := Option.map_eq_some_iff.mp h
  obtain ⟨th, hlive, hpc⟩ := hex
  have hbase := (hi.base th hlive hpc).step hp'
  have hthread : ∀ th', s.life.live = some th' → th' = th := fun th' hth' => Option.some.inj (hth'.symm.trans hlive)
  refine ⟨(thread_flags hb hp').1.trans hi.stop, rfl, ?_, fun th' hth' hpc' => ?_, fun hno => ?_, fun _ _ _ => hbase⟩
  · exact (down_of_live s.cleared hsole hlive).symm ▸ down_zero
  · rw [hthread th' hth'] at hpc'
    cases (not_hasThreads hpc').symm.trans hpc
  · cases (hno th hlive).symm.trans hpc

/-! ### Runs -/

theorem Linked.step (hi : Linked s) (hsole : Sole s.life) (hs : step s a = some t) : Linked t := by
  cases a with
  | request r =>
    obtain ⟨life, hlife, rfl⟩ := Option.map_eq_some_iff.mp hs
    obtain ⟨-, hlife⟩ := Option.ite_none_right_eq_some.mp hlife
    cases hlife
    refine ⟨hi.stop, hi.succ, ?_, hi.fresh, hi.still, hi.base⟩
    cases r <;> exact down_zero
  | handler => exact hi.handlerStep hsole hs
  | initer k => exact hi.initerStep hsole hs
  | producer incoming | consumer need | switcher => exact hi.pipeStep hsole rfl hs
  | setAuthHint flag =>
    cases hs
    exact ⟨hi.stop, hi.succ, hi.clearing, hi.fresh, hi.still, hi.base⟩
  | resetTgfid =>
    cases hs
    obtain ⟨hstop, hsucc, ⟨h1, h2, h3, h4, h5, h6⟩, hfresh, hstill, hbase⟩ := hi
    refine ⟨hstop, hsucc, ⟨h1, h2, h3, h4, h5, h6⟩, fun th hth hpc => ?_, hstill, fun th hth hpc => ?_⟩
    · obtain ⟨h1, h2, h3, h4, h5, h6⟩ := hfresh th hth hpc
      exact ⟨h1, h2, h3, h4, h5, h6⟩
    · exact (hbase th hth hpc).step (a := .resetTgfid) rfl

/-- The handler and the `CollIniter` do what they do in `Lifecycle`, with a switcher that acknowledges. -/
theorem life_step (hi : Linked s) (hok : InTime s a) (hs : step s a = some t) :
    t.life = s.life ∨ ∃ b, Lifecycle.InTime s.life b ∧ Lifecycle.step s.life b = some t.life := by
  have hpipe : ∀ b, isThread b = true → pipeStep s b = some t →
      t.life = s.life ∨ ∃ b, Lifecycle.InTime s.life b ∧ Lifecycle.step s.life b = some t.life := by
    intro b hb h
    obtain ⟨p', hp', rfl⟩ := Option.map_eq_some_iff.mp h
    rcases (thread_flags hb hp').2 with hsame | hup
    · refine .inl ?_
      dsimp only
      rw [hsame, hi.succ]
    · refine .inr ⟨.switcherSucc, ⟨rfl, rfl⟩, ?_⟩
      dsimp only
      rw [hup]
      rfl
  cases a with
  | request r =>
    obtain ⟨life, hlife, rfl⟩ := Option.map_eq_some_iff.mp hs
    exact .inr ⟨.request r, hok, hlife⟩
  | handler =>
    obtain ⟨-, hs⟩ | ⟨-, hs⟩ := ite_eq_iff.mp hs
    · cases hs
      exact .inl rfl
    · obtain ⟨life, hlife, rfl⟩ := Option.map_eq_some_iff.mp hs
      exact .inr ⟨.handler, hok, hlife⟩
  | initer k =>
    obtain ⟨th, life, -, hlife, -, ⟨-, -, -, rfl⟩ | ⟨-, -, rfl⟩⟩ := initerStep_inv hs <;>
      exact .inr ⟨.initer k, hok, hlife⟩
  | producer incoming | consumer need | switcher => exact hpipe _ rfl hs
  | setAuthHint flag =>
    cases hs
    exact .inr ⟨.setAuthHint flag, ⟨rfl, rfl⟩, rfl⟩
  | resetTgfid =>
    cases hs
    exact .inl rfl

theorem linked_of_reachable (h : system.ReachableBy InTime s) :
    Lifecycle.system.ReachableBy Lifecycle.InTime s.life ∧ Linked s := by
  refine h.invariant (I := fun s => Lifecycle.system.ReachableBy Lifecycle.InTime s.life ∧ Linked s) ?_
    fun s a t ⟨hlife, hi⟩ hok hs => ?_
  · rintro s ⟨authHint, tgfid, rfl⟩
    exact ⟨.init ⟨authHint, rfl⟩, rfl, rfl, down_zero, fun th hth => (by cases hth), fun _ => ⟨rfl, rfl⟩,
      fun th hth => by cases hth⟩
  · have hsole := sole_of_reachable (hlife.mono fun _ _ hok => hok.startsInSight)
    refine ⟨?_, hi.step hsole hs⟩
    rcases life_step hi hok hs with hsame | ⟨b, hb, hstep⟩
    · exact hsame ▸ hlife
    · exact hlife.step hb hstep

/-! ### The stopped collector -/

/-- No `CollIniter` is left and none is on its way, and what the collector did is still what `p` says. -/
structure Off (p : Pipeline.State) (s : State) : Prop where
  finished : ∀ th ∈ s.life.threads, th.pc = .finished
  handler : s.life.handler ≠ .upLoad ∧ s.life.handler.starting = false
  ended : ended s.pipe = true
  log : s.pipe.log = p.log
  inflight : s.pipe.inflight = p.inflight
  mq : s.pipe.mq = p.mq

theorem Off.handlerStep (ho : Off p s) (h : handlerStep s = some t) : Off p t := by
  obtain ⟨hfin, ⟨hup, hstart⟩, hended, hlog, hinflight, hmq⟩ := ho
  obtain ⟨hclear, -⟩ | ⟨-, h⟩ := ite_eq_iff.mp h
  · rw [hclear.1] at hstart
    cases hstart
  · obtain ⟨life, hlife, rfl⟩ := Option.map_eq_some_iff.mp h
    refine ⟨?_, ?_, hended, hlog, hinflight, hmq⟩
    · cases Lifecycle.handlerStep_inv hlife with
      | spawn hpc =>
        rw [hpc] at hstart
        cases hstart
      | shutStore | ipcStore =>
        intro th hth
        obtain ⟨th₀, hth₀, rfl⟩ := List.mem_map.mp hth
        exact hfin th₀ hth₀
      | upDown | upUp | clearSwitcher | clearSwitcherSucc | clearIniter | clearIniterSucc | upReply | shutUp | shutDown
      | shutWait | shutReply | ipcUp | ipcDown | ipcAck | ipcWait | ipcReply | statusReply => exact hfin
    · cases Lifecycle.handlerStep_inv hlife with
      | upDown hpc => exact absurd hpc hup
      | clearSwitcher hpc | clearSwitcherSucc hpc | clearIniter hpc | clearIniterSucc hpc =>
        rw [hpc] at hstart
        cases hstart
      | spawn | shutStore | ipcStore | upUp | upReply | shutUp | shutDown | shutWait | shutReply | ipcUp | ipcDown
      | ipcAck | ipcWait | ipcReply | statusReply => exact ⟨nofun, rfl⟩

theorem Off.step (ho : Off p s) (ha : a ≠ .request .upColl) (hs : step s a = some t) : Off p t := by
  cases a with
  | request r =>
    obtain ⟨life, hlife, rfl⟩ := Option.map_eq_some_iff.mp hs
    obtain ⟨-, hlife⟩ := Option.ite_none_right_eq_some.mp hlife
    cases hlife
    refine ⟨ho.finished, ?_, ho.ended, ho.log, ho.inflight, ho.mq⟩
    cases r with
    | upColl => exact absurd rfl ha
    | shutdownColl | reportStatus | shutdownIpcSrv => exact ⟨nofun, rfl⟩
  | handler => exact ho.handlerStep hs
  | initer k =>
    obtain ⟨th, life, hth, -, hstep, -⟩ := initerStep_inv hs
    exact absurd (ho.finished th (List.mem_of_getElem? hth)) hstep.not_finished
  | producer incoming | consumer need | switcher => cases (step_of_ended rfl ho.ended).symm.trans hs
  | setAuthHint flag | resetTgfid =>
    cases hs
    exact ⟨ho.finished, ho.handler, ho.ended, ho.log, ho.inflight, ho.mq⟩

/-- When `ShutdownColl` has been answered, the three threads have ended, and until the next `UpColl` no
    message is taken in, looked at or forwarded. -/
theorem stopped_stays (h : system.ReachableBy InTime s) (hidle : s.life.handler = .idle)
    (hans : s.life.answered = some .shutdownColl) :
    ended s.pipe = true ∧
      ¬system.CanReach (· ≠ .request .upColl) (fun t => ended t.pipe = false ∨ t.pipe.log ≠ s.pipe.log ∨
        t.pipe.inflight ≠ s.pipe.inflight ∨ t.pipe.mq ≠ s.pipe.mq) s := by
  obtain ⟨hlife, hi⟩ := linked_of_reachable h
  have hplace := (truthful_of_reachable hlife).place
  rw [hidle] at hplace
  have hnone : s.life.live = none := by simpa [State.Says, State.AnswerTrue, hans] using hplace
  have hended := (hi.still fun th hth => by cases hnone.symm.trans hth).1
  refine ⟨hended, Transition.System.not_canReach_of_invariant (I := Off s.pipe) ?_
    (fun _ _ _ ho ha hs => ho.step ha hs) fun t ho => ?_⟩
  · exact ⟨live_eq_none.mp hnone, by rw [hidle]; exact ⟨by decide, rfl⟩, hended, rfl, rfl, rfl⟩
  · simp [ho.ended, ho.log, ho.inflight, ho.mq]

/-- When a `CollIniter` is about to start the three threads, those of the last start have ended, nobody
    holds the lock of the queue and the six flags are down; so it starts them. -/
theorem starts_alone (h : system.ReachableBy InTime s) (hth : s.life.threads[k]? = some th) (hpc : th.pc = .recheck)
    (hhint : s.life.authHint = true) :
    ended s.pipe = true ∧ s.pipe.mqLock = none ∧ Down 6 s.pipe ∧
      ∃ life, step s (.initer k) = some { s with life, pipe := launch s.pipe } := by
  obtain ⟨hlife, hi⟩ := linked_of_reachable h
  have hsole := sole_of_reachable (hlife.mono fun _ _ hok => hok.startsInSight)
  have hlive := hsole.alone.live_eq hth (by rw [hpc]; decide)
  obtain ⟨hended, hlock⟩ := hi.still fun th' hth' => by
    obtain rfl := Option.some.inj (hlive.symm.trans hth')
    rw [hpc]
    rfl
  refine ⟨hended, hlock, hi.fresh th hlive (by rw [hpc]; rfl), s.life.move k th .running, ?_⟩
  simp [step, initerStep, Lifecycle.initerStep, hth, hpc, hhint, hended]

end

/-! ### A run -/

/-- `UpColl` up to its answer, and the `CollIniter` number `k` up to the second look at the login. -/
def upColl (k : Nat) : List Act := [.request .upColl] ++ List.replicate 11 .handler ++ List.replicate 2 (.initer k)

/-- The three threads are started, a message arrives, and the collector is stopped. -/
def oneMessage (msg : TgMsg) : List Act :=
  [.initer 0, .producer .nothing, .producer .nothing, .producer (.message msg), .producer .nothing,
    .producer .nothing, .producer .nothing, .request .shutdownColl, .handler, .handler, .initer 0, .initer 0,
    .switcher, .switcher, .producer .nothing, .producer .nothing, .switcher, .switcher, .switcher, .consumer false,
    .consumer false, .switcher, .switcher, .initer 0, .initer 0, .initer 0, .initer 0, .handler, .handler]

/-- The message that arrived last stays in the queue. -/
theorem stopped_stays_run :
    ∃ s : State, s.pipe.mq.length = 1 ∧ ended s.pipe = true ∧
      ¬system.CanReach (· ≠ .request .upColl) (fun t => ended t.pipe = false ∨ t.pipe.log ≠ s.pipe.log ∨
        t.pipe.inflight ≠ s.pipe.inflight ∨ t.pipe.mq ≠ s.pipe.mq) s :=
  have h : system.ReachableBy InTime _ := .runBy (.init ⟨true, 7, rfl⟩) (upColl 0 ++ oneMessage Pipeline.someMsg) rfl
  ⟨_, rfl, stopped_stays h rfl rfl⟩

theorem starts_alone_second :
    ∃ s : State, ended s.pipe = true ∧ s.pipe.mqLock = none ∧ Down 6 s.pipe ∧
      ∃ life, step s (.initer 1) = some { s with life, pipe := launch s.pipe } :=
  have h : system.ReachableBy InTime _ :=
    .runBy (.init ⟨true, 7, rfl⟩) (upColl 0 ++ oneMessage Pipeline.someMsg ++ upColl 1) rfl
  ⟨_, starts_alone h (show _ = some (⟨.recheck, false⟩ : Thread) from rfl) rfl rfl⟩

end TgFocus.Collector
