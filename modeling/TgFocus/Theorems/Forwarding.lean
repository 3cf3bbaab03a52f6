import TgFocus.Worker.Forwarding
import TgFocus.Theorems.PipelineInv
import Mathlib.Data.List.Perm.Subperm

/-! What is forwarded, over any number of starts and stops of the collector: a message that arrived, at most
    once, unchanged but for its number, and only when the filters that were read for it let it pass. The counter
    of forwarded messages stays behind the counter of received ones. -/

namespace TgFocus.Pipeline
open Transition

/-! ### At most once -/

/-- The messages that are counted: the last one is not until the producer releases the lock. -/
def State.counted (s : State) : Nat := if s.producer = .unlocking then s.inserted - 1 else s.inserted

/-- The consumer has the message at `i` of the queue before it, or is not in a batch. -/
def ConsumerPc.ahead (i : Nat) : ConsumerPc → Bool
  | .batch it | .examine it | .collecting it => it ≤ i
  | .clearing => false
  | _ => true

structure Once (s : State) : Prop where
  numbered : ∀ q ∈ s.mq, q.uid < s.inserted
  distinct : (s.mq.map (·.uid)).Nodup
  nodup : s.collected.Nodup
  below : ∀ uid ∈ s.collected, uid < s.counted
  ahead : ∀ i q, s.mq[i]? = some q → s.consumer.ahead i = true → q.uid ∉ s.collected
  positive : s.producer = .unlocking → 0 < s.inserted

section
variable {s t : State} {a : Act} {need : Bool}

theorem counted_of_ne (h : s.producer ≠ .unlocking) : s.counted = s.inserted := if_neg h

theorem counted_le : s.counted ≤ s.inserted := by
  unfold State.counted
  split <;> omega

theorem ahead_of_not_locked {pc : ConsumerPc} {i : Nat} (h : pc.locked = false) : pc.ahead i = true := by
  cases pc <;> first | rfl | cases h

theorem Once.same (ho : Once s) (hcoll : t.collected = s.collected) (hmq : t.mq = s.mq)
    (hins : t.inserted = s.inserted) (hcnt : s.counted ≤ t.counted) (hpos : t.producer = .unlocking → 0 < t.inserted)
    (hahead : ∀ i < s.mq.length, t.consumer.ahead i = true → s.consumer.ahead i = true) : Once t := by
  refine ⟨?_, ?_, ?_, ?_, ?_, hpos⟩ <;> simp only [hcoll, hmq, hins]
  · exact ho.numbered
  · exact ho.distinct
  · exact ho.nodup
  · exact fun uid hu => Nat.lt_of_lt_of_le (ho.below uid hu) hcnt
  · exact fun i q hq h => ho.ahead i q hq (hahead i (List.getElem?_eq_some_iff.mp hq).1 h)

theorem Once.producerStep (ho : Once s) (hl : Locks s) (h : ProducerStep s t) : Once t := by
  cases h with
  | insert msg hpc =>
    have hout : s.consumer.locked = false := hl.consumer_out (by rw [hpc]; rfl)
    have hcnt : s.counted = s.inserted := counted_of_ne (by simp [hpc])
    refine ⟨?_, ?_, ho.nodup, ?_, ?_, fun _ => Nat.succ_pos _⟩
    · intro q hq
      rcases List.mem_cons.mp hq with rfl | hq
      · exact Nat.lt_succ_self _
      · exact Nat.lt_succ_of_lt (ho.numbered q hq)
    · rw [List.map_cons, List.nodup_cons]
      refine ⟨fun hmem => ?_, ho.distinct⟩
      obtain ⟨q, hq, huid⟩ := List.mem_map.mp hmem
      exact absurd huid (Nat.ne_of_lt (ho.numbered q hq))
    · intro uid hu
      have hlt := ho.below uid hu
      rw [hcnt] at hlt
      simpa [State.counted] using hlt
    · -- what arrives now has a number that nobody had
      intro i q hq _
      rcases List.mem_cons.mp (List.mem_of_getElem? hq) with rfl | hmem
      · exact fun hu => Nat.lt_irrefl _ (hcnt ▸ ho.below _ hu)
      · obtain ⟨j, hj⟩ := List.mem_iff_getElem?.mp hmem
        exact ho.ahead j q hj (ahead_of_not_locked hout)
  | unlock hpc =>
    exact ho.same rfl rfl rfl (by simp [State.counted, hpc]) nofun fun _ _ => id
  | leave hpc | goOn hpc | fetch hpc | nothing hpc | message _ hpc | command _ hpc | authReady hpc | created _ hpc
  | answered _ hpc | lost _ _ hpc | lock _ hpc | forget hpc | ack hpc =>
    exact ho.same rfl rfl rfl (by simp [State.counted, hpc]) nofun fun _ _ => id

/-- A message that the consumer passes is not collected again. -/
theorem Once.collect (ho : Once s) (hl : Locks s) {it : Nat} {curr : Queued} (hpc : s.consumer = .collecting it)
    (hcurr : s.mq[it]? = some curr) (hlog : t.log = s.log ++ [.collected curr.uid]) (hmq : t.mq = s.mq)
    (hins : t.inserted = s.inserted) (hprod : t.producer = s.producer) (hpc' : t.consumer = .batch (it + 1)) :
    Once t := by
  have hcoll : t.collected = s.collected ++ [curr.uid] := collected_append hlog
  have hcounted : t.counted = s.inserted := by
    have hlock : s.mqLock = some .consumer := hl.consumer.mp (by rw [hpc]; rfl)
    have hout := hl.producer_of_ne (by simp [hlock])
    rw [State.counted, hprod, hins, if_neg]
    intro hun
    rw [hun] at hout
    cases hout
  have hnew : curr.uid ∉ s.collected := ho.ahead it curr hcurr (by simp [hpc, ConsumerPc.ahead])
  refine ⟨?_, ?_, ?_, ?_, ?_, ?_⟩ <;> simp only [hcoll, hmq, hins, hprod, hcounted]
  · exact ho.numbered
  · exact ho.distinct
  · exact List.nodup_append.mpr ⟨ho.nodup, List.pairwise_singleton _ _, fun uid hu uid' hu' => by
      rw [List.mem_singleton.mp hu']
      exact fun heq => hnew (heq ▸ hu)⟩
  · intro uid hu
    rcases List.mem_append.mp hu with hu | hu
    · exact Nat.lt_of_lt_of_le (ho.below uid hu) counted_le
    · rw [List.mem_singleton.mp hu]
      exact ho.numbered curr (List.mem_of_getElem? hcurr)
  · intro i q hq hahead
    rw [hpc'] at hahead
    have hlt : it + 1 ≤ i := by simpa [ConsumerPc.ahead] using hahead
    have hne : q.uid ≠ curr.uid := by
      intro huid
      have hi : i < (s.mq.map (·.uid)).length := by simpa using (List.getElem?_eq_some_iff.mp hq).1
      refine Nat.ne_of_gt hlt ((List.getElem?_inj hi ho.distinct).mp ?_)
      rw [List.getElem?_map, List.getElem?_map, hq, hcurr, Option.map_some, Option.map_some, huid]
    simp only [List.mem_append, List.mem_singleton, not_or]
    refine ⟨ho.ahead i q hq ?_, hne⟩
    simp only [hpc, ConsumerPc.ahead, decide_eq_true_eq]
    omega
  · exact ho.positive

theorem Once.consumerStep (ho : Once s) (hl : Locks s) (h : ConsumerStep s t) : Once t := by
  cases h with
  | collect it curr hpc hcurr => exact ho.collect hl hpc hcurr rfl rfl rfl rfl rfl
  | recognise it curr hpc | noNeed it curr hpc | need it curr hpc =>
    refine ho.same (collected_append rfl |>.trans (List.append_nil _)) rfl rfl (Nat.le_refl _) ho.positive
      fun i _ h => ?_
    simp only [hpc, ConsumerPc.ahead, decide_eq_true_eq] at h ⊢
    omega
  | clear hpc => exact ⟨nofun, List.nodup_nil, ho.nodup, ho.below, by simp, ho.positive⟩
  | batchEnd hpc | breakOff it hpc => exact ho.same rfl rfl rfl (Nat.le_refl _) ho.positive nofun
  | next it hpc =>
    refine ho.same rfl rfl rfl (Nat.le_refl _) ho.positive fun i _ h => ?_
    rw [hpc]
    exact h
  | leave hpc | goOn hpc | wake hpc | readTgfid hpc | toCreate hpc | toLock _ hpc | tryCreate hpc | noCreate hpc
  | sendCreate hpc | lock hpc | toBatch hpc | noBatch hpc | unlock hpc | store hpc | ack hpc =>
    exact ho.same rfl rfl rfl (Nat.le_refl _) ho.positive fun i _ _ => by rw [hpc]; rfl

theorem Once.step (ho : Once s) (hb : Base s) (hs : step s a = some t) : Once t := by
  cases a with
  | producer incoming => exact ho.producerStep hb.locks (producerStep_inv hs)
  | consumer need => exact ho.consumerStep hb.locks (consumerStep_inv hs)
  | switcher =>
    cases switcherStep_inv hs <;> exact ho.same rfl rfl rfl (Nat.le_refl _) ho.positive fun _ _ => id
  | stop | resetTgfid =>
    cases hs
    exact ho.same rfl rfl rfl (Nat.le_refl _) ho.positive fun _ _ => id
  | restart =>
    obtain ⟨⟨hdone, hcdone, -⟩, hs⟩ := Option.ite_none_right_eq_some.mp hs
    cases hs
    exact ho.same rfl rfl rfl (by simp [State.counted, restart, hdone]) nofun fun i _ _ => by rw [hcdone]; rfl

theorem once_of_reachable (h : system.Reachable s) : Once s := by
  refine h.invariant_of (fun _ => base_of_reachable) ?_ fun s a t hb ho _ hs => ho.step hb hs
  rintro s ⟨tgfid, rfl⟩
  constructor <;> simp [start, State.collected]

/-- As many messages are counted as are forwarded, or more. -/
theorem Once.length_le (ho : Once s) : s.collected.length ≤ s.counted := by
  have hsub : s.collected ⊆ List.range s.counted := fun uid hu => List.mem_range.mpr (ho.below uid hu)
  simpa using (List.subperm_of_subset ho.nodup hsub).length_le

end

/-! ### What was sent -/

/-- The messages that TDLib has not answered. -/
def sends (queries : List Query) : Nat := queries.countP fun q => q ≠ .create

/-- The message arrived, is not the program's own, passed the filters, and is sent as it is. -/
def Forwarded.Right (host : Host) (arrived : List TgMsg) (e : Forwarded) : Prop :=
  ∃ msg, arrived[e.uid]? = some msg ∧ msg.isFromTgfocus = false ∧ needCollect host e.tomlstr msg = true ∧
    e.msg = { msg with id := e.msg.id }

structure Accounted (host : Host) (s : State) (h : History) : Prop where
  arrived : h.arrived.length = s.inserted
  queued : ∀ q ∈ s.mq, h.arrived[q.uid]? = some q.msg
  passed : ∀ it curr, s.consumer = .collecting it → s.mq[it]? = some curr →
    curr.msg.isFromTgfocus = false ∧ needCollect host h.read curr.msg = true
  sent : ∀ e ∈ h.sent, e.Right host h.arrived
  uids : h.sent.map (·.uid) = s.collected
  total : h.itMsgTotal = UInt32.ofNat s.counted
  coll : ∃ n, h.itMsgColl = UInt32.ofNat n ∧ n + sends s.inflight ≤ h.sent.length

section
variable {host : Host} {s t : State} {a : Act} {h h' : History} {tomlstr : Bytes} {need : Bool}

theorem sends_erase_le {q : Query} {l : List Query} : sends (l.erase q) ≤ sends l :=
  (List.erase_sublist).countP_le

theorem sends_erase {chat : Int} {msg : TgMsg} {l : List Query} (hq : .send chat msg ∈ l) :
    sends (l.erase (.send chat msg)) + 1 = sends l := by
  have hperm := (List.perm_cons_erase hq).countP_eq (fun q => decide (q ≠ Query.create))
  rw [sends, sends, hperm, List.countP_cons_of_pos (by simp)]

/-- Steps that neither take nor add anything but perhaps a request. -/
theorem Accounted.same (hi : Accounted host s h) (hins : t.inserted = s.inserted) (hmq : t.mq = s.mq)
    (hpc : ∀ it, t.consumer = .collecting it → s.consumer = .collecting it) (hcoll : t.collected = s.collected)
    (hcnt : t.counted = s.counted) (hsends : sends t.inflight ≤ sends s.inflight) : Accounted host t h := by
  refine ⟨by rw [hins, hi.arrived], by rw [hmq]; exact hi.queued, ?_, hi.sent, by rw [hcoll, hi.uids],
    by rw [hcnt, hi.total], ?_⟩
  · rw [hmq]
    exact fun it curr ht => hi.passed it curr (hpc it ht)
  · obtain ⟨n, hn, hle⟩ := hi.coll
    exact ⟨n, hn, by omega⟩

/-- An answer takes its request; a message that is confirmed is counted. -/
theorem Accounted.answer (hi : Accounted host s h) (hpc : s.producer = .fetching) {q : Query} {r : Answer}
    (hs : receive s (.answer q r) = some t) (hn : note host s (.producer (.answer q r)) tomlstr h = some h') :
    Accounted host t h' := by
  obtain ⟨hq, hs⟩ := Option.ite_none_right_eq_some.mp hs
  have hcnt : ∀ u : State, u.inserted = s.inserted → u.producer ≠ .unlocking → u.counted = s.counted := by
    intro u hins hne
    rw [counted_of_ne hne, counted_of_ne (by simp [hpc]), hins]
  cases q with
  | create =>
    cases r <;> simp only [note, hpc] at hn <;> cases hn <;> cases hs <;>
      exact hi.same rfl rfl (fun _ => id) rfl (hcnt _ rfl nofun) sends_erase_le
  | send chat msg =>
    cases r with
    | error lost =>
      simp only [note, hpc] at hn
      cases hn
      cases lost <;> cases hs <;> exact hi.same rfl rfl (fun _ => id) rfl (hcnt _ rfl nofun) sends_erase_le
    | ok chat' =>
      simp only [note, hpc] at hn
      simp only [callback] at hs
      cases hn
      cases hs
      obtain ⟨n, hn, hle⟩ := hi.coll
      refine ⟨hi.arrived, hi.queued, hi.passed, hi.sent, hi.uids, ?_, n + 1, ?_, ?_⟩
      · rw [hcnt { s with inflight := s.inflight.erase (.send chat msg), producer := .loopTest } rfl nofun]
        exact hi.total
      · rw [hn, UInt32.ofNat_add]
        rfl
      · have herase := sends_erase hq
        dsimp only
        omega

theorem Accounted.producerStep (hi : Accounted host s h) (hl : Locks s) (ho : Once s) {incoming : Incoming}
    (hs : producerStep s incoming = some t) (hn : note host s (.producer incoming) tomlstr h = some h') :
    Accounted host t h' := by
  cases hpc : s.producer <;> simp only [Pipeline.producerStep, hpc] at hs
  case done => cases hs
  case fetching =>
    cases incoming with
    | answer q r => exact hi.answer hpc hs hn
    | nothing | message | command | authReady =>
      simp only [note, hpc] at hn
      cases hn
      cases hs
      exact hi.same rfl rfl (fun _ => id) rfl (by simp [State.counted, hpc]) (Nat.le_refl _)
  case inserting msg =>
    simp only [note, hpc] at hn
    cases hn
    cases hs
    have hout : s.consumer.locked = false := hl.consumer_out (by rw [hpc]; rfl)
    have hold : ∀ {uid : Nat} {m : TgMsg}, h.arrived[uid]? = some m → (h.arrived ++ [msg])[uid]? = some m := by
      intro uid m hm
      rw [List.getElem?_append_left (List.getElem?_eq_some_iff.mp hm).1, hm]
    refine ⟨by simp [hi.arrived], ?_, ?_, ?_, hi.uids, ?_, hi.coll⟩
    · intro q hq
      rcases List.mem_cons.mp hq with rfl | hq
      · simp [← hi.arrived]
      · exact hold (hi.queued q hq)
    · intro it curr hc
      rw [show s.consumer = _ from hc] at hout
      cases hout
    · rintro e he
      obtain ⟨m, hm, hrest⟩ := hi.sent e he
      exact ⟨m, hold hm, hrest⟩
    · rw [hi.total, counted_of_ne (by simp [hpc])]
      rfl
  case unlocking =>
    simp only [note, hpc] at hn
    cases hn
    cases hs
    refine ⟨hi.arrived, hi.queued, hi.passed, hi.sent, hi.uids, ?_, hi.coll⟩
    have hpos := ho.positive hpc
    have hcnt : s.counted + 1 = s.inserted := by
      rw [State.counted, if_pos hpc]
      omega
    rw [counted_of_ne (s := { s with mqLock := none, producer := .loopTest }) nofun, hi.total,
      show (s.inserted : Nat) = s.counted + 1 from hcnt.symm, UInt32.ofNat_add]
    rfl
  case loopTest | waiting | locking =>
    simp only [note, hpc] at hn
    cases hn
    split at hs <;> cases hs <;>
      exact hi.same rfl rfl (fun _ => id) rfl (by simp [State.counted, hpc]) (Nat.le_refl _)
  case forgetting | exiting =>
    simp only [note, hpc] at hn
    cases hn
    cases hs
    exact hi.same rfl rfl (fun _ => id) rfl (by simp [State.counted, hpc]) (Nat.le_refl _)

theorem Accounted.consumerStep (hi : Accounted host s h) (hs : consumerStep s need = some t)
    (hn : note host s (.consumer need) tomlstr h = some h') : Accounted host t h' := by
  cases hpc : s.consumer <;> simp only [Pipeline.consumerStep, hpc, Option.bind_eq_bind, Option.bind_eq_some_iff] at hs
  case done => cases hs
  case examine it =>
    obtain ⟨curr, hcurr, hs⟩ := hs
    simp only [note, hpc, hcurr, Option.bind_eq_bind, Option.bind_some] at hn
    have hcoll : ∀ {u : State} {e : Event}, u.log = s.log ++ [e] → e.collected? = none → u.collected = s.collected := by
      intro u e hlog he
      rw [collected_append hlog, he]
      exact List.append_nil _
    by_cases hown : curr.msg.isFromTgfocus = true
    · rw [if_pos hown] at hs hn
      cases hs
      cases hn
      exact hi.same rfl rfl nofun (hcoll rfl rfl) rfl (Nat.le_refl _)
    · rw [if_neg hown] at hs hn
      obtain ⟨hneed, hn⟩ := Option.ite_none_right_eq_some.mp hn
      cases hn
      have hthen : ∀ {u : State}, u.mq = s.mq → u.inserted = s.inserted → u.counted = s.counted →
          u.inflight = s.inflight → u.collected = s.collected →
          (∀ it', u.consumer = .collecting it' → it' = it ∧ need = true) →
          Accounted host u { h with read := tomlstr } := by
        intro u hmq hins hcnt hinf hcoll hpc'
        refine ⟨by rw [hins, ← hi.arrived], by rw [hmq]; exact hi.queued, ?_, hi.sent, by rw [hcoll, ← hi.uids],
          by rw [hcnt, ← hi.total], by rw [hinf]; exact hi.coll⟩
        intro it' curr' hc hcurr'
        obtain ⟨rfl, hyes⟩ := hpc' it' hc
        rw [hmq, hcurr] at hcurr'
        obtain rfl := Option.some.inj hcurr'
        exact ⟨by simpa using hown, by rw [← hneed, hyes]⟩
      split at hs <;> cases hs <;> rename_i hyes
      · refine hthen rfl rfl rfl rfl (hcoll rfl rfl) fun it' hc => ⟨?_, hyes⟩
        exact (ConsumerPc.collecting.inj hc).symm
      · exact hthen rfl rfl rfl rfl (hcoll rfl rfl) nofun
  case collecting it =>
    obtain ⟨curr, hcurr, hs⟩ := hs
    simp only [note, hpc, hcurr, Option.bind_eq_bind, Option.bind_some] at hn
    cases hn
    cases hs
    obtain ⟨hown, hneed⟩ := hi.passed it curr hpc hcurr
    refine ⟨hi.arrived, hi.queued, nofun, ?_, ?_, hi.total, ?_⟩
    · intro e he
      rcases List.mem_append.mp he with he | he
      · exact hi.sent e he
      · obtain rfl := List.mem_singleton.mp he
        exact ⟨curr.msg, hi.queued curr (List.mem_of_getElem? hcurr), hown, hneed, rfl⟩
    · rw [collected_append (s := s) (e := .collected curr.uid) rfl, List.map_append, hi.uids]
      rfl
    · obtain ⟨n, hn, hle⟩ := hi.coll
      refine ⟨n, hn, ?_⟩
      simp only [sends, List.countP_append, List.length_append, List.length_singleton] at hle ⊢
      rw [List.countP_singleton, if_pos (by simp)]
      omega
  case creatingSend =>
    simp only [note, hpc] at hn
    cases hn
    cases hs
    refine hi.same rfl rfl nofun rfl rfl ?_
    simp [sends, List.countP_append]
  case clearing =>
    simp only [note, hpc] at hn
    cases hn
    cases hs
    exact ⟨hi.arrived, nofun, nofun, hi.sent, hi.uids, hi.total, hi.coll⟩
  case readTgfid | unlocking | storing | exiting =>
    simp only [note, hpc] at hn
    cases hn
    cases hs
    exact hi.same rfl rfl nofun rfl rfl (Nat.le_refl _)
  case loopTest | waiting | readTried isValid | creating | locking | sizeTest =>
    simp only [note, hpc] at hn
    cases hn
    split at hs <;> cases hs <;> exact hi.same rfl rfl nofun rfl rfl (Nat.le_refl _)
  case batch it =>
    simp only [note, hpc] at hn
    cases hn
    split at hs
    · cases hs
      exact hi.same rfl rfl nofun rfl rfl (Nat.le_refl _)
    · split at hs <;> cases hs <;> exact hi.same rfl rfl nofun rfl rfl (Nat.le_refl _)

theorem Accounted.step (hi : Accounted host s h) (hb : Base s) (ho : Once s) (hs : step s a = some t)
    (hn : note host s a tomlstr h = some h') : Accounted host t h' := by
  cases a with
  | producer incoming => exact hi.producerStep hb.locks ho hs hn
  | consumer need => exact hi.consumerStep hs hn
  | switcher =>
    cases hn
    cases switcherStep_inv hs <;> exact hi.same rfl rfl (fun _ => id) rfl rfl (Nat.le_refl _)
  | stop | resetTgfid =>
    cases hn
    cases hs
    exact hi.same rfl rfl (fun _ => id) rfl rfl (Nat.le_refl _)
  | restart =>
    cases hn
    obtain ⟨⟨hdone, -, -⟩, hs⟩ := Option.ite_none_right_eq_some.mp hs
    cases hs
    exact hi.same rfl rfl nofun rfl (by simp [State.counted, restart, hdone]) (Nat.zero_le _)

theorem accounted_of_reachable {p : State × History} (hr : (forwarding host).Reachable p) :
    system.Reachable p.1 ∧ Accounted host p.1 p.2 := by
  refine hr.invariant (I := fun p => system.Reachable p.1 ∧ Accounted host p.1 p.2) ?_ ?_
  · rintro ⟨s, h⟩ ⟨⟨tgfid, rfl⟩, rfl⟩
    exact ⟨.init ⟨tgfid, rfl⟩, rfl, nofun, nofun, nofun, rfl, rfl, 0, rfl, Nat.le_refl _⟩
  · rintro p b q ⟨hr, hi⟩ - hs
    obtain ⟨hs, hn⟩ := System.recorded_step_eq_some.mp hs
    exact ⟨hr.step hs, hi.step (base_of_reachable hr) (once_of_reachable hr) hs hn⟩

/-- Over any number of starts and stops no message is forwarded twice; what is forwarded arrived as it is, is not
    the program's own and passed the filters in the text that was read for it; and the counter of forwarded
    messages is not ahead of the counter of received ones. -/
theorem forwarded_once {p : State × History} (hr : (forwarding host).Reachable p) :
    (p.2.sent.map (·.uid)).Nodup ∧ (∀ e ∈ p.2.sent, e.Right host p.2.arrived) ∧
      (p.1.inserted < 0x100000000 → p.2.itMsgColl ≤ p.2.itMsgTotal) := by
  obtain ⟨hreach, hi⟩ := accounted_of_reachable hr
  have honce := once_of_reachable hreach
  refine ⟨by rw [hi.uids]; exact honce.nodup, hi.sent, fun hlt => ?_⟩
  obtain ⟨n, hn, hle⟩ := hi.coll
  have hlen : p.2.sent.length ≤ p.1.counted := by
    rw [← List.length_map (f := (·.uid)), hi.uids]
    exact honce.length_le
  have hcnt : p.1.counted ≤ p.1.inserted := counted_le
  rw [hn, hi.total, UInt32.le_iff_toNat_le, UInt32.toNat_ofNat', UInt32.toNat_ofNat']
  rw [Nat.mod_eq_of_lt (by omega), Nat.mod_eq_of_lt (by omega)]
  omega

/-- Two messages arrive and are forwarded one after the other, the second one behind a pattern for its
    text; the first one is confirmed. -/
theorem forwarded_once_run :
    ∃ p : State × History, p.1.collected = [0, 1] ∧ p.2.itMsgColl = 1 ∧ p.2.itMsgTotal = 2 ∧
      (p.2.sent.map (·.uid)).Nodup ∧ p.2.itMsgColl ≤ p.2.itMsgTotal := by
  have hr : (forwarding Host.literal).Reachable _ := .run (.init (s := (Pipeline.start 1, .start)) ⟨⟨1, rfl⟩, rfl⟩)
    ((fetchOne someMsg ++ raiseFlag ++ beginBatch ++ collectOne).map (·, str "-") ++
      [.producer .nothing, .producer .nothing, .producer (.answer (.send 1 { someMsg with id := 1 }) (.ok 1))].map
        (·, str "-") ++
      (fetchOne someMsg ++ raiseFlag ++ beginBatch ++ collectOne).map
        (·, str "[[focus-filter]]\nkeywords = [\"text\"]\n")) rfl
  exact ⟨_, rfl, rfl, rfl, (forwarded_once hr).1, (forwarded_once hr).2.2 (by decide)⟩

end

end TgFocus.Pipeline
