import Mathlib.Algebra.Group.Nat.Defs
import TgFocus.TdQueries

/-! Every answer runs the callback of its query, and no other: the ids of the queries are `1`, `2`, ..,
    `n` in the order in which they were sent, as long as the counter of 64 bits does not come back to
    `0`. -/

namespace TgFocus.TdQueries
open Transition

variable {F : Type}

/-- The query `id` was sent with the callback `f`. -/
def Registered (s : State F) (id : UInt64) (f : F) : Prop := ∃ q ∈ s.sent, q.id = id ∧ q.callback = some f

def Answered (s : State F) (id : UInt64) : Prop := ∃ a ∈ s.answered, a.id = id

/-- What the answers did so far, and what `__cb` holds. -/
structure RightAnswers (s : State F) : Prop where
  ids_nodup : (s.sent.map Query.id).Nodup
  id_ne_zero : ∀ q ∈ s.sent, q.id ≠ 0
  ran_iff : ∀ a f, (a, f) ∈ s.ran ↔ a ∈ s.answered ∧ Registered s a.id f
  ran_once : (s.ran.map fun r => r.1.id).Nodup
  ran_client : ∀ a f, (a, f) ∈ s.ran → ∃ q ∈ s.sent, q.id = a.id ∧ q.callback = some f ∧ q.client = a.client
  cb_iff : ∀ id f, s.cb.lookup id = some f ↔ Registered s id f ∧ ¬Answered s id

/-- The ids, the requests that are open with the client, and the entries of `__cb`. -/
structure Inv (s : State F) : Prop where
  counter : s.currQryId.toNat = s.sent.length
  ids : s.sent.map (fun q => q.id.toNat) = List.range' 1 s.sent.length
  given_nodup : s.given.Nodup
  given : ∀ id ∈ s.given, ¬Answered s id ∧ ∃ q ∈ s.sent, q.id = id ∧ q.client = s.clients
  answered_nodup : (s.answered.map Answer.id).Nodup
  answered : ∀ a ∈ s.answered, ∃ q ∈ s.sent, q.id = a.id ∧ q.client = a.client
  ran_iff : ∀ a f, (a, f) ∈ s.ran ↔ a ∈ s.answered ∧ Registered s a.id f
  ran : (s.ran.map Prod.fst).Sublist s.answered
  cb_iff : ∀ id f, s.cb.lookup id = some f ↔ Registered s id f ∧ ¬Answered s id

section
variable {s t : State F}

theorem Inv.start : Inv (start F) where
  counter := rfl
  ids := rfl
  given_nodup := List.nodup_nil
  given := by simp [TdQueries.start]
  answered_nodup := List.nodup_nil
  answered := by simp [TdQueries.start]
  ran_iff := by simp [TdQueries.start]
  ran := List.Sublist.refl _
  cb_iff := by simp [TdQueries.start, Registered]

theorem lookup_emplace {cb : AList fun _ : UInt64 => F} {id : UInt64} (hid : cb.lookup id = none) (f : F)
    (id' : UInt64) : (emplace cb id f).lookup id' = if id' = id then some f else cb.lookup id' := by
  rw [emplace, if_neg (AList.lookup_eq_none.mp hid)]
  split
  · next heq => rw [heq, AList.lookup_insert]
  · next hne => exact AList.lookup_insert_ne hne

/-- The ids that were used are those up to the counter. -/
theorem Inv.id_le (hi : Inv s) {q : Query F} (hq : q ∈ s.sent) : 1 ≤ q.id.toNat ∧ q.id.toNat ≤ s.currQryId.toNat := by
  have hmem := List.mem_map_of_mem (f := fun q : Query F => q.id.toNat) hq
  rw [hi.ids, List.mem_range'_1] at hmem
  have hcounter := hi.counter
  omega

theorem toNat_next (h : s.currQryId.toNat + 1 < 2 ^ 64) : (s.currQryId + 1).toNat = s.currQryId.toNat + 1 := by
  rw [UInt64.toNat_add]
  exact Nat.mod_eq_of_lt h

theorem Inv.next_unused (hi : Inv s) (h : s.sent.length + 1 < 2 ^ 64) {q : Query F} (hq : q ∈ s.sent) :
    q.id ≠ s.currQryId + 1 := by
  intro heq
  have hle := (hi.id_le hq).2
  have hnext := toNat_next (hi.counter ▸ h)
  rw [heq, hnext] at hle
  omega

theorem Inv.not_answered_next (hi : Inv s) (h : s.sent.length + 1 < 2 ^ 64) : ¬Answered s (s.currQryId + 1) := by
  rintro ⟨a, ha, hid⟩
  obtain ⟨q, hq, hqid, -⟩ := hi.answered a ha
  exact hi.next_unused h hq (hqid.trans hid)

theorem Inv.not_registered_next (hi : Inv s) (h : s.sent.length + 1 < 2 ^ 64) (f : F) :
    ¬Registered s (s.currQryId + 1) f := by
  rintro ⟨q, hq, hid, -⟩
  exact hi.next_unused h hq hid

/-! ### Sending -/

theorem registered_sendQuery {cbfn : Option F} {id : UInt64} {f : F} :
    Registered (s.sendQuery cbfn) id f ↔ Registered s id f ∨ (s.currQryId + 1 = id ∧ cbfn = some f) := by
  simp only [Registered, State.sendQuery, State.nextQueryId, List.mem_append, List.mem_singleton]
  constructor
  · rintro ⟨q, hq | rfl, hid, hf⟩
    · exact Or.inl ⟨q, hq, hid, hf⟩
    · exact Or.inr ⟨hid, hf⟩
  · rintro (⟨q, hq, hid, hf⟩ | ⟨hid, hf⟩)
    · exact ⟨q, Or.inl hq, hid, hf⟩
    · exact ⟨_, Or.inr rfl, hid, hf⟩

theorem Inv.lookup_sendQuery (hi : Inv s) (h : s.sent.length + 1 < 2 ^ 64) (cbfn : Option F) (id : UInt64) :
    (s.sendQuery cbfn).cb.lookup id = if id = s.currQryId + 1 then cbfn else s.cb.lookup id := by
  have hnone : s.cb.lookup (s.currQryId + 1) = none := by
    refine Option.eq_none_iff_forall_not_mem.mpr fun f hf => ?_
    exact hi.not_registered_next h f ((hi.cb_iff _ _).mp hf).1
  cases cbfn with
  | none =>
    split
    · next heq => exact heq ▸ hnone
    · rfl
  | some f => exact lookup_emplace hnone f id

theorem Inv.sendQuery (hi : Inv s) (cbfn : Option F) (h : (s.sendQuery cbfn).sent.length < 2 ^ 64) :
    Inv (s.sendQuery cbfn) := by
  have hlen : (s.sendQuery cbfn).sent.length = s.sent.length + 1 := List.length_append
  rw [hlen] at h
  have hnext : (s.currQryId + 1).toNat = s.sent.length + 1 := by
    rw [toNat_next (hi.counter ▸ h), hi.counter]
  have hold : ∀ q ∈ s.sent, q ∈ (s.sendQuery cbfn).sent := fun q hq => List.mem_append_left _ hq
  refine ⟨?_, ?_, ?_, ?_, hi.answered_nodup, ?_, ?_, hi.ran, ?_⟩
  · rw [hlen]
    exact hnext
  · rw [hlen, List.range'_1_concat, ← hi.ids]
    simp [State.sendQuery, State.nextQueryId, hnext, Nat.add_comm]
  · refine List.nodup_append.mpr ⟨hi.given_nodup, List.nodup_singleton _, ?_⟩
    intro id hid id' hid' heq
    obtain ⟨-, q, hq, hqid, -⟩ := hi.given id hid
    exact hi.next_unused h hq (hqid.trans (heq.trans (List.mem_singleton.mp hid')))
  · intro id hid
    rcases List.mem_append.mp hid with hid | hid
    · obtain ⟨hna, q, hq, hqid, hclient⟩ := hi.given id hid
      exact ⟨hna, q, hold q hq, hqid, hclient⟩
    · obtain rfl := List.mem_singleton.mp hid
      exact ⟨hi.not_answered_next h, _, List.mem_append_right _ List.mem_cons_self, rfl, rfl⟩
  · intro a ha
    obtain ⟨q, hq, hid, hclient⟩ := hi.answered a ha
    exact ⟨q, hold q hq, hid, hclient⟩
  · intro a f
    rw [registered_sendQuery]
    refine (hi.ran_iff a f).trans (and_congr_right fun ha => ?_)
    refine (or_iff_left ?_).symm
    rintro ⟨hid, -⟩
    exact hi.not_answered_next h ⟨a, ha, hid.symm⟩
  · intro id f
    rw [hi.lookup_sendQuery h, registered_sendQuery]
    split
    · next heq =>
      subst heq
      have hno := hi.not_registered_next h f
      have hna : ¬Answered (s.sendQuery cbfn) (s.currQryId + 1) := hi.not_answered_next h
      simp [hno, hna]
    · next hne =>
      rw [hi.cb_iff, or_iff_left (fun hnew => hne hnew.1.symm)]
      rfl

theorem length_sent_le_foldl (object : Object F) (s : State F) :
    s.sent.length ≤ (object.foldl State.sendQuery s).sent.length := by
  induction object generalizing s with
  | nil => exact Nat.le_refl _
  | cons cbfn object ih =>
    refine Nat.le_trans ?_ (ih (s.sendQuery cbfn))
    exact List.length_append ▸ Nat.le_add_right _ _

theorem Inv.processUpdate (hi : Inv s) (object : Object F) (h : (s.processUpdate object).sent.length < 2 ^ 64) :
    Inv (s.processUpdate object) := by
  induction object generalizing s with
  | nil => exact hi
  | cons cbfn object ih =>
    have hle := length_sent_le_foldl object (s.sendQuery cbfn)
    exact ih (hi.sendQuery cbfn (Nat.lt_of_le_of_lt hle h)) h

/-- Of what the old client was given, nothing will be answered. -/
theorem Inv.newClient (hi : Inv s) : Inv { s with given := [], clients := s.clients + 1 } where
  counter := hi.counter
  ids := hi.ids
  given_nodup := List.nodup_nil
  given := fun _ hid => absurd hid List.not_mem_nil
  answered_nodup := hi.answered_nodup
  answered := hi.answered
  ran_iff := hi.ran_iff
  ran := hi.ran
  cb_iff := hi.cb_iff

theorem Inv.init (hi : Inv s) (h : s.init.sent.length < 2 ^ 64) : Inv s.init := by
  refine (hi.newClient.sendQuery none ?_).sendQuery none h
  exact Nat.lt_of_le_of_lt (length_sent_le_foldl [none] _) h

/-! ### Receiving -/

/-- The state when the request `id` is answered, with the entries and the runs as they are then. -/
def answeredWith (s : State F) (id : UInt64) (cb : AList fun _ : UInt64 => F) (ran : List (Answer × F)) : State F :=
  { s with
    cb
    given := s.given.erase id
    answered := s.answered ++ [⟨id, s.clients⟩]
    ran }

theorem answered_answeredWith {id id' : UInt64} {cb : AList fun _ : UInt64 => F} {ran : List (Answer × F)} :
    Answered (answeredWith s id cb ran) id' ↔ Answered s id' ∨ id = id' := by
  simp only [Answered, answeredWith, List.mem_append, List.mem_singleton]
  constructor
  · rintro ⟨a, ha | rfl, hid⟩
    · exact Or.inl ⟨a, ha, hid⟩
    · exact Or.inr hid
  · rintro (⟨a, ha, hid⟩ | hid)
    · exact ⟨a, Or.inl ha, hid⟩
    · exact ⟨_, Or.inr rfl, hid⟩

theorem Inv.answeredWith (hi : Inv s) {id : UInt64} (hid : id ∈ s.given) {cb : AList fun _ : UInt64 => F}
    {ran : List (Answer × F)}
    (hran : ∀ a f, (a, f) ∈ ran ↔ (a, f) ∈ s.ran ∨ (a = ⟨id, s.clients⟩ ∧ s.cb.lookup id = some f))
    (hsub : (ran.map Prod.fst).Sublist (s.answered ++ [⟨id, s.clients⟩]))
    (hcb : ∀ id', cb.lookup id' = if id' = id then none else s.cb.lookup id') :
    Inv (TdQueries.answeredWith s id cb ran) := by
  obtain ⟨hna, q, hq, hqid, hclient⟩ := hi.given id hid
  refine ⟨hi.counter, hi.ids, hi.given_nodup.erase id, ?_, ?_, ?_, ?_, hsub, ?_⟩
  · intro id' hid'
    obtain ⟨hne, hid'⟩ := hi.given_nodup.mem_erase_iff.mp hid'
    obtain ⟨hna', hsent⟩ := hi.given id' hid'
    exact ⟨fun h => (answered_answeredWith.mp h).elim hna' hne.symm, hsent⟩
  · rw [TdQueries.answeredWith, List.map_append]
    refine List.nodup_append.mpr ⟨hi.answered_nodup, List.nodup_singleton _, ?_⟩
    rintro _ hold _ hnew rfl
    obtain ⟨a, ha, hold⟩ := List.mem_map.mp hold
    exact hna ⟨a, ha, hold.trans (List.mem_singleton.mp hnew)⟩
  · intro a ha
    rcases List.mem_append.mp ha with ha | ha
    · exact hi.answered a ha
    · obtain rfl := List.mem_singleton.mp ha
      exact ⟨q, hq, hqid, hclient⟩
  · intro a f
    refine (hran a f).trans ?_
    rw [hi.ran_iff, hi.cb_iff]
    constructor
    · rintro (⟨ha, hreg⟩ | ⟨rfl, hreg, -⟩)
      · exact ⟨List.mem_append_left _ ha, hreg⟩
      · exact ⟨List.mem_append_right _ List.mem_cons_self, hreg⟩
    · rintro ⟨ha, hreg⟩
      rcases List.mem_append.mp ha with ha | ha
      · exact Or.inl ⟨ha, hreg⟩
      · obtain rfl := List.mem_singleton.mp ha
        exact Or.inr ⟨rfl, hreg, hna⟩
  · intro id' f
    change cb.lookup id' = some f ↔ _
    rw [hcb, answered_answeredWith]
    split
    · next heq => exact iff_of_false (fun h => nomatch h) fun h => h.2 (Or.inr heq.symm)
    · next hne =>
      rw [hi.cb_iff, or_iff_left (Ne.symm hne)]
      rfl

theorem Inv.answer (hi : Inv s) {id : UInt64} (hid : id ∈ s.given) (hne : id ≠ 0) (object : Object F) :
    Inv ((TdQueries.answeredWith s id s.cb s.ran).processResponse ⟨id, some object⟩) := by
  rw [State.processResponse]
  dsimp only
  rw [if_neg hne]
  have hsub : (s.ran.map Prod.fst).Sublist (s.answered ++ [⟨id, s.clients⟩]) :=
    hi.ran.trans (List.sublist_append_left _ _)
  split
  · next f hf =>
    have hf : s.cb.lookup id = some f := hf
    refine hi.answeredWith hid ?_ ?_ ?_
    · intro a f'
      change (a, f') ∈ s.ran ++ [(⟨id, s.clients⟩, f)] ↔ _
      rw [List.mem_append, List.mem_singleton, Prod.mk.injEq, hf, Option.some.injEq, eq_comm (a := f)]
    · change ((s.ran ++ [((⟨id, s.clients⟩ : Answer), f)]).map Prod.fst).Sublist _
      rw [List.map_append]
      exact hi.ran.append (List.Sublist.refl _)
    · intro id'
      change (s.cb.erase id).lookup id' = _
      split
      · next heq => rw [heq, AList.lookup_erase]
      · next hne' => exact AList.lookup_erase_ne hne'
  · next hnone =>
    have hnone : s.cb.lookup id = none := hnone
    refine hi.answeredWith hid ?_ hsub ?_
    · intro a f
      rw [hnone, or_iff_left (fun h => nomatch h.2)]
    · intro id'
      split
      · next heq => exact heq ▸ hnone
      · rfl

/-- A response is nothing, an update, or an answer to an open request. -/
theorem deliver_cases {response : Response F} (h : s.deliver response = some t) :
    (response.object = none ∧ t = s) ∨
    (∃ object, response.object = some object ∧ response.requestId = 0 ∧ t = s) ∨
    (∃ object, response.object = some object ∧ response.requestId ≠ 0 ∧ response.requestId ∈ s.given ∧
      t = TdQueries.answeredWith s response.requestId s.cb s.ran) := by
  rw [State.deliver] at h
  cases hobject : response.object with
  | none =>
    rw [if_pos (Or.inl (hobject ▸ rfl))] at h
    exact Or.inl ⟨rfl, (Option.some.inj h).symm⟩
  | some object =>
    rw [hobject] at h
    by_cases hzero : response.requestId = 0
    · rw [if_pos (Or.inr hzero)] at h
      exact Or.inr (Or.inl ⟨object, rfl, hzero, (Option.some.inj h).symm⟩)
    · rw [if_neg (by simp [hzero])] at h
      obtain ⟨hid, h⟩ := Option.ite_none_right_eq_some.mp h
      exact Or.inr (Or.inr ⟨object, rfl, hzero, hid, (Option.some.inj h).symm⟩)

theorem Inv.receive (hi : Inv s) {response : Response F} (h : s.deliver response = some t)
    (hlen : (t.processResponse response).sent.length < 2 ^ 64) : Inv (t.processResponse response) := by
  obtain ⟨requestId, object⟩ := response
  rcases deliver_cases h with ⟨rfl, rfl⟩ | ⟨object, rfl, rfl, rfl⟩ | ⟨object, rfl, hne, hid, rfl⟩
  · exact hi
  · exact hi.processUpdate object hlen
  · exact hi.answer hid hne object

theorem sent_answer {id : UInt64} (hne : id ≠ 0) (object : Object F) :
    ((TdQueries.answeredWith s id s.cb s.ran).processResponse ⟨id, some object⟩).sent = s.sent := by
  rw [State.processResponse]
  dsimp only
  rw [if_neg hne]
  split <;> rfl

theorem length_sent_le_receive {response : Response F} (h : s.deliver response = some t) :
    s.sent.length ≤ (t.processResponse response).sent.length := by
  obtain ⟨requestId, object⟩ := response
  rcases deliver_cases h with ⟨rfl, rfl⟩ | ⟨object, rfl, rfl, rfl⟩ | ⟨object, rfl, hne, hid, rfl⟩
  · exact Nat.le_refl _
  · exact length_sent_le_foldl object _
  · rw [sent_answer hne]

/-! ### Runs -/

theorem Inv.step {a : Act F} (hi : s.sent.length < 2 ^ 64 → Inv s) (hs : TdQueries.step s a = some t)
    (h : t.sent.length < 2 ^ 64) : Inv t := by
  cases a with
  | init =>
    obtain rfl := Option.some.inj hs
    have hle := length_sent_le_foldl [none, none] { s with given := [], clients := s.clients + 1 }
    exact (hi (Nat.lt_of_le_of_lt hle h)).init h
  | sendQuery cbfn =>
    obtain ⟨-, hs⟩ := Option.ite_none_left_eq_some.mp hs
    obtain rfl := Option.some.inj hs
    exact (hi (Nat.lt_of_le_of_lt (length_sent_le_foldl [cbfn] s) h)).sendQuery cbfn h
  | fetchUpdates response =>
    obtain ⟨-, hs⟩ := Option.ite_none_left_eq_some.mp hs
    obtain ⟨u, hdeliver, rfl⟩ := Option.map_eq_some_iff.mp hs
    exact (hi (Nat.lt_of_le_of_lt (length_sent_le_receive hdeliver) h)).receive hdeliver h

theorem inv_of_reachable (h : (system F).Reachable s) (hlen : s.sent.length < 2 ^ 64) : Inv s := by
  have hinv : s.sent.length < 2 ^ 64 → Inv s := by
    refine h.invariant (I := fun s => s.sent.length < 2 ^ 64 → Inv s) ?_ fun s a t hi _ hs => Inv.step hi hs
    rintro s rfl -
    exact Inv.start
  exact hinv hlen

theorem Inv.ids_nodup (hi : Inv s) : (s.sent.map Query.id).Nodup := by
  have hnodup : (s.sent.map fun q => q.id.toNat).Nodup := hi.ids ▸ List.nodup_range'
  rw [← Function.comp_def UInt64.toNat Query.id, ← List.map_map] at hnodup
  exact hnodup.of_map _

theorem Inv.ran_client (hi : Inv s) {a : Answer} {f : F} (h : (a, f) ∈ s.ran) :
    ∃ q ∈ s.sent, q.id = a.id ∧ q.callback = some f ∧ q.client = a.client := by
  obtain ⟨ha, q, hq, hid, hf⟩ := (hi.ran_iff a f).mp h
  obtain ⟨q', hq', hid', hclient⟩ := hi.answered a ha
  obtain rfl : q = q' := List.inj_on_of_nodup_map hi.ids_nodup hq hq' (hid.trans hid'.symm)
  exact ⟨q, hq, hid, hf, hclient⟩

/-- As long as fewer than `2 ^ 64` queries were sent, every answer ran the callback of its own query. -/
theorem rightAnswers (h : (system F).Reachable s) (hlen : s.sent.length < 2 ^ 64) : RightAnswers s := by
  have hi := inv_of_reachable h hlen
  refine ⟨hi.ids_nodup, ?_, hi.ran_iff, ?_, fun a f => hi.ran_client, hi.cb_iff⟩
  · intro q hq hzero
    have hle := (hi.id_le hq).1
    rw [hzero] at hle
    exact absurd hle (by decide)
  · rw [← Function.comp_def Answer.id Prod.fst, ← List.map_map]
    exact hi.answered_nodup.sublist (hi.ran.map _)

theorem rightAnswers_twoClients :
    ∃ s : State Nat, s.sent.length = 6 ∧ s.ran = [(⟨3, 1⟩, 10), (⟨6, 2⟩, 30)] ∧ RightAnswers s :=
  have h : (system Nat).Reachable _ := Transition.System.Reachable.run (.init rfl)
    [.init, .sendQuery (some 10), .fetchUpdates ⟨3, some []⟩, .init, .fetchUpdates ⟨0, some [some 30]⟩,
      .fetchUpdates ⟨6, some []⟩] rfl
  ⟨_, rfl, rfl, rightAnswers h (by decide)⟩

end

/-! ### The counter comes back -/

theorem exists_run_sends (n : Nat) (s : State F) (hs : s.clients ≠ 0) :
    ∃ t, (system F).run s (List.replicate (n + 1) (.sendQuery none)) = some t ∧
      ∃ q ∈ t.sent, q.id = s.currQryId + UInt64.ofNat (n + 1) := by
  have hstep : (system F).step s (.sendQuery none) = some (s.sendQuery none) := if_neg hs
  induction n generalizing s with
  | zero =>
    refine ⟨s.sendQuery none, ?_, _, List.mem_append_right _ List.mem_cons_self, rfl⟩
    rw [List.replicate_one, System.run, hstep]
    rfl
  | succ n ih =>
    obtain ⟨t, hrun, q, hq, hid⟩ := ih (s.sendQuery none) hs (if_neg hs)
    refine ⟨t, ?_, q, hq, ?_⟩
    · rw [List.replicate_succ, System.run, hstep]
      exact hrun
    · rw [hid, UInt64.ofNat_add (n + 1), UInt64.add_comm (UInt64.ofNat (n + 1)), ← UInt64.add_assoc]
      rfl

/-- The query `2 ^ 64` has the id `0`, which is that of the updates. -/
theorem exists_id_zero : ∃ s : State Unit, (system Unit).Reachable s ∧ ∃ q ∈ s.sent, q.id = 0 := by
  have hinit : (system Unit).Reachable (start Unit).init := System.Reachable.step (a := .init) (.init rfl) rfl
  obtain ⟨t, hrun, q, hq, hid⟩ := exists_run_sends (2 ^ 64 - 3) (start Unit).init (by decide)
  exact ⟨t, hinit.run _ hrun, q, hq, hid.trans (by decide)⟩

end TgFocus.TdQueries
