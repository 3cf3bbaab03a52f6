import TgFocus.Theorems.PipelineInv

/-! Creating the TG-FOCUS chat. The consumer sets `tried_c_tgfchat` when it sends the request, and as long
    as the flag is set and there is no chat it sends no other. Only the answer can end this: a chat id is
    stored, but an answer without one leaves the flag set, and so does the end of the client to which the
    request was sent. -/

namespace TgFocus.Pipeline
open Transition

/-- A creation was sent to the client and is not answered, or the consumer is about to send it. -/
def State.creationOpen (s : State) : Prop := .create ∈ s.inflight ∨ s.consumer = .creatingSend

instance (s : State) : Decidable s.creationOpen := inferInstanceAs (Decidable (_ ∨ _))

def Answer.chat? : Answer → Option Int
  | .ok chat => some chat
  | .error _ => none

/-- While the flag is set and there is no chat, the last open creation is answered with a chat only, and
    the client is not replaced; the chat is not taken back while the flag is set and no creation is open. -/
def CreationsSucceed (s : State) : Act → Prop
  | .producer (.answer .create r) =>
    s.producer = .fetching → r.chat?.getD s.tgfid = -1 → s.triedCTgfchat = true →
      { s with inflight := s.inflight.erase .create }.creationOpen
  | .restart => s.tgfid = -1 → s.triedCTgfchat = false
  | .resetTgfid => s.triedCTgfchat = true → s.creationOpen
  | _ => True

instance (s : State) (a : Act) : Decidable (CreationsSucceed s a) := by
  unfold CreationsSucceed
  split <;> infer_instance

/-- The flag is set for a reason: there is a chat, or there will be an answer. A send that finds the chat
    lost takes the flag back before the chat id, so this must hold before the id is taken back, too. -/
structure Awaited (s : State) : Prop where
  noChat : s.tgfid = -1 → s.triedCTgfchat = true → s.creationOpen
  forgetting : s.producer = .forgetting → s.triedCTgfchat = true → s.creationOpen

section
variable {s t : State} {a : Act} {incoming : Incoming}

theorem Awaited.answer_create {r : Answer} (hpc : s.producer = .fetching)
    (hok : CreationsSucceed s (.producer (.answer .create r))) (h : receive s (.answer .create r) = some t) :
    Awaited t := by
  obtain ⟨-, h⟩ := Option.ite_none_right_eq_some.mp h
  have hopen := hok hpc
  cases r with
  | ok chat | error lost =>
    cases h
    exact ⟨hopen, fun hf => by cases hf⟩

theorem Awaited.answer_send {chat : Int} {msg : TgMsg} {r : Answer} (ha : Awaited s)
    (h : receive s (.answer (.send chat msg) r) = some t) : Awaited t := by
  obtain ⟨-, h⟩ := Option.ite_none_right_eq_some.mp h
  -- another query is answered
  have hkept : s.creationOpen → { s with inflight := s.inflight.erase (.send chat msg) }.creationOpen :=
    Or.imp_left (List.mem_erase_of_ne (by simp)).mpr
  have hsame : Awaited { s with inflight := s.inflight.erase (.send chat msg), producer := .loopTest } :=
    ⟨fun hi ht => hkept (ha.noChat hi ht), fun hf => by cases hf⟩
  cases r with
  | ok chat' =>
    cases h
    exact hsame
  | error lost =>
    cases lost with
    | true =>
      cases h
      exact ⟨fun _ ht => (by cases ht), fun _ ht => (by cases ht)⟩
    | false =>
      cases h
      exact hsame

theorem Awaited.receive (ha : Awaited s) (hpc : s.producer = .fetching)
    (hok : CreationsSucceed s (.producer incoming)) (h : receive s incoming = some t) : Awaited t := by
  cases incoming with
  | nothing | message | command | authReady =>
    cases h
    exact ⟨ha.noChat, fun hf => by cases hf⟩
  | answer q r =>
    cases q with
    | create => exact Awaited.answer_create hpc hok h
    | send chat msg => exact ha.answer_send h

theorem Awaited.producerStep (ha : Awaited s) (hok : CreationsSucceed s (.producer incoming))
    (h : producerStep s incoming = some t) : Awaited t := by
  by_cases hfetch : s.producer = .fetching
  · rw [Pipeline.producerStep, hfetch] at h
    exact ha.receive hfetch hok h
  · cases producerStep_inv h with
    | nothing hpc | message _ hpc | command _ hpc | authReady hpc | created _ hpc | answered _ hpc
    | lost _ _ hpc => exact absurd hpc hfetch
    | forget hpc => exact ⟨fun _ => ha.forgetting hpc, fun hf => by cases hf⟩
    | leave | goOn | fetch | lock | insert | unlock | ack => exact ⟨ha.noChat, fun hf => by cases hf⟩

/-- The consumer sets the flag only on its way to send the request. -/
theorem Awaited.consumerStep (ha : Awaited s) (h : ConsumerStep s t) : Awaited t := by
  cases h with
  | tryCreate => exact ⟨fun _ _ => Or.inr rfl, fun _ _ => Or.inr rfl⟩
  | sendCreate =>
    have hsent : Query.create ∈ s.inflight ++ [.create] := by simp
    exact ⟨fun _ _ => Or.inl hsent, fun _ _ => Or.inl hsent⟩
  | collect it curr hpc hcurr =>
    have hkept : s.creationOpen → .create ∈ s.inflight := fun h => h.resolve_right (by simp [hpc])
    exact ⟨fun hi ht => Or.inl (List.mem_append_left _ (hkept (ha.noChat hi ht))),
      fun hf ht => Or.inl (List.mem_append_left _ (hkept (ha.forgetting hf ht)))⟩
  | leave hpc | goOn hpc | wake hpc | readTgfid hpc | toCreate hpc | toLock _ hpc | noCreate hpc | lock hpc
  | toBatch hpc | noBatch hpc | batchEnd hpc | breakOff _ hpc | next _ hpc | recognise _ _ hpc | need _ _ hpc
  | noNeed _ _ hpc | clear hpc | unlock hpc | store hpc | ack hpc =>
    have hkept : s.creationOpen → .create ∈ s.inflight := fun h => h.resolve_right (by simp [hpc])
    exact ⟨fun hi ht => Or.inl (hkept (ha.noChat hi ht)), fun hf ht => Or.inl (hkept (ha.forgetting hf ht))⟩

theorem Awaited.step (ha : Awaited s) (hok : CreationsSucceed s a) (hs : step s a = some t) : Awaited t := by
  cases a with
  | producer incoming => exact ha.producerStep hok hs
  | consumer need => exact ha.consumerStep (consumerStep_inv hs)
  | switcher => cases switcherStep_inv hs <;> exact ⟨ha.noChat, ha.forgetting⟩
  | stop =>
    cases hs
    exact ⟨ha.noChat, ha.forgetting⟩
  | restart =>
    obtain ⟨-, hs⟩ := Option.ite_none_right_eq_some.mp hs
    cases hs
    refine ⟨fun hi ht => ?_, fun hf => by cases hf⟩
    have hnot : s.triedCTgfchat = false := hok hi
    rw [show s.triedCTgfchat = true from ht] at hnot
    cases hnot
  | resetTgfid =>
    cases hs
    exact ⟨fun _ => hok, ha.forgetting⟩

/-- In runs in which no creation ends without a chat, a collector that has none and has tried to create
    one has a creation open. -/
theorem creation_open (h : system.ReachableBy CreationsSucceed s) (hinvalid : s.isTgfidValid = false)
    (htried : s.triedCTgfchat = true) : .create ∈ s.inflight ∨ s.consumer = .creatingSend := by
  have ha : Awaited s := by
    refine h.invariant ?_ fun s a t ha hok hs => ha.step hok hs
    rintro s ⟨tgfid, rfl⟩
    exact ⟨fun _ ht => (by cases ht), fun _ ht => (by cases ht)⟩
  exact ha.noChat (by simpa [State.isTgfidValid] using hinvalid) htried

end

/-! ### Runs -/

def authorize : List Act := [.producer .nothing, .producer .nothing, .producer .authReady]

/-- A round in which the consumer creates the chat. -/
def createChat : List Act :=
  [.consumer true, .consumer true, .consumer true, .consumer true, .consumer true, .consumer true]

theorem creation_open_run :
    ∃ s : State, s.isTgfidValid = false ∧ s.triedCTgfchat = true ∧
      (.create ∈ s.inflight ∨ s.consumer = .creatingSend) :=
  have h : system.ReachableBy CreationsSucceed _ := .runBy (.init ⟨-1, rfl⟩)
    (authorize ++ fetchOne someMsg ++ raiseFlag ++ createChat) rfl
  ⟨_, rfl, rfl, creation_open h rfl rfl⟩

/-- The creation is answered with an error: the flag stays set, and no other creation is sent. -/
theorem creation_locked_out :
    ∃ s, system.Reachable s ∧ s.isTgfidValid = false ∧ s.triedCTgfchat = true ∧ .create ∉ s.inflight ∧
      s.consumer ≠ .creatingSend :=
  ⟨_, Transition.System.Reachable.run (.init ⟨-1, rfl⟩)
    (authorize ++ fetchOne someMsg ++ [.producer .nothing, .producer .nothing] ++ raiseFlag ++ createChat ++
      [.producer (.answer .create (.error false))]) rfl, rfl, rfl, by decide, by decide⟩

end TgFocus.Pipeline
