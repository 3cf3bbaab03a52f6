import TgFocus.Theorems.ChatCreation

/-! How many TG-FOCUS chats are created. The flag `tried_c_tgfchat` lets one request out until a send
    finds its chat lost and takes the flag back. That send may have gone to an older chat: then the flag is
    taken back although the request that set it is still pending, or its chat is in use.

    A history beside the pipeline numbers the requests and records what happens to them. -/

namespace TgFocus.Pipeline
open Transition

/-! ### History -/

/-- A request to create a chat goes out, it fails, its chat is stored; a send to a chat is answered as
    lost. -/
inductive ChatEvent where
  | requested (n : Nat)
  | failed (n : Nat)
  | stored (n : Nat) (chat : Int)
  | lost (chat : Int)
  deriving DecidableEq, Repr

/-- The requests are numbered as they go out; the pending ones have not been answered. -/
structure Chats where
  requests : Nat
  pending : List Nat
  events : List ChatEvent
  deriving DecidableEq, Repr

def noChats : Chats where
  requests := 0
  pending := []
  events := []

/-- What the producer receives; `n` says which of the pending requests is answered. -/
def Chats.receive (c : Chats) (n : Nat) : Incoming → Option Chats
  | .answer .create (.ok chat) =>
    if n ∈ c.pending then some { c with pending := c.pending.erase n, events := c.events ++ [.stored n chat] } else none
  | .answer .create (.error _) =>
    if n ∈ c.pending then some { c with pending := c.pending.erase n, events := c.events ++ [.failed n] } else none
  | .answer (.send chat _) (.error true) => some { c with events := c.events ++ [.lost chat] }
  | _ => some c

def Chats.note (s : State) (a : Act) (n : Nat) (c : Chats) : Option Chats :=
  match a with
  | .producer incoming => if s.producer = .fetching then c.receive n incoming else some c
  | .consumer _ =>
    if s.consumer = .creatingSend then
      some { requests := c.requests + 1, pending := c.pending ++ [c.requests], events := c.events ++ [.requested c.requests] }
    else some c
  -- the new client has no requests
  | .restart => some { c with pending := [] }
  | _ => some c

def chatSystem : System (State × Chats) (Act × Nat) := system.recorded noChats Chats.note

theorem init_chats (tgfid : Int) : chatSystem.init (start tgfid, noChats) := ⟨⟨tgfid, rfl⟩, rfl⟩

/-- While the flag is set, a send is answered as lost only when the last request has failed or has made the
    chat that is lost, and no request is about to go out. -/
def LostByLast (p : State × Chats) : Act × Nat → Prop
  | (.producer (.answer (.send chat _) (.error true)), _) =>
    p.1.producer = .fetching → p.1.triedCTgfchat = true →
      p.1.consumer ≠ .creatingSend ∧
        (.failed (p.2.requests - 1) ∈ p.2.events ∨ .stored (p.2.requests - 1) chat ∈ p.2.events)
  | _ => True

instance (p : State × Chats) (a : Act × Nat) : Decidable (LostByLast p a) := by
  unfold LostByLast
  split <;> infer_instance

/-! ### What a step does to the chats -/

/-- `quiet` is a step that neither touches the requests nor the flag, `trying` the step that sets the flag. -/
inductive ChatStep (s : State) (c : Chats) : Act × Nat → State → Chats → Prop where
  | quiet {a : Act} {n : Nat} {t : State} (htried : t.triedCTgfchat = s.triedCTgfchat)
      (hcount : t.inflight.count .create = s.inflight.count .create)
      (hcons : t.consumer = .creatingSend → s.consumer = .creatingSend) : ChatStep s c (a, n) t c
  | trying {a : Act} {n : Nat} {t : State} (hdown : s.triedCTgfchat = false) (hup : t.triedCTgfchat = true)
      (hcount : t.inflight.count .create = s.inflight.count .create) : ChatStep s c (a, n) t c
  | request {a : Act} {n : Nat} {t : State} (hpc : s.consumer = .creatingSend) (hpc' : t.consumer = .loopTest)
      (htried : t.triedCTgfchat = s.triedCTgfchat)
      (hcount : t.inflight.count .create = s.inflight.count .create + 1) :
      ChatStep s c (a, n) t
        { requests := c.requests + 1, pending := c.pending ++ [c.requests], events := c.events ++ [.requested c.requests] }
  | answer {a : Act} {n : Nat} {t : State} (e : ChatEvent) (he : ∀ m, .requested m ≠ e) (hn : n ∈ c.pending)
      (htried : t.triedCTgfchat = s.triedCTgfchat) (hcons : t.consumer = s.consumer)
      (hcount : t.inflight.count .create = s.inflight.count .create - 1) :
      ChatStep s c (a, n) t { c with pending := c.pending.erase n, events := c.events ++ [e] }
  | lost {n : Nat} {t : State} (chat : Int) (msg : TgMsg) (hpc : s.producer = .fetching)
      (hcons : t.consumer = s.consumer) (hcount : t.inflight.count .create = s.inflight.count .create) :
      ChatStep s c (.producer (.answer (.send chat msg) (.error true)), n) t
        { c with events := c.events ++ [.lost chat] }
  | restart {a : Act} {n : Nat} {t : State} (htried : t.triedCTgfchat = s.triedCTgfchat)
      (hcount : t.inflight.count .create = 0) (hpc' : t.consumer = .loopTest) :
      ChatStep s c (a, n) t { c with pending := [] }

section
variable {s t : State} {c d : Chats} {a : Act} {n m : Nat} {incoming : Incoming}

theorem chatStep_receive (hpc : s.producer = .fetching) (hs : receive s incoming = some t)
    (hn : c.receive n incoming = some d) : ChatStep s c (.producer incoming, n) t d := by
  cases incoming with
  | nothing | message | command | authReady =>
    cases hs
    cases hn
    exact .quiet rfl rfl id
  | answer q r =>
    obtain ⟨-, hs⟩ := Option.ite_none_right_eq_some.mp hs
    cases q with
    | create =>
      cases r with
      | ok chat | error lost =>
        obtain ⟨hmem, hn⟩ := Option.ite_none_right_eq_some.mp hn
        cases hs
        cases hn
        exact .answer _ (fun _ h => by cases h) hmem rfl rfl List.count_erase_self
    | send chat msg =>
      have hcount : (s.inflight.erase (.send chat msg)).count .create = s.inflight.count .create :=
        List.count_erase_of_ne (by simp)
      cases r with
      | ok chat' =>
        cases hs
        cases hn
        exact .quiet rfl hcount id
      | error lost =>
        cases lost with
        | true =>
          cases hs
          cases hn
          exact .lost chat msg hpc rfl hcount
        | false =>
          cases hs
          cases hn
          exact .quiet rfl hcount id

theorem chatStep_producer (hs : producerStep s incoming = some t) (hn : c.note s (.producer incoming) n = some d) :
    ChatStep s c (.producer incoming, n) t d := by
  by_cases hfetch : s.producer = .fetching
  · rw [producerStep, hfetch] at hs
    exact chatStep_receive hfetch hs ((if_pos hfetch).symm.trans hn)
  · obtain rfl : c = d := Option.some.inj ((if_neg hfetch).symm.trans hn)
    cases producerStep_inv hs with
    | nothing hpc | message _ hpc | command _ hpc | authReady hpc | created _ hpc | answered _ hpc
    | lost _ _ hpc => exact absurd hpc hfetch
    | leave | goOn | fetch | lock | insert | unlock | forget | ack => exact .quiet rfl rfl id

theorem chatStep_consumer {need : Bool} (h : ConsumerStep s t) (hn : c.note s (.consumer need) n = some d) :
    ChatStep s c (.consumer need, n) t d := by
  have hsame (hpc : s.consumer ≠ .creatingSend) : c = d := Option.some.inj ((if_neg hpc).symm.trans hn)
  cases h with
  | sendCreate hpc =>
    cases (if_pos hpc).symm.trans hn
    exact .request hpc rfl rfl List.count_append
  | tryCreate hpc hauth hinvalid htried =>
    obtain rfl := hsame (by simp [hpc])
    exact .trying htried rfl rfl
  | collect it curr hpc =>
    obtain rfl := hsame (by simp [hpc])
    exact .quiet rfl List.count_append fun hc => by cases hc
  | leave hpc | goOn hpc | wake hpc | readTgfid hpc | toCreate hpc | toLock _ hpc | noCreate hpc | lock hpc
  | toBatch hpc | noBatch hpc | batchEnd hpc | breakOff _ hpc | next _ hpc | recognise _ _ hpc | need _ _ hpc
  | noNeed _ _ hpc | clear hpc | unlock hpc | store hpc | ack hpc =>
    obtain rfl := hsame (by simp [hpc])
    exact .quiet rfl rfl fun hc => by cases hc

theorem chatStep_inv (hs : step s a = some t) (hn : c.note s a n = some d) : ChatStep s c (a, n) t d := by
  cases a with
  | producer incoming => exact chatStep_producer hs hn
  | consumer need => exact chatStep_consumer (consumerStep_inv hs) hn
  | switcher =>
    cases hn
    cases switcherStep_inv hs <;> exact .quiet rfl rfl id
  | stop | resetTgfid =>
    cases hn
    cases hs
    exact .quiet rfl rfl id
  | restart =>
    obtain ⟨-, hs⟩ := Option.ite_none_right_eq_some.mp hs
    cases hn
    cases hs
    exact .restart rfl rfl rfl

/-! ### Every run has a history -/

/-- As many requests are pending as the client has not answered. -/
def Counted (p : State × Chats) : Prop := p.2.pending.length = p.1.inflight.count .create

theorem Counted.step {b : Act × Nat} (hc : Counted (s, c)) (h : ChatStep s c b t d) : Counted (t, d) := by
  have hlen : c.pending.length = s.inflight.count .create := hc
  cases h with
  | quiet _ hcount | trying _ _ hcount | lost _ _ _ _ hcount => exact hlen.trans hcount.symm
  | request _ _ _ hcount =>
    show (c.pending ++ [c.requests]).length = t.inflight.count .create
    rw [List.length_append, hlen, hcount, List.length_singleton]
  | answer _ _ hn _ _ hcount =>
    show (c.pending.erase _).length = t.inflight.count .create
    rw [List.length_erase_of_mem hn, hlen, hcount]
  | restart _ hcount => exact hcount.symm

theorem counted_of_reachable {p : State × Chats} (h : chatSystem.Reachable p) : Counted p := by
  refine h.invariant ?_ fun p a q hc _ hs => ?_
  · rintro ⟨s, c⟩ ⟨⟨tgfid, rfl⟩, rfl⟩
    rfl
  · obtain ⟨hs, hn⟩ := System.recorded_step_eq_some.mp hs
    exact Counted.step hc (chatStep_inv hs hn)

/-- Every answer of the client is an answer to a request of the history. -/
theorem Counted.note_isSome (hc : Counted (s, c)) (hs : Pipeline.step s a = some t) : ∃ n d, c.note s a n = some d := by
  cases a with
  | producer incoming =>
    by_cases hfetch : s.producer = .fetching
    · simp only [Chats.note, if_pos hfetch]
      match incoming with
      | .answer .create r =>
        rw [Pipeline.step, Pipeline.producerStep, hfetch] at hs
        obtain ⟨hq, -⟩ := Option.ite_none_right_eq_some.mp hs
        have hpos : 0 < c.pending.length := by
          rw [show c.pending.length = _ from hc]
          exact List.count_pos_iff.mpr hq
        obtain ⟨n, hmem⟩ := List.exists_mem_of_length_pos hpos
        cases r with
        | ok chat | error lost => exact ⟨n, _, if_pos hmem⟩
      | .answer (.send chat msg) (.error true) => exact ⟨0, _, rfl⟩
      | .answer (.send chat msg) (.error false) | .answer (.send chat msg) (.ok _) | .nothing | .message _
      | .command _ | .authReady => exact ⟨0, _, rfl⟩
    · exact ⟨0, c, if_neg hfetch⟩
  | consumer need =>
    by_cases hpc : s.consumer = .creatingSend
    · exact ⟨0, _, if_pos hpc⟩
    · exact ⟨0, c, if_neg hpc⟩
  | switcher | stop | restart | resetTgfid => exact ⟨0, _, rfl⟩

/-- The history keeps no run of the pipeline from going on. -/
theorem exists_chats (h : system.Reachable s) : ∃ c, chatSystem.Reachable (s, c) :=
  h.exists_recorded fun _ _ _ hp hs => (counted_of_reachable hp).note_isSome hs

/-! ### One request at a time -/

/-- The request came to nothing, or its chat was in use and was lost. -/
def Chats.ended (c : Chats) (n : Nat) : Prop :=
  .failed n ∈ c.events ∨ ∃ chat, [.stored n chat, .lost chat].Sublist c.events

/-- That happened before the request `m` went out. -/
def Chats.endedBefore (c : Chats) (n m : Nat) : Prop :=
  [.failed n, .requested m].Sublist c.events ∨ ∃ chat, [.stored n chat, .lost chat, .requested m].Sublist c.events

/-- All requests but the last have ended, and while the flag is down or is set for the next one, the last
    has, too. -/
structure OneAtATime (p : State × Chats) : Prop where
  numbered : ∀ m, .requested m ∈ p.2.events → m < p.2.requests
  endedBefore : ∀ n m, n < m → .requested m ∈ p.2.events → p.2.endedBefore n m
  ended : ∀ n, n + 1 < p.2.requests → p.2.ended n
  untried : p.1.triedCTgfchat = false → ∀ n < p.2.requests, p.2.ended n
  sending : p.1.consumer = .creatingSend → p.1.triedCTgfchat = true ∧ ∀ n < p.2.requests, p.2.ended n

theorem Chats.ended.mono {es : List ChatEvent} (h : c.ended n) (hev : d.events = c.events ++ es) : d.ended n := by
  rw [ended, hev]
  refine h.imp (List.mem_append_left es) ?_
  rintro ⟨chat, hsub⟩
  exact ⟨chat, hsub.trans (List.sublist_append_left _ _)⟩

theorem Chats.endedBefore.mono {es : List ChatEvent} (h : c.endedBefore n m) (hev : d.events = c.events ++ es) :
    d.endedBefore n m := by
  rw [endedBefore, hev]
  refine h.imp (·.trans (List.sublist_append_left _ _)) ?_
  rintro ⟨chat, hsub⟩
  exact ⟨chat, hsub.trans (List.sublist_append_left _ _)⟩

theorem Chats.ended.before (h : c.ended n) (hev : d.events = c.events ++ [.requested m]) : d.endedBefore n m := by
  rw [endedBefore, hev]
  refine h.imp (fun hf => ?_) ?_
  · exact (List.singleton_sublist.mpr hf).append (List.Sublist.refl [ChatEvent.requested m])
  · rintro ⟨chat, hsub⟩
    exact ⟨chat, hsub.append (List.Sublist.refl [ChatEvent.requested m])⟩

/-- A step that sends no request and does not take the flag back. -/
theorem OneAtATime.extend (h : OneAtATime (s, c)) (es : List ChatEvent) (hreq : d.requests = c.requests)
    (hev : d.events = c.events ++ es) (hes : ∀ m, ChatEvent.requested m ∉ es) (htried : t.triedCTgfchat = s.triedCTgfchat)
    (hcons : t.consumer = .creatingSend → s.consumer = .creatingSend) : OneAtATime (t, d) := by
  have hold (m : Nat) (hm : ChatEvent.requested m ∈ d.events) : ChatEvent.requested m ∈ c.events := by
    rw [hev] at hm
    exact (List.mem_append.mp hm).resolve_right (hes m)
  refine ⟨?_, ?_, ?_, ?_, ?_⟩ <;> simp only [hreq, htried]
  · exact fun m hm => h.numbered m (hold m hm)
  · exact fun n m hnm hm => (h.endedBefore n m hnm (hold m hm)).mono hev
  · exact fun n hn => (h.ended n hn).mono hev
  · exact fun ht n hn => (h.untried ht n hn).mono hev
  · intro hc
    obtain ⟨ht, hall⟩ := h.sending (hcons hc)
    exact ⟨ht, fun n hn => (hall n hn).mono hev⟩

/-- A step without an event. -/
theorem OneAtATime.same (h : OneAtATime (s, c)) (hreq : d.requests = c.requests) (hev : d.events = c.events)
    (htried : t.triedCTgfchat = s.triedCTgfchat) (hcons : t.consumer = .creatingSend → s.consumer = .creatingSend) :
    OneAtATime (t, d) :=
  h.extend [] hreq (by rw [hev, List.append_nil]) (by simp) htried hcons

/-- The last request goes out when all before it have ended. -/
theorem OneAtATime.request (h : OneAtATime (s, c)) (hpc : s.consumer = .creatingSend)
    (hreq : d.requests = c.requests + 1) (hev : d.events = c.events ++ [.requested c.requests])
    (htried : t.triedCTgfchat = s.triedCTgfchat) (hpc' : t.consumer = .loopTest) : OneAtATime (t, d) := by
  obtain ⟨hset, hall⟩ := h.sending hpc
  refine ⟨?_, ?_, ?_, ?_, ?_⟩ <;> simp only [hreq, htried]
  · intro m hm
    rw [hev] at hm
    rcases List.mem_append.mp hm with hm | hm
    · exact Nat.lt_succ_of_lt (h.numbered m hm)
    · cases List.mem_singleton.mp hm
      exact Nat.lt_succ_self _
  · intro n m hnm hm
    rw [hev] at hm
    rcases List.mem_append.mp hm with hm | hm
    · exact (h.endedBefore n m hnm hm).mono hev
    · cases List.mem_singleton.mp hm
      exact (hall n hnm).before hev
  · exact fun n hn => (hall n (Nat.lt_of_succ_lt_succ hn)).mono hev
  · intro ht
    rw [hset] at ht
    cases ht
  · intro hc
    rw [hpc'] at hc
    cases hc

/-- A send that takes the flag back tells about the last request. -/
theorem OneAtATime.lost {chat : Int} {msg : TgMsg} (h : OneAtATime (s, c)) (hpc : s.producer = .fetching)
    (hok : LostByLast (s, c) (.producer (.answer (.send chat msg) (.error true)), n))
    (hreq : d.requests = c.requests) (hev : d.events = c.events ++ [.lost chat]) (hcons : t.consumer = s.consumer) :
    OneAtATime (t, d) := by
  have hall : ∀ n < c.requests, d.ended n := by
    intro n hn
    cases hset : s.triedCTgfchat with
    | false => exact (h.untried hset n hn).mono hev
    | true =>
      obtain ⟨-, hlast⟩ := hok hpc hset
      rcases Nat.lt_or_ge (n + 1) c.requests with hlt | hge
      · exact (h.ended n hlt).mono hev
      · obtain rfl : n = c.requests - 1 := by omega
        rcases hlast with hf | hst
        · exact Chats.ended.mono (Or.inl hf) hev
        · refine Or.inr ⟨chat, ?_⟩
          rw [hev]
          exact (List.singleton_sublist.mpr hst).append (List.Sublist.refl [ChatEvent.lost chat])
  have hold (m : Nat) (hm : ChatEvent.requested m ∈ d.events) : ChatEvent.requested m ∈ c.events := by
    rw [hev] at hm
    exact (List.mem_append.mp hm).resolve_right (by simp)
  refine ⟨?_, ?_, ?_, ?_, ?_⟩ <;> simp only [hreq, hcons]
  · exact fun m hm => h.numbered m (hold m hm)
  · exact fun n m hnm hm => (h.endedBefore n m hnm (hold m hm)).mono hev
  · exact fun n hn => hall n (Nat.lt_of_succ_lt hn)
  · exact fun _ => hall
  · intro hc
    obtain ⟨hset, -⟩ := h.sending hc
    exact absurd hc (hok hpc hset).1

theorem OneAtATime.step {b : Act × Nat} (h : OneAtATime (s, c)) (hok : LostByLast (s, c) b) (hs : ChatStep s c b t d) :
    OneAtATime (t, d) := by
  cases hs with
  | quiet htried _ hcons => exact h.same rfl rfl htried hcons
  | trying hdown hup =>
    have hall := h.untried hdown
    exact ⟨h.numbered, h.endedBefore, h.ended, fun _ => hall, fun _ => ⟨hup, hall⟩⟩
  | request hpc hpc' htried => exact h.request hpc rfl rfl htried hpc'
  | answer e he _ htried hcons =>
    refine h.extend [e] rfl rfl (fun m hm => he m ?_) htried fun hc => hcons ▸ hc
    exact List.mem_singleton.mp hm
  | lost chat msg hpc hcons => exact h.lost hpc hok rfl rfl hcons
  | restart htried _ hpc' =>
    refine h.same rfl rfl htried fun hc => ?_
    rw [hpc'] at hc
    cases hc

/-- In runs in which, while the flag is set, a send is answered as lost only when the last request has
    failed or has made the chat that is lost, a request goes out only when each one before it has failed, or
    its chat was stored and a send to that chat was answered as lost. -/
theorem request_ended (h : chatSystem.ReachableBy LostByLast (s, c)) (hnm : n < m)
    (hm : .requested m ∈ c.events) :
    [.failed n, .requested m].Sublist c.events ∨
      ∃ chat, [.stored n chat, .lost chat, .requested m].Sublist c.events := by
  have hinv : OneAtATime (s, c) := by
    refine h.invariant ?_ fun p a q hp hok hs => ?_
    · rintro ⟨s, c⟩ ⟨⟨tgfid, rfl⟩, rfl⟩
      constructor <;> simp [start, noChats]
    · obtain ⟨hs, hn⟩ := System.recorded_step_eq_some.mp hs
      exact OneAtATime.step hp hok (chatStep_inv hs hn)
  exact hinv.endedBefore n m hnm hm

end

/-! ### Runs -/

/-- Two messages are forwarded in one batch, and the first send finds the chat lost; then a request to
    create a new one goes out. -/
def loseChat : List Act :=
  authorize ++ fetchOne someMsg ++ fetchOne someMsg ++ raiseFlag ++ beginBatch ++
    [.consumer true, .consumer true, .consumer true] ++ collectOne ++
    [.producer .nothing, .producer .nothing, .producer (.answer (.send 1 { someMsg with id := 1 }) (.error true)),
      .producer .nothing] ++
    fetchOne someMsg ++ [.producer .nothing, .producer .nothing] ++ raiseFlag ++ createChat

/-- The second send finds it lost, too. -/
def loseAgain : List Act :=
  [.producer (.answer (.send 1 { someMsg with id := 2 }) (.error true)), .producer .nothing]

/-- Answers to the first request. -/
def first (as : List Act) : List (Act × Nat) := as.map (·, 0)

/-- The request fails before the second send finds the chat lost: another one goes out. -/
theorem request_ended_run :
    ∃ c : Chats, .requested 1 ∈ c.events ∧
      ([.failed 0, .requested 1].Sublist c.events ∨
        ∃ chat, [.stored 0 chat, .lost chat, .requested 1].Sublist c.events) := by
  have hrun : (chatSystem.runBy LostByLast (start 1, noChats)
      (first (loseChat ++ emptyRound ++ [.producer (.answer .create (.error false))] ++
        [.producer .nothing, .producer .nothing] ++ loseAgain ++ raiseFlag ++ createChat))).map (·.2.events) =
      some [.lost 1, .requested 0, .failed 0, .lost 1, .requested 1] := by decide +kernel
  obtain ⟨⟨s, c⟩, hs, (hev : c.events = _)⟩ := Option.map_eq_some_iff.mp hrun
  have h : chatSystem.ReachableBy LostByLast (s, c) := .runBy (.init (init_chats 1)) _ hs
  have hm : .requested 1 ∈ c.events := by simp [hev]
  exact ⟨c, hm, request_ended h Nat.zero_lt_one hm⟩

/-- The second send finds the old chat lost while the request for a new one is pending: another one goes
    out. -/
theorem two_requests :
    ∃ (s : State) (c : Chats), chatSystem.Reachable (s, c) ∧ .requested 1 ∈ c.events ∧
      ¬([.failed 0, .requested 1].Sublist c.events ∨
        ∃ chat, [.stored 0 chat, .lost chat, .requested 1].Sublist c.events) := by
  have hrun : (chatSystem.run (start 1, noChats) (first (loseChat ++ loseAgain ++ createChat))).map (·.2.events) =
      some [.lost 1, .requested 0, .lost 1, .requested 1] := by decide +kernel
  obtain ⟨⟨s, c⟩, hs, (hev : c.events = _)⟩ := Option.map_eq_some_iff.mp hrun
  have h : chatSystem.Reachable (s, c) := Transition.System.Reachable.run (.init (init_chats 1)) _ hs
  refine ⟨s, c, h, by simp [hev], ?_⟩
  rw [hev]
  rintro (hfailed | ⟨chat, hstored⟩)
  · exact absurd hfailed (by decide)
  · -- no chat was stored
    have hmem := hstored.subset List.mem_cons_self
    simp at hmem

end TgFocus.Pipeline
