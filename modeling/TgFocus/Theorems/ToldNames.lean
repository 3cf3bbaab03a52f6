import TgFocus.TdUpdates

/-! The queue as a function of what TDLib has told. A message is queued under the title that its chat was given
    last, and from the name that its sender had then; what is told later changes no message that is queued.
    The first message of a chat without a title leaves an empty one behind, so that from then on the chat is no
    longer unknown: a chat that sends in its own name is called by the empty title. -/

namespace TgFocus

/-- The title that an update gives to a chat. -/
def Update.titleFor (chatId : Int64) : Update → Option Bytes
  | .newChat id title | .chatTitle id title => if id = chatId then some title else none
  | _ => none

def Update.userFor (userId : Int64) : Update → Option User
  | .user id u => if id = userId then some u else none
  | _ => none

def Update.isIn (chatId : Int64) : Update → Bool
  | .newMessage m => m.chatId = chatId
  | _ => false

/-- What has been told, the latest first, to a collector that knew `c₀` before. -/
structure Told where
  c₀ : TdCollector
  past : List Update

namespace Told

def tell (h : Told) (u : Update) : Told := { h with past := u :: h.past }

/-- The title given last, and the empty one when a message came without any. -/
def title (h : Told) (chatId : Int64) : Option Bytes :=
  ((h.past.findSome? (Update.titleFor chatId)).or (h.c₀.chatTitles.lookup chatId)).or
    (if h.past.any (Update.isIn chatId) then some [] else none)

def user (h : Told) (userId : Int64) : Option User :=
  (h.past.findSome? (Update.userFor userId)).or (h.c₀.users.lookup userId)

def sender (h : Told) : MessageSender → Bytes
  | .user userId =>
    match h.user userId with
    | none => str "unknown user"
    | some user =>
      user.firstName ++ str " " ++ user.lastName ++ (user.username.map (str " @" ++ ·)).getD []
  | .chat chatId => (h.title chatId).getD (str "unknown chat") ++ str "(chat)"

/-- The message as it is queued when it is the last thing told. -/
def msg (readable : UInt32 → Bytes) (h : Told) (m : Message) : TgMsg where
  title := (h.title m.chatId).getD []
  sender := h.sender m.senderId
  txt := TdCollector.textOf m.content
  tstamp := readable m.date.toUInt32
  id := 0

/-- What an update queues when it is the last thing told. -/
def queues (readable : UInt32 → Bytes) (latestTgfid : Int64) (h : Told) : Update → List TgMsg
  | .newMessage m => if m.chatId = latestTgfid then [] else [h.msg readable m]
  | _ => []

end Told

/-- The messages that a sequence of updates queues, the latest first; each update comes with the id of the
    TG-FOCUS chat at its time. -/
def queued (readable : UInt32 → Bytes) (c₀ : TdCollector) : List (Int64 × Update) → List TgMsg
  | [] => []
  | (latestTgfid, u) :: past =>
    Told.queues readable latestTgfid ⟨c₀, u :: past.map (·.2)⟩ u ++ queued readable c₀ past

namespace TdCollector

/-- The collector after a sequence of updates, the latest first. -/
def after (readable : UInt32 → Bytes) (c₀ : TdCollector) : List (Int64 × Update) → TdCollector
  | [] => c₀
  | (latestTgfid, u) :: past => ((after readable c₀ past).processUpdate readable latestTgfid u).1

/-- The two maps hold what has been told. -/
structure Knows (c : TdCollector) (h : Told) : Prop where
  title : ∀ chatId, c.chatTitles.lookup chatId = h.title chatId
  user : ∀ userId, c.users.lookup userId = h.user userId

section
variable {c : TdCollector} {h : Told} {readable : UInt32 → Bytes} {latestTgfid : Int64} {m : Message}

/-! ### Maps -/

theorem lookup_filter_ne {α : Type} (map : List (Int64 × α)) {key k : Int64} (hk : key ≠ k) :
    (map.filter (·.1 ≠ key)).lookup k = map.lookup k := by
  induction map with
  | nil => rfl
  | cons p map ih =>
    obtain ⟨k', v⟩ := p
    by_cases hk' : k' = key
    · have hne : (k == k') = false := beq_false_of_ne fun h => hk (hk'.symm.trans h.symm)
      rw [List.filter_cons_of_neg (by simpa using hk'), ih, List.lookup_cons, hne]
    · rw [List.filter_cons_of_pos (by simpa using hk'), List.lookup_cons, List.lookup_cons, ih]

theorem lookup_assign {α : Type} (map : List (Int64 × α)) (key k : Int64) (value : α) :
    (assign map key value).lookup k = if key = k then some value else map.lookup k := by
  rw [assign, List.lookup_cons]
  by_cases hk : key = k
  · rw [if_pos hk, hk, beq_self_eq_true]
  · rw [if_neg hk, beq_false_of_ne (Ne.symm hk), lookup_filter_ne map hk]

/-! ### What is told -/

theorem title_tell_none {u : Update} {chatId : Int64} (ht : u.titleFor chatId = none) (hm : u.isIn chatId = false) :
    (h.tell u).title chatId = h.title chatId := by
  simp [Told.title, Told.tell, ht, hm]

theorem title_tell_some {u : Update} {chatId : Int64} {t : Bytes} (ht : u.titleFor chatId = some t) :
    (h.tell u).title chatId = some t := by
  simp [Told.title, Told.tell, ht]

/-- A message leaves a title behind, the empty one when there was none. -/
theorem title_tell_message : (h.tell (.newMessage m)).title m.chatId = some ((h.title m.chatId).getD []) := by
  have ht : (Update.newMessage m).titleFor m.chatId = none := rfl
  have hm : (Update.newMessage m).isIn m.chatId = true := decide_eq_true rfl
  simp only [Told.title, Told.tell, List.findSome?_cons, ht, List.any_cons, hm, Bool.true_or, if_true]
  cases (h.past.findSome? (Update.titleFor m.chatId)).or (h.c₀.chatTitles.lookup m.chatId) with
  | none =>
    rw [Option.none_or, Option.none_or]
    split <;> rfl
  | some t => rfl

theorem user_tell_none {u : Update} {userId : Int64} (hu : u.userFor userId = none) :
    (h.tell u).user userId = h.user userId := by
  simp [Told.user, Told.tell, hu]

theorem Knows.senderName (hk : c.Knows h) (senderId : MessageSender) : c.senderName senderId = h.sender senderId := by
  cases senderId with
  | user userId =>
    rw [TdCollector.senderName, getUserName, Told.sender, hk.user]
    cases h.user userId with
    | none => rfl
    | some user =>
      obtain ⟨firstName, lastName, username⟩ := user
      cases username with
      | none => simp
      | some username => simp
  | chat chatId =>
    rw [TdCollector.senderName, getChatTitle, Told.sender, hk.title]
    cases h.title chatId <;> rfl

/-! ### Steps -/

/-- A title that is given is the title from now on. -/
theorem Knows.retitle (hk : c.Knows h) {u : Update} {chatId : Int64} {t : Bytes}
    (hu : ∀ id, u.titleFor id = if chatId = id then some t else none) (hm : ∀ id, u.isIn id = false)
    (huser : ∀ id, u.userFor id = none) :
    Knows { c with chatTitles := assign c.chatTitles chatId t } (h.tell u) where
  title := by
    intro id
    rw [lookup_assign]
    split
    · rename_i hid
      exact (title_tell_some (by rw [hu, if_pos hid])).symm
    · rename_i hid
      exact (hk.title id).trans (title_tell_none (by rw [hu, if_neg hid]) (hm id)).symm
  user := fun id => (hk.user id).trans (user_tell_none (huser id)).symm

theorem Knows.touchTitle (hk : c.Knows h) :
    (c.touchTitle m.chatId).1 = (h.title m.chatId).getD [] ∧
      (c.touchTitle m.chatId).2.Knows (h.tell (.newMessage m)) ∧
      (c.touchTitle m.chatId).2.mq = c.mq ∧ (c.touchTitle m.chatId).2.itMsgTotal = c.itMsgTotal := by
  have htitle := hk.title m.chatId
  have hout : ∀ id, m.chatId ≠ id → (h.tell (.newMessage m)).title id = h.title id := fun id hid =>
    title_tell_none rfl (by simpa [Update.isIn] using hid)
  have huser : ∀ id, c.users.lookup id = (h.tell (.newMessage m)).user id := fun id =>
    (hk.user id).trans (user_tell_none rfl).symm
  rw [TdCollector.touchTitle, htitle]
  cases hl : h.title m.chatId with
  | some t =>
    refine ⟨rfl, ⟨fun id => ?_, huser⟩, rfl, rfl⟩
    by_cases hid : m.chatId = id
    · rw [← hid, title_tell_message, htitle, hl]
      rfl
    · rw [hout id hid, hk.title id]
  | none =>
    refine ⟨rfl, ⟨fun id => ?_, huser⟩, rfl, rfl⟩
    rw [lookup_assign]
    split
    · rename_i hid
      rw [← hid, title_tell_message, hl]
      rfl
    · rename_i hid
      rw [hout id hid, hk.title id]

theorem Knows.processUpdate (hk : c.Knows h) (u : Update) :
    (c.processUpdate readable latestTgfid u).1.Knows (h.tell u) := by
  cases u with
  | newChat id title | chatTitle id title => exact hk.retitle (fun _ => rfl) (fun _ => rfl) (fun _ => rfl)
  | user id user =>
    refine ⟨fun chatId => (hk.title chatId).trans (title_tell_none rfl rfl).symm, fun userId => ?_⟩
    rw [TdCollector.processUpdate, lookup_assign]
    split
    · rename_i hid
      simp [Told.user, Told.tell, Update.userFor, hid]
    · rename_i hid
      exact (hk.user userId).trans (user_tell_none (u := .user id user) (if_neg hid)).symm
  | newMessage m =>
    obtain ⟨-, hknows, -, -⟩ := hk.touchTitle (m := m)
    simp only [TdCollector.processUpdate]
    split
    · split <;> exact hknows
    · exact ⟨hknows.title, hknows.user⟩
  | other => exact ⟨fun id => (hk.title id).trans (title_tell_none rfl rfl).symm, fun id => hk.user id⟩

theorem knows_after (c₀ : TdCollector) (past : List (Int64 × Update)) :
    (after readable c₀ past).Knows ⟨c₀, past.map (·.2)⟩ := by
  induction past with
  | nil => exact ⟨fun id => by simp [after, Told.title], fun id => by simp [after, Told.user]⟩
  | cons u past ih => exact ih.processUpdate u.2

/-! ### The queue -/

theorem Knows.queues (hk : c.Knows h) (readable : UInt32 → Bytes) (latestTgfid : Int64) (u : Update) :
    let msgs := (h.tell u).queues readable latestTgfid u
    (c.processUpdate readable latestTgfid u).1.mq = msgs ++ c.mq ∧
      (c.processUpdate readable latestTgfid u).1.itMsgTotal = c.itMsgTotal + UInt32.ofNat msgs.length := by
  cases u with
  | newChat | chatTitle | user | other => exact ⟨rfl, (UInt32.add_zero _).symm⟩
  | newMessage m =>
    obtain ⟨htitle, hknows, hmq, htotal⟩ := hk.touchTitle (m := m)
    simp only [TdCollector.processUpdate, Told.queues]
    split
    · refine ⟨?_, ?_⟩
      · split <;> exact hmq
      · split <;> exact htotal.trans (UInt32.add_zero _).symm
    · refine ⟨?_, by rw [htotal]; rfl⟩
      rw [hmq, htitle, TgMsg.ofParts, hknows.senderName, Told.msg, title_tell_message]
      rfl

/-- After any updates the queue holds, in front of what it held before, each message of another chat under the
    names told by its arrival, and the counter has counted them. -/
theorem queue_told (readable : UInt32 → Bytes) (c₀ : TdCollector) (past : List (Int64 × Update)) :
    (after readable c₀ past).mq = queued readable c₀ past ++ c₀.mq ∧
      (after readable c₀ past).itMsgTotal = c₀.itMsgTotal + UInt32.ofNat (queued readable c₀ past).length := by
  induction past with
  | nil => exact ⟨rfl, (UInt32.add_zero _).symm⟩
  | cons u past ih =>
    obtain ⟨hmq, htotal⟩ := (knows_after c₀ past).queues readable u.1 u.2
    refine ⟨?_, ?_⟩
    · rw [after, hmq, ih.1, queued, List.append_assoc]
      rfl
    · rw [after, htotal, ih.2, queued, List.length_append, UInt32.ofNat_add, UInt32.add_assoc,
        UInt32.add_comm (UInt32.ofNat (queued _ _ _).length)]
      rfl

/-- A chat without a title writes in its own name, is renamed, and writes again. -/
example :
    (queued (fun _ => []) { users := [], chatTitles := [], mq := [], itMsgTotal := 0 }
      [(-1, .newMessage ⟨5, .chat 5, .text (str "b"), 0⟩), (-1, .chatTitle 5 (str "News")),
        (-1, .newMessage ⟨5, .chat 5, .text (str "a"), 0⟩)]).map (fun msg => (msg.title, msg.sender, msg.txt)) =
      [(str "News", str "News(chat)", str "b"), ([], str "(chat)", str "a")] := by
  decide

end

end TdCollector

end TgFocus
