import TgFocus.TdUpdates
import TgFocus.Library.Utf8
import TgFocus.Theorems.Numbers

/-! The texts of the messages that are queued. They are put together from texts of TDLib and literals, and so
    are valid UTF-8; but for the kinds of messages that are not supported a byte of the id is appended. -/

namespace TgFocus

/-- The texts that TDLib gives are valid. -/
def User.Valid (u : User) : Prop :=
  Utf8.Valid u.firstName ∧ Utf8.Valid u.lastName ∧ ∀ username ∈ u.username, Utf8.Valid username

def MessageContent.Valid : MessageContent → Prop
  | .text s | .photo s | .animatedEmoji s | .sticker s => Utf8.Valid s
  | .other _ => True

def Update.Valid : Update → Prop
  | .newChat _ title | .chatTitle _ title => Utf8.Valid title
  | .user _ u => u.Valid
  | .newMessage m => m.content.Valid
  | .other => True

def MessageContent.supported : MessageContent → Bool
  | .other _ => false
  | _ => true

/-- The fields of a queued message are valid, and a message of a kind that is not supported says which. -/
structure QueuedWell (m : Message) (msg : TgMsg) : Prop where
  title : Utf8.Valid msg.title
  sender : Utf8.Valid msg.sender
  txt : Utf8.Valid msg.txt
  ignored : ∀ id, m.content = .other id → msg.txt = str "ignored message with ID " ++ decimalInt id.toInt

namespace TdCollector

/-- The names that are kept are valid. -/
structure ValidNames (c : TdCollector) : Prop where
  users : ∀ p ∈ c.users, p.2.Valid
  chatTitles : ∀ p ∈ c.chatTitles, Utf8.Valid p.2

section
variable {c : TdCollector} {readable : UInt32 → Bytes} {latestTgfid : Int64} {m : Message}

theorem forall_mem_assign {α : Type} {map : List (Int64 × α)} {key : Int64} {value : α} {P : α → Prop}
    (h : ∀ p ∈ map, P p.2) (hv : P value) : ∀ p ∈ assign map key value, P p.2 := by
  intro p hp
  rcases List.mem_cons.mp hp with rfl | hp
  · exact hv
  · exact h p (List.mem_of_mem_filter hp)

/-! ### Names -/

theorem of_lookup {α : Type} {map : List (Int64 × α)} {key : Int64} {value : α} {P : α → Prop}
    (h : ∀ p ∈ map, P p.2) (hl : map.lookup key = some value) : P value := by
  obtain ⟨l₁, l₂, rfl, -⟩ := List.lookup_eq_some_iff.mp hl
  exact h (key, value) (by simp)

theorem valid_getUserName (h : c.ValidNames) (userId : Int64) : Utf8.Valid (c.getUserName userId) := by
  rw [getUserName]
  cases hl : c.users.lookup userId with
  | none =>
    dsimp only
    decide
  | some user =>
    obtain ⟨hfirst, hlast, husername⟩ := of_lookup (P := User.Valid) h.users hl
    have hname := (hfirst.append (by decide : Utf8.Valid (str " "))).append hlast
    dsimp only
    cases hu : user.username with
    | none => exact hname
    | some username =>
      exact (hname.append (by decide : Utf8.Valid (str " @"))).append (husername username hu)

theorem valid_getChatTitle (h : c.ValidNames) (chatId : Int64) : Utf8.Valid (c.getChatTitle chatId) := by
  rw [getChatTitle]
  cases hl : c.chatTitles.lookup chatId with
  | none =>
    dsimp only
    decide
  | some title => exact of_lookup (P := Utf8.Valid) h.chatTitles hl

theorem valid_senderName (h : c.ValidNames) (senderId : MessageSender) : Utf8.Valid (c.senderName senderId) := by
  cases senderId with
  | user userId => exact valid_getUserName h userId
  | chat chatId => exact (valid_getChatTitle h chatId).append (by decide)

theorem touchTitle_valid (h : c.ValidNames) (chatId : Int64) :
    Utf8.Valid (c.touchTitle chatId).1 ∧ (c.touchTitle chatId).2.ValidNames := by
  rw [touchTitle]
  cases hl : c.chatTitles.lookup chatId with
  | none => exact ⟨rfl, h.users, forall_mem_assign (P := Utf8.Valid) h.chatTitles rfl⟩
  | some title => exact ⟨of_lookup (P := Utf8.Valid) h.chatTitles hl, h⟩

theorem mq_touchTitle (c : TdCollector) (chatId : Int64) : (c.touchTitle chatId).2.mq = c.mq := by
  rw [touchTitle]
  split <;> rfl

/-! ### Texts -/

theorem valid_textOf {content : MessageContent} (h : content.Valid) (hs : content.supported = true) :
    Utf8.Valid (textOf content) := by
  cases content with
  | text s => exact h
  | photo s | animatedEmoji s | sticker s =>
    exact ((Utf8.Valid.append (by decide) (by decide)).append h).append (by decide)
  | other id => cases hs

/-- One byte is never the number that it was cut from. -/
theorem byte_ne_decimalInt (id : Int32) : [id.toInt8.toUInt8] ≠ decimalInt id.toInt := by
  intro h
  rw [decimalInt] at h
  split at h
  · exact decimal_ne_nil (List.cons.inj h).2.symm
  · rename_i hpos
    have hdigit : isDigit id.toInt8.toUInt8 = true := isDigit_decimal _ (h ▸ List.mem_cons_self)
    have hvalue := leadingNat_decimal id.toInt.natAbs
    rw [← h] at hvalue
    simp only [leadingNat, List.takeWhile_cons, hdigit, ↓reduceIte, List.takeWhile_nil, List.foldl_cons, List.foldl_nil]
      at hvalue
    -- a number that is one digit is its own byte, and no digit
    have hrange := isDigit_iff.mp hdigit
    have hint : id.toInt8.toInt = id.toInt := by
      rw [Int32.toInt_toInt8]
      exact Int.bmod_eq_of_le (by omega) (by omega)
    have hbyte : id.toInt8.toUInt8.toNat = id.toInt.toNat := by
      rw [Int8.toNat_toUInt8_of_le, Int8.toNatClampNeg, hint]
      rw [Int8.le_iff_toInt_le, Int8.toInt_zero, hint]
      omega
    omega

/-- What is queued for a message of another chat is as it should be exactly when the message is of a kind
    that is supported. -/
theorem queuedWell_iff (h : c.ValidNames) (hm : m.content.Valid) (hchat : m.chatId ≠ latestTgfid) :
    (∃ msg, (c.processUpdate readable latestTgfid (.newMessage m)).1.mq = msg :: c.mq ∧ QueuedWell m msg) ↔
      m.content.supported = true := by
  obtain ⟨htitle, hnames⟩ := touchTitle_valid h m.chatId
  have hmq : (c.processUpdate readable latestTgfid (.newMessage m)).1.mq =
      TgMsg.ofParts readable (c.touchTitle m.chatId).1 ((c.touchTitle m.chatId).2.senderName m.senderId)
        (textOf m.content) m.date :: c.mq := by
    simp only [processUpdate, if_neg hchat, mq_touchTitle]
  rw [hmq]
  constructor
  · rintro ⟨msg, heq, hwell⟩
    obtain ⟨rfl, -⟩ := List.cons.inj heq
    cases hcontent : m.content with
    | text s | photo s | animatedEmoji s | sticker s => rfl
    | other id =>
      have htxt := hwell.ignored id hcontent
      simp only [TgMsg.ofParts, textOf, hcontent, List.append_cancel_left_eq] at htxt
      exact absurd htxt (byte_ne_decimalInt id)
  · intro hs
    refine ⟨_, rfl, htitle, valid_senderName hnames m.senderId, valid_textOf hm hs, fun id hid => ?_⟩
    rw [hid] at hs
    cases hs

/-! ### Updates one after another -/

/-- The names that are kept and all that is queued are valid. -/
structure ValidTexts (c : TdCollector) : Prop extends ValidNames c where
  queued : ∀ msg ∈ c.mq, Utf8.Valid msg.title ∧ Utf8.Valid msg.sender ∧ Utf8.Valid msg.txt

/-- An update with valid texts, and no message of another kind. -/
def Harmless (u : Update) : Prop := u.Valid ∧ ∀ m, u = .newMessage m → m.content.supported = true

theorem ValidTexts.processUpdate {u : Update} (h : c.ValidTexts) (hu : Harmless u) :
    (c.processUpdate readable latestTgfid u).1.ValidTexts := by
  obtain ⟨hvalid, hs⟩ := hu
  cases u with
  | newChat id title | chatTitle id title =>
    exact ⟨⟨h.users, forall_mem_assign (P := Utf8.Valid) h.chatTitles hvalid⟩, h.queued⟩
  | user id user => exact ⟨⟨forall_mem_assign (P := User.Valid) h.users hvalid, h.chatTitles⟩, h.queued⟩
  | newMessage m =>
    obtain ⟨htitle, hnames⟩ := touchTitle_valid h.toValidNames m.chatId
    have hqueued : ∀ msg ∈ (c.touchTitle m.chatId).2.mq,
        Utf8.Valid msg.title ∧ Utf8.Valid msg.sender ∧ Utf8.Valid msg.txt := by
      rw [mq_touchTitle]
      exact h.queued
    simp only [TdCollector.processUpdate]
    split
    · split <;> exact ⟨hnames, hqueued⟩
    · refine ⟨⟨hnames.users, hnames.chatTitles⟩, fun msg hmsg => ?_⟩
      rcases List.mem_cons.mp hmsg with rfl | hmsg
      · exact ⟨htitle, valid_senderName hnames m.senderId, valid_textOf hvalid (hs m rfl)⟩
      · exact hqueued msg hmsg
  | other => exact h

theorem ValidTexts.processUpdates {us : List Update} (h : c.ValidTexts) (hus : ∀ u ∈ us, Harmless u) :
    (us.foldl (fun c u => (c.processUpdate readable latestTgfid u).1) c).ValidTexts := by
  induction us generalizing c with
  | nil => exact h
  | cons u us ih =>
    exact ih (h.processUpdate (hus u List.mem_cons_self)) fun u' hu' => hus u' (List.mem_cons_of_mem u hu')

end

/-! ### Messages -/

def someone : TdCollector where
  users := [(7, { firstName := str "Li", lastName := str "水", username := some (str "li") })]
  chatTitles := [(5, str "群组")]
  mq := []
  itMsgTotal := 0

theorem validNames_someone : someone.ValidNames where
  users p hp := by
    obtain rfl := List.mem_singleton.mp hp
    refine ⟨by decide, by decide, fun username h => ?_⟩
    obtain rfl := Option.some.inj h
    decide
  chatTitles p hp := by
    obtain rfl := List.mem_singleton.mp hp
    dsimp only
    decide

def messageOf (content : MessageContent) : Message where
  chatId := 5
  senderId := .user 7
  content := content
  date := 0

def photo : Message := messageOf (.photo (str "水"))

theorem queuedWell_photo :
    ∃ msg, (someone.processUpdate (fun _ => []) (-1) (.newMessage photo)).1.mq = msg :: someone.mq ∧
      QueuedWell photo msg :=
  have hm : photo.content.Valid := (by decide : Utf8.Valid (str "水"))
  (queuedWell_iff validNames_someone hm (by decide)).mpr rfl

/-- For a kind with the id 255 the text ends with the byte 255. -/
theorem not_queuedWell :
    ((someone.processUpdate (fun _ => []) (-1) (.newMessage (messageOf (.other 255)))).1.mq.map (·.txt) =
        [str "ignored message with ID " ++ [0xff]]) ∧
      ¬Utf8.Valid (str "ignored message with ID " ++ [0xff]) ∧
      ¬∀ (c : TdCollector) (readable : UInt32 → Bytes) (latestTgfid : Int64) (m : Message), c.ValidNames →
        m.content.Valid → m.chatId ≠ latestTgfid →
        ∃ msg, (c.processUpdate readable latestTgfid (.newMessage m)).1.mq = msg :: c.mq ∧ QueuedWell m msg := by
  refine ⟨by decide, by decide, fun h => ?_⟩
  obtain ⟨msg, hmq, hwell⟩ := h someone (fun _ => []) (-1) (messageOf (.other 255)) validNames_someone trivial (by decide)
  cases hmq
  have hno := hwell.txt
  revert hno
  decide

end TdCollector

end TgFocus
