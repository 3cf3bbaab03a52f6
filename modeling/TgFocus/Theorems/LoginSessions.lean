import Mathlib.Data.List.TakeWhile
import TgFocus.TdAuth
import TgFocus.Theorems.Settings

/-! The credentials across logins. A process stores what it had sent, and only when the client says that the
    user is logged in; so the collector sends what the last login had sent that finished its stores. A process
    that is killed in the middle leaves the beginning of a file. -/

namespace TgFocus.TdAuth
open Transition FilterSessions

/-! ### Trimmed texts -/

section
variable {s : Bytes}

theorem ltrim_eq_self (h : ∀ b ∈ s.head?, isSpace b = false) : DataRoot.ltrim s = s := by
  cases s with
  | nil => rfl
  | cons b s => rw [DataRoot.ltrim, List.dropWhile_cons_of_neg (by simp [h b rfl])]

theorem rtrim_eq_self (h : ∀ b ∈ s.getLast?, isSpace b = false) : DataRoot.rtrim s = s := by
  have hrev : DataRoot.ltrim s.reverse = s.reverse := ltrim_eq_self (by rwa [List.head?_reverse])
  change (DataRoot.ltrim s.reverse).reverse = s
  rw [hrev, List.reverse_reverse]

theorem trim_of_noSpace (h : ∀ b ∈ s, isSpace b = false) : DataRoot.trim s = s := by
  rw [DataRoot.trim, rtrim_eq_self fun b hb => h b (List.mem_of_getLast? hb),
    ltrim_eq_self fun b hb => h b (List.mem_of_head? hb)]

theorem head?_ltrim (s : Bytes) : ∀ b ∈ (DataRoot.ltrim s).head?, isSpace b = false := by
  intro b hb
  have hdrop := List.head?_dropWhile_not isSpace s
  rw [DataRoot.ltrim] at hb
  rw [hb] at hdrop
  simpa using hdrop

theorem getLast?_rtrim (s : Bytes) : ∀ b ∈ (DataRoot.rtrim s).getLast?, isSpace b = false := by
  intro b hb
  rw [DataRoot.rtrim, List.getLast?_reverse] at hb
  exact head?_ltrim s.reverse b hb

/-- What is left of a text has no white space at its ends, so trimming it again does nothing. -/
theorem trim_trim : DataRoot.trim (DataRoot.trim s) = DataRoot.trim s := by
  have hlast : ∀ b ∈ (DataRoot.trim s).getLast?, isSpace b = false := by
    intro b hb
    obtain ⟨pre, hpre⟩ : DataRoot.trim s <:+ DataRoot.rtrim s := List.dropWhile_suffix _
    refine getLast?_rtrim s b ?_
    rw [← hpre, List.getLast?_append, hb]
    rfl
  rw [DataRoot.trim, rtrim_eq_self hlast]
  exact ltrim_eq_self (head?_ltrim (DataRoot.rtrim s))

theorem word_noSpace (c : Cin) : ∀ b ∈ c.word.1, isSpace b = false := by
  intro b hb
  unfold Cin.word at hb
  split at hb
  · cases hb
  · split at hb
    · cases hb
    · simpa using List.mem_takeWhile_imp hb

end

/-! ### The stores -/

/-- The files of the api id and of the api hash. -/
def credentialFiles (u : DataRoot) : Bytes × Bytes := (u.ids.apiId, u.apiHash)

/-- What the stores have made of the two files when `rest` is left of them. -/
inductive Left (apiId : Int32) (apiHash : Bytes) (files : Bytes × Bytes) : List Write → Bytes × Bytes → Prop where
  | all : Left apiId apiHash files (writes apiId apiHash) files
  | inId {pre post : Bytes} (h : pre ++ post = storeBytes 4 apiId.toBitVec) :
    Left apiId apiHash files (post.map .putId ++ (writesOfHash apiHash ++ [.openHint, .putHint])) (pre, files.2)
  | inHash {pre post : Bytes} (hne : apiHash ≠ []) (h : pre ++ post = apiHash) :
    Left apiId apiHash files (post.map .putHash ++ [.openHint, .putHint]) (storeBytes 4 apiId.toBitVec, pre)
  | inHint {rest : List Write} (h : rest = [.putHint] ∨ rest = []) :
    Left apiId apiHash files rest (storeBytes 4 apiId.toBitVec, if apiHash = [] then files.2 else apiHash)

section
variable {u : DataRoot} {apiId : Int32} {apiHash : Bytes} {files : Bytes × Bytes} {w : Write} {rest : List Write}

theorem writesOfHash_of_ne (h : apiHash ≠ []) : writesOfHash apiHash = .openHash :: apiHash.map .putHash :=
  if_neg fun hlen => h (List.length_eq_zero_iff.mp hlen)

theorem foldl_putId (bs : Bytes) (u : DataRoot) :
    (bs.map .putId).foldl Write.apply u = { u with ids := { u.ids with apiId := u.ids.apiId ++ bs } } := by
  induction bs generalizing u with
  | nil => simp
  | cons b bs ih => rw [List.map_cons, List.foldl_cons, ih, Write.apply, List.append_assoc, List.singleton_append]

theorem foldl_putHash (bs : Bytes) (u : DataRoot) :
    (bs.map .putHash).foldl Write.apply u = { u with apiHash := u.apiHash ++ bs } := by
  induction bs generalizing u with
  | nil => simp
  | cons b bs ih => rw [List.map_cons, List.foldl_cons, ih, Write.apply, List.append_assoc, List.singleton_append]

/-- Without a break and without `auth-reset` the stores are the three setters. -/
theorem foldl_writes (apiId : Int32) (apiHash : Bytes) (u : DataRoot) :
    (writes apiId apiHash).foldl Write.apply u = ((u.setApiId apiId).setApiHash apiHash).setAuthHint true := by
  have hhash : ∀ u : DataRoot, (writesOfHash apiHash).foldl Write.apply u = u.setApiHash apiHash := by
    intro u
    rw [writesOfHash, DataRoot.setApiHash]
    split
    · rfl
    · rw [List.foldl_cons, foldl_putHash]
      rfl
  rw [writes, List.cons_append, List.foldl_cons, List.foldl_append, List.foldl_append, foldl_putId, hhash]
  rfl

/-- One byte of the stores. -/
theorem Left.step (h : Left apiId apiHash files (w :: rest) (credentialFiles u)) :
    Left apiId apiHash files rest (credentialFiles (w.apply u)) := by
  obtain ⟨pair, hpair⟩ : ∃ pair, credentialFiles u = pair := ⟨_, rfl⟩
  obtain ⟨l, hl⟩ : ∃ l, w :: rest = l := ⟨_, rfl⟩
  rw [hpair, hl] at h
  cases h with
  | all =>
    obtain ⟨rfl, rfl⟩ := List.cons.inj hl
    rw [← hpair]
    exact .inId (List.nil_append _)
  | @inId pre post hid =>
    obtain ⟨hpre, hhash⟩ := Prod.mk.inj hpair
    cases post with
    | cons b post =>
      obtain ⟨rfl, rfl⟩ := List.cons.inj hl
      have hfiles : credentialFiles (Write.apply u (.putId b)) = (pre ++ [b], files.2) := by
        rw [← hpre, ← hhash]
        rfl
      rw [hfiles]
      exact .inId (by rw [List.append_assoc]; exact hid)
    | nil =>
      rw [List.append_nil] at hid
      subst hid
      by_cases hne : apiHash = []
      · subst hne
        obtain ⟨rfl, rfl⟩ := List.cons.inj hl
        rw [show credentialFiles (Write.apply u .openHint) = credentialFiles u from rfl, hpair]
        exact .inHint (.inl rfl)
      · rw [writesOfHash_of_ne hne] at hl
        obtain ⟨rfl, rfl⟩ := List.cons.inj hl
        have hfiles : credentialFiles (Write.apply u .openHash) = (storeBytes 4 apiId.toBitVec, []) := by
          rw [← hpre]
          rfl
        rw [hfiles]
        exact .inHash hne (List.nil_append _)
  | @inHash pre post hne hhash =>
    obtain ⟨hid, hpre⟩ := Prod.mk.inj hpair
    cases post with
    | cons b post =>
      obtain ⟨rfl, rfl⟩ := List.cons.inj hl
      have hfiles : credentialFiles (Write.apply u (.putHash b)) = (storeBytes 4 apiId.toBitVec, pre ++ [b]) := by
        rw [← hpre, ← hid]
        rfl
      rw [hfiles]
      exact .inHash hne (by rw [List.append_assoc]; exact hhash)
    | nil =>
      rw [List.append_nil] at hhash
      subst hhash
      obtain ⟨rfl, rfl⟩ := List.cons.inj hl
      have hfiles : credentialFiles (Write.apply u .openHint) =
          (storeBytes 4 apiId.toBitVec, if pre = [] then files.2 else pre) := by
        rw [if_neg hne, ← hpair]
        rfl
      rw [hfiles]
      exact .inHint (.inl rfl)
  | inHint hrest =>
    rcases hrest with rfl | rfl
    · obtain ⟨rfl, rfl⟩ := List.cons.inj hl
      rw [show credentialFiles (Write.apply u .putHint) = credentialFiles u from rfl, hpair]
      exact .inHint (.inr rfl)
    · cases hl

/-- Behind the last byte. -/
theorem Left.files_eq {f : Bytes × Bytes} (h : Left apiId apiHash files [] f) :
    f = (storeBytes 4 apiId.toBitVec, if apiHash = [] then files.2 else apiHash) := by
  obtain ⟨l, hl⟩ : ∃ l : List Write, [] = l := ⟨_, rfl⟩
  rw [hl] at h
  cases h with
  | all => cases hl
  | inId => simp at hl
  | inHash => simp at hl
  | inHint => rfl

theorem Left.of_putHint {f : Bytes × Bytes} (h : Left apiId apiHash files (.putHint :: rest) f) : rest = [] := by
  obtain ⟨l, hl⟩ : ∃ l, Write.putHint :: rest = l := ⟨_, rfl⟩
  rw [hl] at h
  cases h with
  | all => cases hl
  | @inId pre post =>
    rcases post with - | ⟨b, post⟩
    · rw [writesOfHash] at hl
      split at hl <;> cases hl
    · cases hl
  | @inHash pre post => rcases post with - | ⟨b, post⟩ <;> cases hl
  | inHint hrest =>
    rcases hrest with rfl | rfl
    · exact (List.cons.inj hl).2
    · cases hl

/-- Before the last byte nobody comes to count as logged in. -/
theorem Left.authHint {f : Bytes × Bytes} (h : Left apiId apiHash files (w :: rest) f) (hne : rest ≠ [])
    (hhint : (w.apply u).authHint = str "a") : u.authHint = str "a" := by
  cases w with
  | openHint => exact absurd hhint (by decide : ([] : Bytes) ≠ str "a")
  | putHint => exact absurd h.of_putHint hne
  | openId | putId b | openHash | putHash b => exact hhint

/-- In the middle each file is the one before, or the beginning of what is to stand there. -/
theorem Left.prefix {f : Bytes × Bytes} (h : Left apiId apiHash files rest f) :
    (f.1 = files.1 ∨ f.1 <+: storeBytes 4 apiId.toBitVec) ∧ (f.2 = files.2 ∨ f.2 <+: apiHash) := by
  cases h with
  | all => exact ⟨.inl rfl, .inl rfl⟩
  | inId h => exact ⟨.inr ⟨_, h⟩, .inl rfl⟩
  | inHash hne h => exact ⟨.inr (List.prefix_refl _), .inr ⟨_, h⟩⟩
  | inHint =>
    refine ⟨.inr (List.prefix_refl _), ?_⟩
    dsimp only
    split
    · exact .inl rfl
    · exact .inr (List.prefix_refl _)

end

/-! ### What a turn can do -/

def Pc.left : Pc → Option (List Write)
  | .storing rest _ => some rest
  | _ => none

/-- The fields behind what is stored are those of another session. -/
structure Session.SameCredentials (s t : Session) : Prop where
  parameters : t.parameters = s.parameters
  apiId : t.apiId = s.apiId
  apiHash : t.apiHash = s.apiHash
  left : t.pc.left = s.pc.left

def Session.storing (s : Session) (inDtor : Bool) : Session :=
  { s with pc := .storing (writes s.apiId s.apiHash) inDtor }

/-- The history of a process whose stores begin. -/
def Process.begun (p : Process) : Logins :=
  { p.logins with begun := some { apiId := p.root.ids.apiId, apiHash := p.root.apiHash, sent := p.session.parameters } }

/-- The files are kept, and the credentials of the session are kept or were just asked for and sent; or the
    client has said that the user is logged in, and the stores begin. -/
inductive Moved (p q : Process) : Prop where
  | kept (hroot : q.root = p.root) (hlogins : q.logins = p.logins) (hs : p.session.SameCredentials q.session)
  | asked (hroot : q.root = p.root) (hlogins : q.logins = p.logins)
      (hsent : q.session.parameters = some (.setTdlibParameters q.session.apiId q.session.apiHash))
      (hhash : q.session.apiHash = p.credentials.2.1) (hleft : q.session.pc.left = none)
  | began (inDtor : Bool) (hroot : q.root = p.root) (hlogins : q.logins = p.begun)
      (hs : (p.session.storing inDtor).SameCredentials q.session)

section
variable {p q : Process} {s t u : Session}

theorem Session.SameCredentials.refl (s : Session) : s.SameCredentials s := ⟨rfl, rfl, rfl, rfl⟩

theorem Session.SameCredentials.trans (h : s.SameCredentials t) (h' : t.SameCredentials u) : s.SameCredentials u :=
  ⟨h'.parameters.trans h.parameters, h'.apiId.trans h.apiId, h'.apiHash.trans h.apiHash, h'.left.trans h.left⟩

theorem parameters_sendQuery {tdfn : Query} {cb : Option Callback} :
    (s.sendQuery tdfn cb).parameters =
      match tdfn with
      | .setTdlibParameters apiId apiHash => some (.setTdlibParameters apiId apiHash)
      | _ => s.parameters := by
  cases tdfn <;> simp [Session.parameters, Session.sendQuery]

theorem Moved.refl (p : Process) : Moved p p := .kept rfl rfl (.refl _)

/-- What happens behind a move and leaves the credentials alone belongs to it. -/
theorem Moved.mapSession {f : Session → Session} (h : Moved p q)
    (hf : q.session.SameCredentials (f q.session)) : Moved p (q.mapSession f) := by
  cases h with
  | kept hroot hlogins hs => exact .kept hroot hlogins (hs.trans hf)
  | asked hroot hlogins hsent hhash hleft =>
    refine .asked hroot hlogins ?_ (hf.apiHash.trans hhash) (hf.left.trans hleft)
    rw [Process.mapSession, hf.parameters, hsent, hf.apiId, hf.apiHash]
  | began inDtor hroot hlogins hs => exact .began inDtor hroot hlogins (hs.trans hf)

theorem moved_onAuthorizationStateUpdate (hleft : p.session.pc.left = none) :
    Moved p p.onAuthorizationStateUpdate := by
  unfold Process.onAuthorizationStateUpdate
  split
  · exact (Moved.refl p).mapSession ⟨rfl, rfl, rfl, hleft.symm⟩
  · exact .began _ rfl rfl ⟨rfl, rfl, rfl, rfl⟩
  · exact Moved.refl p
  · exact (Moved.refl p).mapSession ⟨rfl, rfl, rfl, rfl⟩
  · exact (Moved.refl p).mapSession ⟨parameters_sendQuery, rfl, rfl, rfl⟩
  · exact (Moved.refl p).mapSession ⟨parameters_sendQuery, rfl, rfl, rfl⟩
  · exact (Moved.refl p).mapSession ⟨parameters_sendQuery, rfl, rfl, rfl⟩
  · exact .asked rfl rfl parameters_sendQuery rfl hleft
  · exact (Moved.refl p).mapSession ⟨rfl, rfl, rfl, hleft.symm⟩

theorem moved_processUpdate (hleft : p.session.pc.left = none) (object : Object) : Moved p (p.processUpdate object) := by
  cases object with
  | updateAuthorizationState stat =>
    have h := moved_onAuthorizationStateUpdate (p := p.mapSession fun s => { s with authStat := some stat }) hleft
    cases h with
    | kept hroot hlogins hs => exact .kept hroot hlogins ⟨hs.parameters, hs.apiId, hs.apiHash, hs.left⟩
    | asked hroot hlogins hsent hhash hleft => exact .asked hroot hlogins hsent hhash hleft
    | began inDtor hroot hlogins hs => exact .began inDtor hroot hlogins ⟨hs.parameters, hs.apiId, hs.apiHash, hs.left⟩
  | ok | error message | other id => exact Moved.refl p

theorem moved_runCallback (hleft : p.session.pc.left = none) (f : Callback) (object : Object) :
    Moved p (p.runCallback f object) := by
  cases f with
  | close => exact Moved.refl p
  | auth =>
    cases object with
    | error message =>
      simp only [Process.runCallback, Process.authQueryCallback]
      split
      · exact moved_onAuthorizationStateUpdate hleft
      · exact (Moved.refl p).mapSession ⟨rfl, rfl, rfl, hleft.symm⟩
    | ok | updateAuthorizationState stat | other id => exact Moved.refl p

theorem moved_processResponse (hleft : p.session.pc.left = none) (response : Response) :
    Moved p (p.processResponse response) := by
  unfold Process.processResponse
  split
  · exact Moved.refl p
  · split
    · exact moved_processUpdate hleft _
    · split
      · exact Moved.refl p
      · exact (moved_runCallback hleft _ _).mapSession ⟨rfl, rfl, rfl, rfl⟩

theorem sameCredentials_testLoop (p : Process) : p.session.SameCredentials p.testLoop.session := by
  unfold Process.testLoop
  split
  · rename_i hpc
    split
    · exact ⟨parameters_sendQuery, rfl, rfl, by rw [hpc]; rfl⟩
    · exact .refl _
  · rename_i hpc
    split
    · exact ⟨rfl, rfl, rfl, by rw [hpc]; rfl⟩
    · exact .refl _
  · exact .refl _

theorem testLoop_eq (p : Process) : p.testLoop = p.mapSession fun _ => p.testLoop.session := by
  unfold Process.testLoop
  split
  · split <;> rfl
  · split <;> rfl
  · rfl

theorem moved_receive {response : Response} (h : p.receive response = some q) : Moved p q := by
  have hmoved : p.session.pc.left = none → Moved p (p.processResponse response).testLoop := by
    intro hleft
    rw [testLoop_eq]
    exact (moved_processResponse hleft response).mapSession (sameCredentials_testLoop _)
  unfold Process.receive at h
  split at h
  · rename_i hpc
    obtain rfl := Option.some.inj h
    exact hmoved (by rw [hpc]; rfl)
  · rename_i hpc
    obtain rfl := Option.some.inj h
    exact hmoved (by rw [hpc]; rfl)
  · cases h

/-- A byte of the stores is written; behind the last one they count as finished. -/
theorem store_cases (h : p.store = some q) :
    ∃ w rest, p.session.pc.left = some (w :: rest) ∧ q.root = w.apply p.root ∧
      q.session.parameters = p.session.parameters ∧ q.session.apiId = p.session.apiId ∧
      q.session.apiHash = p.session.apiHash ∧
      (rest = [] ∧ q.logins = { stored := some p.session.parameters } ∧ q.session.pc.left = none ∨
        rest ≠ [] ∧ q.logins = p.logins ∧ q.session.pc.left = some rest) := by
  unfold Process.store at h
  split at h
  · cases h
  · rename_i w inDtor hpc
    obtain rfl := Option.some.inj h
    rw [testLoop_eq]
    have hsame := sameCredentials_testLoop {
      root := w.apply p.root
      session := { p.session with isLogin := true, pc := if inDtor then .closing else .looping }
      logins := { stored := some p.session.parameters, begun := none } }
    refine ⟨w, [], by rw [hpc]; rfl, rfl, hsame.parameters, hsame.apiId, hsame.apiHash, .inl ⟨rfl, rfl, ?_⟩⟩
    exact hsame.left.trans (by cases inDtor <;> rfl)
  · rename_i w rest inDtor hne hpc
    obtain rfl := Option.some.inj h
    exact ⟨w, rest, by rw [hpc]; rfl, rfl, rfl, rfl, rfl, .inr ⟨hne, rfl, rfl⟩⟩
  · cases h

end

/-! ### Invariants -/

/-- What a session would store is what it has sent, and is trimmed. -/
structure Session.Sound (s : Session) : Prop where
  sent : s.parameters = none ∨ s.parameters = some (.setTdlibParameters s.apiId s.apiHash)
  trimmed : DataRoot.trim s.apiHash = s.apiHash

/-- The files of the credentials, as the first process found them or as the last login left them. -/
structure Kept (root₀ root : DataRoot) (stored : Option (Option Query)) : Prop where
  before : stored = none → credentialFiles root = credentialFiles root₀
  behind : ∀ apiId apiHash, stored = some (some (.setTdlibParameters apiId apiHash)) →
    root.ids.apiId = storeBytes 4 apiId.toBitVec ∧ (apiHash ≠ [] → root.apiHash = apiHash) ∧
      DataRoot.trim apiHash = apiHash

/-- The files of the credentials while they are stored, or where that was broken off. -/
structure Unfinished (root : DataRoot) (b : Begun) (login : Option Session) : Prop where
  intro ::
  left : ∃ apiId apiHash rest, Left apiId apiHash (b.apiId, b.apiHash) rest (credentialFiles root) ∧
    (b.sent = none ∨ b.sent = some (.setTdlibParameters apiId apiHash)) ∧
    ∀ s l, login = some s → s.pc.left = some l →
      l = rest ∧ s.apiId = apiId ∧ s.apiHash = apiHash ∧ s.parameters = b.sent

structure Inv (root₀ : DataRoot) (w : World) : Prop where
  session : ∀ s, w.login = some s → s.Sound
  hint : w.logins.stored = none → w.root.authHint = str "a" → root₀.authHint = str "a"
  kept : w.logins.begun = none → Kept root₀ w.root w.logins.stored
  idle : w.logins.begun = none → ∀ s, w.login = some s → s.pc.left = none
  unfinished : ∀ b, w.logins.begun = some b → Unfinished w.root b w.login

section
variable {root₀ root root' : DataRoot} {w t : World} {a : Act} {p q : Process} {stored : Option (Option Query)}
  {b : Begun} {login : Option Session} {s : Session} {logins : Logins}

theorem sound_start (ours : Bool) (input : Bytes) : (Session.start ours input).Sound := ⟨.inl rfl, rfl⟩

theorem ourApiHash_noSpace : ∀ b ∈ ourApiHash, isSpace b = false := by
  have hall : ourApiHash.all (fun b => !isSpace b) = true := by decide
  simpa using hall

theorem trim_credentials (p : Process) : DataRoot.trim p.credentials.2.1 = p.credentials.2.1 := by
  unfold Process.credentials
  split
  · rw [DataRoot.getApiHash_eq]
    exact trim_trim
  · split
    · exact trim_of_noSpace ourApiHash_noSpace
    · exact trim_of_noSpace (word_noSpace _)

theorem Session.Sound.of_eq {s t : Session} (h : s.Sound) (hparams : t.parameters = s.parameters)
    (hid : t.apiId = s.apiId) (hhash : t.apiHash = s.apiHash) : t.Sound := by
  refine ⟨?_, ?_⟩
  · rw [hparams, hid, hhash]
    exact h.sent
  · rw [hhash]
    exact h.trimmed

theorem Session.Sound.moved (h : p.session.Sound) (hm : Moved p q) : q.session.Sound := by
  cases hm with
  | kept _ _ hs => exact h.of_eq hs.parameters hs.apiId hs.apiHash
  | asked _ _ hsent hhash _ => exact ⟨.inr hsent, hhash ▸ trim_credentials p⟩
  | began _ _ _ hs => exact h.of_eq hs.parameters hs.apiId hs.apiHash

theorem Kept.of_eq (h : Kept root₀ root stored) (hfiles : credentialFiles root' = credentialFiles root) :
    Kept root₀ root' stored := by
  obtain ⟨hid, hhash⟩ := Prod.mk.inj hfiles
  refine ⟨fun hl => hfiles.trans (h.before hl), fun apiId apiHash hl => ?_⟩
  rw [hid, hhash]
  exact h.behind apiId apiHash hl

theorem Unfinished.of_eq (h : Unfinished root b login) (hfiles : credentialFiles root' = credentialFiles root) :
    Unfinished root' b login := by
  obtain ⟨apiId, apiHash, rest, hleft, hsent, hlogin⟩ := h.left
  exact ⟨apiId, apiHash, rest, hfiles ▸ hleft, hsent, hlogin⟩

/-- A session that stores nothing is none of those that are unfinished. -/
theorem Unfinished.of_left_none (h : Unfinished root b login) (hs : s.pc.left = none) : Unfinished root b (some s) := by
  obtain ⟨apiId, apiHash, rest, hleft, hsent, -⟩ := h.left
  refine ⟨apiId, apiHash, rest, hleft, hsent, fun s' l hs' hl => ?_⟩
  obtain rfl := Option.some.inj hs'
  rw [hs] at hl
  cases hl

theorem Unfinished.no_login (h : Unfinished root b login) : Unfinished root b none := by
  obtain ⟨apiId, apiHash, rest, hleft, hsent, -⟩ := h.left
  exact ⟨apiId, apiHash, rest, hleft, hsent, fun s l hs => by cases hs⟩

/-! ### Steps -/

/-- What leaves the credentials alone, and makes nobody count as logged in. -/
theorem Inv.of_root (h : Inv root₀ w) (hfiles : credentialFiles root = credentialFiles w.root)
    (hhint : root.authHint = str "a" → w.root.authHint = str "a") : Inv root₀ { w with root } where
  session := h.session
  hint hl hh := h.hint hl (hhint hh)
  kept hb := (h.kept hb).of_eq hfiles
  idle := h.idle
  unfinished b hb := (h.unfinished b hb).of_eq hfiles

theorem keeps_other (root : DataRoot) {op : DataRoot.Op} (hop : keepsCredentials op = true) :
    credentialFiles (root.apply op) = credentialFiles root ∧ (root.apply op).authHint = root.authHint := by
  cases op with
  | setApiId v | setApiHash s | setAuthHint flag => cases hop
  | _ => exact ⟨rfl, rfl⟩

theorem Inv.authReset {removed : Bool} (h : Inv root₀ w) :
    Inv root₀ { w with root := (handleAuthReset w.root removed).2 } := by
  have hhint : str "u" ≠ str "a" := by decide
  cases removed with
  | false => exact h.of_root rfl fun hh => (hhint hh).elim
  | true => exact h.of_root rfl fun hh => (hhint hh).elim

theorem left_of_receive {response : Response} (h : p.receive response = some q) : p.session.pc.left = none := by
  unfold Process.receive at h
  split at h
  · rename_i hpc
    rw [hpc]
    rfl
  · rename_i hpc
    rw [hpc]
    rfl
  · cases h

theorem Inv.receive (h : Inv root₀ { root := p.root, login := some p.session, logins := p.logins })
    (hleft : p.session.pc.left = none) (hm : Moved p q) :
    Inv root₀ { root := q.root, login := some q.session, logins := q.logins } := by
  have hsound := h.session p.session rfl
  have hsession : ∀ s, some q.session = some s → s.Sound := by
    intro s hs
    obtain rfl := Option.some.inj hs
    exact hsound.moved hm
  have hsame : q.root = p.root → q.logins = p.logins → q.session.pc.left = none →
      Inv root₀ { root := q.root, login := some q.session, logins := q.logins } := by
    intro hroot hlogins hleft'
    rw [hroot, hlogins]
    refine ⟨hsession, h.hint, h.kept, fun _ s hs => ?_, fun b hb => (h.unfinished b hb).of_left_none hleft'⟩
    obtain rfl := Option.some.inj hs
    exact hleft'
  cases hm with
  | kept hroot hlogins hs => exact hsame hroot hlogins (hs.left.trans hleft)
  | asked hroot hlogins _ _ hleft' => exact hsame hroot hlogins hleft'
  | began inDtor hroot hlogins hs =>
    rw [hroot, hlogins]
    refine ⟨hsession, h.hint, fun hb => (by cases hb), fun hb => (by cases hb), fun b hb => ?_⟩
    obtain rfl := Option.some.inj hb
    refine ⟨p.session.apiId, p.session.apiHash, _, .all, hsound.sent, fun s l hs' hl => ?_⟩
    obtain rfl := Option.some.inj hs'
    have hl' : some (writes p.session.apiId p.session.apiHash) = some l := hs.left.symm.trans hl
    exact ⟨(Option.some.inj hl').symm, hs.apiId, hs.apiHash, hs.parameters⟩

theorem Inv.store (h : Inv root₀ { root := p.root, login := some p.session, logins := p.logins })
    (hs : p.store = some q) : Inv root₀ { root := q.root, login := some q.session, logins := q.logins } := by
  obtain ⟨w, rest, hleft, hroot, hparams, hid, hhash, hcases⟩ := store_cases hs
  have hsound := h.session p.session rfl
  have hsession : ∀ s, some q.session = some s → s.Sound := by
    intro s hs
    obtain rfl := Option.some.inj hs
    exact hsound.of_eq hparams hid hhash
  -- the process has begun
  obtain ⟨b, hb⟩ : ∃ b, p.logins.begun = some b := by
    cases hb : p.logins.begun with
    | none =>
      have hnone : p.session.pc.left = none := h.idle hb p.session rfl
      rw [hnone] at hleft
      cases hleft
    | some b => exact ⟨b, rfl⟩
  obtain ⟨apiId, apiHash, rest', hfiles, hsent, hlogin⟩ := (h.unfinished b hb).left
  obtain ⟨rfl, rfl, rfl, hsent'⟩ := hlogin p.session _ rfl hleft
  have hfiles' := hfiles.step
  rw [hroot]
  rcases hcases with ⟨rfl, hlogins, hleft'⟩ | ⟨hne, hlogins, hleft'⟩
  · rw [hlogins]
    obtain ⟨hfileId, hfileHash⟩ := Prod.mk.inj hfiles'.files_eq
    refine ⟨hsession, fun hl => (by cases hl), fun _ => ⟨fun hl => (by cases hl), fun apiId apiHash hl => ?_⟩,
      fun _ s hs => ?_, fun b hb => (by cases hb)⟩
    · have hparams : p.session.parameters = some (.setTdlibParameters apiId apiHash) := Option.some.inj hl
      -- what was sent is what the session holds
      obtain ⟨rfl, rfl⟩ : p.session.apiId = apiId ∧ p.session.apiHash = apiHash := by
        rcases hsound.sent with hnone | hsome
        · rw [hnone] at hparams
          cases hparams
        · rw [hsome] at hparams
          cases hparams
          exact ⟨rfl, rfl⟩
      refine ⟨hfileId, fun hne => ?_, hsound.trimmed⟩
      rw [if_neg hne] at hfileHash
      exact hfileHash
    · obtain rfl := Option.some.inj hs
      exact hleft'
  · rw [hlogins]
    refine ⟨hsession, fun hl hh => h.hint hl (hfiles.authHint hne hh), fun hn => ?_, fun hn => ?_, fun b' hb' => ?_⟩
    · rw [hb] at hn
      cases hn
    · rw [hb] at hn
      cases hn
    · obtain rfl := Option.some.inj (hb.symm.trans hb')
      refine ⟨p.session.apiId, p.session.apiHash, rest, hfiles', hsent, fun s l hs hl => ?_⟩
      obtain rfl := Option.some.inj hs
      obtain rfl := Option.some.inj (hleft'.symm.trans hl)
      exact ⟨rfl, hid, hhash, hparams.trans hsent'⟩

theorem Inv.step (h : Inv root₀ w) (hs : TdAuth.step w a = some t) : Inv root₀ t := by
  cases a with
  | auth ours input =>
    simp only [TdAuth.step] at hs
    split at hs
    · obtain rfl := Option.some.inj hs
      have hroot : Inv root₀ { w with root := w.root.apply .construct } := h.of_root rfl id
      refine ⟨fun s hs => ?_, hroot.hint, hroot.kept, fun _ s hs => ?_, fun b hb => ?_⟩
      · obtain rfl := Option.some.inj hs
        exact sound_start ours input
      · obtain rfl := Option.some.inj hs
        rfl
      · exact (hroot.unfinished b hb).of_left_none rfl
    · cases hs
  | receive response =>
    simp only [TdAuth.step, Option.bind_eq_bind, Option.bind_eq_some_iff, Option.some.injEq] at hs
    obtain ⟨s, hlogin, p, hp, rfl⟩ := hs
    have h' : Inv root₀ { root := w.root, login := some s, logins := w.logins } := hlogin ▸ h
    exact Inv.receive (p := ⟨s, w.root, w.logins⟩) h' (left_of_receive hp) (moved_receive hp)
  | store =>
    simp only [TdAuth.step, Option.bind_eq_bind, Option.bind_eq_some_iff, Option.some.injEq] at hs
    obtain ⟨s, hlogin, p, hp, rfl⟩ := hs
    have h' : Inv root₀ { root := w.root, login := some s, logins := w.logins } := hlogin ▸ h
    exact Inv.store (p := ⟨s, w.root, w.logins⟩) h' hp
  | leave =>
    simp only [TdAuth.step] at hs
    split at hs
    · cases hs
    · obtain rfl := Option.some.inj hs
      exact ⟨fun s hs => (by cases hs), h.hint, h.kept, fun _ s hs => (by cases hs),
        fun b hb => (h.unfinished b hb).no_login⟩
  | authReset removed =>
    obtain rfl := Option.some.inj hs
    exact h.authReset
  | other op =>
    obtain ⟨hop, hs⟩ := Option.ite_none_right_eq_some.mp hs
    obtain rfl := Option.some.inj hs
    obtain ⟨hfiles, hhint⟩ := keeps_other w.root hop
    exact h.of_root hfiles hhint.symm.trans

theorem inv_of_reachable (h : (system root₀).Reachable w) : Inv root₀ w := by
  refine h.invariant ?_ fun s a t hs _ ht => hs.step ht
  rintro s rfl
  exact ⟨fun s hs => (by cases hs), fun _ => id, fun _ => ⟨fun _ => rfl, fun apiId apiHash hl => by cases hl⟩,
    fun _ s hs => (by cases hs), fun b hb => by cases hb⟩

theorem getApiId_of_storeBytes {apiId : Int32} (h : root.ids.apiId = storeBytes 4 apiId.toBitVec) :
    root.getApiId = apiId := by
  have hread := (root.ids.read_back 0 apiId).2.1
  rw [DataRoot.getApiId, StoredIds.getApiId, h]
  exact hread

/-- Until a login has finished its stores nobody counts as logged in who did not so before, and until one has
    begun them the credentials are those that were there. From the end of the stores to the next ones the
    credentials are those that the login had sent, and the collector sends them again. In the middle of the
    stores, where they may have been broken off, each file is as before or the beginning of what was sent. -/
theorem collector_sends_last_login (root₀ : DataRoot) {w : World} (h : (system root₀).Reachable w) :
    (w.logins.stored = none → (w.root.getAuthHint = true → root₀.getAuthHint = true) ∧
      (w.logins.begun = none → collectorParameters w.root = collectorParameters root₀)) ∧
    (∀ apiId apiHash, w.logins = { stored := some (some (.setTdlibParameters apiId apiHash)) } →
      w.root.getApiId = apiId ∧
        (apiHash ≠ [] → ReadWhole apiHash →
          collectorParameters w.root = .setTdlibParameters apiId apiHash)) ∧
    ∀ b apiId apiHash, w.logins.begun = some b → b.sent = some (.setTdlibParameters apiId apiHash) →
      (w.root.ids.apiId = b.apiId ∨ w.root.ids.apiId <+: storeBytes 4 apiId.toBitVec) ∧
        (w.root.apiHash = b.apiHash ∨ w.root.apiHash <+: apiHash) := by
  have hinv := inv_of_reachable h
  refine ⟨fun hl => ⟨fun hhint => ?_, fun hb => ?_⟩, fun apiId apiHash hl => ?_, fun b apiId apiHash hb hsent => ?_⟩
  · rw [DataRoot.getAuthHint_eq, decide_eq_true_iff] at hhint ⊢
    exact hinv.hint hl hhint
  · obtain ⟨hid, hhash⟩ := Prod.mk.inj ((hinv.kept hb).before hl)
    simp only [collectorParameters, DataRoot.getApiHash_eq, hhash, DataRoot.getApiId, StoredIds.getApiId, hid]
  · have hkept := hinv.kept (by rw [hl])
    rw [hl] at hkept
    obtain ⟨hid, hhash, htrim⟩ := hkept.behind apiId apiHash rfl
    refine ⟨getApiId_of_storeBytes hid, fun hne hwhole => ?_⟩
    rw [collectorParameters, DataRoot.getApiHash_eq, getApiId_of_storeBytes hid, hhash hne,
      whole_of_readWhole hwhole, htrim]
  · obtain ⟨apiId', apiHash', rest, hleft, hsent', -⟩ := (hinv.unfinished b hb).left
    rw [hsent] at hsent'
    rcases hsent' with hno | hsame
    · cases hno
    · cases hsame
      exact hleft.prefix

/-- The user types in an api id and an api hash on a machine without files. -/
theorem collector_sends_typed :
    ∃ w, (system (.construct false true true {})).Reachable w ∧
      w.logins = { stored := some (some (.setTdlibParameters 1234 (str "0a1b"))) } ∧
      collectorParameters w.root = .setTdlibParameters 1234 (str "0a1b") := by
  have hlogins : ((system (.construct false true true {})).run (start (.construct false true true {}))
      ([.auth false (str "1234 0a1b\n"),
        .receive { requestId := 0, object := some (.updateAuthorizationState .waitTdlibParameters) },
        .receive { requestId := 0, object := some (.updateAuthorizationState .ready) }] ++
        List.replicate 12 .store)).map (·.logins) =
      some { stored := some (some (.setTdlibParameters 1234 (str "0a1b"))) } := by decide
  obtain ⟨w, hw, hlogins⟩ := Option.map_eq_some_iff.mp hlogins
  have hr := Transition.System.Reachable.run (.init rfl) _ hw
  exact ⟨w, hr, hlogins, ((collector_sends_last_login _ hr).2.1 _ _ hlogins).2 (by decide) (by decide)⟩

end

end TgFocus.TdAuth
