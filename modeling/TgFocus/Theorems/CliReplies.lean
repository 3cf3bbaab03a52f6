import Mathlib.Algebra.Group.Nat.Defs
import TgFocus.Cli
import TgFocus.Theorems.IpcReplies

/-! What the user is told of a request. The CLI sends it, the daemon handles it, and the reply comes back in
    pieces: whether it says `done` depends on how much of the header the first read brings. -/

namespace TgFocus.Cli
open Socket IpcClient IpcConnHandler

/-- The commands that ask the daemon. -/
inductive Request where
  | shutdown | focusStart | focusStop | status
  deriving DecidableEq, Repr

namespace Request

def msg : Request → IpcMsg
  | .shutdown => newIpcmsgShutipcsrv
  | .focusStart => newIpcmsgUpcoll
  | .focusStop => newIpcmsgShutcoll
  | .status => newIpcmsgRstatus

def handle : Request → Option Calls → Outcome
  | .shutdown => handleShutipcsrv
  | .focusStart => handleUpcoll
  | .focusStop => handleShutcoll
  | .status => handleRstatus

/-- A request that waits for the collector to stop. -/
def stops (r : Request) : Bool := r = .shutdown || r = .focusStop

/-- What is printed for a request other than `status`, which has its own text. -/
def told : Request → Bytes → Bytes
  | .shutdown, s => str "shutdown: processing...(need 10~60s)" ++ endl ++ str "shutdown: " ++ s ++ endl
  | .focusStart, s => str "focus-start: " ++ s ++ endl
  | .focusStop, s => str "focus-stop: processing...(need 10~60s)" ++ endl ++ str "focus-stop: " ++ s ++ endl
  | .status, s => str "status: " ++ s ++ endl

/-- The bytes of a header up to the type. -/
def typed : Nat := IpcMsg.nbyteMagic + IpcMsg.nbyteType

end Request

section
variable {s : Status} {collIniterSucc : Bool} {buffer : Bytes} {events : List Event} {r : Request} {nsend : Nat}
  {c : Chunk IpcMsg.nbyteAll} {rest : List Bytes} {msg : IpcMsg} {pubname processing payload : Bytes}

/-! ### The daemon -/

theorem ofBuffer_msg (r : Request) : IpcMsg.ofBuffer r.msg.data = r.msg := by
  cases r <;> exact IpcMsg.ofBuffer_data_newIpcmsg

theorem wellFormed_msg (r : Request) : r.msg.wellFormed = true := by
  cases r <;> exact IpcMsg.wellFormed_newIpcmsg

theorem length_msg (r : Request) : r.msg.data.length = IpcMsg.nbyteAll := by
  cases r <;> exact IpcMsg.length_data_newIpcmsg rfl

theorem typ_msg (r : Request) :
    r.msg.typ = match r with
      | .shutdown => .shutdownIpcSrv
      | .focusStart => .upColl
      | .focusStop => .shutdownColl
      | .status => .reportStatus := by
  cases r <;> exact IpcMsg.typ_newIpcmsg

/-- A request that comes in one piece is decoded as it was sent. -/
theorem readRequest_msg (hb : buffer.length = IpcMsg.nbyteAll) (h : Delivers r.msg.data events)
    (hone : (pieces events).length = 1) : readRequest buffer events = .decoded r.msg := by
  obtain ⟨piece, hpiece⟩ := List.length_eq_one_iff.mp hone
  have hdata : piece = r.msg.data := by
    have hwhole := h.whole
    rwa [hpiece, List.flatten_cons, List.flatten_nil, List.append_nil] at hwhole
  rw [readRequest, readLoop_eq h (by rw [Nat.zero_add, length_msg]), hpiece, hdata, List.foldl_cons, List.foldl_nil,
    overwrite_whole (Nat.le_of_eq (hb.trans (length_msg r).symm)), ofBuffer_msg]

theorem typ_implemented (r : Request) : r.msg.typ ∈ implemented := by
  rw [typ_msg]
  cases r <;> decide

theorem typ_stops (r : Request) : r.msg.typ ∈ [IpcMsgType.shutdownIpcSrv, .shutdownColl] ↔ r.stops = true := by
  rw [typ_msg]
  cases r <;> decide

/-- The daemon waits for ever only for a collector that is up and does not stop. -/
theorem replies_msg :
    replies s collIniterSucc r.msg =
      if r.stops = true ∧ s.isCollUp = true ∧ collIniterSucc = false then none
      else some (if r = .status then [(rhandleRstatus s).1, (rhandleRstatus s).2] else [newIpcmsgSuccess.data]) := by
  by_cases h : r.stops = true ∧ s.isCollUp = true ∧ collIniterSucc = false
  · rw [if_pos h]
    exact replies_waiting ((typ_stops r).mpr h.1) h.2.1 h.2.2
  · rw [if_neg h, replies_implemented (typ_implemented r)]
    · have hstatus : r.msg.typ = .reportStatus ↔ r = .status := by
        rw [typ_msg]
        cases r <;> decide
      simp only [hstatus]
    · intro htyp hup
      by_contra hno
      exact h ⟨(typ_stops r).mp htyp, hup, by simpa using hno⟩

/-! ### The reply of one header -/

theorem zeros_behind_type : ∀ b ∈ newIpcmsgSuccess.data.drop Request.typed, b = 0 := by
  have hall : (newIpcmsgSuccess.data.drop Request.typed).all (· == 0) = true := by decide
  simpa using hall

/-- The client's message when less than the type has come. -/
theorem not_success_of_lt {n : Nat} (hn : n < Request.typed) :
    ((IpcMsg.ofBuffer (newIpcmsgSuccess.data.take n ++ List.replicate (IpcMsg.nbyteAll - n) 0)).wellFormed = true →
      (IpcMsg.ofBuffer (newIpcmsgSuccess.data.take n ++ List.replicate (IpcMsg.nbyteAll - n) 0)).typ ≠ .success) ∧
      ((IpcMsg.ofBuffer (newIpcmsgSuccess.data.take n ++ List.replicate (IpcMsg.nbyteAll - n) 0)).extargsLen.getD
        0).toNat = 0 := by
  revert n
  decide

/-- A reply without a payload needs no more than the first read. -/
theorem sendIpcmsgSync_no_payload (hmsg : msg.wellFormed = true)
    (hext : ((IpcMsg.ofBuffer (received c)).extargsLen.getD 0).toNat = 0) :
    sendIpcmsgSync ⟨.noerr⟩ (pieceCalls nsend c rest) msg =
      .returned (if (IpcMsg.ofBuffer (received c)).wellFormed = true then some (IpcMsg.ofBuffer (received c)) else none)
        ⟨.noerr⟩ := by
  rw [received] at hext ⊢
  simp only [sendIpcmsgSync, pieceCalls, hmsg, Bool.not_true, Bool.false_eq_true, ↓reduceIte, hext, Nat.lt_irrefl]
  split <;> rfl

theorem handleRequest_success (hmsg : msg.wellFormed = true)
    (hwhole : c.bytes ++ rest.flatten = newIpcmsgSuccess.data) :
    handleRequest pubname processing msg (some (pieceCalls nsend c rest)) =
      if Request.typed ≤ c.bytes.length then .returned 0 (processing ++ pubname ++ str "done" ++ endl)
      else .returned 1 (processing ++ pubname ++ str "failed" ++ endl) := by
  have hpre : c.bytes <+: newIpcmsgSuccess.data := ⟨_, hwhole⟩
  by_cases hlen : Request.typed ≤ c.bytes.length
  · have hzero : ∀ b ∈ newIpcmsgSuccess.data.drop c.bytes.length, b = 0 := fun b hb =>
      zeros_behind_type b ((List.drop_sublist_drop_left _ hlen).subset hb)
    have hrec : received c = newIpcmsgSuccess.data := (received_eq_iff (by decide) hpre).mpr hzero
    have hext : ((IpcMsg.ofBuffer (received c)).extargsLen.getD 0).toNat = 0 := by
      rw [hrec]
      exact reply_success.announced
    rw [handleRequest, sendIpcmsgSync_no_payload hmsg hext, hrec, if_pos reply_success.wellFormed, if_pos hlen]
    simp only [Option.any_some, typ_success, decide_true, ↓reduceIte]
  · have htake : c.bytes = newIpcmsgSuccess.data.take c.bytes.length := List.prefix_iff_eq_take.mp hpre
    have hrec : received c = newIpcmsgSuccess.data.take c.bytes.length ++
        List.replicate (IpcMsg.nbyteAll - c.bytes.length) 0 := by
      rw [← htake]
      exact received_eq
    obtain ⟨htyp, hext⟩ := not_success_of_lt (Nat.lt_of_not_le hlen)
    rw [← hrec] at htyp hext
    rw [handleRequest, sendIpcmsgSync_no_payload hmsg hext, if_neg hlen]
    by_cases hwf : (IpcMsg.ofBuffer (received c)).wellFormed = true
    · simp [hwf, htyp hwf]
    · simp [hwf]

/-! ### The status -/

theorem length_decimal_le {n k : Nat} (hk : 0 < k) (h : n < 10 ^ k) : (decimal n).length ≤ k := by
  rw [decimal, List.length_map]
  exact (Nat.length_toDigits_le_iff (by decide) hk).mpr h

theorem length_yesNo (b : Bool) : (yesNo b).length ≤ 3 := by cases b <;> decide

theorem length_langToCstr (l : Lang) : (langToCstr l).length ≤ 5 := by
  cases l with
  | other code => exact (show (str "?-?").length ≤ 5 by decide)
  | _ => decide

theorem length_rpl_le {n : Nat} (hn : 0 < n) (hmq : s.mqsz < 10 ^ n) : s.rpl.length ≤ 160 + n := by
  have hauth := length_yesNo s.isAuth
  have hpause := length_yesNo s.isPause
  have hup : (if s.isCollUp then str "UP" else str "DOWN").length ≤ 4 := by cases s.isCollUp <;> decide
  have hcoll : (decimal s.nMsgColl.toNat).length ≤ 10 :=
    length_decimal_le (by decide) (Nat.lt_trans s.nMsgColl.toNat_lt (by decide))
  have htotal : (decimal s.nMsgTotal.toNat).length ≤ 10 :=
    length_decimal_le (by decide) (Nat.lt_trans s.nMsgTotal.toNat_lt (by decide))
  have hmqsz := length_decimal_le hn hmq
  have hlang := length_langToCstr s.hostLang
  have hauthIs : (str "       Logged in : ").length = 19 := by decide
  have hcollIs : (str "       Collector : ").length = 19 := by decide
  have hpauseIs : (str "    Focus Paused : ").length = 19 := by decide
  have hcountIs : (str " Forwarded/Total : ").length = 19 := by decide
  have hmqIs : (str "         Pending : ").length = 19 := by decide
  have hlangIs : (str "     Host Locale : ").length = 19 := by decide
  have hslash : (str "/").length = 1 := by decide
  have hendl : endl.length = 1 := rfl
  unfold Status.rpl
  simp only [List.length_append]
  omega

/-- The report is short enough for the length of the header, so none of it is cut off. -/
theorem rpl_whole (hmq : s.mqsz < 2 ^ 64) : (rhandleRstatus s).2 = s.rpl := by
  have hlen : s.rpl.length < 2 ^ 32 :=
    Nat.lt_of_le_of_lt (length_rpl_le (n := 20) (by decide) (Nat.lt_trans hmq (by decide))) (by decide)
  have hmod : (UInt32.ofNat s.rpl.length).toNat = s.rpl.length := by
    rw [UInt32.toNat_ofNat', Nat.mod_eq_of_lt hlen]
  simp only [rhandleRstatus, newIpcmsgSuccessr, IpcMsg.extargsLen_newIpcmsg, Option.getD_some, hmod, List.take_length]

theorem handleRstatus_of_whole (hmq : s.mqsz < 2 ^ 64) (hlen : c.bytes.length = IpcMsg.nbyteAll)
    (hrest : rest.length = 1)
    (hwhole : c.bytes ++ rest.flatten = (rhandleRstatus s).1 ++ (rhandleRstatus s).2) :
    handleRstatus (some (pieceCalls nsend c rest)) = .returned 1 s.rpl := by
  have hreply := reply_rhandleRstatus s
  obtain ⟨bytes, hfits⟩ := c
  obtain ⟨piece, rfl⟩ := List.length_eq_one_iff.mp hrest
  rw [List.flatten_cons, List.flatten_nil, List.append_nil] at hwhole
  obtain ⟨rfl, rfl⟩ := List.append_inj hwhole (hlen.trans hreply.length.symm)
  have htyp : (replyMsg (rhandleRstatus s).1 (rhandleRstatus s).2).typ = .successReadable := by
    rw [replyMsg, rhandleRstatus, newIpcmsgSuccessr, IpcMsg.ofBuffer_data_newIpcmsg]
    exact IpcMsg.typ_newIpcmsg
  have hextargs : (replyMsg (rhandleRstatus s).1 (rhandleRstatus s).2).extargs.getD [] = s.rpl := by
    rw [← rpl_whole hmq, replyMsg]
    dsimp only
    split
    · rename_i hnil
      rw [hnil]
      rfl
    · rfl
  rw [handleRstatus, sendIpcmsgSync_two (show newIpcmsgRstatus.wellFormed = true from wellFormed_msg .status) hreply]
  simp only [Option.filter_some, htyp, decide_true, ↓reduceIte, hextargs]

/-! ### The whole way -/

theorem handle_of_success (h : r ≠ .status) (hwhole : c.bytes ++ rest.flatten = newIpcmsgSuccess.data) :
    r.handle (some (pieceCalls nsend c rest)) =
      if Request.typed ≤ c.bytes.length then .returned 0 (r.told (str "done"))
      else .returned 1 (r.told (str "failed")) := by
  cases r with
  | shutdown => exact handleRequest_success (wellFormed_msg .shutdown) hwhole
  | focusStart => exact handleRequest_success (wellFormed_msg .focusStart) hwhole
  | focusStop => exact handleRequest_success (wellFormed_msg .focusStop) hwhole
  | status => exact absurd rfl h

/-- A request that reaches the daemon in one piece gets no reply only when it waits for a collector that does
    not stop. In whatever pieces the reply comes, `done` and the exit status 0 mean that the first of them
    brought the magic number and the type. The status is printed as the daemon made it when the header and
    the report come in one piece each, and the exit status is 1 all the same. -/
theorem told_of_reply (r : Request) (s : Status) (collIniterSucc : Bool) (hmq : s.mqsz < 2 ^ 64)
    (hb : buffer.length = IpcMsg.nbyteAll) (h : Delivers r.msg.data events) (hone : (pieces events).length = 1) :
    (written true s collIniterSucc (readRequest buffer events) = none ↔
      r.stops = true ∧ s.isCollUp = true ∧ collIniterSucc = false) ∧
    ∀ out, written true s collIniterSucc (readRequest buffer events) = some out →
      ∀ (nsend : Nat) (c : Chunk IpcMsg.nbyteAll) (rest : List Bytes), c.bytes ++ rest.flatten = out.flatten →
        (r ≠ .status → r.handle (some (pieceCalls nsend c rest)) =
          if Request.typed ≤ c.bytes.length then .returned 0 (r.told (str "done"))
          else .returned 1 (r.told (str "failed"))) ∧
        (r = .status → c.bytes.length = IpcMsg.nbyteAll → rest.length = 1 →
          r.handle (some (pieceCalls nsend c rest)) = .returned 1 s.rpl) := by
  rw [readRequest_msg hb h hone, written, if_pos rfl, replies_msg]
  refine ⟨by simp, fun out hout nsend c rest hwhole => ?_⟩
  obtain ⟨-, hout⟩ := Option.ite_none_left_eq_some.mp hout
  obtain rfl := Option.some.inj hout
  refine ⟨fun hne => ?_, ?_⟩
  · rw [if_neg hne] at hwhole
    exact handle_of_success hne (by simpa using hwhole)
  · rintro rfl hlen hrest
    exact handleRstatus_of_whole hmq hlen hrest (by simpa using hwhole)

/-- `focus-start`, its request behind a timeout and its reply in two pieces. -/
theorem told_of_reply_halves :
    Delivers newIpcmsgUpcoll.data [.timeout, .read ⟨newIpcmsgUpcoll.data, by decide⟩] ∧
      handleUpcoll (some (pieceCalls 64 ⟨newIpcmsgSuccess.data.take 32, by decide⟩ [newIpcmsgSuccess.data.drop 32])) =
        .returned 0 (str "focus-start: done" ++ endl) := by
  have h : Delivers newIpcmsgUpcoll.data [.timeout, .read ⟨newIpcmsgUpcoll.data, by decide⟩] :=
    ⟨by decide, by decide, by decide⟩
  have hb : (List.replicate 64 (0 : UInt8)).length = IpcMsg.nbyteAll := by decide
  have htold := (told_of_reply .focusStart someStatus false (by decide) hb h (by decide)).2 [newIpcmsgSuccess.data]
    (by decide) 64 ⟨newIpcmsgSuccess.data.take 32, by decide⟩ [newIpcmsgSuccess.data.drop 32] (by decide)
  exact ⟨h, (htold.1 (by decide)).trans (by decide)⟩

end

end TgFocus.Cli
