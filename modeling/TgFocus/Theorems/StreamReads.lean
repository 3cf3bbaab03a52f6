import TgFocus.IpcClient
import TgFocus.Worker.IpcConnHandler

/-! Requests and replies that arrive in pieces. Neither end of a connection keeps its place between two
    reads: each read starts at the beginning of the buffer, while the loops count all bytes. -/

namespace TgFocus
open Socket

/-! ### Requests -/

namespace IpcConnHandler

def Event.bytes? : Event → Option Bytes
  | .read c => some c.bytes
  | _ => none

def pieces (events : List Event) : List Bytes := events.filterMap Event.bytes?

/-- The events of a connection that delivers the bytes of a request, waiting in between as it likes. -/
structure Delivers (req : Bytes) (events : List Event) : Prop where
  noError : .waitFailed ∉ events ∧ .readFailed ∉ events
  nonempty : ∀ c ∈ pieces events, c ≠ []
  whole : (pieces events).flatten = req

section
variable {req buffer : Bytes} {events : List Event} {total : Nat}

/-- The loop decodes what the reads left in the buffer. -/
theorem readLoop_eq (h : Delivers req events) (htotal : total + req.length = IpcMsg.nbyteAll) :
    readLoop buffer total false events = .decoded (.ofBuffer ((pieces events).foldl overwrite buffer)) := by
  induction events generalizing req buffer total with
  | nil =>
    have hreq : req = [] := h.whole.symm
    rw [hreq, List.length_nil, Nat.add_zero] at htotal
    rw [readLoop, if_neg (fun hgo => hgo.1 htotal)]
    rfl
  | cons e events ih =>
    obtain ⟨⟨hw, hr⟩, hne, hwhole⟩ := h
    have hrest : .waitFailed ∉ events ∧ .readFailed ∉ events :=
      ⟨fun h => hw (List.mem_cons_of_mem _ h), fun h => hr (List.mem_cons_of_mem _ h)⟩
    by_cases hend : total = IpcMsg.nbyteAll
    · -- the bytes are all there, so no read is among the events that follow
      have hreq : req.length = 0 := by omega
      have hnone : pieces (e :: events) = [] := by
        refine List.eq_nil_iff_forall_not_mem.mpr fun c hc => hne c hc ?_
        have hle := (List.sublist_flatten_of_mem hc).length_le
        rw [hwhole] at hle
        exact List.length_eq_zero_iff.mp (by omega)
      rw [hnone, readLoop.eq_def, if_neg (fun hgo => hgo.1 hend)]
      rfl
    · rw [readLoop.eq_def, if_pos ⟨hend, rfl⟩]
      cases e with
      | waitFailed => exact absurd List.mem_cons_self hw
      | readFailed => exact absurd List.mem_cons_self hr
      | timeout | other => exact ih ⟨hrest, hne, hwhole⟩ htotal
      | read c =>
        have hc : c.bytes ≠ [] := hne c.bytes List.mem_cons_self
        have hreq : req = c.bytes ++ (pieces events).flatten := hwhole.symm
        rw [hreq, List.length_append] at htotal
        dsimp only
        rw [decide_eq_false (by simpa using hc)]
        exact ih ⟨hrest, fun d hd => hne d (List.mem_cons_of_mem _ hd), rfl⟩ (by omega)

theorem Delivers.one (hlen : req.length = IpcMsg.nbyteAll) : Delivers req [.read ⟨req, Nat.le_of_eq hlen⟩] := by
  refine ⟨by simp, ?_, by simp [pieces, Event.bytes?]⟩
  intro c hc
  obtain rfl : c = req := by simpa [pieces, Event.bytes?] using hc
  rintro rfl
  cases hlen

theorem Delivers.length_le (h : Delivers req events) {c : Bytes} (hc : c ∈ pieces events) : c.length ≤ req.length := by
  rw [← h.whole]
  exact (List.sublist_flatten_of_mem hc).length_le

/-- The pieces give the request back, or neither it nor what they leave in the buffer is a tgf message. -/
theorem readRequest_eq_one_iff (hlen : req.length = IpcMsg.nbyteAll) (h : Delivers req events)
    (hb : buffer.length = IpcMsg.nbyteAll) :
    readRequest buffer events = readRequest buffer [.read ⟨req, Nat.le_of_eq hlen⟩] ↔
      (pieces events).foldl overwrite buffer = req ∨
        (((pieces events).foldl overwrite buffer).take IpcMsg.nbyteMagic ≠ IpcMsg.magic ∧
          req.take IpcMsg.nbyteMagic ≠ IpcMsg.magic) := by
  have hwhole : overwrite buffer req = req := overwrite_whole (Nat.le_of_eq (hb.trans hlen.symm))
  have hleft : ((pieces events).foldl overwrite buffer).length = IpcMsg.nbyteAll := by
    rw [length_foldl_overwrite, hb]
    intro c hc
    rw [hb, ← hlen]
    exact h.length_le hc
  rw [readRequest, readRequest, readLoop_eq h (by omega), readLoop_eq (.one hlen) (by omega), Request.decoded.injEq]
  rw [show pieces [.read ⟨req, Nat.le_of_eq hlen⟩] = [req] from rfl, List.foldl_cons, List.foldl_nil, hwhole]
  exact IpcMsg.ofBuffer_eq_iff hleft hlen

/-- When the request does not come in one piece no read reaches the last place of the buffer. -/
theorem Delivers.lastAt_end (hlen : req.length = IpcMsg.nbyteAll) (h : Delivers req events)
    (hl : (pieces events).length ≠ 1) : lastAt (pieces events) 63 = none := by
  refine lastAt_eq_none fun c hc => ?_
  have hlt := length_lt_flatten h.nonempty hl hc
  rw [h.whole, hlen] at hlt
  exact Nat.le_of_lt_succ hlt

/-- The buffer begins with the magic number when it did before and no read put a wrong byte there. -/
theorem take_foldl_magic {cs : List Bytes} {rest : Bytes}
    (h : ∀ j < IpcMsg.nbyteMagic, ∀ b, lastAt cs j = some b → IpcMsg.magic[j]? = some b) :
    (cs.foldl overwrite (IpcMsg.magic ++ rest)).take IpcMsg.nbyteMagic = IpcMsg.magic := by
  refine List.ext_getElem? fun j => ?_
  by_cases hj : j < IpcMsg.nbyteMagic
  · rw [List.getElem?_take_of_lt hj, getElem?_foldl_overwrite]
    cases hl : lastAt cs j with
    | none => rw [Option.none_or, List.getElem?_append_left hj]
    | some b => exact (h j hj b hl).symm
  · have hle : IpcMsg.nbyteMagic ≤ j := Nat.le_of_not_lt hj
    rw [List.getElem?_eq_none ((List.length_take_le _ _).trans hle), List.getElem?_eq_none hle]

theorem take_foldl_ne_magic {cs : List Bytes} {j : Nat} {b : UInt8} (hj : j < IpcMsg.nbyteMagic)
    (hlast : lastAt cs j = some b) (hb : IpcMsg.magic[j]? ≠ some b) :
    (cs.foldl overwrite buffer).take IpcMsg.nbyteMagic ≠ IpcMsg.magic := by
  intro hm
  have hget : ((cs.foldl overwrite buffer).take IpcMsg.nbyteMagic)[j]? = some b := by
    rw [List.getElem?_take_of_lt hj, getElem?_foldl_overwrite, hlast, Option.some_or]
  rw [hm] at hget
  exact hb hget

/-- A request decodes, whatever the buffer held before, to what it decodes to in one piece when it does
    arrive in one piece, or when it is no tgf message and the last read that reached some place of the
    magic number put a wrong byte there. -/
theorem readRequest_eq_iff (hlen : req.length = IpcMsg.nbyteAll) (h : Delivers req events) :
    (∀ buffer : Bytes, buffer.length = IpcMsg.nbyteAll →
        readRequest buffer events = readRequest buffer [.read ⟨req, Nat.le_of_eq hlen⟩]) ↔
      (pieces events).length = 1 ∨
        (req.take IpcMsg.nbyteMagic ≠ IpcMsg.magic ∧
          ∃ j < IpcMsg.nbyteMagic, ∃ b, lastAt (pieces events) j = some b ∧ IpcMsg.magic[j]? ≠ some b) := by
  constructor
  · intro hall
    by_cases hl : (pieces events).length = 1
    · exact Or.inl hl
    · right
      have h63 : 63 < req.length := by rw [hlen]; decide
      -- a buffer with the magic number at its start and another byte than the request's at its end
      have hb : (IpcMsg.magic ++ (List.replicate 60 (0 : UInt8) ++ [req[63] + 1])).length = IpcMsg.nbyteAll := rfl
      rcases (readRequest_eq_one_iff hlen h hb).mp (hall _ hb) with heq | ⟨hm, hreq⟩
      · have hend := congrArg (·[63]?) heq
        simp only [getElem?_foldl_overwrite, h.lastAt_end hlen hl, Option.none_or,
          List.getElem?_eq_getElem h63] at hend
        exact absurd (Option.some.inj hend) (by simp)
      · refine ⟨hreq, ?_⟩
        by_contra hno
        push Not at hno
        exact hm (take_foldl_magic hno)
  · rintro (hl | ⟨hreq, j, hj, b, hlast, hb⟩) buffer hbuf
    · obtain ⟨c, hc⟩ := List.length_eq_one_iff.mp hl
      have hcreq : c = req := by simpa [hc] using h.whole
      refine (readRequest_eq_one_iff hlen h hbuf).mpr (Or.inl ?_)
      rw [hc, hcreq]
      exact overwrite_whole (Nat.le_of_eq (hbuf.trans hlen.symm))
    · exact (readRequest_eq_one_iff hlen h hbuf).mpr (Or.inr ⟨take_foldl_ne_magic hj hlast hb, hreq⟩)

end

theorem readRequest_rstatus :
    Delivers newIpcmsgRstatus.data [.timeout, .read ⟨newIpcmsgRstatus.data, by decide⟩] ∧
      ∀ buffer : Bytes, buffer.length = IpcMsg.nbyteAll →
        readRequest buffer [.timeout, .read ⟨newIpcmsgRstatus.data, by decide⟩] =
          readRequest buffer [.read ⟨newIpcmsgRstatus.data, by decide⟩] :=
  have h : Delivers newIpcmsgRstatus.data [.timeout, .read ⟨newIpcmsgRstatus.data, by decide⟩] :=
    ⟨by decide, by decide, by decide⟩
  ⟨h, (readRequest_eq_iff (by decide) h).mpr (Or.inl rfl)⟩

/-- A status request in two reads of 32 bytes. -/
def halves : List Event :=
  [.read ⟨newIpcmsgRstatus.data.take 32, by decide⟩, .timeout, .read ⟨newIpcmsgRstatus.data.drop 32, by decide⟩]

/-- The second half overwrites the first, and the message is taken for one that is to be ignored. -/
theorem readRequest_halves :
    Delivers newIpcmsgRstatus.data halves ∧
      ¬∀ buffer : Bytes, buffer.length = IpcMsg.nbyteAll →
        readRequest buffer halves = readRequest buffer [.read ⟨newIpcmsgRstatus.data, by decide⟩] := by
  refine ⟨⟨by decide, by decide, by decide⟩, fun h => ?_⟩
  exact absurd (h (List.replicate 64 0) rfl) (by decide)

end IpcConnHandler

/-! ### Replies -/

namespace IpcClient

/-- A header and the payload that it announces. -/
structure Reply (header payload : Bytes) : Prop where
  length : header.length = IpcMsg.nbyteAll
  wellFormed : (IpcMsg.ofBuffer header).wellFormed = true
  announced : ((IpcMsg.ofBuffer header).extargsLen.getD 0).toNat = payload.length

/-- The message that a reply stands for. -/
def replyMsg (header payload : Bytes) : IpcMsg :=
  { IpcMsg.ofBuffer header with extargs := if payload = [] then none else some payload }

/-- A request that was sent, the first piece of the reply and the pieces behind it. -/
def pieceCalls (nsend : Nat) (c : Chunk IpcMsg.nbyteAll) (rest : List Bytes) : Calls :=
  { sent := some nsend, recv := some c, reads := rest.map some }

section
variable {header payload buf : Bytes} {client client' : IpcClient} {msg rsp : IpcMsg} {nsend n total : Nat}
  {c : Chunk IpcMsg.nbyteAll} {rest : List Bytes}

/-- The loop ends when the pieces have as many bytes as the payload, whatever these bytes are. -/
theorem readExtargs_map_some :
    readExtargs n buf total (rest.map some) =
      if n ≤ total + rest.flatten.length then .read (((counted n total rest).map (List.take n)).foldl overwrite buf)
      else .waiting := by
  induction rest generalizing buf total with
  | nil =>
    rw [List.map_nil, readExtargs.eq_def]
    by_cases hlt : total < n
    · simp [hlt, Nat.not_le_of_lt hlt]
    · simp [hlt, Nat.le_of_not_lt hlt, counted]
  | cons d rest ih =>
    rw [List.map_cons, readExtargs.eq_def]
    by_cases hlt : total < n
    · rw [if_pos hlt]
      dsimp only
      rw [ih, List.length_take, counted, if_pos hlt, List.flatten_cons, List.length_append, List.map_cons,
        List.foldl_cons]
      by_cases hd : d.length ≤ n
      · rw [Nat.min_eq_right hd, Nat.add_assoc]
      · -- the read took a whole payload of the piece
        rw [Nat.min_eq_left (Nat.le_of_not_le hd), counted_of_le (Nat.le_add_left _ _),
          counted_of_le (by omega), if_pos (by omega), if_pos (by omega)]
    · rw [if_neg hlt, if_pos (by omega), counted_of_le (Nat.le_of_not_lt hlt)]
      rfl

/-- The buffer of the payload is the payload when at each place the last read that reached it put the
    right byte there. -/
theorem foldl_overwrite_eq_iff {cs : List Bytes} :
    ((cs.map (List.take payload.length)).foldl overwrite (List.replicate payload.length 0)) = payload ↔
      ∀ j < payload.length, payload[j]? = some ((lastAt cs j).getD 0) := by
  have hlen : ((cs.map (List.take payload.length)).foldl overwrite (List.replicate payload.length 0)).length =
      payload.length := by
    rw [length_foldl_overwrite, List.length_replicate]
    intro d hd
    obtain ⟨d', -, rfl⟩ := List.mem_map.mp hd
    rw [List.length_replicate]
    exact List.length_take_le _ _
  have hget : ∀ j < payload.length,
      ((cs.map (List.take payload.length)).foldl overwrite (List.replicate payload.length 0))[j]? =
        some ((lastAt cs j).getD 0) := by
    intro j hj
    rw [getElem?_foldl_overwrite, lastAt_map_take hj, List.getElem?_replicate, if_pos hj]
    cases lastAt cs j <;> rfl
  constructor
  · intro heq j hj
    rw [← hget j hj, heq]
  · intro h
    refine List.ext_getElem? fun j => ?_
    by_cases hj : j < payload.length
    · rw [hget j hj, h j hj]
    · rw [List.getElem?_eq_none (by omega), List.getElem?_eq_none (by omega)]

/-! ### The first piece -/

/-- The header as the client has it after its one read. -/
def received (c : Chunk IpcMsg.nbyteAll) : Bytes := overwrite (List.replicate IpcMsg.nbyteAll 0) c.bytes

theorem received_eq : received c = c.bytes ++ List.replicate (IpcMsg.nbyteAll - c.bytes.length) 0 := by
  rw [received, overwrite, List.drop_replicate]

theorem length_received : (received c).length = IpcMsg.nbyteAll := by
  rw [received, length_overwrite, List.length_replicate]
  rw [List.length_replicate]
  exact c.fits

/-- It is the header when what is missing is zero. -/
theorem received_eq_iff (hlen : header.length = IpcMsg.nbyteAll) (hc : c.bytes <+: header) :
    received c = header ↔ ∀ b ∈ header.drop c.bytes.length, b = 0 := by
  obtain ⟨tail, rfl⟩ := hc
  have htail : tail.length = IpcMsg.nbyteAll - c.bytes.length := by
    rw [List.length_append] at hlen
    omega
  rw [received_eq, List.append_cancel_left_eq, List.drop_left, ← htail, eq_comm, List.eq_replicate_iff]
  exact ⟨fun h => h.2, fun h => ⟨rfl, h⟩⟩

/-- What is returned has the header that was received. -/
theorem data_of_returned (hmsg : msg.wellFormed = true)
    (h : sendIpcmsgSync client (pieceCalls nsend c rest) msg = .returned (some rsp) client') :
    rsp.data = received c := by
  simp only [sendIpcmsgSync, pieceCalls, hmsg, Bool.not_true, Bool.false_eq_true, ↓reduceIte] at h
  split at h
  · rename_i hw
    have hdata := IpcMsg.data_ofBuffer hw
    split at h
    · split at h <;> cases h
      exact hdata
    · cases h
      exact hdata
  · cases h

/-- The call on a reply whose header was received whole. -/
theorem sendIpcmsgSync_of_received (hmsg : msg.wellFormed = true) (hr : Reply header payload)
    (hc : received c = header) (hlen : payload.length ≤ rest.flatten.length) :
    sendIpcmsgSync client (pieceCalls nsend c rest) msg = .returned (some (replyMsg header payload)) client ↔
      ∀ j < payload.length, payload[j]? = some ((lastAt (counted payload.length 0 rest) j).getD 0) := by
  have hwf := hr.wellFormed
  rw [← foldl_overwrite_eq_iff]
  simp only [sendIpcmsgSync, pieceCalls, hmsg, Bool.not_true, Bool.false_eq_true, ↓reduceIte]
  rw [show overwrite (List.replicate IpcMsg.nbyteAll 0) c.bytes = header from hc, hwf, if_pos rfl, hr.announced]
  rcases List.eq_nil_or_concat payload with rfl | ⟨init, last, hp⟩
  · have hnone := IpcMsg.extargs_ofBuffer header
    have hcounted : counted ([] : Bytes).length 0 rest = [] := counted_of_le (Nat.le_refl 0)
    rw [if_neg (by simp), hcounted, replyMsg, if_pos rfl, ← hnone]
    exact iff_of_true rfl rfl
  · have hne : payload ≠ [] := by
      rw [hp]
      simp
    have hpos : 0 < payload.length := List.length_pos_iff.mpr hne
    rw [if_pos hpos, readExtargs_map_some, if_pos (by omega)]
    simp [replyMsg, IpcMsg.setExtargs, hne]

/-- A reply that arrives whole is returned when the first read left out only zeros of the header and each
    place of the payload has the byte of the last read that reached it. -/
theorem sendIpcmsgSync_whole_iff (hmsg : msg.wellFormed = true) (hr : Reply header payload)
    (hwhole : c.bytes ++ rest.flatten = header ++ payload) :
    sendIpcmsgSync client (pieceCalls nsend c rest) msg = .returned (some (replyMsg header payload)) client ↔
      (∀ b ∈ header.drop c.bytes.length, b = 0) ∧
        ∀ j < payload.length, payload[j]? = some ((lastAt (counted payload.length 0 rest) j).getD 0) := by
  have hfits := c.fits
  have hc : c.bytes <+: header := by
    refine List.prefix_of_prefix_length_le ?_ (List.prefix_append header payload) ?_
    · exact ⟨_, hwhole⟩
    · rw [hr.length]
      exact hfits
  rw [← received_eq_iff hr.length hc]
  by_cases hrec : received c = header
  · have hlen := congrArg List.length hwhole
    rw [List.length_append, List.length_append, hr.length] at hlen
    rw [sendIpcmsgSync_of_received hmsg hr hrec (by omega)]
    exact (and_iff_right hrec).symm
  · refine iff_of_false (fun h => hrec ?_) (fun h => hrec h.1)
    rw [← data_of_returned hmsg h]
    exact IpcMsg.data_ofBuffer hr.wellFormed

/-- The client takes what it received for a tgf message when the magic number was there. -/
theorem wellFormed_received_iff (hr : Reply header payload) (hcut : c.bytes ++ rest.flatten <+: header ++ payload) :
    (IpcMsg.ofBuffer (received c)).wellFormed = true ↔ IpcMsg.nbyteMagic ≤ c.bytes.length := by
  have hmagic := (IpcMsg.wellFormed_ofBuffer hr.length).mp hr.wellFormed
  rw [IpcMsg.wellFormed_ofBuffer length_received, received_eq]
  have hc : c.bytes <+: header := by
    refine List.prefix_of_prefix_length_le ((List.prefix_append _ _).trans hcut) (List.prefix_append _ _) ?_
    rw [hr.length]
    exact c.fits
  obtain ⟨tail, rfl⟩ := hc
  constructor
  · intro h
    by_contra hlt
    -- the last byte of the magic number is not zero
    have hzero : ((c.bytes ++ List.replicate (IpcMsg.nbyteAll - c.bytes.length) (0 : UInt8)).take
        IpcMsg.nbyteMagic)[2]? = some 0 := by
      simp only [IpcMsg.nbyteMagic, IpcMsg.nbyteAll] at hlt ⊢
      rw [List.getElem?_take_of_lt (by omega), List.getElem?_append_right (by omega), List.getElem?_replicate,
        if_pos (by omega)]
    rw [h] at hzero
    cases hzero
  · intro hle
    rw [List.take_append_of_le_length hle] at hmagic ⊢
    exact hmagic

/-- A reply whose magic number is there is returned or read for ever. -/
theorem not_returned_none (hmsg : msg.wellFormed = true) (hw : (IpcMsg.ofBuffer (received c)).wellFormed = true) :
    sendIpcmsgSync client (pieceCalls nsend c rest) msg ≠ .returned none client' := by
  rw [received] at hw
  simp only [sendIpcmsgSync, pieceCalls, hmsg, hw, Bool.not_true, Bool.false_eq_true, ↓reduceIte]
  split
  · rw [readExtargs_map_some]
    by_cases hle : ((IpcMsg.ofBuffer (overwrite (List.replicate IpcMsg.nbyteAll 0) c.bytes)).extargsLen.getD 0).toNat ≤
      0 + rest.flatten.length
    · rw [if_pos hle]
      simp
    · rw [if_neg hle]
      simp
  · simp

/-- A reply that breaks off gives nothing only when the first read ended inside the magic number. -/
theorem sendIpcmsgSync_cut_iff (hmsg : msg.wellFormed = true) (hr : Reply header payload)
    (hcut : c.bytes ++ rest.flatten <+: header ++ payload) :
    (∃ m client', sendIpcmsgSync client (pieceCalls nsend c (rest ++ List.replicate m [])) msg =
        .returned none client') ↔ c.bytes.length < IpcMsg.nbyteMagic := by
  have hw := wellFormed_received_iff hr hcut
  constructor
  · rintro ⟨m, client', h⟩
    by_contra hlen
    exact absurd h (not_returned_none hmsg (hw.mpr (Nat.le_of_not_lt hlen)))
  · intro hlen
    have hnot : ¬(IpcMsg.ofBuffer (received c)).wellFormed = true := fun h => absurd (hw.mp h) (Nat.not_le_of_lt hlen)
    rw [received] at hnot
    exact ⟨0, client, by simp [sendIpcmsgSync, pieceCalls, hmsg, hnot]⟩

/-- A reply that arrives whole is returned when the first read left out only zeros of the header and each
    place of the payload has the byte of the last read that reached it; one that breaks off gives nothing
    only when the first read ended inside the magic number. -/
theorem sendIpcmsgSync_reply (hmsg : msg.wellFormed = true) (hr : Reply header payload) :
    (∀ (c : Chunk IpcMsg.nbyteAll) (rest : List Bytes), c.bytes ++ rest.flatten = header ++ payload →
      (sendIpcmsgSync client (pieceCalls nsend c rest) msg = .returned (some (replyMsg header payload)) client ↔
        (∀ b ∈ header.drop c.bytes.length, b = 0) ∧
          ∀ j < payload.length, payload[j]? = some ((lastAt (counted payload.length 0 rest) j).getD 0))) ∧
      ∀ (c : Chunk IpcMsg.nbyteAll) (rest : List Bytes), c.bytes ++ rest.flatten <+: header ++ payload →
        c.bytes ++ rest.flatten ≠ header ++ payload →
        ((∃ m client', sendIpcmsgSync client (pieceCalls nsend c (rest ++ List.replicate m [])) msg =
            .returned none client') ↔ c.bytes.length < IpcMsg.nbyteMagic) :=
  ⟨fun _ _ hwhole => sendIpcmsgSync_whole_iff hmsg hr hwhole, fun _ _ hcut _ => sendIpcmsgSync_cut_iff hmsg hr hcut⟩

/-- A reply whose header and payload arrive in one piece each is returned. -/
theorem sendIpcmsgSync_two (hmsg : msg.wellFormed = true) (hr : Reply header payload) :
    sendIpcmsgSync client (pieceCalls nsend ⟨header, Nat.le_of_eq hr.length⟩ [payload]) msg =
      .returned (some (replyMsg header payload)) client := by
  refine (sendIpcmsgSync_whole_iff hmsg hr (by simp)).mpr ⟨by simp, fun j hj => ?_⟩
  have hpos : 0 < payload.length := Nat.zero_lt_of_lt hj
  rw [counted, if_pos hpos, counted, lastAt_cons, lastAt_nil, Option.none_or, List.getElem?_eq_getElem hj,
    Option.getD_some]

end

/-- The two pieces that the daemon sends for a status request are a header and its payload. -/
theorem reply_rhandleRstatus (s : IpcConnHandler.Status) :
    Reply (IpcConnHandler.rhandleRstatus s).1 (IpcConnHandler.rhandleRstatus s).2 where
  length := IpcMsg.length_data_newIpcmsg rfl
  wellFormed := by
    rw [IpcConnHandler.rhandleRstatus, newIpcmsgSuccessr, IpcMsg.ofBuffer_data_newIpcmsg]
    exact IpcMsg.wellFormed_newIpcmsg
  announced := by
    simp only [IpcConnHandler.rhandleRstatus, newIpcmsgSuccessr, IpcMsg.ofBuffer_data_newIpcmsg,
      IpcMsg.extargsLen_newIpcmsg, Option.getD_some, List.length_take]
    refine (Nat.min_eq_left ?_).symm
    rw [UInt32.toNat_ofNat']
    exact Nat.mod_le _ _

/-- The CLI gets the status that the daemon replies with when each piece arrives in one read. -/
theorem sendIpcmsgSync_rstatus (s : IpcConnHandler.Status) (client : IpcClient) (nsend : Nat) :
    sendIpcmsgSync client (pieceCalls nsend ⟨(IpcConnHandler.rhandleRstatus s).1, Nat.le_of_eq (reply_rhandleRstatus s).length⟩
        [(IpcConnHandler.rhandleRstatus s).2]) newIpcmsgRstatus =
      .returned (some (replyMsg (IpcConnHandler.rhandleRstatus s).1 (IpcConnHandler.rhandleRstatus s).2)) client :=
  sendIpcmsgSync_two (by decide) (reply_rhandleRstatus s)

/-- A status reply of a header and a payload of two bytes. -/
def shortHeader : Bytes := (newIpcmsgSuccessr 2).data

theorem sendIpcmsgSync_short :
    Reply shortHeader [0x59, 0x45] ∧
      sendIpcmsgSync ⟨.noerr⟩ (pieceCalls 64 ⟨shortHeader, by decide⟩ [[0x59, 0x45]]) newIpcmsgRstatus =
        .returned (some (replyMsg shortHeader [0x59, 0x45])) ⟨.noerr⟩ :=
  have h : Reply shortHeader [0x59, 0x45] := ⟨by decide, by decide, by decide⟩
  have hall : ∀ b ∈ shortHeader.drop shortHeader.length, b = 0 := by simp
  ⟨h, ((sendIpcmsgSync_reply (by decide) h).1 ⟨shortHeader, by decide⟩ [[0x59, 0x45]] rfl).mpr ⟨hall, by decide⟩⟩

/-- The payload in two reads is returned with its second byte first; without its second byte it is waited
    for although the stream has ended. -/
theorem sendIpcmsgSync_split :
    Reply shortHeader [0x59, 0x45] ∧
      sendIpcmsgSync ⟨.noerr⟩ (pieceCalls 64 ⟨shortHeader, by decide⟩ [[0x59], [0x45]]) newIpcmsgRstatus ≠
        .returned (some (replyMsg shortHeader [0x59, 0x45])) ⟨.noerr⟩ ∧
      ∀ m client', sendIpcmsgSync ⟨.noerr⟩ (pieceCalls 64 ⟨shortHeader, by decide⟩ ([[0x59]] ++ List.replicate m []))
        newIpcmsgRstatus ≠ .returned none client' := by
  refine ⟨⟨by decide, by decide, by decide⟩, by decide, fun m client' => ?_⟩
  exact not_returned_none (by decide) (by decide)

end IpcClient

end TgFocus
