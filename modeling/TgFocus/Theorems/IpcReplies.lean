import TgFocus.Theorems.StreamReads

/-! What the immediate port replies. The handler has a block for each of five types, and nothing for the
    others; a buffer that is not a message has the type `Ignore`, which is one of the five. -/

namespace TgFocus.IpcConnHandler
open IpcClient

/-- The types that have a block. -/
def implemented : List IpcMsgType := [.ignore, .shutdownIpcSrv, .reportStatus, .upColl, .shutdownColl]

/-- The bytes of a request carry the magic number and one of the types that have a block. -/
def Answerable (buffer : Bytes) : Prop :=
  (IpcMsg.ofBuffer buffer).wellFormed = true ∧ (IpcMsg.ofBuffer buffer).typ ∈ implemented

instance (buffer : Bytes) : Decidable (Answerable buffer) := inferInstanceAs (Decidable (_ ∧ _))

/-- One header, with the payload that it announces, is written for a request; it says that the request
    succeeded only when the request is one that can be answered, and else that it did not. -/
def RepliesOnce (s : Status) (collIniterSucc : Bool) (buffer : Bytes) : Prop :=
  ∃ (out : List Bytes) (header payload : Bytes),
    written true s collIniterSucc (.decoded (.ofBuffer buffer)) = some out ∧ out.flatten = header ++ payload ∧
      Reply header payload ∧
      ((IpcMsg.ofBuffer header).typ ∈ [IpcMsgType.success, .successReadable] → Answerable buffer) ∧
      (¬Answerable buffer → (IpcMsg.ofBuffer header).typ ∈ [IpcMsgType.error, .errorReadable])

/-- The collector, when it is up, acknowledges a request that stops it. -/
def Acknowledged (s : Status) (collIniterSucc : Bool) (buffer : Bytes) : Prop :=
  (IpcMsg.ofBuffer buffer).typ ∈ [IpcMsgType.shutdownIpcSrv, .shutdownColl] → s.isCollUp = true →
    collIniterSucc = true

instance (s : Status) (collIniterSucc : Bool) (buffer : Bytes) : Decidable (Acknowledged s collIniterSucc buffer) :=
  inferInstanceAs (Decidable (_ → _))

section
variable {s : Status} {collIniterSucc : Bool} {buffer : Bytes} {msg : IpcMsg}

/-! ### The blocks -/

theorem replies_not_implemented (h : msg.typ ∉ implemented) : replies s collIniterSucc msg = some [] := by
  simp only [implemented, List.mem_cons, List.not_mem_nil, or_false, not_or] at h
  obtain ⟨hi, hs, hr, hu, hc⟩ := h
  simp [replies, hi, hs, hr, hu, hc]

/-- At most one block is entered. -/
theorem replies_implemented (h : msg.typ ∈ implemented)
    (hack : msg.typ ∈ [IpcMsgType.shutdownIpcSrv, .shutdownColl] → s.isCollUp = true → collIniterSucc = true) :
    replies s collIniterSucc msg = some (if msg.typ = .reportStatus then [(rhandleRstatus s).1, (rhandleRstatus s).2]
      else [newIpcmsgSuccess.data]) := by
  have hno : msg.typ ∈ [IpcMsgType.shutdownIpcSrv, .shutdownColl] → (s.isCollUp && !collIniterSucc) = false := by
    intro htyp
    cases hup : s.isCollUp
    · rfl
    · simp [hack htyp hup]
  simp only [implemented, List.mem_cons, List.not_mem_nil, or_false] at h
  rcases h with h | h | h | h | h <;> simp only [replies, h] at hno ⊢
  · rfl
  · rw [hno (by decide)]
    rfl
  · rfl
  · rfl
  · rw [hno (by decide)]
    rfl

theorem replies_waiting (h : msg.typ ∈ [IpcMsgType.shutdownIpcSrv, .shutdownColl]) (hup : s.isCollUp = true)
    (hsucc : collIniterSucc = false) : replies s collIniterSucc msg = none := by
  simp only [List.mem_cons, List.not_mem_nil, or_false] at h
  rcases h with h | h <;> simp [replies, h, hup, hsucc, IpcMsgType.shutdownIpcSrv, IpcMsgType.shutdownColl]

/-! ### Headers -/

theorem reply_success : Reply newIpcmsgSuccess.data [] where
  length := IpcMsg.length_data_newIpcmsg rfl
  wellFormed := by
    rw [newIpcmsgSuccess, IpcMsg.ofBuffer_data_newIpcmsg]
    exact IpcMsg.wellFormed_newIpcmsg
  announced := by
    rw [newIpcmsgSuccess, IpcMsg.ofBuffer_data_newIpcmsg, IpcMsg.extargsLen_newIpcmsg]
    rfl

theorem typ_success : (IpcMsg.ofBuffer newIpcmsgSuccess.data).typ = .success := by
  rw [newIpcmsgSuccess, IpcMsg.ofBuffer_data_newIpcmsg, IpcMsg.typ_newIpcmsg]

/-- The header of what is written is its first bytes. -/
theorem header_unique {header header' payload payload' : Bytes} (h : Reply header payload) (h' : Reply header' payload')
    (heq : header ++ payload = header' ++ payload') : header = header' :=
  (List.append_inj heq (h.length.trans h'.length.symm)).1

theorem out_ne_nil {out : List Bytes} {header payload : Bytes} (h : Reply header payload)
    (hflat : out.flatten = header ++ payload) : out ≠ [] := by
  rintro rfl
  obtain ⟨rfl, -⟩ := List.append_eq_nil_iff.mp hflat.symm
  cases h.length

/-- A request gets one reply, and a true one, exactly when it carries the magic number and a type that has
    a block, and a collector that it stops acknowledges. -/
theorem repliesOnce_iff (hlen : buffer.length = IpcMsg.nbyteAll) :
    RepliesOnce s collIniterSucc buffer ↔ Answerable buffer ∧ Acknowledged s collIniterSucc buffer := by
  constructor
  · rintro ⟨out, header, payload, hout, hflat, hreply, hsucc, herror⟩
    rw [written, if_pos rfl] at hout
    have hack : Acknowledged s collIniterSucc buffer := by
      intro htyp hup
      by_contra hno
      rw [replies_waiting htyp hup (by simpa using hno)] at hout
      cases hout
    refine ⟨not_not.mp fun hno => ?_, hack⟩
    by_cases htyp : (IpcMsg.ofBuffer buffer).typ ∈ implemented
    · -- a buffer without the magic number has the type `Ignore`
      have hwf : ¬(IpcMsg.ofBuffer buffer).wellFormed = true := fun hwf => hno ⟨hwf, htyp⟩
      have hignore := IpcMsg.ofBuffer_not_magic hlen fun hm => hwf ((IpcMsg.wellFormed_ofBuffer hlen).mpr hm)
      rw [replies_implemented htyp hack, hignore] at hout
      obtain rfl := Option.some.inj hout
      have hheader : header = newIpcmsgSuccess.data :=
        header_unique hreply reply_success (by rw [← hflat]; rfl)
      exact hno (hsucc (by rw [hheader, typ_success]; decide))
    · rw [replies_not_implemented htyp] at hout
      exact out_ne_nil hreply hflat (Option.some.inj hout).symm
  · rintro ⟨hans, hack⟩
    have hout := replies_implemented hans.2 hack
    by_cases hst : (IpcMsg.ofBuffer buffer).typ = .reportStatus
    · rw [if_pos hst] at hout
      exact ⟨_, (rhandleRstatus s).1, (rhandleRstatus s).2, hout, by simp, reply_rhandleRstatus s, fun _ => hans,
        fun hno => absurd hans hno⟩
    · rw [if_neg hst] at hout
      exact ⟨_, newIpcmsgSuccess.data, [], hout, by simp, reply_success, fun _ => hans, fun hno => absurd hans hno⟩

end

/-! ### Requests -/

def someStatus : Status where
  isAuth := true
  isCollUp := true
  isPause := false
  nMsgTotal := 0
  nMsgColl := 0
  mqsz := 0
  hostLang := .en_US

def statusRequest : Bytes := newIpcmsgRstatus.data

/-- A status request is answered once. -/
theorem repliesOnce_status : RepliesOnce someStatus false statusRequest :=
  (repliesOnce_iff (by decide)).mpr ⟨by decide, by decide⟩

/-- A message of a type that nobody knows, and bytes that are no message. -/
def unknownRequest : Bytes := (newIpcmsg ⟨0x010b⟩ 0 noArgs).data

def noRequest : Bytes := List.replicate IpcMsg.nbyteAll 0

/-- The first gets no reply, and the second is told that it succeeded. -/
theorem not_repliesOnce :
    written true someStatus true (.decoded (.ofBuffer unknownRequest)) = some [] ∧
      written true someStatus true (.decoded (.ofBuffer noRequest)) = some [newIpcmsgSuccess.data] ∧
      ¬∀ (s : Status) (collIniterSucc : Bool) (buffer : Bytes), buffer.length = IpcMsg.nbyteAll →
        Acknowledged s collIniterSucc buffer → RepliesOnce s collIniterSucc buffer := by
  refine ⟨by decide, by decide, fun h => ?_⟩
  obtain ⟨out, header, payload, hout, hflat, hreply, -, -⟩ :=
    h someStatus true unknownRequest (by decide) (by intro _ _; rfl)
  exact out_ne_nil hreply hflat (Option.some.inj hout).symm

end TgFocus.IpcConnHandler
