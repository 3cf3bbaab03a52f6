import TgFocus.IpcMsg

/-! Encoding and decoding the messages between the CLI and the daemon: a message that is built and sent is
    read back as it was built, and a buffer that is read as a message is the one that its parts build. -/

namespace TgFocus.IpcMsg

section
variable {buffer : Bytes}

/-- A message that is read from a buffer is the one that is built from its type, its length and its
    arguments. -/
theorem newIpcmsg_ofBuffer (h : buffer.length = nbyteAll) (hm : buffer.take nbyteMagic = magic) :
    ∃ extlen, (ofBuffer buffer).extargsLen = some extlen ∧
      newIpcmsg (ofBuffer buffer).typ extlen (ofBuffer buffer).args = ofBuffer buffer := by
  obtain ⟨t₀, t₁, e₀, e₁, e₂, e₃, args, rfl, hargs⟩ := eq_of_magic h hm
  have hargs' : (ofBuffer (magic ++ t₀ :: t₁ :: e₀ :: e₁ :: e₂ :: e₃ :: args)).args = args := by
    rw [ofBuffer_magic, IpcMsg.args]
    dsimp only
    rw [List.take_of_length_le (by simp [hargs, magic, nbyteArgs, nbyteAll, nbyteMagic, nbyteType, nbyteExtargs])]
    rfl
  rw [hargs']
  simp only [ofBuffer_magic]
  refine ⟨_, rfl, ?_⟩
  rw [newIpcmsg, bytes_toUInt16 rfl, bytes_toUInt32 rfl]
  exact ofBuffer_magic

/-- What `newIpcmsg` is given is read back from what it makes; and a buffer is a message exactly when it
    begins with the magic number, and is then what its parts make. -/
theorem encode_decode :
    (∀ (typ : IpcMsgType) (extlen : UInt32) (args : Bytes), args.length = nbyteArgs →
      let m := ofBuffer (newIpcmsg typ extlen args).serializeInto
      m.wellFormed = true ∧ m.typ = typ ∧ m.extargsLen = some extlen ∧ m.args = args) ∧
    ∀ buffer : Bytes, buffer.length = nbyteAll →
      ((ofBuffer buffer).wellFormed = true ↔ buffer.take 3 = [0x74, 0x67, 0x66]) ∧
      ((ofBuffer buffer).wellFormed = true →
        (ofBuffer buffer).serializeInto = buffer ∧
          ∃ extlen, (ofBuffer buffer).extargsLen = some extlen ∧
            (newIpcmsg (ofBuffer buffer).typ extlen (ofBuffer buffer).args).serializeInto = buffer) := by
  constructor
  · intro typ extlen args hargs
    rw [serializeInto, ofBuffer_data_newIpcmsg]
    exact ⟨wellFormed_newIpcmsg, typ_newIpcmsg, extargsLen_newIpcmsg, args_newIpcmsg hargs⟩
  · intro buffer h
    refine ⟨wellFormed_ofBuffer h, fun hw => ⟨data_ofBuffer hw, ?_⟩⟩
    obtain ⟨extlen, hext, hnew⟩ := newIpcmsg_ofBuffer h ((wellFormed_ofBuffer h).mp hw)
    exact ⟨extlen, hext, by rw [hnew, serializeInto, data_ofBuffer hw]⟩

theorem encode_decode_status :
    (ofBuffer (newIpcmsg .reportStatus 0x01020304 (List.replicate nbyteArgs 0xff)).serializeInto).extargsLen =
      some 0x01020304 :=
  (encode_decode.1 .reportStatus 0x01020304 (List.replicate nbyteArgs 0xff) (by decide)).2.2.1

end

end TgFocus.IpcMsg
