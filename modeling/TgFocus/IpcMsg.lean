import TgFocus.Text

/-! The messages between the CLI and the daemon (`ipc_msg.cc`): 64 bytes that begin with a magic number, a
    type and the length of what follows them, both with the most significant byte first. -/

namespace TgFocus

/-- `tgf::IpcMsgType`. A message that was received can have any number for its type. -/
structure IpcMsgType where
  num : UInt16
  deriving DecidableEq, Repr

namespace IpcMsgType

def ignore : IpcMsgType := ⟨0x0101⟩
def error : IpcMsgType := ⟨0x0102⟩
def errorReadable : IpcMsgType := ⟨0x0103⟩
def success : IpcMsgType := ⟨0x0104⟩
def successReadable : IpcMsgType := ⟨0x0105⟩
def successBinary : IpcMsgType := ⟨0x0106⟩
def shutdownIpcSrv : IpcMsgType := ⟨0x0107⟩
def reportStatus : IpcMsgType := ⟨0x0108⟩
def upColl : IpcMsgType := ⟨0x0109⟩
def shutdownColl : IpcMsgType := ⟨0x010a⟩

end IpcMsgType

structure IpcMsg where
  typ : IpcMsgType
  data : Bytes
  dataLen : Nat
  /-- The constructor leaves it unset when it does not find the magic number. -/
  extargsLen : Option UInt32
  extargs : Option Bytes
  isParsed : Bool
  deriving DecidableEq, Repr

namespace IpcMsg

def nbyteAll : Nat := 64
def nbyteExtargs : Nat := 4
def nbyteType : Nat := 2
def nbyteMagic : Nat := 3
def nbyteArgs : Nat := nbyteAll - nbyteMagic - nbyteType - nbyteExtargs

def magic : Bytes := [0x74, 0x67, 0x66]

/-! ### The constructor -/

structure Parse where
  magic : UInt32
  typ : UInt16
  extlen : UInt32
  isParsed : Bool
  deriving DecidableEq, Repr

/-- The loop of the constructor over what is left of the buffer from `i` on. -/
def parse (p : Parse) (i : Nat) : Bytes → Parse
  | [] => p
  | b :: buffer =>
    if i < nbyteMagic then parse { p with magic := p.magic <<< 8 ||| b.toUInt32 } (i + 1) buffer
    else if p.magic = 0x746766 then
      let p := { p with isParsed := true }
      if i < nbyteMagic + nbyteType then parse { p with typ := p.typ <<< 8 ||| b.toUInt16 } (i + 1) buffer
      else if i < nbyteMagic + nbyteType + nbyteExtargs then
        parse { p with extlen := p.extlen <<< 8 ||| b.toUInt32 } (i + 1) buffer
      else parse p (i + 1) buffer
    -- not a tgf message
    else p

def ofBuffer (buffer : Bytes) : IpcMsg :=
  let p := parse { magic := 0, typ := 0, extlen := 0, isParsed := false } 0 buffer
  if p.isParsed then
    { typ := ⟨p.typ⟩, data := buffer, dataLen := nbyteAll, extargsLen := some p.extlen, extargs := none,
      isParsed := true }
  else
    { typ := .ignore, data := List.replicate nbyteAll 0, dataLen := 0, extargsLen := none, extargs := none,
      isParsed := false }

def wellFormed (m : IpcMsg) : Bool := m.isParsed

/-- The bytes behind the length, of a message that is well formed. -/
def args (m : IpcMsg) : Bytes := (m.data.take m.dataLen).drop (nbyteMagic + nbyteType + nbyteExtargs)

def serializeInto (m : IpcMsg) : Bytes := m.data

def setExtargs (m : IpcMsg) (obuf : Bytes) : IpcMsg := { m with extargs := some obuf }

end IpcMsg

/-! ### The messages of the program -/

/-- `args` are the `nbyteArgs` bytes behind the length. -/
def newIpcmsg (typ : IpcMsgType) (extlen : UInt32) (args : Bytes) : IpcMsg :=
  .ofBuffer (IpcMsg.magic ++ [(typ.num >>> 8).toUInt8, typ.num.toUInt8] ++
    [(extlen >>> 24).toUInt8, (extlen >>> 16).toUInt8, (extlen >>> 8).toUInt8, extlen.toUInt8] ++ args)

/-- The argument bytes of most messages. -/
def noArgs : Bytes := List.replicate IpcMsg.nbyteArgs 0

def newIpcmsgRstatus : IpcMsg :=
  newIpcmsg .reportStatus 0 (str "auth:?" ++ List.replicate (IpcMsg.nbyteArgs - 6) 0)

def newIpcmsgShutipcsrv : IpcMsg := newIpcmsg .shutdownIpcSrv 0 noArgs

def newIpcmsgUpcoll : IpcMsg := newIpcmsg .upColl 0 noArgs

def newIpcmsgShutcoll : IpcMsg := newIpcmsg .shutdownColl 0 noArgs

def newIpcmsgSuccessr (obuflen : Nat) : IpcMsg := newIpcmsg .successReadable (UInt32.ofNat obuflen) noArgs

def newIpcmsgSuccess : IpcMsg := newIpcmsg .success 0 noArgs

def newIpcmsgError : IpcMsg := newIpcmsg .error 0 noArgs

/-! ### What the constructor finds -/

namespace IpcMsg

variable {buffer : Bytes}

theorem toNat_shiftLeft_or {a : UInt32} {b : UInt8} (h : a.toNat < 0x1000000) :
    (a <<< 8 ||| b.toUInt32).toNat = 256 * a.toNat + b.toNat := by
  have hb := b.toNat_lt
  have hlt : a.toNat <<< 8 < 0x100000000 := by
    rw [Nat.shiftLeft_eq]
    omega
  have hadd := Nat.shiftLeft_add_eq_or_of_lt hb a.toNat
  rw [UInt32.toNat_or, UInt32.toNat_shiftLeft, UInt8.toNat_toUInt32, show (8 : UInt32).toNat % 32 = 8 from rfl,
    Nat.mod_eq_of_lt hlt, ← hadd, Nat.shiftLeft_eq]
  omega

/-- Three bytes, four and two after one another, the most significant one first. -/
theorem toNat_bytes (b₀ b₁ b₂ : UInt8) :
    ((((0 : UInt32) <<< 8 ||| b₀.toUInt32) <<< 8 ||| b₁.toUInt32) <<< 8 ||| b₂.toUInt32).toNat =
      0x10000 * b₀.toNat + 0x100 * b₁.toNat + b₂.toNat := by
  have h₀ := b₀.toNat_lt
  have h₁ := b₁.toNat_lt
  have e₀ : ((0 : UInt32) <<< 8 ||| b₀.toUInt32).toNat = b₀.toNat := by
    rw [toNat_shiftLeft_or (by decide)]
    simp
  have e₁ : (((0 : UInt32) <<< 8 ||| b₀.toUInt32) <<< 8 ||| b₁.toUInt32).toNat = 0x100 * b₀.toNat + b₁.toNat := by
    rw [toNat_shiftLeft_or (by omega), e₀]
  rw [toNat_shiftLeft_or (by omega), e₁]
  omega

theorem toNat_bytes32 (b₀ b₁ b₂ b₃ : UInt8) :
    (((((0 : UInt32) <<< 8 ||| b₀.toUInt32) <<< 8 ||| b₁.toUInt32) <<< 8 ||| b₂.toUInt32) <<< 8 ||| b₃.toUInt32).toNat =
      0x1000000 * b₀.toNat + 0x10000 * b₁.toNat + 0x100 * b₂.toNat + b₃.toNat := by
  have h₀ := b₀.toNat_lt
  have h₁ := b₁.toNat_lt
  have h₂ := b₂.toNat_lt
  have e := toNat_bytes b₀ b₁ b₂
  rw [toNat_shiftLeft_or (by omega), e]
  omega

theorem toNat_bytes16 (t₀ t₁ : UInt8) :
    (((0 : UInt16) <<< 8 ||| t₀.toUInt16) <<< 8 ||| t₁.toUInt16).toNat = 0x100 * t₀.toNat + t₁.toNat := by
  have h₀ := t₀.toNat_lt
  have h₁ := t₁.toNat_lt
  have hadd := Nat.shiftLeft_add_eq_or_of_lt h₁ t₀.toNat
  have hlt : t₀.toNat <<< 8 < 0x10000 := by
    rw [Nat.shiftLeft_eq]
    omega
  have hzero : (0 : UInt16) <<< 8 ||| t₀.toUInt16 = t₀.toUInt16 := by
    rw [← UInt16.toNat_inj]
    simp
  rw [hzero, UInt16.toNat_or, UInt16.toNat_shiftLeft, UInt8.toNat_toUInt16, UInt8.toNat_toUInt16,
    show (8 : UInt16).toNat % 16 = 8 from rfl, Nat.mod_eq_of_lt hlt, ← hadd, Nat.shiftLeft_eq]
  omega

/-- The bytes of a number give the number. -/
theorem toUInt32_bytes (n : UInt32) :
    ((((0 : UInt32) <<< 8 ||| (n >>> 24).toUInt8.toUInt32) <<< 8 ||| (n >>> 16).toUInt8.toUInt32) <<< 8 |||
      (n >>> 8).toUInt8.toUInt32) <<< 8 ||| n.toUInt8.toUInt32 = n := by
  have hn := n.toNat_lt
  rw [← UInt32.toNat_inj, toNat_bytes32]
  simp only [UInt32.toNat_toUInt8, UInt32.toNat_shiftRight, Nat.shiftRight_eq_div_pow, UInt32.reduceToNat,
    Nat.reduceMod, Nat.reducePow]
  omega

theorem toUInt16_bytes (n : UInt16) :
    ((0 : UInt16) <<< 8 ||| (n >>> 8).toUInt8.toUInt16) <<< 8 ||| n.toUInt8.toUInt16 = n := by
  have hn := n.toNat_lt
  rw [← UInt16.toNat_inj, toNat_bytes16]
  simp only [UInt16.toNat_toUInt8, UInt16.toNat_shiftRight, Nat.shiftRight_eq_div_pow, UInt16.reduceToNat,
    Nat.reduceMod, Nat.reducePow]
  omega

/-- The number that bytes give has these bytes. -/
theorem bytes_toUInt16 {n : UInt16} {t₀ t₁ : UInt8}
    (h : n = ((0 : UInt16) <<< 8 ||| t₀.toUInt16) <<< 8 ||| t₁.toUInt16) :
    [(n >>> 8).toUInt8, n.toUInt8] = [t₀, t₁] := by
  have h₀ := t₀.toNat_lt
  have h₁ := t₁.toNat_lt
  have hn : n.toNat = 0x100 * t₀.toNat + t₁.toNat := h ▸ toNat_bytes16 t₀ t₁
  simp only [List.cons.injEq, and_true, ← UInt8.toNat_inj, UInt16.toNat_toUInt8, UInt16.toNat_shiftRight, hn,
    Nat.shiftRight_eq_div_pow, UInt16.reduceToNat, Nat.reduceMod, Nat.reducePow]
  omega

theorem bytes_toUInt32 {n : UInt32} {e₀ e₁ e₂ e₃ : UInt8}
    (h : n = ((((0 : UInt32) <<< 8 ||| e₀.toUInt32) <<< 8 ||| e₁.toUInt32) <<< 8 ||| e₂.toUInt32) <<< 8
      ||| e₃.toUInt32) :
    [(n >>> 24).toUInt8, (n >>> 16).toUInt8, (n >>> 8).toUInt8, n.toUInt8] = [e₀, e₁, e₂, e₃] := by
  have h₀ := e₀.toNat_lt
  have h₁ := e₁.toNat_lt
  have h₂ := e₂.toNat_lt
  have h₃ := e₃.toNat_lt
  have hn : n.toNat = 0x1000000 * e₀.toNat + 0x10000 * e₁.toNat + 0x100 * e₂.toNat + e₃.toNat :=
    h ▸ toNat_bytes32 e₀ e₁ e₂ e₃
  simp only [List.cons.injEq, and_true, ← UInt8.toNat_inj, UInt32.toNat_toUInt8, UInt32.toNat_shiftRight, hn,
    Nat.shiftRight_eq_div_pow, UInt32.reduceToNat, Nat.reduceMod, Nat.reducePow]
  omega

/-- The accumulated magic number is the right one when each of its bytes is. -/
theorem magic_eq_iff {m₀ m₁ m₂ : UInt8} :
    (((0 : UInt32) <<< 8 ||| m₀.toUInt32) <<< 8 ||| m₁.toUInt32) <<< 8 ||| m₂.toUInt32 = 0x746766 ↔
      [m₀, m₁, m₂] = magic := by
  have h₀ := m₀.toNat_lt
  have h₁ := m₁.toNat_lt
  have h₂ := m₂.toNat_lt
  rw [← UInt32.toNat_inj, toNat_bytes]
  simp only [magic, List.cons.injEq, and_true, ← UInt8.toNat_inj, UInt32.reduceToNat, UInt8.reduceToNat]
  omega

/-- Behind the magic number the loop reads the type and the length and looks at nothing else. -/
theorem parse_tail {p : Parse} {i : Nat} (hi : nbyteMagic + nbyteType + nbyteExtargs ≤ i)
    (hmagic : p.magic = 0x746766) (hp : p.isParsed = true) (buffer : Bytes) : parse p i buffer = p := by
  induction buffer generalizing i with
  | nil => rfl
  | cons b buffer ih =>
    have hnot : ¬i < nbyteMagic ∧ ¬i < nbyteMagic + nbyteType ∧ ¬i < nbyteMagic + nbyteType + nbyteExtargs := by
      omega
    rw [parse, if_neg hnot.1, if_pos hmagic, if_neg hnot.2.1, if_neg hnot.2.2]
    rw [show ({ p with isParsed := true } : Parse) = p by rw [← hp]]
    exact ih (Nat.le_succ_of_le hi)

/-- A buffer of the right length is a magic number, a type, a length and the rest. -/
theorem eq_of_length (h : buffer.length = nbyteAll) :
    ∃ m₀ m₁ m₂ t₀ t₁ e₀ e₁ e₂ e₃ args,
      buffer = m₀ :: m₁ :: m₂ :: t₀ :: t₁ :: e₀ :: e₁ :: e₂ :: e₃ :: args ∧ args.length = nbyteArgs := by
  match buffer, h with
  | m₀ :: m₁ :: m₂ :: t₀ :: t₁ :: e₀ :: e₁ :: e₂ :: e₃ :: args, h =>
    exact ⟨m₀, m₁, m₂, t₀, t₁, e₀, e₁, e₂, e₃, args, rfl,
      by simpa [nbyteAll, nbyteArgs, nbyteMagic, nbyteType, nbyteExtargs] using h⟩

theorem eq_of_magic (h : buffer.length = nbyteAll) (hm : buffer.take nbyteMagic = magic) :
    ∃ t₀ t₁ e₀ e₁ e₂ e₃ args,
      buffer = magic ++ t₀ :: t₁ :: e₀ :: e₁ :: e₂ :: e₃ :: args ∧ args.length = nbyteArgs := by
  obtain ⟨m₀, m₁, m₂, t₀, t₁, e₀, e₁, e₂, e₃, args, rfl, hargs⟩ := eq_of_length h
  refine ⟨t₀, t₁, e₀, e₁, e₂, e₃, args, ?_, hargs⟩
  rw [← hm]
  rfl

/-- What the constructor reads of a buffer that begins with the magic number. -/
theorem ofBuffer_magic {t₀ t₁ e₀ e₁ e₂ e₃ : UInt8} {args : Bytes} :
    ofBuffer (magic ++ t₀ :: t₁ :: e₀ :: e₁ :: e₂ :: e₃ :: args) =
      { typ := ⟨((0 : UInt16) <<< 8 ||| t₀.toUInt16) <<< 8 ||| t₁.toUInt16⟩
        data := magic ++ t₀ :: t₁ :: e₀ :: e₁ :: e₂ :: e₃ :: args
        dataLen := nbyteAll
        extargsLen := some (((((0 : UInt32) <<< 8 ||| e₀.toUInt32) <<< 8 ||| e₁.toUInt32) <<< 8 ||| e₂.toUInt32) <<< 8
          ||| e₃.toUInt32)
        extargs := none
        isParsed := true } := by
  have hmagic : (((0 : UInt32) <<< 8 ||| (0x74 : UInt8).toUInt32) <<< 8 ||| (0x67 : UInt8).toUInt32) <<< 8 |||
      (0x66 : UInt8).toUInt32 = 0x746766 := by decide
  have hparse : ∀ p : Parse, p.magic = 0x746766 → p.isParsed = true → parse p 9 args = p :=
    fun p hm hp => parse_tail (by decide) hm hp args
  simp only [ofBuffer, magic, List.cons_append, List.nil_append, parse, nbyteMagic, nbyteType, nbyteExtargs, hmagic,
    Nat.reduceLT, Nat.reduceAdd, ↓reduceIte, hparse]

theorem ofBuffer_not_magic (h : buffer.length = nbyteAll) (hm : buffer.take nbyteMagic ≠ magic) :
    ofBuffer buffer =
      { typ := .ignore, data := List.replicate nbyteAll 0, dataLen := 0, extargsLen := none, extargs := none,
        isParsed := false } := by
  obtain ⟨m₀, m₁, m₂, t₀, t₁, e₀, e₁, e₂, e₃, args, rfl, -⟩ := eq_of_length h
  have hne : (((0 : UInt32) <<< 8 ||| m₀.toUInt32) <<< 8 ||| m₁.toUInt32) <<< 8 ||| m₂.toUInt32 ≠ 0x746766 :=
    fun heq => hm (magic_eq_iff.mp heq)
  simp only [ofBuffer, parse, nbyteMagic, Nat.reduceLT, Nat.reduceAdd, ↓reduceIte, hne, Bool.false_eq_true]

theorem wellFormed_ofBuffer (h : buffer.length = nbyteAll) :
    (ofBuffer buffer).wellFormed = true ↔ buffer.take nbyteMagic = magic := by
  by_cases hm : buffer.take nbyteMagic = magic
  · obtain ⟨t₀, t₁, e₀, e₁, e₂, e₃, args, rfl, -⟩ := eq_of_magic h hm
    rw [ofBuffer_magic]
    exact iff_of_true rfl rfl
  · rw [ofBuffer_not_magic h hm]
    exact iff_of_false (by simp [wellFormed]) hm

theorem data_ofBuffer (h : (ofBuffer buffer).wellFormed = true) : (ofBuffer buffer).data = buffer := by
  simp only [ofBuffer, wellFormed] at h ⊢
  split at h
  · rename_i hp
    rw [if_pos hp]
  · cases h

theorem extargs_ofBuffer (buffer : Bytes) : (ofBuffer buffer).extargs = none := by
  simp only [ofBuffer]
  split <;> rfl

/-- Two buffers give the same message when they are the same or both lack the magic number. -/
theorem ofBuffer_eq_iff {buffer' : Bytes} (h : buffer.length = nbyteAll) (h' : buffer'.length = nbyteAll) :
    ofBuffer buffer = ofBuffer buffer' ↔
      buffer = buffer' ∨ (buffer.take nbyteMagic ≠ magic ∧ buffer'.take nbyteMagic ≠ magic) := by
  constructor
  · intro heq
    by_cases hm : buffer.take nbyteMagic = magic
    · have hw := (wellFormed_ofBuffer h).mpr hm
      left
      rw [← data_ofBuffer hw, heq, data_ofBuffer (heq ▸ hw)]
    · have hm' : buffer'.take nbyteMagic ≠ magic := by
        intro hm'
        have hw := (wellFormed_ofBuffer h').mpr hm'
        rw [← heq] at hw
        exact hm ((wellFormed_ofBuffer h).mp hw)
      exact Or.inr ⟨hm, hm'⟩
  · rintro (rfl | ⟨hm, hm'⟩)
    · rfl
    · rw [ofBuffer_not_magic h hm, ofBuffer_not_magic h' hm']

/-! ### The messages that the program makes -/

variable {typ : IpcMsgType} {extlen : UInt32} {args : Bytes}

theorem wellFormed_newIpcmsg : (newIpcmsg typ extlen args).wellFormed = true := by
  simp only [newIpcmsg, List.append_assoc, List.cons_append, List.nil_append, ofBuffer_magic, wellFormed]

theorem extargsLen_newIpcmsg : (newIpcmsg typ extlen args).extargsLen = some extlen := by
  simp only [newIpcmsg, List.append_assoc, List.cons_append, List.nil_append, ofBuffer_magic, toUInt32_bytes]

theorem typ_newIpcmsg : (newIpcmsg typ extlen args).typ = typ := by
  simp only [newIpcmsg, List.append_assoc, List.cons_append, List.nil_append, ofBuffer_magic, toUInt16_bytes]

theorem args_newIpcmsg (h : args.length = nbyteArgs) : (newIpcmsg typ extlen args).args = args := by
  simp only [newIpcmsg, List.append_assoc, List.cons_append, List.nil_append, ofBuffer_magic, IpcMsg.args]
  rw [List.take_of_length_le (by simp [h, magic, nbyteArgs, nbyteAll, nbyteMagic, nbyteType, nbyteExtargs])]
  rfl

theorem ofBuffer_data_newIpcmsg : ofBuffer (newIpcmsg typ extlen args).data = newIpcmsg typ extlen args := by
  have hw : (newIpcmsg typ extlen args).wellFormed = true := wellFormed_newIpcmsg
  rw [newIpcmsg] at hw ⊢
  rw [data_ofBuffer hw]

theorem length_data_newIpcmsg (h : args.length = nbyteArgs) :
    (newIpcmsg typ extlen args).data.length = nbyteAll := by
  have hw : (newIpcmsg typ extlen args).wellFormed = true := wellFormed_newIpcmsg
  rw [newIpcmsg] at hw ⊢
  rw [data_ofBuffer hw]
  simp [h, magic, nbyteArgs, nbyteAll, nbyteMagic, nbyteType, nbyteExtargs]

end IpcMsg

end TgFocus
