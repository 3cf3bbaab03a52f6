import Mathlib.Algebra.Ring.Nat
import TgFocus.Library.Utf8Chars

/-! UTF-16, and the conversion to it that C offers: `mbrtoc16` of `<uchar.h>` (C11, 7.28.1.1) in a locale
    whose multibyte encoding is UTF-8. -/

namespace Utf16

def firstUnit (c : Char) : UInt16 :=
  if c.val.toNat < 0x10000 then UInt16.ofNat c.val.toNat else UInt16.ofNat (0xd800 + (c.val.toNat - 0x10000) / 0x400)

/-- The second half of a surrogate pair. -/
def secondUnit (c : Char) : Option UInt16 :=
  if c.val.toNat < 0x10000 then none else some (UInt16.ofNat (0xdc00 + (c.val.toNat - 0x10000) % 0x400))

def encodeChar (c : Char) : List UInt16 := firstUnit c :: (secondUnit c).toList

def encode (cs : List Char) : List UInt16 := cs.flatMap encodeChar

/-- The units that a byte of UTF-8 stands for: those of the character that it begins. -/
def width (b : UInt8) : Nat := if b.toNat < 0x80 then 1 else if b.toNat < 0xc0 then 0 else if b.toNat < 0xf0 then 1 else 2

/-- The number of units of a text in UTF-8. -/
def lengthOf (s : List UInt8) : Nat := (s.map width).sum

/-- `mbstate_t`: the bytes of a character that is not complete, and the half of a pair that is due. -/
structure MbState where
  begun : List UInt8 := []
  low : Option UInt16 := none
  deriving DecidableEq, Repr

/-- What `mbrtoc16` returns, with the unit that it stores: a number of bytes, which is `0` for the null
    character, or `-3`, `-2` or `-1`. -/
inductive Rc where
  | bytes (n : Nat) (c16 : UInt16)
  | low (c16 : UInt16)
  | incomplete
  | illegal
  deriving DecidableEq, Repr

/-- A half that is due comes first, and takes no bytes. -/
def mbrtoc16 (ps : MbState) (s : List UInt8) : Rc × MbState :=
  match ps.low with
  | some c16 => (.low c16, { ps with low := none })
  | none =>
    match Utf8.first (ps.begun ++ s) with
    | .char c n =>
      (.bytes (if c = '\x00' then 0 else n - ps.begun.length) (firstUnit c), { low := secondUnit c })
    | .incomplete => (.incomplete, { begun := ps.begun ++ s })
    | .illegal => (.illegal, ps)

section
variable {c : Char} {cs : List Char} {s : List UInt8} {c16 : UInt16}

theorem encode_cons : encode (c :: cs) = firstUnit c :: ((secondUnit c).toList ++ encode cs) := rfl

theorem encode_append (cs ds : List Char) : encode (cs ++ ds) = encode cs ++ encode ds := List.flatMap_append

theorem mbrtoc16_low : mbrtoc16 { low := some c16 } s = (.low c16, {}) := rfl

theorem mbrtoc16_nil : mbrtoc16 {} [] = (.incomplete, {}) := rfl

theorem mbrtoc16_encodeChar (c : Char) (t : List UInt8) :
    mbrtoc16 {} (String.utf8EncodeChar c ++ t) =
      (.bytes (if c = '\x00' then 0 else (String.utf8EncodeChar c).length) (firstUnit c), { low := secondUnit c }) := by
  have hfirst : Utf8.first ([] ++ (String.utf8EncodeChar c ++ t)) = .char c (String.utf8EncodeChar c).length :=
    Utf8.first_encodeChar c t
  rw [mbrtoc16]
  dsimp only
  rw [hfirst]
  rfl

/-- When no half is due, a character is converted, or nothing is. -/
theorem mbrtoc16_cases (s : List UInt8) :
    (∃ c t, s = String.utf8EncodeChar c ++ t) ∨
      ((mbrtoc16 {} s).1 = .incomplete ∨ (mbrtoc16 {} s).1 = .illegal) ∧ (mbrtoc16 {} s).2.low = none := by
  cases hfirst : Utf8.first s with
  | char c m =>
    obtain ⟨t, ht, -⟩ := Utf8.exists_of_first hfirst
    exact Or.inl ⟨c, t, ht⟩
  | incomplete =>
    simp only [mbrtoc16, List.nil_append, hfirst]
    exact Or.inr ⟨Or.inl trivial, trivial⟩
  | illegal =>
    simp only [mbrtoc16, List.nil_append, hfirst]
    exact Or.inr ⟨Or.inr trivial, trivial⟩

/-- A pair of units takes four bytes. -/
theorem length_toList_secondUnit_lt (c : Char) :
    (secondUnit c).toList.length < (String.utf8EncodeChar c).length := by
  rw [secondUnit, String.utf8EncodeChar]
  split_ifs
  all_goals simp
  all_goals omega

theorem length_encode_le (cs : List Char) : (encode cs).length ≤ (Utf8.encode cs).length := by
  induction cs with
  | nil => exact Nat.le_refl _
  | cons c cs ih =>
    have hc := length_toList_secondUnit_lt c
    rw [encode_cons, Utf8.encode, List.flatMap_cons, List.length_append, List.length_cons, List.length_append]
    change _ ≤ _ + (Utf8.encode cs).length
    omega

/-! ### Units -/

theorem length_encodeChar (c : Char) : (encodeChar c).length = if c.val.toNat < 0x10000 then 1 else 2 := by
  rw [encodeChar, secondUnit]
  split
  · rfl
  · rfl

theorem lengthOf_append (s t : List UInt8) : lengthOf (s ++ t) = lengthOf s + lengthOf t := by
  rw [lengthOf, List.map_append, List.sum_append]
  rfl

theorem width_tail {b : UInt8} (h : 0x80 ≤ b.toNat ∧ b.toNat ≤ 0xbf) : width b = 0 := by
  rw [width, if_neg (by omega), if_pos (by omega)]

theorem width_lead {b : UInt8} (h : 0xc2 ≤ b.toNat ∧ b.toNat < 0xf0) : width b = 1 := by
  rw [width, if_neg (by omega), if_neg (by omega), if_pos h.2]

theorem lengthOf_encodeChar (c : Char) : lengthOf (String.utf8EncodeChar c) = (encodeChar c).length := by
  have h := Utf8.wellFormed_encodeChar c
  rw [length_encodeChar]
  generalize String.utf8EncodeChar c = s at h
  generalize c.val.toNat = v at h
  cases h with
  | one ha =>
    rw [if_pos (by omega)]
    simp [lengthOf, width, ha]
  | two ha hb =>
    rw [if_pos (by omega)]
    simp [lengthOf, width_lead ⟨ha.1, by omega⟩, width_tail hb]
  | three ha hb hE0 hED hc =>
    rw [if_pos (by omega)]
    simp [lengthOf, width_lead ⟨by omega, ha.2⟩, width_tail hb, width_tail hc]
  | @four a b c d ha hb hF0 hF4 hc hd =>
    have hlead : width a = 2 := by rw [width, if_neg (by omega), if_neg (by omega), if_neg (by omega)]
    rw [if_neg (by omega)]
    simp [lengthOf, hlead, width_tail hb, width_tail hc, width_tail hd]

theorem lengthOf_encode (cs : List Char) : lengthOf (Utf8.encode cs) = (encode cs).length := by
  induction cs with
  | nil => rfl
  | cons c cs ih =>
    have hcons : Utf8.encode (c :: cs) = String.utf8EncodeChar c ++ Utf8.encode cs := rfl
    have hunits : encode (c :: cs) = encodeChar c ++ encode cs := rfl
    rw [hcons, hunits, lengthOf_append, lengthOf_encodeChar, ih, List.length_append]

/-- A unit below the surrogates is a character of its own. -/
theorem eq_of_mem_encodeChar {u : UInt16} (hu : u.toNat < 0xd800) (h : u ∈ encodeChar c) : c = Char.ofNat u.toNat := by
  have hvalid : c.val.toNat < 0xd800 ∨ (0xdfff < c.val.toNat ∧ c.val.toNat < 0x110000) := c.valid
  have hval : c.val.toNat = u.toNat := by
    rw [encodeChar, firstUnit, secondUnit] at h
    split at h
    · rw [Option.toList_none, List.mem_singleton, ← UInt16.toNat_inj, UInt16.toNat_ofNat'] at h
      omega
    · rw [Option.toList_some, List.mem_cons, List.mem_singleton, ← UInt16.toNat_inj, ← UInt16.toNat_inj,
        UInt16.toNat_ofNat', UInt16.toNat_ofNat'] at h
      omega
  rw [← hval]
  exact (Char.ofNat_toNat c).symm

theorem notMem_encode {u : UInt16} (hu : u.toNat < 0xd800) (h : Char.ofNat u.toNat ∉ cs) : u ∉ encode cs := by
  intro hmem
  obtain ⟨c, hc, hmem⟩ := List.mem_flatMap.mp hmem
  exact h (eq_of_mem_encodeChar hu hmem ▸ hc)

end

end Utf16
