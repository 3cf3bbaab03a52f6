import TgFocus.Library.Utf8

/-! The characters of UTF-8: reading the first one of a byte sequence, and the valid sequences as the
    encodings of lists of characters. -/

namespace Utf8

/-- The bits that are read behind the byte `b`, when the bits `v` are read in the state before it. -/
def bits (q : State) (v : Nat) (b : UInt8) : Nat :=
  match q with
  | .start =>
    if b < 0x80 then b.toNat else if b < 0xe0 then b.toNat % 32 else if b < 0xf0 then b.toNat % 16 else b.toNat % 8
  | _ => v * 64 + b.toNat % 64

/-- What a byte sequence begins with: a character of `n` bytes, a part of one, or something else. -/
inductive First where
  | char (c : Char) (n : Nat)
  | incomplete
  | illegal
  deriving DecidableEq, Repr

/-- Goes on to read a character of which `n` bytes are read. -/
def scan (q : State) (v n : Nat) : List UInt8 → First
  | [] => .incomplete
  | b :: s =>
    match step q b with
    | none => .illegal
    | some .start => .char (Char.ofNat (bits q v b)) (n + 1)
    | some r => scan r (bits q v b) (n + 1) s

def first (s : List UInt8) : First := scan .start 0 0 s

def encode (cs : List Char) : List UInt8 := cs.flatMap String.utf8EncodeChar

/-- The well-formed sequences of one character, with its number. -/
inductive WellFormed : List UInt8 → Nat → Prop where
  | one {a : UInt8} (ha : a.toNat < 0x80) : WellFormed [a] a.toNat
  | two {a b : UInt8} (ha : 0xc2 ≤ a.toNat ∧ a.toNat < 0xe0) (hb : 0x80 ≤ b.toNat ∧ b.toNat ≤ 0xbf) :
      WellFormed [a, b] (a.toNat % 32 * 64 + b.toNat % 64)
  | three {a b c : UInt8} (ha : 0xe0 ≤ a.toNat ∧ a.toNat < 0xf0) (hb : 0x80 ≤ b.toNat ∧ b.toNat ≤ 0xbf)
      (hE0 : a.toNat = 0xe0 → 0xa0 ≤ b.toNat) (hED : a.toNat = 0xed → b.toNat ≤ 0x9f)
      (hc : 0x80 ≤ c.toNat ∧ c.toNat ≤ 0xbf) :
      WellFormed [a, b, c] ((a.toNat % 16 * 64 + b.toNat % 64) * 64 + c.toNat % 64)
  | four {a b c d : UInt8} (ha : 0xf0 ≤ a.toNat ∧ a.toNat ≤ 0xf4) (hb : 0x80 ≤ b.toNat ∧ b.toNat ≤ 0xbf)
      (hF0 : a.toNat = 0xf0 → 0x90 ≤ b.toNat) (hF4 : a.toNat = 0xf4 → b.toNat ≤ 0x8f)
      (hc : 0x80 ≤ c.toNat ∧ c.toNat ≤ 0xbf) (hd : 0x80 ≤ d.toNat ∧ d.toNat ≤ 0xbf) :
      WellFormed [a, b, c, d] (((a.toNat % 8 * 64 + b.toNat % 64) * 64 + c.toNat % 64) * 64 + d.toNat % 64)

section
variable {q r : State} {a b : UInt8} {s t u : List UInt8} {v n m : Nat} {x : Char}

/-! ### Characters and their bytes -/

theorem toNat_ofNat_char (h : v < 0xd800 ∨ (0xe000 ≤ v ∧ v < 0x110000)) : (Char.ofNat v).val.toNat = v := by
  have hvalid : v.isValidChar := by
    rcases h with h | ⟨hlo, hhi⟩
    · exact Or.inl h
    · exact Or.inr ⟨by omega, hhi⟩
  rw [Char.ofNat, dif_pos hvalid]
  exact UInt32.toNat_ofNatLT

theorem toNat_ofNat_byte (h : n < 256) : (UInt8.ofNat n).toNat = n := by
  rw [UInt8.toNat_ofNat']
  exact Nat.mod_eq_of_lt h

theorem eq_ofNat_iff (h : n < 256) : UInt8.ofNat n = a ↔ n = a.toNat := by
  rw [← UInt8.toNat_inj, toNat_ofNat_byte h]

theorem WellFormed.encodeChar (h : WellFormed s v) : String.utf8EncodeChar (Char.ofNat v) = s := by
  cases h with
  | one ha =>
    rw [String.utf8EncodeChar, toNat_ofNat_char (by omega)]
    rw [if_pos (by omega), UInt8.ofNat_toNat]
  | two ha hb =>
    rw [String.utf8EncodeChar, toNat_ofNat_char (by omega)]
    rw [if_neg (by omega), if_pos (by omega)]
    simp only [List.cons.injEq, and_true]
    exact ⟨(eq_ofNat_iff (by omega)).mpr (by omega), (eq_ofNat_iff (by omega)).mpr (by omega)⟩
  | three ha hb hE0 hED hc =>
    rw [String.utf8EncodeChar, toNat_ofNat_char (by omega)]
    rw [if_neg (by omega), if_neg (by omega), if_pos (by omega)]
    simp only [List.cons.injEq, and_true]
    exact ⟨(eq_ofNat_iff (by omega)).mpr (by omega), (eq_ofNat_iff (by omega)).mpr (by omega),
      (eq_ofNat_iff (by omega)).mpr (by omega)⟩
  | four ha hb hF0 hF4 hc hd =>
    rw [String.utf8EncodeChar, toNat_ofNat_char (by omega)]
    rw [if_neg (by omega), if_neg (by omega), if_neg (by omega)]
    simp only [List.cons.injEq, and_true]
    exact ⟨(eq_ofNat_iff (by omega)).mpr (by omega), (eq_ofNat_iff (by omega)).mpr (by omega),
      (eq_ofNat_iff (by omega)).mpr (by omega), (eq_ofNat_iff (by omega)).mpr (by omega)⟩

theorem WellFormed.of_eq (h : WellFormed s v) (hv : v = n) : WellFormed s n := hv ▸ h

theorem wellFormed_encodeChar (x : Char) : WellFormed (String.utf8EncodeChar x) x.val.toNat := by
  have hvalid : x.val.toNat < 0xd800 ∨ (0xdfff < x.val.toNat ∧ x.val.toNat < 0x110000) := x.valid
  rw [String.utf8EncodeChar]
  split
  · have ha := toNat_ofNat_byte (n := x.val.toNat) (by omega)
    exact (WellFormed.one (by omega)).of_eq ha
  · split
    · have ha := toNat_ofNat_byte (n := x.val.toNat / 64 % 0x20 + 0xc0) (by omega)
      have hb := toNat_ofNat_byte (n := x.val.toNat % 0x40 + 0x80) (by omega)
      exact (WellFormed.two (by omega) (by omega)).of_eq (by omega)
    · split
      · have ha := toNat_ofNat_byte (n := x.val.toNat / 4096 % 0x10 + 0xe0) (by omega)
        have hb := toNat_ofNat_byte (n := x.val.toNat / 64 % 0x40 + 0x80) (by omega)
        have hc := toNat_ofNat_byte (n := x.val.toNat % 0x40 + 0x80) (by omega)
        exact (WellFormed.three (by omega) (by omega) (by omega) (by omega) (by omega)).of_eq (by omega)
      · have ha := toNat_ofNat_byte (n := x.val.toNat / 262144 % 0x08 + 0xf0) (by omega)
        have hb := toNat_ofNat_byte (n := x.val.toNat / 4096 % 0x40 + 0x80) (by omega)
        have hc := toNat_ofNat_byte (n := x.val.toNat / 64 % 0x40 + 0x80) (by omega)
        have hd := toNat_ofNat_byte (n := x.val.toNat % 0x40 + 0x80) (by omega)
        exact (WellFormed.four (by omega) (by omega) (by omega) (by omega) (by omega) (by omega)).of_eq (by omega)

/-- An ASCII byte is a character of its own. -/
theorem WellFormed.mem_ascii_iff (h : WellFormed s v) (hb : b.toNat < 0x80) : b ∈ s ↔ v = b.toNat := by
  cases h with
  | one ha => rw [List.mem_singleton, ← UInt8.toNat_inj, eq_comm]
  | two ha hb₁ =>
    refine iff_of_false (fun hmem => ?_) (by omega)
    simp only [List.mem_cons, List.not_mem_nil, ← UInt8.toNat_inj, or_false] at hmem
    omega
  | three ha hb₁ hE0 hED hc =>
    refine iff_of_false (fun hmem => ?_) (by omega)
    simp only [List.mem_cons, List.not_mem_nil, ← UInt8.toNat_inj, or_false] at hmem
    omega
  | four ha hb₁ hF0 hF4 hc hd =>
    refine iff_of_false (fun hmem => ?_) (by omega)
    simp only [List.mem_cons, List.not_mem_nil, ← UInt8.toNat_inj, or_false] at hmem
    omega

theorem mem_encodeChar_iff (hb : b.toNat < 0x80) : b ∈ String.utf8EncodeChar x ↔ x = Char.ofNat b.toNat := by
  rw [(wellFormed_encodeChar x).mem_ascii_iff hb]
  constructor
  · intro h
    rw [← h]
    exact (Char.ofNat_toNat x).symm
  · rintro rfl
    exact toNat_ofNat_char (by omega)

theorem mem_encode_iff (hb : b.toNat < 0x80) {cs : List Char} : b ∈ encode cs ↔ Char.ofNat b.toNat ∈ cs := by
  rw [encode, List.mem_flatMap]
  constructor
  · rintro ⟨x, hx, hmem⟩
    exact (mem_encodeChar_iff hb).mp hmem ▸ hx
  · intro h
    exact ⟨_, h, (mem_encodeChar_iff hb).mpr rfl⟩

/-! ### Steps of the automaton -/

theorem within_eq_some {lo hi : UInt8} :
    within lo hi b q = some r ↔ (lo.toNat ≤ b.toNat ∧ b.toNat ≤ hi.toNat) ∧ q = r := by
  rw [within, Option.ite_none_right_eq_some, Option.some.injEq]
  rfl

theorem within_of_le {lo hi : UInt8} (h : lo.toNat ≤ b.toNat ∧ b.toNat ≤ hi.toNat) : within lo hi b q = some q :=
  within_eq_some.mpr ⟨h, rfl⟩

theorem step_start_eq (b : UInt8) :
    step .start b =
      if b.toNat < 0x80 then some .start
      else if b.toNat < 0xc2 then none
      else if b.toNat < 0xe0 then some .tail1
      else if b.toNat = 0xe0 then some .afterE0
      else if b.toNat = 0xed then some .afterED
      else if b.toNat < 0xf0 then some .tail2
      else if b.toNat = 0xf0 then some .afterF0
      else if b.toNat < 0xf4 then some .tail3
      else if b.toNat = 0xf4 then some .afterF4
      else none := by
  simp only [step, UInt8.lt_iff_toNat_lt, ← UInt8.toNat_inj, UInt8.reduceToNat]

theorem step_start_two (h : 0xc2 ≤ b.toNat ∧ b.toNat < 0xe0) : step .start b = some .tail1 := by
  rw [step_start_eq, if_neg (by omega), if_neg (by omega), if_pos h.2]

/-- The state behind the first byte `a` of a character of three bytes, and of one of four. -/
def afterThree (a : UInt8) : State :=
  if a.toNat = 0xe0 then .afterE0 else if a.toNat = 0xed then .afterED else .tail2

def afterFour (a : UInt8) : State :=
  if a.toNat = 0xf0 then .afterF0 else if a.toNat = 0xf4 then .afterF4 else .tail3

theorem step_start_three (h : 0xe0 ≤ b.toNat ∧ b.toNat < 0xf0) : step .start b = some (afterThree b) := by
  rw [step_start_eq, if_neg (by omega), if_neg (by omega), if_neg (by omega), afterThree]
  split
  · rfl
  · split
    · rfl
    · rw [if_pos h.2]

theorem step_start_four (h : 0xf0 ≤ b.toNat ∧ b.toNat ≤ 0xf4) : step .start b = some (afterFour b) := by
  rw [step_start_eq, if_neg (by omega), if_neg (by omega), if_neg (by omega), if_neg (by omega), if_neg (by omega),
    if_neg (by omega), afterFour]
  split
  · rfl
  · by_cases hF4 : b.toNat = 0xf4
    · rw [if_neg (by omega), if_pos hF4, if_pos hF4]
    · rw [if_pos (by omega), if_neg hF4]

theorem step_afterThree :
    step (afterThree a) b = some r ↔
      ((0x80 ≤ b.toNat ∧ b.toNat ≤ 0xbf) ∧ (a.toNat = 0xe0 → 0xa0 ≤ b.toNat) ∧ (a.toNat = 0xed → b.toNat ≤ 0x9f)) ∧
        .tail1 = r := by
  unfold afterThree
  split
  · rw [step, within_eq_some, and_congr_left_iff]
    rintro -
    change 0xa0 ≤ b.toNat ∧ b.toNat ≤ 0xbf ↔ _
    omega
  · split
    · rw [step, within_eq_some, and_congr_left_iff]
      rintro -
      change 0x80 ≤ b.toNat ∧ b.toNat ≤ 0x9f ↔ _
      omega
    · rw [step, within_eq_some, and_congr_left_iff]
      rintro -
      change 0x80 ≤ b.toNat ∧ b.toNat ≤ 0xbf ↔ _
      omega

theorem step_afterFour :
    step (afterFour a) b = some r ↔
      ((0x80 ≤ b.toNat ∧ b.toNat ≤ 0xbf) ∧ (a.toNat = 0xf0 → 0x90 ≤ b.toNat) ∧ (a.toNat = 0xf4 → b.toNat ≤ 0x8f)) ∧
        .tail2 = r := by
  unfold afterFour
  split
  · rw [step, within_eq_some, and_congr_left_iff]
    rintro -
    change 0x90 ≤ b.toNat ∧ b.toNat ≤ 0xbf ↔ _
    omega
  · split
    · rw [step, within_eq_some, and_congr_left_iff]
      rintro -
      change 0x80 ≤ b.toNat ∧ b.toNat ≤ 0x8f ↔ _
      omega
    · rw [step, within_eq_some, and_congr_left_iff]
      rintro -
      change 0x80 ≤ b.toNat ∧ b.toNat ≤ 0xbf ↔ _
      omega

theorem afterThree_ne_start : afterThree a ≠ .start := by
  unfold afterThree
  split_ifs <;> decide

theorem afterFour_ne_start : afterFour a ≠ .start := by
  unfold afterFour
  split_ifs <;> decide

/-- What the first byte of a character can be. -/
theorem step_start_cases (h : step .start b = some r) :
    b.toNat < 0x80 ∨ (0xc2 ≤ b.toNat ∧ b.toNat < 0xe0) ∨ (0xe0 ≤ b.toNat ∧ b.toNat < 0xf0) ∨
      (0xf0 ≤ b.toNat ∧ b.toNat ≤ 0xf4) := by
  rw [step_start_eq] at h
  by_contra hno
  by_cases hlow : b.toNat < 0xc2
  · rw [if_neg (by omega), if_pos hlow] at h
    cases h
  · repeat rw [if_neg (by omega)] at h
    cases h

theorem bits_of_ne_start (hq : q ≠ .start) : bits q v b = v * 64 + b.toNat % 64 := by
  cases q <;> trivial

theorem bits_start_eq (v : Nat) (b : UInt8) :
    bits .start v b =
      if b.toNat < 0x80 then b.toNat
      else if b.toNat < 0xe0 then b.toNat % 32
      else if b.toNat < 0xf0 then b.toNat % 16
      else b.toNat % 8 := by
  simp only [bits, UInt8.lt_iff_toNat_lt, UInt8.reduceToNat]

theorem bits_start_one (h : b.toNat < 0x80) : bits .start v b = b.toNat := by
  rw [bits_start_eq, if_pos h]

theorem bits_start_two (h : 0xc2 ≤ b.toNat ∧ b.toNat < 0xe0) : bits .start v b = b.toNat % 32 := by
  rw [bits_start_eq, if_neg (by omega), if_pos h.2]

theorem bits_start_three (h : 0xe0 ≤ b.toNat ∧ b.toNat < 0xf0) : bits .start v b = b.toNat % 16 := by
  rw [bits_start_eq, if_neg (by omega), if_neg (by omega), if_pos h.2]

theorem bits_start_four (h : 0xf0 ≤ b.toNat) : bits .start v b = b.toNat % 8 := by
  rw [bits_start_eq, if_neg (by omega), if_neg (by omega), if_neg (by omega)]

/-! ### Scanning -/

theorem scan_cons_start (h : step q b = some .start) :
    scan q v n (b :: s) = .char (Char.ofNat (bits q v b)) (n + 1) := by
  rw [scan, h]

theorem scan_cons (h : step q b = some r) (hr : r ≠ .start) : scan q v n (b :: s) = scan r (bits q v b) (n + 1) s := by
  rw [scan, h]
  cases r <;> trivial

/-- A character is the end of a sequence of steps. -/
theorem scan_eq_char (h : scan q v n s = .char x m) :
    ∃ b t, s = b :: t ∧ ((step q b = some .start ∧ x = Char.ofNat (bits q v b) ∧ m = n + 1) ∨
      ∃ r, step q b = some r ∧ r ≠ .start ∧ scan r (bits q v b) (n + 1) t = .char x m) := by
  cases s with
  | nil => cases h
  | cons b t =>
    refine ⟨b, t, rfl, ?_⟩
    cases hq : step q b with
    | none =>
      rw [scan, hq] at h
      cases h
    | some r =>
      by_cases hr : r = .start
      · subst hr
        rw [scan_cons_start hq] at h
        cases h
        exact Or.inl ⟨rfl, rfl, rfl⟩
      · rw [scan_cons hq hr] at h
        exact Or.inr ⟨r, rfl, hr, h⟩

theorem WellFormed.first (h : WellFormed s v) : Utf8.first (s ++ t) = .char (Char.ofNat v) s.length := by
  rw [Utf8.first]
  cases h with
  | one ha => rw [List.singleton_append, scan_cons_start (step_start_ascii ha), bits_start_one ha, List.length_singleton]
  | @two a b ha hb =>
    have h₁ : step .tail1 b = some .start := within_of_le hb
    rw [List.cons_append, scan_cons (step_start_two ha) (by decide), bits_start_two ha]
    rw [List.singleton_append, scan_cons_start h₁, bits_of_ne_start (by decide)]
    rfl
  | @three a b c ha hb hE0 hED hc =>
    have h₁ : step (afterThree a) b = some .tail1 := step_afterThree.mpr ⟨⟨hb, hE0, hED⟩, rfl⟩
    have h₂ : step .tail1 c = some .start := within_of_le hc
    rw [List.cons_append, scan_cons (step_start_three ha) afterThree_ne_start, bits_start_three ha]
    rw [List.cons_append, scan_cons h₁ (by decide), bits_of_ne_start afterThree_ne_start]
    rw [List.singleton_append, scan_cons_start h₂, bits_of_ne_start (by decide)]
    rfl
  | @four a b c d ha hb hF0 hF4 hc hd =>
    have h₁ : step (afterFour a) b = some .tail2 := step_afterFour.mpr ⟨⟨hb, hF0, hF4⟩, rfl⟩
    have h₂ : step .tail2 c = some .tail1 := within_of_le hc
    have h₃ : step .tail1 d = some .start := within_of_le hd
    rw [List.cons_append, scan_cons (step_start_four ha) afterFour_ne_start, bits_start_four ha.1]
    rw [List.cons_append, scan_cons h₁ (by decide), bits_of_ne_start afterFour_ne_start]
    rw [List.cons_append, scan_cons h₂ (by decide), bits_of_ne_start (by decide)]
    rw [List.singleton_append, scan_cons_start h₃, bits_of_ne_start (by decide)]
    rfl

theorem exists_of_scan_tail1 (h : scan .tail1 v n s = .char x m) :
    ∃ b t, s = b :: t ∧ (0x80 ≤ b.toNat ∧ b.toNat ≤ 0xbf) ∧ x = Char.ofNat (v * 64 + b.toNat % 64) ∧ m = n + 1 := by
  obtain ⟨b, t, rfl, ⟨hstep, rfl, rfl⟩ | ⟨r, hstep, hr, -⟩⟩ := scan_eq_char h
  · exact ⟨b, t, rfl, (within_eq_some.mp hstep).1, rfl, rfl⟩
  · exact absurd (within_eq_some.mp hstep).2.symm hr

/-- The first byte that is read in a state in which more than one is due. -/
theorem exists_of_scan {P : UInt8 → Prop} (hq : q ≠ .start) (hr : r ≠ .start)
    (hnext : ∀ b r', step q b = some r' → P b ∧ r = r') (h : scan q v n s = .char x m) :
    ∃ b t, s = b :: t ∧ P b ∧ scan r (v * 64 + b.toNat % 64) (n + 1) t = .char x m := by
  obtain ⟨b, t, rfl, ⟨hstep, -, -⟩ | ⟨r', hstep, -, hscan⟩⟩ := scan_eq_char h
  · exact absurd (hnext b _ hstep).2 hr
  · obtain ⟨hP, rfl⟩ := hnext b _ hstep
    rw [bits_of_ne_start hq] at hscan
    exact ⟨b, t, rfl, hP, hscan⟩

theorem exists_wellFormed_of_first (h : Utf8.first s = .char x n) :
    ∃ u t v, s = u ++ t ∧ WellFormed u v ∧ x = Char.ofNat v ∧ n = u.length := by
  cases s with
  | nil => cases h
  | cons a s =>
    rw [Utf8.first] at h
    cases hq : step .start a with
    | none =>
      rw [scan, hq] at h
      cases h
    | some q =>
      rcases step_start_cases hq with ha | ha | ha | ha
      · rw [scan_cons_start (step_start_ascii ha), bits_start_one ha] at h
        cases h
        exact ⟨[a], s, _, rfl, .one ha, rfl, rfl⟩
      · rw [scan_cons (step_start_two ha) (by decide), bits_start_two ha] at h
        obtain ⟨b, t, rfl, hb, rfl, rfl⟩ := exists_of_scan_tail1 h
        exact ⟨[a, b], t, _, rfl, .two ha hb, rfl, rfl⟩
      · rw [scan_cons (step_start_three ha) afterThree_ne_start, bits_start_three ha] at h
        obtain ⟨b, s, rfl, ⟨hb, hE0, hED⟩, h⟩ :=
          exists_of_scan afterThree_ne_start (by decide) (fun b r' => step_afterThree.mp) h
        obtain ⟨c, t, rfl, hc, rfl, rfl⟩ := exists_of_scan_tail1 h
        exact ⟨[a, b, c], t, _, rfl, .three ha hb hE0 hED hc, rfl, rfl⟩
      · rw [scan_cons (step_start_four ha) afterFour_ne_start, bits_start_four ha.1] at h
        obtain ⟨b, s, rfl, ⟨hb, hF0, hF4⟩, h⟩ :=
          exists_of_scan afterFour_ne_start (by decide) (fun b r' => step_afterFour.mp) h
        have htail2 : ∀ c r', step .tail2 c = some r' → (0x80 ≤ c.toNat ∧ c.toNat ≤ 0xbf) ∧ .tail1 = r' :=
          fun c r' => within_eq_some.mp
        obtain ⟨c, s, rfl, hc, h⟩ := exists_of_scan (by decide) (by decide) htail2 h
        obtain ⟨d, t, rfl, hd, rfl, rfl⟩ := exists_of_scan_tail1 h
        exact ⟨[a, b, c, d], t, _, rfl, .four ha hb hF0 hF4 hc hd, rfl, rfl⟩

theorem first_encodeChar (x : Char) (t : List UInt8) :
    Utf8.first (String.utf8EncodeChar x ++ t) = .char x (String.utf8EncodeChar x).length := by
  rw [(wellFormed_encodeChar x).first]
  exact congrArg (First.char · _) (Char.ofNat_toNat x)

theorem exists_of_first (h : Utf8.first s = .char x n) :
    ∃ t, s = String.utf8EncodeChar x ++ t ∧ n = (String.utf8EncodeChar x).length := by
  obtain ⟨u, t, v, rfl, hu, rfl, rfl⟩ := exists_wellFormed_of_first h
  exact ⟨t, by rw [hu.encodeChar], by rw [hu.encodeChar]⟩

/-! ### Valid sequences -/

theorem encode_append (cs ds : List Char) : encode (cs ++ ds) = encode cs ++ encode ds := List.flatMap_append

theorem run_of_scan (h : scan q v n s = .char x m) : ∃ u t, s = u ++ t ∧ m = n + u.length ∧ run q u = some .start := by
  induction s generalizing q v n with
  | nil => cases h
  | cons a s ih =>
    obtain ⟨b, t, hs, ⟨hstep, -, rfl⟩ | ⟨r, hstep, -, hscan⟩⟩ := scan_eq_char h
    · obtain ⟨rfl, rfl⟩ := List.cons.inj hs
      exact ⟨[a], s, rfl, rfl, by rw [run, hstep]; rfl⟩
    · obtain ⟨rfl, rfl⟩ := List.cons.inj hs
      obtain ⟨u, t, rfl, rfl, hu⟩ := ih hscan
      refine ⟨a :: u, t, rfl, ?_, ?_⟩
      · rw [List.length_cons]
        omega
      · rw [run, hstep]
        exact hu

theorem valid_encodeChar (x : Char) : Valid (String.utf8EncodeChar x) := by
  have h := first_encodeChar x []
  rw [List.append_nil, Utf8.first] at h
  obtain ⟨u, t, heq, hlen, hu⟩ := run_of_scan h
  rw [Nat.zero_add] at hlen
  obtain ⟨rfl, -⟩ := List.append_inj (heq.symm.trans (List.append_nil _).symm) hlen.symm
  exact hu

/-- A sequence that leads back to the start begins with a character. -/
theorem exists_scan_of_run (h : run q s = some .start) (hne : q ≠ .start ∨ s ≠ []) (v n : Nat) :
    ∃ x m, scan q v n s = .char x m := by
  induction s generalizing q v n with
  | nil =>
    rcases hne with hq | hs
    · exact absurd (Option.some.inj h) hq
    · exact absurd rfl hs
  | cons b s ih =>
    obtain ⟨r, hstep, h⟩ := Option.bind_eq_some_iff.mp h
    by_cases hr : r = .start
    · subst hr
      exact ⟨_, _, scan_cons_start hstep⟩
    · rw [scan_cons hstep hr]
      exact ih h (Or.inl hr) _ _

theorem valid_of_ascii (h : ∀ b ∈ s, b < 0x80) : Valid s := by
  induction s with
  | nil => rfl
  | cons b s ih =>
    rw [Valid, run, step_start_ascii (h b List.mem_cons_self)]
    exact ih fun c hc => h c (List.mem_cons_of_mem b hc)

/-- The valid sequences are the encodings. -/
theorem valid_iff : Valid s ↔ ∃ cs, s = encode cs := by
  constructor
  · intro h
    induction hlen : s.length using Nat.strongRecOn generalizing s with
    | _ len ih =>
      cases s with
      | nil => exact ⟨[], rfl⟩
      | cons b s =>
        obtain ⟨x, m, hscan⟩ := exists_scan_of_run h (Or.inr (List.cons_ne_nil b s)) 0 0
        obtain ⟨t, heq, -⟩ := exists_of_first hscan
        rw [Valid, heq, run_append, valid_encodeChar x, Option.bind_some] at h
        have hpos : 0 < (String.utf8EncodeChar x).length := List.length_pos_of_ne_nil String.utf8EncodeChar_ne_nil
        have hlt : t.length < len := by
          rw [← hlen, heq, List.length_append]
          omega
        obtain ⟨cs, rfl⟩ := ih _ hlt h rfl
        exact ⟨x :: cs, heq⟩
  · rintro ⟨cs, rfl⟩
    exact valid_flatMap fun x _ => valid_encodeChar x

end

end Utf8
