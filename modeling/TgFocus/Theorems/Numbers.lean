import Mathlib.Data.List.TakeWhile
import TgFocus.Text

/-! What `atoi` makes of a number: the number that its digits mean, cut to the bounds of `long` and then to
    32 bits. -/

namespace TgFocus

/-- A number with or without a sign, as it is written. -/
inductive Written : Bytes → Int → Prop where
  | plain {digits : Bytes} (hne : digits ≠ []) (hd : ∀ b ∈ digits, isDigit b = true) :
      Written digits (leadingNat digits)
  | plus {digits : Bytes} (hne : digits ≠ []) (hd : ∀ b ∈ digits, isDigit b = true) :
      Written (0x2b :: digits) (leadingNat digits)
  | minus {digits : Bytes} (hne : digits ≠ []) (hd : ∀ b ∈ digits, isDigit b = true) :
      Written (0x2d :: digits) (-(leadingNat digits : Int))

/-- A number cut to the bounds of `long` and then to an `int`. -/
def cutToInt (z : Int) : Int32 := Int32.ofInt (max (-0x8000000000000000) (min z 0x7fffffffffffffff))

section
variable {token digits : Bytes} {b : UInt8} {z : Int}

theorem isDigit_iff : isDigit b = true ↔ 0x30 ≤ b.toNat ∧ b.toNat ≤ 0x39 := by
  simp [isDigit, UInt8.le_iff_toNat_le]

theorem digit_ne (h : isDigit b = true) : b ≠ 0 ∧ b ≠ 0x2b ∧ b ≠ 0x2d ∧ b ≠ space ∧ isSpace b = false := by
  obtain ⟨hlo, hhi⟩ := isDigit_iff.mp h
  refine ⟨?_, ?_, ?_, ?_, ?_⟩
  iterate 4
    rintro rfl
    revert hlo
    decide
  rw [isSpace, Bool.or_eq_false_iff, Bool.and_eq_false_iff]
  simp only [decide_eq_false_iff_not, ← UInt8.toNat_inj, UInt8.le_iff_toNat_le, UInt8.reduceToNat]
  omega

theorem Written.ne_zero (h : Written token z) : ∀ b ∈ token, b ≠ 0 ∧ b ≠ space := by
  intro b hb
  cases h with
  | plain hne hd => exact ⟨(digit_ne (hd b hb)).1, (digit_ne (hd b hb)).2.2.2.1⟩
  | plus hne hd | minus hne hd =>
    rcases List.mem_cons.mp hb with rfl | hb
    · decide
    · exact ⟨(digit_ne (hd b hb)).1, (digit_ne (hd b hb)).2.2.2.1⟩

theorem Written.ne_nil (h : Written token z) : token ≠ [] := by
  cases h with
  | plain hne hd => exact hne
  | plus hne hd | minus hne hd => exact List.cons_ne_nil _ _

theorem Written.word (h : Written token z) : Strings.Word space token := ⟨h.ne_nil, fun hsp => (h.ne_zero _ hsp).2 rfl⟩

theorem Written.strtol_eq (h : Written token z) :
    strtol (cStr token) = max (-0x8000000000000000) (min z 0x7fffffffffffffff) := by
  have hcstr : cStr token = token :=
    List.takeWhile_eq_self_iff.mpr fun b hb => decide_eq_true (h.ne_zero b hb).1
  rw [hcstr, strtol]
  cases h with
  | plain hne hd =>
    obtain ⟨b, digits, rfl⟩ := List.exists_cons_of_ne_nil hne
    obtain ⟨-, hplus, hminus, -, hspace⟩ := digit_ne (hd b List.mem_cons_self)
    rw [List.dropWhile_cons_of_neg (by rw [hspace]; decide)]
    split
    · rename_i heq
      exact absurd (List.cons.inj heq).1 hminus
    · rename_i heq
      exact absurd (List.cons.inj heq).1 hplus
    · rfl
  | plus hne hd | minus hne hd =>
    rw [List.dropWhile_cons_of_neg (by decide)]
    rfl

theorem Written.atoi_eq (h : Written token z) : atoi token = cutToInt z := by
  rw [atoi, h.strtol_eq, cutToInt]

theorem toNat_toUInt32 {x : Int32} (h : 0 ≤ x.toInt) : x.toUInt32.toNat = x.toInt.toNat := by
  rw [Int32.toNat_toUInt32_of_le (Int32.le_iff_toInt_le.mpr (by rw [Int32.toInt_zero]; exact h)), Int32.toNat_toInt]

/-- An id in the range of `int` is read as it is. -/
theorem toNat_cutToInt (h₁ : 1 ≤ z) (h₂ : z ≤ 0x7fffffff) : (cutToInt z).toUInt32.toNat = z.toNat := by
  have hlong : max (-0x8000000000000000) (min z 0x7fffffffffffffff) = z := by omega
  have hint : (cutToInt z).toInt = z := by
    rw [cutToInt, hlong]
    exact Int32.toInt_ofInt_of_le (by omega) (by omega)
  rw [toNat_toUInt32 (by omega), hint]

end

/-! ### Numbers that the program writes -/

theorem isDigit_ofNat {c : Char} (h : c.isDigit = true) :
    isDigit (UInt8.ofNat c.toNat) = true ∧ (UInt8.ofNat c.toNat).toNat = c.toNat := by
  have hc : 0x30 ≤ c.toNat ∧ c.toNat ≤ 0x39 := by
    simpa [Char.isDigit, UInt32.le_iff_toNat_le] using h
  have hto : (UInt8.ofNat c.toNat).toNat = c.toNat := by
    rw [UInt8.toNat_ofNat', Nat.mod_eq_of_lt (by omega)]
  exact ⟨isDigit_iff.mpr (by omega), hto⟩

theorem isDigit_decimal {n : Nat} : ∀ b ∈ decimal n, isDigit b = true := by
  intro b hb
  obtain ⟨c, hc, rfl⟩ := List.mem_map.mp hb
  exact (isDigit_ofNat (Nat.isDigit_of_mem_toDigits (by decide) (by decide) hc)).1

theorem decimal_ne_nil {n : Nat} : decimal n ≠ [] := by
  simp [decimal]

theorem leadingNat_decimal (n : Nat) : leadingNat (decimal n) = n := by
  have hall : (decimal n).takeWhile isDigit = decimal n := List.takeWhile_eq_self_iff.mpr isDigit_decimal
  have hfold : ∀ (cs : List Char) (k : Nat), (∀ c ∈ cs, c.isDigit = true) →
      (cs.map fun c => UInt8.ofNat c.toNat).foldl (fun n b => 10 * n + (b.toNat - 0x30)) k =
        Nat.ofDigitChars 10 cs k := by
    intro cs
    induction cs with
    | nil => intro k _; simp
    | cons c cs ih =>
      intro k hd
      rw [List.map_cons, List.foldl_cons, Nat.ofDigitChars_cons, (isDigit_ofNat (hd c List.mem_cons_self)).2]
      exact ih _ fun d hdm => hd d (List.mem_cons_of_mem c hdm)
  rw [leadingNat, hall, decimal, hfold _ _ fun c hc => Nat.isDigit_of_mem_toDigits (by decide) (by decide) hc,
    Nat.ofDigitChars_toDigits (by decide) (by decide)]

/-- A number that is written by `std::to_string`. -/
theorem written_decimalInt (z : Int) : Written (decimalInt z) z := by
  rw [decimalInt]
  split
  · have hz : z = -(leadingNat (decimal z.natAbs) : Int) := by
      rw [leadingNat_decimal]
      omega
    conv => rhs; rw [hz]
    exact .minus decimal_ne_nil isDigit_decimal
  · have hz : z = (leadingNat (decimal z.natAbs) : Int) := by
      rw [leadingNat_decimal]
      omega
    conv => rhs; rw [hz]
    exact .plain decimal_ne_nil isDigit_decimal

theorem written_of_digits (digits : Bytes) (hne : digits ≠ []) (hd : digits.all isDigit = true) :
    Written digits (leadingNat digits) := .plain hne fun b hb => List.all_eq_true.mp hd b hb

theorem written_one : Written (str "1") 1 := written_of_digits (str "1") (by decide) (by decide)

theorem written_zero : Written (str "0") 0 := written_of_digits (str "0") (by decide) (by decide)

theorem written_minus_one : Written (str "-1") (-1) := by
  refine @Written.minus (str "1") (by decide) fun b hb => ?_
  rw [List.mem_singleton.mp hb]
  decide

end TgFocus
