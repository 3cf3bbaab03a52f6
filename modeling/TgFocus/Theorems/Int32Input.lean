import TgFocus.Common
import TgFocus.Theorems.Numbers

/-! The numbers that are accepted as input: what `std::to_string` writes for an `int`, and nothing else. -/

namespace TgFocus

/-- A text is accepted exactly when it is a number of 32 bits as the program would write it, and is then read
    as this number. -/
theorem isValidInt32_iff (s : Bytes) :
    (isValidInt32 s = true ↔ ∃ z : Int, -0x80000000 ≤ z ∧ z ≤ 0x7fffffff ∧ s = decimalInt z) ∧
      ∀ z : Int, -0x80000000 ≤ z → z ≤ 0x7fffffff → s = decimalInt z → (sstrToInt32 s).toInt = z := by
  have hread : ∀ z : Int, -0x80000000 ≤ z → z ≤ 0x7fffffff → strtol (cStr (decimalInt z)) = z := by
    intro z hlo hhi
    rw [(written_decimalInt z).strtol_eq]
    omega
  constructor
  · constructor
    · intro h
      rw [isValidInt32] at h
      split at h
      · cases h
      · rename_i hrange
        split at h
        · cases h
        · rename_i hsame
          exact ⟨_, by omega, by omega, (not_not.mp hsame).symm⟩
    · rintro ⟨z, hlo, hhi, rfl⟩
      rw [isValidInt32, hread z hlo hhi]
      rw [if_neg (by omega), if_neg (not_not.mpr rfl)]
  · rintro z hlo hhi rfl
    rw [sstrToInt32, hread z hlo hhi]
    exact Int32.toInt_ofInt_of_le (by omega) (by omega)

/-- A zero in front, a zero with a sign, and a number that only `long` can hold are not accepted. -/
example : [str "-2147483648", str "0", str "007", str "-0", str "2147483648"].map isValidInt32 =
    [true, true, false, false, false] := by decide

end TgFocus
