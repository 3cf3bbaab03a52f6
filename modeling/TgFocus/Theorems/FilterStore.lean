import TgFocus.UserData

/-! Reading the filters file back. `FileReader` takes a read for a failure unless it has seen the end of
    the file, and a file that fills its buffer to the last byte is read without seeing it. -/

namespace TgFocus

open Stdio

/-! ### Reading a file whole -/

namespace FileReader
variable {c : Bytes} {n : Nat}

@[simp] theorem content_ofContent : (ofContent c).fstrm.content = c := rfl

theorem large_ofContent : (ofContent c).large = decide (c.length > maxSmall) := by
  simp [ofContent]

/-- A buffer is enough when it has room for one byte more. -/
theorem readBuffer_ofContent : (ofContent c).readBuffer n = if c.length < n then some c else none := by
  have heof := feof_fread_seekSet (ofContent c).fstrm n
  have hdata := fread_seekSet_fst (ofContent c).fstrm n
  rw [content_ofContent] at heof hdata
  unfold readBuffer
  dsimp only
  rw [heof, hdata]
  by_cases h : c.length < n
  · simp [h, List.take_of_length_le (Nat.le_of_lt h)]
  · simp [h]

/-- The small buffer is used up to its own size, so a file of just that size is lost; so is one that
    fills the large buffer. -/
theorem readToString_ofContent :
    (ofContent c).readToString =
      if c.length ≠ maxSmall ∧ c.length < maxLarge then some c else none := by
  rw [readToString, large_ofContent, readSmallToString, readLargeToString, readBuffer_ofContent, readBuffer_ofContent]
  by_cases h : c.length > maxSmall
  · simp [h, show c.length ≠ maxSmall by omega]
  · have hlt : c.length < maxSmall ↔ c.length ≠ maxSmall ∧ c.length < maxLarge := by
      simp only [maxSmall, maxLarge] at *
      omega
    simp [h, hlt]

end FileReader

/-! ### The filters file -/

section
variable {u : UserData} {s : Bytes}

theorem filters_setFilters (hs : 1 ≤ s.length) (hlck : u.lckFilters = true) (hw : u.writable = true) :
    (u.setFilters s).filters = s := by
  simp [UserData.setFilters, hlck, hw, show s.length ≠ 0 by omega]

/-- A text that was read can be read again. -/
theorem getFilters_getFilters : ({ filters := u.getFilters } : UserData).getFilters = u.getFilters := by
  have hread : ∀ c : Bytes, c.length ≠ FileReader.maxSmall ∧ c.length < FileReader.maxLarge →
      ({ filters := c } : UserData).getFilters = c := by
    intro c hc
    rw [UserData.getFilters, FileReader.readToString_ofContent, if_pos hc, Option.getD_some]
  refine hread _ ?_
  rw [UserData.getFilters, FileReader.readToString_ofContent]
  split
  · rename_i h
    exact h
  · decide

/-- What is stored is read back, unless it just fills the small or the large buffer. -/
theorem getFilters_setFilters_iff (hs : 1 ≤ s.length) (hmax : s.length ≤ FileReader.maxLarge)
    (hlck : u.lckFilters = true) (hw : u.writable = true) :
    (u.setFilters s).getFilters = s ↔ s.length ≠ FileReader.maxSmall ∧ s.length ≠ FileReader.maxLarge := by
  rw [UserData.getFilters, filters_setFilters hs hlck hw, FileReader.readToString_ofContent]
  have hlt : s.length < FileReader.maxLarge ↔ s.length ≠ FileReader.maxLarge := by omega
  rw [← hlt]
  split
  · rename_i h
    exact iff_of_true rfl h
  · rename_i h
    refine iff_of_false ?_ h
    -- the text that stands for a failure is shorter than either buffer
    intro hdash
    have hlen : s.length = 1 := by rw [← hdash]; rfl
    simp only [FileReader.maxSmall, FileReader.maxLarge] at h
    omega

theorem getFilters_setFilters_short :
    1 ≤ (str "titles").length ∧ (({ filters := [] } : UserData).setFilters (str "titles")).getFilters = str "titles" :=
  ⟨by decide, (getFilters_setFilters_iff (by decide) (by decide) rfl rfl).mpr (by decide)⟩

/-- A text of 4096 bytes is read back as `-`. -/
theorem getFilters_setFilters_maxSmall :
    (({ filters := [] } : UserData).setFilters (List.replicate 4096 0x20)).getFilters = str "-" ∧
      str "-" ≠ List.replicate 4096 0x20 := by
  have hlen : (List.replicate 4096 (0x20 : UInt8)).length = FileReader.maxSmall := List.length_replicate
  constructor
  · rw [UserData.getFilters, filters_setFilters (hlen ▸ by decide) rfl rfl, FileReader.readToString_ofContent, hlen,
      if_neg fun h => h.1 rfl]
    rfl
  · intro h
    rw [← h] at hlen
    revert hlen
    decide

end

end TgFocus
