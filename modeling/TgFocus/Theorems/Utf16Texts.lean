import TgFocus.Theorems.Utf16Loops

/-! What the conversion loops make of valid texts: their UTF-16 form. -/

namespace TgFocus

open Utf16 (firstUnit secondUnit)

namespace Conv

/-- Between two characters: the bytes that were taken, and the units that they became. -/
def between (pos : Nat) (units : List UInt16) : Conv where
  pos := pos
  units := units
  state := {}
  pc := .running

section
variable {input pre t : Bytes} {cs : List Char} {x : Char}

/-- The one or two turns for a character. -/
theorem leads_char (storesNul : Bool) (hinput : input = pre ++ (String.utf8EncodeChar x ++ t)) (hne : x ≠ '\x00')
    (units : List UInt16) :
    Loop.Leads (turn storesNul input) (between pre.length units)
      (between (pre ++ String.utf8EncodeChar x).length (units ++ Utf16.encodeChar x)) := by
  have hdrop : input.drop pre.length = String.utf8EncodeChar x ++ t := by rw [hinput, List.drop_left]
  have hfirst := @turn_char storesNul input (between pre.length units) x t rfl rfl hdrop hne
  rw [List.length_append, Utf16.encodeChar]
  cases hsecond : secondUnit x with
  | none =>
    rw [hsecond] at hfirst
    exact Relation.ReflTransGen.single hfirst
  | some u =>
    rw [hsecond] at hfirst
    refine Relation.ReflTransGen.head hfirst (Relation.ReflTransGen.single ?_)
    rw [turn_low rfl rfl]
    simp [between]

theorem leads_encode (storesNul : Bool) (pre : Bytes) (hinput : input = pre ++ (Utf8.encode cs ++ t))
    (hnul : '\x00' ∉ cs) (units : List UInt16) :
    Loop.Leads (turn storesNul input) (between pre.length units)
      (between (pre ++ Utf8.encode cs).length (units ++ Utf16.encode cs)) := by
  induction cs generalizing pre units with
  | nil =>
    rw [show Utf8.encode [] = [] from rfl, show Utf16.encode [] = [] from rfl, List.append_nil, List.append_nil]
    exact Relation.ReflTransGen.refl
  | cons x cs ih =>
    have hcons : Utf8.encode (x :: cs) = String.utf8EncodeChar x ++ Utf8.encode cs := rfl
    rw [hcons, List.append_assoc] at hinput
    refine (leads_char storesNul hinput (fun h => hnul (h ▸ List.mem_cons_self)) units).trans ?_
    have hrest := ih (pre ++ String.utf8EncodeChar x) (hinput.trans (List.append_assoc _ _ _).symm)
      (fun h => hnul (List.mem_cons_of_mem x h)) (units ++ Utf16.encodeChar x)
    rw [hcons, ← List.append_assoc]
    rw [List.append_assoc units] at hrest
    exact hrest

theorem run_encode (hnul : '\x00' ∉ cs) :
    run true (Utf8.encode cs) = { between (Utf8.encode cs).length (Utf16.encode cs) with pc := .failed } := by
  have hleads := leads_encode true [] (List.append_nil _).symm hnul []
  have hlast : turn true (Utf8.encode cs) (between (Utf8.encode cs).length (Utf16.encode cs)) =
      some { between (Utf8.encode cs).length (Utf16.encode cs) with pc := .failed } :=
    turn_nil rfl rfl List.drop_length
  exact Loop.exec_eq_of_leads (hleads.tail hlast) (turn_of_not_running ConvPc.noConfusion) (turn_run true _)

theorem run_encode_nul (hnul : '\x00' ∉ cs) :
    run false (Utf8.encode cs ++ [0]) = { between (Utf8.encode cs).length (Utf16.encode cs) with pc := .nul } := by
  have hleads := leads_encode false [] (t := [0]) rfl hnul []
  have hlast : turn false (Utf8.encode cs ++ [0]) (between (Utf8.encode cs).length (Utf16.encode cs)) =
      some { between (Utf8.encode cs).length (Utf16.encode cs) with pc := .nul } :=
    turn_nul rfl rfl List.drop_left
  exact Loop.exec_eq_of_leads (hleads.tail hlast) (turn_of_not_running ConvPc.noConfusion) (turn_run false _)

end

end Conv

section
variable {cs : List Char}

theorem getC16Seq_encode (hnul : '\x00' ∉ cs) : getC16Seq (Utf8.encode cs) = Utf16.encode cs := by
  rw [getC16Seq]
  split
  · next hzero =>
    have hle := Utf16.length_encode_le cs
    rw [hzero] at hle
    exact (List.length_eq_zero_iff.mp (Nat.le_zero.mp hle)).symm
  · rw [Conv.run_encode hnul]
    rfl

theorem getC16Len_eq (s : Bytes) : getC16Len s = if s.length ≤ 1024 then (getC16Seq s).length else 0 := by
  rw [getC16Len, getC16Seq]
  by_cases hzero : s.length = 0
  · rw [if_pos hzero, if_pos hzero, if_pos (hzero ▸ Nat.zero_le 1024)]
    rfl
  · rw [if_neg hzero, if_neg hzero]
    by_cases hlong : s.length > 1024
    · rw [if_pos hlong, if_neg (Nat.not_le.mpr hlong)]
    · rw [if_neg hlong, if_pos (Nat.not_lt.mp hlong)]

end

end TgFocus
