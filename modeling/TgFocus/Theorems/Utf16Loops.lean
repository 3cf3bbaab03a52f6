import TgFocus.UtfUtils

/-! The conversion loops end, and stay inside their buffers. A turn takes the bytes of a character and
    stores its first unit, or stores the second one and takes nothing; a character with two units has
    four bytes. -/

namespace TgFocus.Conv

open Utf16 (mbrtoc16 firstUnit secondUnit)

section
variable {storesNul : Bool} {input s : Bytes} {c d : Conv} {x : Char} {t : Bytes}

theorem turn_of_not_running (h : c.pc ≠ .running) : turn storesNul input c = none := if_pos h

theorem running_of_turn (h : turn storesNul input c = some d) : c.pc = .running := by
  by_contra hne
  rw [turn_of_not_running hne] at h
  cases h

theorem turn_low {u : UInt16} (hpc : c.pc = .running) (hstate : c.state = { low := some u }) :
    turn storesNul input c = some { c with units := c.units ++ [u], state := {} } := by
  rw [turn, if_neg (not_not.mpr hpc), hstate, Utf16.mbrtoc16_low]

theorem turn_char (hpc : c.pc = .running) (hstate : c.state = {})
    (hx : input.drop c.pos = String.utf8EncodeChar x ++ t) (hne : x ≠ '\x00') :
    turn storesNul input c = some {
      pos := c.pos + (String.utf8EncodeChar x).length
      units := c.units ++ [firstUnit x]
      state := { low := secondUnit x }
      pc := .running } := by
  have hlen : (String.utf8EncodeChar x).length ≠ 0 := fun h =>
    String.utf8EncodeChar_ne_nil (List.length_eq_zero_iff.mp h)
  rw [turn, if_neg (not_not.mpr hpc), hstate, hx, Utf16.mbrtoc16_encodeChar, if_neg hne]
  dsimp only
  rw [if_neg (fun h => hlen h.1), if_neg hlen]

theorem turn_nul (hpc : c.pc = .running) (hstate : c.state = {}) (hx : input.drop c.pos = 0 :: t) :
    turn storesNul input c = some { c with
      units := if storesNul = false then c.units else c.units ++ [0]
      state := {}
      pc := .nul } := by
  have hnul : mbrtoc16 {} (0 :: t) = (.bytes 0 0, {}) := Utf16.mbrtoc16_encodeChar '\x00' t
  rw [turn, if_neg (not_not.mpr hpc), hstate, hx, hnul]
  dsimp only
  rw [if_pos rfl]
  simp only [true_and, Nat.add_zero]

theorem turn_failed (hpc : c.pc = .running) (hstate : c.state = {})
    (hrc : (mbrtoc16 {} (input.drop c.pos)).1 = .incomplete ∨ (mbrtoc16 {} (input.drop c.pos)).1 = .illegal) :
    turn storesNul input c = some { c with state := (mbrtoc16 {} (input.drop c.pos)).2, pc := .failed } := by
  rw [turn, if_neg (not_not.mpr hpc), hstate]
  generalize mbrtoc16 {} (input.drop c.pos) = r at hrc ⊢
  obtain ⟨rc, ps⟩ := r
  rcases hrc with rfl | rfl
  · rfl
  · rfl

theorem turn_nil (hpc : c.pc = .running) (hstate : c.state = {}) (hx : input.drop c.pos = []) :
    turn storesNul input c = some { c with state := {}, pc := .failed } := by
  rw [turn, if_neg (not_not.mpr hpc), hstate, hx, Utf16.mbrtoc16_nil]

/-- What a turn does: it fails, stores the half of a pair that is due, or takes a character or a NUL. -/
theorem turn_cases (hbegun : c.state.begun = []) (h : turn storesNul input c = some d) :
    (d.pos = c.pos ∧ d.units = c.units ∧ d.state.low = none ∧ d.pc = .failed) ∨
    (∃ u, c.state.low = some u ∧ d = { c with units := c.units ++ [u], state := {} }) ∨
    (∃ x t, c.state.low = none ∧ input.drop c.pos = String.utf8EncodeChar x ++ t ∧ x ≠ '\x00' ∧
      d = {
        pos := c.pos + (String.utf8EncodeChar x).length
        units := c.units ++ [firstUnit x]
        state := { low := secondUnit x }
        pc := .running }) ∨
    (∃ t, c.state.low = none ∧ input.drop c.pos = 0 :: t ∧
      d = { c with units := if storesNul = false then c.units else c.units ++ [0], state := {}, pc := .nul }) := by
  have hpc := running_of_turn h
  cases hlow : c.state.low with
  | some u =>
    have hstate : c.state = { low := some u } := by rw [← hbegun, ← hlow]
    rw [turn_low hpc hstate] at h
    exact Or.inr (Or.inl ⟨u, rfl, (Option.some.inj h).symm⟩)
  | none =>
    have hstate : c.state = {} := by
      rw [show c.state = ⟨c.state.begun, c.state.low⟩ from rfl, hbegun, hlow]
    rcases Utf16.mbrtoc16_cases (input.drop c.pos) with ⟨x, t, hx⟩ | ⟨hrc, hnone⟩
    · by_cases hnul : x = '\x00'
      · subst hnul
        rw [turn_nul hpc hstate hx] at h
        exact Or.inr (Or.inr (Or.inr ⟨t, rfl, hx, (Option.some.inj h).symm⟩))
      · rw [turn_char hpc hstate hx hnul] at h
        exact Or.inr (Or.inr (Or.inl ⟨x, t, rfl, hx, hnul, (Option.some.inj h).symm⟩))
    · rw [turn_failed hpc hstate hrc] at h
      obtain rfl := Option.some.inj h
      exact Or.inl ⟨rfl, rfl, hnone, rfl⟩

/-! ### Turns inside the buffers -/

/-- A unit that is stored or due has a byte of its own that was taken; that of a NUL is not taken. -/
structure Inside (input : Bytes) (c : Conv) : Prop where
  begun : c.pc = .running → c.state.begun = []
  pos_le : c.pos ≤ input.length
  units_le : c.units.length + c.state.low.toList.length ≤ c.pos + if c.pc = .nul then 1 else 0
  nul_lt : c.pc = .nul → c.pos < input.length

/-- The turns that are left at most. -/
def turnsLeft (input : Bytes) (c : Conv) : Nat :=
  if c.pc = .running then 2 * (input.length - c.pos) + c.state.low.toList.length + 1 else 0

theorem Inside.start (input : Bytes) : Inside input start where
  begun _ := rfl
  pos_le := Nat.zero_le _
  units_le := Nat.le_refl _
  nul_lt h := nomatch h

theorem Inside.turn (hi : Inside input c) (h : turn storesNul input c = some d) :
    Inside input d ∧ turnsLeft input d < turnsLeft input c := by
  have hpc := running_of_turn h
  have hleft : turnsLeft input c = 2 * (input.length - c.pos) + c.state.low.toList.length + 1 := if_pos hpc
  have hunits : c.units.length + c.state.low.toList.length ≤ c.pos := by
    have hle := hi.units_le
    rw [hpc] at hle
    exact hle
  have hpos := hi.pos_le
  rw [hleft]
  rcases turn_cases (hi.begun hpc) h with
    ⟨hdpos, hdunits, hdlow, hdpc⟩ | ⟨u, hlow, rfl⟩ | ⟨x, t, hlow, hx, -, rfl⟩ | ⟨t, hlow, hx, rfl⟩
  · refine ⟨⟨?_, ?_, ?_, ?_⟩, ?_⟩
    · rw [hdpc]
      exact fun h => nomatch h
    · exact hdpos ▸ hpos
    · rw [hdlow, hdpc, hdunits, hdpos]
      exact Nat.le_trans (Nat.le_add_right _ _) hunits
    · rw [hdpc]
      exact fun h => nomatch h
    · rw [turnsLeft, hdpc]
      exact Nat.succ_pos _
  · rw [hlow] at hunits ⊢
    refine ⟨⟨fun _ => rfl, hpos, ?_, hi.nul_lt⟩, ?_⟩
    · dsimp only
      rw [hpc, List.length_append]
      exact hunits
    · rw [turnsLeft]
      dsimp only
      rw [if_pos hpc]
      exact Nat.lt_succ_self _
  · have hlen := congrArg List.length hx
    rw [List.length_drop, List.length_append] at hlen
    have hsecond := Utf16.length_toList_secondUnit_lt x
    refine ⟨⟨fun _ => rfl, ?_, ?_, fun h => nomatch h⟩, ?_⟩
    · dsimp only
      omega
    · dsimp only
      rw [List.length_append, List.length_singleton]
      omega
    · rw [turnsLeft]
      dsimp only
      rw [if_pos rfl]
      omega
  · have hlen := congrArg List.length hx
    rw [List.length_drop, List.length_cons] at hlen
    refine ⟨⟨fun h => (nomatch h), hpos, ?_, fun _ => ?_⟩, ?_⟩
    · dsimp only
      rw [if_pos rfl]
      split
      · exact Nat.le_succ_of_le (Nat.le_trans (Nat.le_add_right _ _) hunits)
      · rw [List.length_append]
        exact Nat.succ_le_succ (Nat.le_trans (Nat.le_add_right _ _) hunits)
    · dsimp only
      omega
    · exact Nat.succ_pos _

theorem inside_of_leads (h : Loop.Leads (turn storesNul input) start c) : Inside input c :=
  h.invariant (Inside.start input) fun _ _ hi hturn => (hi.turn hturn).1

theorem Inside.length_units_le (hi : Inside input c) : c.units.length ≤ input.length := by
  have hle := hi.units_le
  have hpos := hi.pos_le
  split at hle
  · next hnul =>
    have hlt := hi.nul_lt hnul
    omega
  · omega

theorem turn_run (storesNul : Bool) (input : Bytes) : turn storesNul input (run storesNul input) = none :=
  Loop.ended_exec (turnsLeft input) (Inside.start input) (Nat.le_refl _) fun _ _ hi => hi.turn

/-- The terminating NUL is never taken. -/
theorem pos_le_of_leads (h : Loop.Leads (turn storesNul (s ++ [0])) start c) : c.pos ≤ s.length := by
  have hinv : Inside (s ++ [0]) c ∧ c.pos ≤ s.length := by
    refine h.invariant (I := fun c => Inside (s ++ [0]) c ∧ c.pos ≤ s.length)
      ⟨Inside.start _, Nat.zero_le _⟩ ?_
    rintro c d ⟨hi, hpos⟩ hturn
    refine ⟨(hi.turn hturn).1, ?_⟩
    rcases turn_cases (hi.begun (running_of_turn hturn)) hturn with
      ⟨hdpos, -⟩ | ⟨u, -, rfl⟩ | ⟨x, t, -, hx, hne, rfl⟩ | ⟨t, -, -, rfl⟩
    · exact hdpos ▸ hpos
    · exact hpos
    · rw [List.drop_append_of_le_length hpos] at hx
      have hlen := congrArg List.length hx
      simp only [List.length_append, List.length_drop, List.length_singleton] at hlen
      rcases List.eq_nil_or_concat t with rfl | ⟨t, b, rfl⟩
      · -- a character that reaches up to the end would contain the NUL
        have hmem : (0 : UInt8) ∈ String.utf8EncodeChar x := by
          rw [List.append_nil] at hx
          exact hx ▸ List.mem_append_right _ List.mem_cons_self
        exact absurd ((Utf8.mem_encodeChar_iff (by decide)).mp hmem) hne
      · rw [List.length_concat] at hlen
        dsimp only
        omega
    · exact hpos
  exact hinv.2

/-- All the turns of the loop of `get_c16_len` and `get_c16_seq`, and of that of `get_decor_pos`. -/
theorem loops_end (s : Bytes) :
    (turn true s (run true s) = none ∧
      ∀ c, Loop.Leads (turn true s) start c → c.units.length ≤ s.length ∧ c.pos ≤ s.length) ∧
    turn false (s ++ [0]) (run false (s ++ [0])) = none ∧
      ∀ c, Loop.Leads (turn false (s ++ [0])) start c → c.pos ≤ s.length := by
  refine ⟨⟨turn_run true s, fun c hc => ?_⟩, turn_run false _, fun c hc => pos_le_of_leads hc⟩
  have hi := inside_of_leads hc
  exact ⟨hi.length_units_le, hi.pos_le⟩

end

end TgFocus.Conv
