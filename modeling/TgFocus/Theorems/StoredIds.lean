import Mathlib.Algebra.Group.Nat.Defs
import TgFocus.StoredIds

/-! Storing a number and reading it back. The bytes are those of its two's complement, whatever its sign, and
    reading puts each of them back in its place. -/

namespace TgFocus

section
variable {w n : Nat} {v : BitVec w}

/-- A byte of a number, counted from the lowest. -/
def byteAt (v : BitVec w) (i : Nat) : UInt8 := UInt8.ofNat (v.toNat / 2 ^ (8 * i))

theorem toBitVec_byteAt (v : BitVec w) (i : Nat) : (byteAt v i).toBitVec = v.extractLsb' (8 * i) 8 := by
  apply BitVec.eq_of_toNat_eq
  rw [UInt8.toNat_toBitVec, byteAt, UInt8.toNat_ofNat', BitVec.extractLsb'_toNat, Nat.shiftRight_eq_div_pow]

/-- The bits that are shifted in stay above the byte that is written. -/
theorem stored_byte {i : Nat} (hi : 8 * (i + 1) ≤ w) :
    UInt8.ofBitVec ((v.sshiftRight (8 * i) &&& 0xff#w).setWidth 8) = byteAt v i := by
  apply UInt8.toBitVec_inj.mp
  rw [toBitVec_byteAt]
  apply BitVec.eq_of_getLsbD_eq
  intro k hk
  have hmask : (0xff#w).getLsbD k = true := by
    rw [BitVec.getLsbD_ofNat, show 255 = 2 ^ 8 - 1 from rfl, Nat.testBit_two_pow_sub_one]
    simp [hk, show k < w by omega]
  change ((v.sshiftRight (8 * i) &&& 0xff#w).setWidth 8).getLsbD k = _
  rw [BitVec.getLsbD_setWidth, BitVec.getLsbD_and, hmask, BitVec.getLsbD_sshiftRight, BitVec.getLsbD_extractLsb']
  simp [hk, show 8 * i + k < w by omega, show ¬w ≤ k by omega]

theorem foldl_storeTurn (hn : 8 * n ≤ w) :
    (List.range n).foldl storeTurn (v, []) = (v.sshiftRight (8 * (n - 1)), (List.range n).map (byteAt v)) := by
  induction n with
  | zero => simp
  | succ n ih =>
    have hshift : (if n > 0 then (v.sshiftRight (8 * (n - 1))).sshiftRight 8 else v.sshiftRight (8 * (n - 1))) =
        v.sshiftRight (8 * n) := by
      split
      · rw [← BitVec.sshiftRight_add]
        congr 1
        omega
      · obtain rfl : n = 0 := by omega
        rfl
    rw [List.range_succ, List.foldl_append, ih (by omega), List.foldl_cons, List.foldl_nil, storeTurn]
    dsimp only
    rw [hshift, stored_byte hn, List.map_append, List.map_singleton, Nat.add_sub_cancel]

theorem storeBytes_eq (v : BitVec w) (hn : 8 * n ≤ w) : storeBytes n v = (List.range n).map (byteAt v) := by
  rw [storeBytes, foldl_storeTurn hn]

/-- A byte that is read takes its place above the ones before it. -/
theorem loaded_byte (v : BitVec w) (n : Nat) :
    (byteAt v n).toBitVec.setWidth w <<< (8 * n) ||| (v.setWidth (8 * n)).setWidth w =
      (v.setWidth (8 * (n + 1))).setWidth w := by
  apply BitVec.eq_of_getLsbD_eq
  intro k hk
  rw [toBitVec_byteAt]
  simp only [BitVec.getLsbD_or, BitVec.getLsbD_shiftLeft, BitVec.getLsbD_setWidth, BitVec.getLsbD_extractLsb']
  by_cases hlow : k < 8 * n
  · simp [hk, hlow, show k < 8 * (n + 1) by omega]
  · by_cases hbyte : k < 8 * (n + 1)
    · simp [hk, hlow, hbyte, show k - 8 * n < 8 by omega, show k - 8 * n < w by omega,
        show 8 * n + (k - 8 * n) = k by omega]
    · simp [hlow, hbyte, show ¬k - 8 * n < 8 by omega]

theorem foldl_loadTurn {N : Nat} (hn : n ≤ N) :
    (List.range n).foldl loadTurn (0#w, Stdio.fopen ((List.range N).map (byteAt v))) =
      ((v.setWidth (8 * n)).setWidth w, { content := (List.range N).map (byteAt v), pos := n, eof := false }) := by
  induction n with
  | zero => simp [Stdio.fopen, BitVec.of_length_zero]
  | succ n ih =>
    have hread : (((List.range N).map (byteAt v)).drop n).take 1 = [byteAt v n] := by
      rw [List.drop_eq_getElem_cons (by simpa using Nat.lt_of_succ_le hn)]
      simp
    rw [List.range_succ, List.foldl_append, ih (by omega), List.foldl_cons, List.foldl_nil, loadTurn]
    simp only [Stdio.Stream.fread, hread, List.headD_cons, loaded_byte]
    rfl

theorem loadBytes_storeBytes (v : BitVec w) (hn : 8 * n = w) : loadBytes n (storeBytes n v) = v := by
  rw [storeBytes_eq v (by omega), loadBytes, foldl_loadTurn (Nat.le_refl n)]
  subst hn
  simp

end

/-- The two numbers are read back as they were stored, whatever the files held before, and the bytes of the
    files are theirs. -/
theorem StoredIds.read_back (u : StoredIds) (v : Int64) (x : Int32) :
    ((u.setTgfid v).getTgfid = v ∧ ((u.setTgfid v).isTgfidValid = true ↔ v ≠ -1)) ∧
      (u.setApiId x).getApiId = x ∧
      (u.setTgfid v).tgfid = (List.range 8).map (byteAt v.toBitVec) ∧
      (u.setApiId x).apiId = (List.range 4).map (byteAt x.toBitVec) := by
  have htgfid : (u.setTgfid v).getTgfid = v := by
    rw [StoredIds.getTgfid, StoredIds.setTgfid, loadBytes_storeBytes _ (by decide), Int64.ofBitVec_toBitVec]
  refine ⟨⟨htgfid, ?_⟩, ?_, storeBytes_eq _ (by decide), storeBytes_eq _ (by decide)⟩
  · rw [StoredIds.isTgfidValid, decide_eq_true_iff]
    change (u.setTgfid v).getTgfid ≠ -1 ↔ v ≠ -1
    rw [htgfid]
  · rw [StoredIds.getApiId, StoredIds.setApiId, loadBytes_storeBytes _ (by decide), Int32.ofBitVec_toBitVec]

/-- A chat id below zero, lowest byte first. -/
example : storeBytes 8 (Int64.toBitVec (-4115780813)) = [0x33, 0x2b, 0xae, 0x0a, 0xff, 0xff, 0xff, 0xff] := by decide

end TgFocus
