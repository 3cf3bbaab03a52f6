import Mathlib.Data.List.Basic

/-! Reading a stream in pieces. A read delivers at most as many bytes as it asks for; where every read puts
    its bytes at the start of the same buffer, a place of the buffer holds the byte of the last read that
    was long enough to reach it. -/

namespace Socket

/-- What one read of at most `n` bytes delivers; nothing at the end of the stream. -/
structure Chunk (n : Nat) where
  bytes : List UInt8
  fits : bytes.length ≤ n
  deriving DecidableEq, Repr

section
variable {α : Type}

/-- The buffer after a read that puts what it delivers at the start. -/
def overwrite (buf p : List α) : List α := p ++ buf.drop p.length

/-- What the last read that was longer than `j` put at the place `j`. -/
def lastAt (ps : List (List α)) (j : Nat) : Option α := ps.reverse.findSome? fun p => p[j]?

/-- The reads of a loop that goes on until it has counted `n` bytes, `total` of them before. -/
def counted (n total : Nat) : List (List α) → List (List α)
  | [] => []
  | p :: ps => if total < n then p :: counted n (total + p.length) ps else []

variable {buf p q : List α} {ps : List (List α)} {j n total : Nat}

theorem length_overwrite (h : p.length ≤ buf.length) : (overwrite buf p).length = buf.length := by
  simp only [overwrite, List.length_append, List.length_drop]
  omega

theorem getElem?_overwrite : (overwrite buf p)[j]? = p[j]?.or buf[j]? := by
  rw [overwrite, List.getElem?_append]
  split
  · rename_i h
    rw [List.getElem?_eq_getElem h, Option.some_or]
  · rename_i h
    rw [List.getElem?_eq_none (Nat.le_of_not_lt h), Option.none_or, List.getElem?_drop]
    congr 1
    omega

theorem overwrite_whole (h : buf.length ≤ p.length) : overwrite buf p = p := by
  rw [overwrite, List.drop_eq_nil_of_le h, List.append_nil]

theorem lastAt_nil : lastAt ([] : List (List α)) j = none := rfl

theorem lastAt_cons : lastAt (p :: ps) j = (lastAt ps j).or p[j]? := by
  simp only [lastAt, List.reverse_cons, List.findSome?_append, List.findSome?_cons, List.findSome?_nil]
  cases p[j]? <;> rfl

theorem lastAt_eq_none (h : ∀ p ∈ ps, p.length ≤ j) : lastAt ps j = none := by
  induction ps with
  | nil => rfl
  | cons p ps ih =>
    rw [lastAt_cons, ih fun q hd => h q (List.mem_cons_of_mem _ hd), Option.none_or]
    exact List.getElem?_eq_none (h p List.mem_cons_self)

/-- Cutting the pieces behind the place changes nothing there. -/
theorem lastAt_map_take (h : j < n) : lastAt (ps.map (List.take n)) j = lastAt ps j := by
  induction ps with
  | nil => rfl
  | cons p ps ih => rw [List.map_cons, lastAt_cons, lastAt_cons, ih, List.getElem?_take_of_lt h]

theorem getElem?_foldl_overwrite : (ps.foldl overwrite buf)[j]? = (lastAt ps j).or buf[j]? := by
  induction ps generalizing buf with
  | nil => rfl
  | cons p ps ih => rw [List.foldl_cons, ih, getElem?_overwrite, lastAt_cons, Option.or_assoc]

theorem length_foldl_overwrite (h : ∀ p ∈ ps, p.length ≤ buf.length) :
    (ps.foldl overwrite buf).length = buf.length := by
  induction ps generalizing buf with
  | nil => rfl
  | cons p ps ih =>
    have hc := length_overwrite (h p List.mem_cons_self)
    rw [List.foldl_cons, ih fun q hd => hc ▸ h q (List.mem_cons_of_mem _ hd), hc]

theorem counted_of_le (h : n ≤ total) : counted n total ps = [] := by
  cases ps with
  | nil => rfl
  | cons p ps => rw [counted, if_neg (Nat.not_lt_of_le h)]

/-- A sequence of non-empty pieces that has a second piece has none that is as long as the whole. -/
theorem length_lt_flatten (hne : ∀ p ∈ ps, p ≠ []) (hlen : ps.length ≠ 1) (hc : p ∈ ps) :
    p.length < ps.flatten.length := by
  obtain ⟨before, after, rfl⟩ := List.append_of_mem hc
  have hother : before ++ after ≠ [] := by
    intro h
    obtain ⟨rfl, rfl⟩ := List.append_eq_nil_iff.mp h
    exact hlen rfl
  obtain ⟨q, hd⟩ := List.exists_mem_of_ne_nil _ hother
  have hpos : 0 < q.length := List.length_pos_iff.mpr (hne q (by
    rcases List.mem_append.mp hd with h | h
    · exact List.mem_append_left _ h
    · exact List.mem_append_right _ (List.mem_cons_of_mem _ h)))
  have hle : q.length ≤ (before ++ after).flatten.length := (List.sublist_flatten_of_mem hd).length_le
  simp only [List.flatten_append, List.flatten_cons, List.length_append] at hle ⊢
  omega

end

end Socket
