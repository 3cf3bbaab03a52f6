import TgFocus.FiltersFile
import TgFocus.Theorems.FilterStore

/-! What a reader of the filters file gets while the file is rewritten. By itself it gets the text of the
    file; a read that falls into the rewriting, or that follows one into a text which was changed in
    between, gives an empty text, a beginning of the new one or a mixture of both. -/

namespace TgFocus.FiltersFile
open Transition

/-! ### Places -/

/-- Between the opening that truncates the file and its closing. -/
def WriterPc.inside : WriterPc → Bool
  | .writing | .closing => true
  | _ => false

def ReaderPc.isReading : ReaderPc → Bool
  | .reading _ _ => true
  | _ => false

def ReaderPc.size : ReaderPc → Nat
  | .reading size _ => size
  | _ => 0

def ReaderPc.data : ReaderPc → Bytes
  | .reading _ data => data
  | _ => []

/-- A read finds the file outside its rewriting, what was read before at its beginning, and a text that
    the buffer has room for. -/
def ReadsStable (s : State) (a : Act) : Prop :=
  ∀ n, a = .reader n → s.reader.isReading = true →
    s.writer.inside = false ∧ s.reader.data <+: s.file ∧ s.file.length < s.reader.size

instance (s : State) (a : Act) : Decidable (ReadsStable s a) :=
  match a with
  | .reader n => decidable_of_iff (s.reader.isReading = true →
      s.writer.inside = false ∧ s.reader.data <+: s.file ∧ s.file.length < s.reader.size)
      ⟨fun h _ _ => h, fun h => h n rfl⟩
  | .writer _ | .flush _ => .isTrue fun _ h => by cases h

/-- Outside its rewriting the file holds a whole version, and so does what was returned. -/
structure Whole (old new : Bytes) (s : State) : Prop where
  file : s.writer.inside = false → s.file = old ∨ s.file = new
  returned : ∀ res, s.reader = .returned res → res = old ∨ res = new

section
variable {old new : Bytes} {s t : State} {a : Act} {n : Nat}

theorem Whole.writerStep {ok : Bool} (hw : Whole old new s) (h : writerStep new s ok = some t) : Whole old new t := by
  unfold FiltersFile.writerStep at h
  split at h <;> rename_i hpc
  · have hfile := hw.file (by rw [hpc]; rfl)
    split at h <;> cases h <;> exact ⟨fun _ => hfile, hw.returned⟩
  · have hfile := hw.file (by rw [hpc]; rfl)
    split at h <;> cases h <;> exact ⟨fun _ => hfile, hw.returned⟩
  · have hfile := hw.file (by rw [hpc]; rfl)
    split at h <;> cases h
    · exact ⟨fun h => (by cases h), hw.returned⟩
    · exact ⟨fun _ => hfile, hw.returned⟩
  · cases h
    exact ⟨fun h => (by cases h), hw.returned⟩
  · cases h
    exact ⟨fun _ => Or.inr rfl, hw.returned⟩
  · cases h
    exact ⟨fun _ => hw.file (by rw [hpc]; rfl), hw.returned⟩
  · cases h

theorem Whole.flushStep (hw : Whole old new s) (h : flushStep new s n = some t) : Whole old new t := by
  obtain ⟨hpc, h⟩ := Option.ite_none_right_eq_some.mp h
  cases h
  exact ⟨fun h => (by rw [hpc] at h; cases h), hw.returned⟩

theorem Whole.readerStep (hw : Whole old new s) (hok : ReadsStable s (.reader n)) (h : readerStep s n = some t) :
    Whole old new t := by
  unfold FiltersFile.readerStep at h
  split at h <;> rename_i hpc
  · cases h
    exact ⟨hw.file, fun res h => (by cases h)⟩
  · cases h
    exact ⟨hw.file, fun res h => (by cases h)⟩
  · rename_i size data
    have hstable := hok n rfl (by rw [hpc]; rfl)
    rw [hpc] at hstable
    obtain ⟨hout, (hdata : data <+: s.file), (hroom : s.file.length < size)⟩ := hstable
    have hlen : data.length < size := Nat.lt_of_le_of_lt hdata.length_le hroom
    rw [if_neg (Nat.ne_of_lt hlen)] at h
    split at h <;> cases h
    · rename_i hend
      refine ⟨hw.file, fun res hres => ?_⟩
      cases hres
      -- the end of the file is seen only when the whole of it was read
      have hwhole : s.file.length ≤ data.length := by
        have := congrArg List.length hend
        simp only [List.length_take, List.length_drop, List.length_nil] at this
        omega
      rw [hdata.eq_of_length_le hwhole]
      exact hw.file hout
    · exact ⟨hw.file, fun res h => (by cases h)⟩
  · cases h

theorem Whole.step (hw : Whole old new s) (hok : ReadsStable s a) (hs : step new s a = some t) : Whole old new t := by
  cases a with
  | writer ok => exact hw.writerStep hs
  | flush n => exact hw.flushStep hs
  | reader n => exact hw.readerStep hok hs

/-- In runs whose reads all find the file unchanged, `get_filters` returns the old or the new text. -/
theorem getFilters_whole (h : (system old new).ReachableBy ReadsStable s) {res : Bytes}
    (hres : s.reader = .returned res) : res = old ∨ res = new := by
  have hinv : Whole old new s := by
    refine h.invariant ?_ fun s a t hw hok hs => hw.step hok hs
    rintro s rfl
    exact ⟨fun _ => Or.inl rfl, fun res h => (by cases h)⟩
  exact hinv.returned res hres

end

/-- The file is rewritten between the choice of the buffer and the first read. -/
theorem getFilters_whole_run :
    ∃ (s : State) (res : Bytes), s.reader = .returned res ∧ (res = str "ab" ∨ res = str "cd") :=
  have h : (system (str "ab") (str "cd")).ReachableBy ReadsStable ⟨str "cd", .done, .returned (str "cd")⟩ :=
    .runBy (.init rfl)
      [.reader 0, .writer true, .writer true, .reader 0, .writer true, .flush 1, .writer true, .writer true, .reader 0,
        .writer true, .reader 0, .reader 0] rfl
  ⟨⟨str "cd", .done, .returned (str "cd")⟩, str "cd", rfl, getFilters_whole h rfl⟩

/-- The read falls between the opening that truncates the file and the first write. -/
theorem getFilters_torn :
    ∃ old new s res, (system old new).Reachable s ∧ s.reader = .returned res ∧ res ≠ old ∧ res ≠ new :=
  ⟨str "ab", str "cd", _, [], Transition.System.Reachable.run (.init rfl)
    [.reader 0, .reader 0, .writer true, .writer true, .writer true, .reader 0] rfl, rfl, by decide, by decide⟩

/-! ### A reader by itself -/

section
variable {old new : Bytes} {s t : State} {n : Nat}

/-- The buffer is chosen by the size of the text, and holds a beginning of it. -/
structure Alone (old : Bytes) (s : State) : Prop where
  file : s.file = old
  reading : ∀ size data, s.reader = .reading size data →
    size = (if old.length > FileReader.maxSmall then FileReader.maxLarge else FileReader.maxSmall) ∧
      data <+: old ∧ data.length ≤ size
  returned : ∀ res, s.reader = .returned res → res = ({ filters := old } : UserData).getFilters

theorem getFilters_of_size {size : Nat}
    (h : size = if old.length > FileReader.maxSmall then FileReader.maxLarge else FileReader.maxSmall) :
    ({ filters := old } : UserData).getFilters = if old.length < size then old else str "-" := by
  rw [UserData.getFilters, FileReader.readToString, FileReader.large_ofContent, FileReader.readSmallToString,
    FileReader.readLargeToString, FileReader.readBuffer_ofContent, FileReader.readBuffer_ofContent, h]
  by_cases hlarge : old.length > FileReader.maxSmall
  · simp only [hlarge, decide_true, ↓reduceIte]
    split <;> rfl
  · simp only [hlarge, decide_false, Bool.false_eq_true, ↓reduceIte]
    split <;> rfl

/-- What a read delivers continues what was read before. -/
theorem append_take_drop {data : Bytes} {k m : Nat} (h : data <+: old) :
    data ++ ((old.drop data.length).take k).take m <+: old := by
  obtain ⟨rest, rfl⟩ := h
  rw [List.drop_left, List.prefix_append_right_inj]
  exact (List.take_prefix _ _).trans (List.take_prefix _ _)

theorem Alone.readerStep (ha : Alone old s) (h : readerStep s n = some t) : Alone old t := by
  have hfile := ha.file
  unfold FiltersFile.readerStep at h
  split at h <;> rename_i hpc
  · cases h
    exact ⟨hfile, fun _ _ h => (by cases h), fun _ h => (by cases h)⟩
  · cases h
    refine ⟨hfile, fun size data h => ?_, fun _ h => (by cases h)⟩
    cases h
    rw [hfile]
    exact ⟨rfl, List.nil_prefix, Nat.zero_le _⟩
  · rename_i size data
    obtain ⟨hsize, hdata, hle⟩ := ha.reading size data hpc
    split at h
    · rename_i hfull
      cases h
      refine ⟨hfile, fun _ _ h => (by cases h), fun res h => ?_⟩
      cases h
      rw [getFilters_of_size hsize, if_neg (Nat.not_lt_of_le (hfull ▸ hdata.length_le))]
    · rename_i hroom
      have hlt : data.length < size := Nat.lt_of_le_of_ne hle hroom
      split at h <;> cases h <;> rename_i hrest <;> rw [hfile] at hrest
      · refine ⟨hfile, fun _ _ h => (by cases h), fun res h => ?_⟩
        cases h
        have hwhole : old.length ≤ data.length := by
          have := congrArg List.length hrest
          simp only [List.length_take, List.length_drop, List.length_nil] at this
          omega
        have heq := hdata.eq_of_length_le hwhole
        rw [getFilters_of_size hsize, if_pos (heq ▸ hlt), heq]
      · refine ⟨hfile, fun size' data' h => ?_, fun _ h => (by cases h)⟩
        cases h
        rw [hfile]
        refine ⟨hsize, ?_, ?_⟩
        · exact append_take_drop hdata
        · simp only [List.length_append, List.length_take, List.length_drop]
          omega
  · cases h

/-- Without the writer, the pieces make up what `get_filters` returns of a file that is read at once. -/
theorem getFilters_alone (h : (system old new).ReachableBy (fun _ a => ∃ n, a = .reader n) s) {res : Bytes}
    (hres : s.reader = .returned res) : res = ({ filters := old } : UserData).getFilters := by
  have hinv : Alone old s := by
    refine h.invariant ?_ fun s a t ha hok hs => ?_
    · rintro s rfl
      exact ⟨rfl, fun _ _ h => (by cases h), fun _ h => (by cases h)⟩
    · obtain ⟨n, rfl⟩ := hok
      exact ha.readerStep hs
  exact hinv.returned res hres

end

end TgFocus.FiltersFile
