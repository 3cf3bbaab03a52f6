import TgFocus.Theorems.Handlers
import TgFocus.Theorems.HelpRanges
import TgFocus.Theorems.Utf16Texts

/-! The quote and the bold range of a reply. They are counted with `get_c16_len`, which gives up on a text
    of more than 1024 bytes. -/

namespace TgFocus

def rplyPrefixChars : List Char := "〘 TGFCMD 〙".toList

/-- The entity covers `part` in a text that begins with `before` and goes on with `part`. -/
def Covers (e : TextEntity) (before part : List Char) : Prop :=
  e.offset.toInt = (Utf16.encode before).length ∧ e.length.toInt = (Utf16.encode part).length

section
variable {host : Host} {incomTxt didWhat auxMsg : Bytes} {st st' : Stat} {cs : List Char}

theorem rplyPrefix_eq : rplyPrefix = Utf8.encode rplyPrefixChars := by decide

theorem prefix_foldl {α : Type} {f : List TextEntity → α → List TextEntity} (hf : ∀ es a, es <+: f es a) (l : List α)
    (es : List TextEntity) : es <+: l.foldl f es := by
  induction l generalizing es with
  | nil => exact List.prefix_refl es
  | cons a l ih => exact (hf es a).trans (ih (f es a))

theorem prefix_extraDecorationFilters (es : List TextEntity) (msgtxt : Bytes) :
    es <+: extraDecorationFilters es msgtxt := by
  refine prefix_foldl (fun es i => prefix_foldl (fun es heading => ?_) _ es) _ es
  split
  · exact List.prefix_append _ _
  · exact List.prefix_refl es

theorem prefix_extraDecorationHelp (es : List TextEntity) (msgtxt : Bytes) :
    es <+: extraDecorationHelp es msgtxt := by
  rw [extraDecorationHelp_eq_append]
  exact List.prefix_append _ _

/-- The message that is sent: the quote and the bold range come first. -/
theorem exists_tgfcmdMessage (h : tgfcmdReply host incomTxt st = some ((didWhat, auxMsg), st')) :
    ∃ entities, replyEntities didWhat <+: entities ∧
      tgfcmdMessage host incomTxt st = some ({ text := didWhat ++ auxMsg, entities }, st') := by
  refine ⟨_, ?_, by rw [tgfcmdMessage, h]; rfl⟩
  have hfilters : ∀ (es : List TextEntity) (text : Bytes),
      es <+: if (Strings.find (chatcmd .filters) incomTxt).isSome then extraDecorationFilters es text else es := by
    intro es text
    split
    · exact prefix_extraDecorationFilters es text
    · exact List.prefix_refl es
  have hhelp : ∀ (es : List TextEntity) (text : Bytes),
      es <+: if (Strings.find (chatcmd .help) incomTxt).isSome then extraDecorationHelp es text else es := by
    intro es text
    split
    · exact prefix_extraDecorationHelp es text
    · exact List.prefix_refl es
  exact (hfilters (replyEntities didWhat) (didWhat ++ auxMsg)).trans (hhelp _ (didWhat ++ auxMsg))

theorem getC16Len_encode (hnul : '\x00' ∉ cs) :
    getC16Len (Utf8.encode cs) = if (Utf8.encode cs).length ≤ 1024 then (Utf16.encode cs).length else 0 := by
  rw [getC16Len_eq, getC16Seq_encode hnul]

/-- The text is the UTF-16 form of `cs` for `get_c16_seq`, and has its length for `get_c16_len` when it has at
    most 1024 bytes. The ranges of a reply that quotes such a text are right. -/
theorem utf16_agree (cs : List Char) (hnul : '\x00' ∉ cs) :
    getC16Seq (Utf8.encode cs) = Utf16.encode cs ∧
    getC16Len (Utf8.encode cs) = (if (Utf8.encode cs).length ≤ 1024 then (Utf16.encode cs).length else 0) ∧
    ∀ host incomTxt auxMsg st st', tgfcmdReply host incomTxt st = some ((Utf8.encode cs, auxMsg), st') →
      ∃ rest quote bold es,
        tgfcmdMessage host incomTxt st =
          some ({ text := Utf8.encode (cs ++ rplyPrefixChars) ++ rest, entities := quote :: bold :: es }, st') ∧
        quote.type = .blockQuote ∧ bold.type = .bold ∧
        ((Utf8.encode cs).length ≤ 1024 → Covers quote [] cs ∧ Covers bold cs rplyPrefixChars) := by
  refine ⟨getC16Seq_encode hnul, getC16Len_encode hnul, fun host incomTxt auxMsg st st' h => ?_⟩
  obtain ⟨entities, ⟨es, rfl⟩, hmessage⟩ := exists_tgfcmdMessage h
  obtain ⟨-, rest, rfl⟩ := tgfcmdReply_cases h
  have htext : Utf8.encode cs ++ (rplyPrefix ++ rest) = Utf8.encode (cs ++ rplyPrefixChars) ++ rest := by
    rw [rplyPrefix_eq, Utf8.encode_append, List.append_assoc]
  rw [htext] at hmessage
  refine ⟨rest, _, _, es, hmessage, rfl, rfl, fun hle => ?_⟩
  have hlen := getC16Len_encode hnul
  rw [if_pos hle] at hlen
  have hint : (Int32.ofNat (getC16Len (Utf8.encode cs))).toInt = (Utf16.encode cs).length := by
    rw [hlen, Int32.toInt_ofNat_of_lt]
    exact Nat.lt_of_le_of_lt (Nat.le_trans (Utf16.length_encode_le cs) hle) (by decide)
  have hprefix : (Int32.ofNat rplyPrefixNCp).toInt = (Utf16.encode rplyPrefixChars).length := by decide
  exact ⟨⟨rfl, hint⟩, ⟨hint, hprefix⟩⟩

def fruitStat : Stat where
  userdata := { filters := [] }
  pauseDoCsmMq := false

/-- A text that is no command is quoted as it is. -/
theorem utf16_agree_fruit :
    getC16Seq (str "zß水🍌") = [0x007a, 0x00df, 0x6c34, 0xd83c, 0xdf4c] ∧
      ∃ rest quote bold es,
        tgfcmdMessage .literal (str "zß水🍌") fruitStat =
          some ({ text := str "zß水🍌〘 TGFCMD 〙" ++ rest, entities := quote :: bold :: es }, fruitStat) ∧
        Covers quote [] "zß水🍌".toList ∧ Covers bold "zß水🍌".toList "〘 TGFCMD 〙".toList := by
  have hstr : str "zß水🍌" = Utf8.encode "zß水🍌".toList := by decide
  have hreply : tgfcmdReply .literal (str "zß水🍌") fruitStat =
      some ((Utf8.encode "zß水🍌".toList, rplyPrefix ++ str "not supported"), fruitStat) := by
    decide
  obtain ⟨hseq, -, hmessage⟩ := utf16_agree "zß水🍌".toList (by decide)
  obtain ⟨rest, quote, bold, es, heq, -, -, hcovers⟩ := hmessage _ _ _ _ _ hreply
  refine ⟨?_, rest, quote, bold, es, ?_, hcovers (by decide)⟩
  · rw [hstr, hseq]
    decide
  · rw [heq]
    rfl

theorem encode_replicate_a (n : Nat) :
    (Utf8.encode (List.replicate n 'a')).length = n ∧ (Utf16.encode (List.replicate n 'a')).length = n := by
  induction n with
  | zero => exact ⟨rfl, rfl⟩
  | succ n ih =>
    rw [List.replicate_succ]
    exact ⟨congrArg (· + 1) ih.1, congrArg (· + 1) ih.2⟩

/-- A text of 1025 bytes has no units for `get_c16_len`. -/
theorem getC16Len_long :
    '\x00' ∉ List.replicate 1025 'a' ∧ (Utf16.encode (List.replicate 1025 'a')).length = 1025 ∧
      getC16Len (Utf8.encode (List.replicate 1025 'a')) = 0 := by
  have hnul : '\x00' ∉ List.replicate 1025 'a' := fun h => absurd (List.eq_of_mem_replicate h) (by decide)
  refine ⟨hnul, (encode_replicate_a 1025).2, ?_⟩
  rw [getC16Len_encode hnul, (encode_replicate_a 1025).1]
  rfl

end

end TgFocus
