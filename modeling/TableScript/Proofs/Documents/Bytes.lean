import TableScript.Proofs.Documents.Restored
import TableScript.Text.Utf8

/-!
The bytes of a document. A document is written in ASCII alone, with line feeds as its only line
ends, so its bytes are read as the very text, and nothing in it is repaired or unified.
-/

namespace TableScript

/-- A character that a document is written with. -/
def IsPrinted (c : Char) : Prop :=
  c = '\n' ∨ 0x20 ≤ c.toNat ∧ c.toNat < 0x7F

instance (c : Char) : Decidable (IsPrinted c) :=
  inferInstanceAs (Decidable (_ ∨ _ ∧ _))

namespace Value

open Reading

theorem unit_printed (code : Nat) (small : code < 0x10000) : ∀ c ∈ jsonUnit code, IsPrinted c := by
  have digit : ∀ digit < 16, IsPrinted (Nat.digitChar digit) := by decide
  rw [jsonUnit, hexDigits_four code small]
  simp only [List.forall_mem_cons]
  exact ⟨by decide, by decide, digit _ (by omega), digit _ (by omega), digit _ (by omega),
    digit _ (by omega), by simp⟩

theorem escape_printed (escaped c : Char) (simple : simpleEscape? escaped = some c) :
    IsPrinted escaped := by
  unfold simpleEscape? at simple
  split at simple
  case h_9 => cases simple
  all_goals decide

theorem char_printed (c : Char) : ∀ d ∈ jsonChar .none c, IsPrinted d := by
  rcases char_spelled c with ⟨escaped, simple, spelled⟩ | ⟨_, visible, inside, spelled⟩ |
    ⟨small, spelled⟩ | ⟨offset, code, spelled⟩
  · rw [spelled]
    simp only [List.forall_mem_cons]
    exact ⟨by decide, escape_printed escaped c simple, by simp⟩
  · rw [spelled]
    exact List.forall_mem_singleton.mpr (Or.inr ⟨visible, inside⟩)
  · exact spelled ▸ unit_printed c.toNat small
  · obtain ⟨high, low, _⟩ := pair_units c offset code
    simp only [Text.isHighUnit, Text.isLowUnit, Bool.and_eq_true, decide_eq_true_eq] at high low
    rw [spelled]
    exact List.forall_mem_append.mpr ⟨unit_printed _ (by omega), unit_printed _ (by omega)⟩

theorem text_printed (content : String) : ∀ c ∈ textChars content, IsPrinted c := by
  refine List.forall_mem_cons.mpr
    ⟨by decide, List.forall_mem_append.mpr ⟨?_, List.forall_mem_singleton.mpr (by decide)⟩⟩
  intro c member
  obtain ⟨d, _, there⟩ := List.mem_flatMap.mp member
  exact char_printed d c there

theorem break_printed (depth : Nat) : ∀ c ∈ breakChars depth, IsPrinted c := by
  refine List.forall_mem_cons.mpr ⟨by decide, fun c member => ?_⟩
  rw [List.eq_of_mem_replicate member]
  decide

theorem end_printed (depth : Nat) (parts : List (List Char)) (closing : Char)
    (printed : ∀ part ∈ parts, ∀ c ∈ part, IsPrinted c) (closed : IsPrinted closing) :
    ∀ c ∈ endChars depth parts closing [], IsPrinted c := by
  refine List.forall_mem_append.mpr ⟨fun c member => ?_, List.forall_mem_append.mpr
    ⟨break_printed depth, List.forall_mem_singleton.mpr closed⟩⟩
  obtain ⟨part, among, there⟩ := List.mem_flatMap.mp member
  have next : ∀ c ∈ nextChars (depth + 1) part, IsPrinted c :=
    List.forall_mem_cons.mpr ⟨by decide, List.forall_mem_append.mpr
      ⟨break_printed (depth + 1), printed part among⟩⟩
  exact next c there

theorem written_printed {room : Nat} {value : Value} (plain : Plain room value) :
    ∀ depth, ∀ c ∈ written depth value, IsPrinted c := by
  induction plain with
  | null =>
      intro depth
      rw [written_null]
      exact Text.each_char _ _ (by decide)
  | bool flag =>
      intro depth
      cases flag with
      | false =>
          rw [written_false]
          exact Text.each_char _ _ (by decide)
      | true =>
          rw [written_true]
          exact Text.each_char _ _ (by decide)
  | text content =>
      intro depth
      rw [written_text]
      exact text_printed content
  | @list room items each ih =>
      intro depth
      cases items with
      | nil =>
          rw [written_empty_list]
          exact Text.each_char _ _ (by decide)
      | cons item items =>
          obtain ⟨head, others⟩ := List.forall_mem_cons.mp ih
          rw [written_list]
          refine List.forall_mem_cons.mpr ⟨by decide, List.forall_mem_append.mpr ⟨break_printed _,
            List.forall_mem_append.mpr ⟨head _, end_printed depth _ ']' ?_ (by decide)⟩⟩⟩
          exact List.forall_mem_map.mpr fun other among => others other among (depth + 1)
  | @object room fields keys each ih =>
      intro depth
      have field : ∀ field ∈ fields, ∀ c ∈ fieldChars (depth + 1) field, IsPrinted c :=
        fun field member => List.forall_mem_append.mpr ⟨text_printed field.1,
          List.forall_mem_cons.mpr ⟨by decide, List.forall_mem_cons.mpr
            ⟨by decide, ih field member (depth + 1)⟩⟩⟩
      cases fields with
      | nil =>
          rw [written_empty_object]
          exact Text.each_char _ _ (by decide)
      | cons first fields =>
          obtain ⟨head, others⟩ := List.forall_mem_cons.mp field
          rw [written_object]
          refine List.forall_mem_cons.mpr ⟨by decide, List.forall_mem_append.mpr ⟨break_printed _,
            List.forall_mem_append.mpr ⟨head, end_printed depth _ '\x7d' ?_ (by decide)⟩⟩⟩
          exact List.forall_mem_map.mpr others

end Value

namespace Text

theorem bytes_list (bytes : ByteArray) : bytes.toList = bytes.data.toList := by
  have rest : ∀ count start before, bytes.size - start = count →
      ByteArray.toList.loop bytes start before = before.reverse ++ bytes.data.toList.drop start := by
    intro count
    induction count with
    | zero =>
        intro start before left
        have ended : bytes.data.toList.length ≤ start := by
          rw [Array.length_toList]
          exact Nat.le_of_sub_eq_zero left
        rw [ByteArray.toList.loop, if_neg (Nat.not_lt_of_le (Nat.le_of_sub_eq_zero left)),
          List.drop_eq_nil_of_le ended, List.append_nil]
    | succ count ih =>
        intro start before left
        have inside : start < bytes.size := by omega
        have there : start < bytes.data.toList.length := by
          rw [Array.length_toList]
          exact inside
        have byte : bytes.get! start = bytes.data.toList[start] := by
          rw [Array.getElem_toList]
          exact getElem!_pos bytes.data start _
        rw [ByteArray.toList.loop, if_pos inside, ih (start + 1) _ (by omega), List.reverse_cons,
          List.append_assoc, List.drop_eq_getElem_cons there, byte]
        rfl
  simpa [ByteArray.toList] using rest _ 0 [] rfl

theorem printed_ascii (c : Char) (printed : IsPrinted c) : c.val ≤ 0x7F := by
  rw [UInt32.le_iff_toNat_le]
  rcases printed with rfl | ⟨_, inside⟩
  · decide
  · exact Nat.le_of_lt inside

theorem encode_printed (chars : List Char) (printed : ∀ c ∈ chars, IsPrinted c) :
    encode (String.ofList chars) = chars.map fun c => c.toUInt8 := by
  have single : ∀ c ∈ chars, String.utf8EncodeChar c = [c.toUInt8] := by
    intro c member
    apply String.utf8EncodeChar_eq_singleton
    exact if_pos (printed_ascii c (printed c member))
  rw [encode, bytes_list, String.toUTF8, String.toByteArray_ofList, List.utf8Encode,
    List.toList_data_toByteArray, List.flatMap_congr single, List.map_eq_flatMap]

theorem decode_printed (position : Nat) (chars : List Char) (printed : ∀ c ∈ chars, IsPrinted c) :
    decodeChars position (chars.map fun c => c.toUInt8) = .ok chars := by
  induction chars generalizing position with
  | nil => rw [List.map_nil, decodeChars]
  | cons c chars ih =>
      obtain ⟨head, others⟩ := List.forall_mem_cons.mp printed
      have piece : firstPiece c.toUInt8 (chars.map fun c => c.toUInt8) = .char c 1 := by
        have ascii : c.toNat ≤ 0x7F := UInt32.le_iff_toNat_le.mp (printed_ascii c head)
        have byte : c.toUInt8.toNat = c.toNat := by
          change c.toNat % 256 = c.toNat
          omega
        have owed : owedAfter c.toNat = some ⟨0, 0x80, 0xBF⟩ :=
          if_pos (Nat.lt_succ_of_le ascii)
        rw [firstPiece, byte, owed]
        simp [continuePiece, leadBits, Char.ofNat_toNat]
      rw [List.map_cons, decodeChars, piece]
      simp [ih _ others, Except.map]

/-- What is written in ASCII is read from its bytes as it was. -/
theorem decode_encode (text : String) (printed : ∀ c ∈ text.toList, IsPrinted c) :
    decode (encode text) = .ok text := by
  have bytes := encode_printed text.toList printed
  rw [String.ofList_toList] at bytes
  rw [decode, bytes, decode_printed 0 _ printed, Except.map, String.ofList_toList]

theorem lineFeeds_printed (text : String) (printed : ∀ c ∈ text.toList, IsPrinted c) :
    withLineFeeds text = text := by
  have chars : ∀ chars : List Char, '\r' ∉ chars → unifyLineEnds chars = chars := by
    intro chars feedless
    fun_induction unifyLineEnds chars <;> simp_all
  have feedless : '\r' ∉ text.toList := fun member => absurd (printed _ member) (by decide)
  rw [withLineFeeds, chars _ feedless, String.ofList_toList]

end Text

end TableScript
