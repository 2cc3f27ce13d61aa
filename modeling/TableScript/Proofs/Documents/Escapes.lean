import TableScript.Document.Reader
import TableScript.Document.Writer

/-!
Texts of documents, written and read again. Each character of a text is written as itself or as an
escape that gives it back, a pair of units where one is not enough. No character of a text needs a
stand-in, so it does not matter which ones the reader has at hand.
-/

namespace TableScript.Reading

theorem no_stand_in (c : Char) : Text.StandIns.none.unit? c = none := by
  have inside : c.toNat < 0x110000 := by
    rcases c.valid with low | ⟨_, upper⟩
    · exact Nat.lt_trans low (by decide)
    · exact upper
  have uncovered : Text.StandIns.none.covers c = false := by
    rw [Bool.eq_false_iff]
    intro covered
    have beyond := of_decide_eq_true (Bool.and_eq_true_iff.mp covered).1
    exact absurd inside (Nat.not_lt_of_le beyond)
  simp [Text.StandIns.unit?, uncovered]

/-- How a character is written: as an escape of its own, as itself, by its code, or by the codes of
a pair of units. -/
theorem char_spelled (c : Char) :
    (∃ escaped, simpleEscape? escaped = some c ∧ Value.jsonChar .none c = ['\\', escaped]) ∨
    ((c ≠ '"' ∧ c ≠ '\\') ∧ 0x20 ≤ c.toNat ∧ c.toNat < 0x7F ∧ Value.jsonChar .none c = [c]) ∨
    (c.toNat < 0x10000 ∧ Value.jsonChar .none c = Value.jsonUnit c.toNat) ∨
    ∃ offset, c.toNat = 0x10000 + offset ∧ Value.jsonChar .none c =
      Value.jsonUnit (0xD800 + offset / 0x400) ++ Value.jsonUnit (0xDC00 + offset % 0x400) := by
  simp only [Value.jsonChar]
  split
  case isTrue guarded =>
    have known : c = '"' ∨ c = '\\' := by simpa using guarded
    rcases known with rfl | rfl <;> exact Or.inl ⟨_, rfl, rfl⟩
  case isFalse unguarded =>
    have plain : c ≠ '"' ∧ c ≠ '\\' := by simpa using unguarded
    split
    case isTrue same => exact Or.inl ⟨'n', by rw [beq_iff_eq.mp same]; rfl, rfl⟩
    split
    case isTrue same => exact Or.inl ⟨'r', by rw [beq_iff_eq.mp same]; rfl, rfl⟩
    split
    case isTrue same => exact Or.inl ⟨'t', by rw [beq_iff_eq.mp same]; rfl, rfl⟩
    split
    case isTrue same => exact Or.inl ⟨'b', by rw [beq_iff_eq.mp same]; rfl, rfl⟩
    split
    case isTrue same => exact Or.inl ⟨'f', by rw [beq_iff_eq.mp same]; rfl, rfl⟩
    split
    case isTrue printed =>
      obtain ⟨visible, inside⟩ := Bool.and_eq_true_iff.mp printed
      exact Or.inr (Or.inl ⟨plain, of_decide_eq_true visible, of_decide_eq_true inside, rfl⟩)
    split
    case isTrue small => exact Or.inr (Or.inr (Or.inl ⟨small, rfl⟩))
    case isFalse large =>
      obtain ⟨offset, code⟩ := Nat.exists_eq_add_of_le (Nat.le_of_not_lt large)
      refine Or.inr (Or.inr (Or.inr ⟨offset, code, ?_⟩))
      simp only [no_stand_in, code, Nat.add_sub_cancel_left]

theorem hexValue_digit : ∀ digit < 16, hexValue? (Nat.digitChar digit) = some digit := by
  decide

theorem hexDigits_four (code : Nat) (small : code < 0x10000) :
    hexDigits 4 code = [Nat.digitChar (code / 0x1000), Nat.digitChar (code / 0x100 % 16),
      Nat.digitChar (code / 0x10 % 16), Nat.digitChar (code % 16)] := by
  have last : ∀ n, n < 16 → Nat.toDigits 16 n = [Nat.digitChar n] :=
    fun n => Nat.toDigits_of_lt_base
  have next : ∀ n, 16 ≤ n → Nat.toDigits 16 n = Nat.toDigits 16 (n / 16) ++ [Nat.digitChar (n % 16)] :=
    fun n => Nat.toDigits_of_base_le (by decide)
  have zero : ∀ n, n = 0 → Nat.digitChar n = '0' := by
    rintro n rfl
    rfl
  rw [hexDigits]
  by_cases one : code < 16
  · rw [last code one, zero (code / 0x1000) (by omega), zero (code / 0x100 % 16) (by omega),
      zero (code / 0x10 % 16) (by omega), Nat.mod_eq_of_lt one]
    rfl
  by_cases two : code < 0x100
  · rw [next code (by omega), last (code / 16) (by omega), zero (code / 0x1000) (by omega),
      zero (code / 0x100 % 16) (by omega), Nat.mod_eq_of_lt (show code / 0x10 < 16 by omega)]
    rfl
  by_cases three : code < 0x1000
  · rw [next code (by omega), next (code / 16) (by omega), last (code / 16 / 16) (by omega),
      zero (code / 0x1000) (by omega), Nat.div_div_eq_div_mul,
      Nat.mod_eq_of_lt (show code / 0x100 < 16 by omega)]
    rfl
  · rw [next code (by omega), next (code / 16) (by omega), next (code / 16 / 16) (by omega),
      last (code / 16 / 16 / 16) (by omega)]
    simp [Nat.div_div_eq_div_mul]

theorem hexUnit_written (code : Nat) (small : code < 0x10000) (next : Char) (rest : List Char) :
    hexUnit? (hexDigits 4 code ++ next :: rest) = some (code, next :: rest) := by
  rw [hexDigits_four code small]
  simp only [List.cons_append, List.nil_append, hexUnit?]
  rw [hexValue_digit _ (by omega), hexValue_digit _ (by omega), hexValue_digit _ (by omega),
    hexValue_digit _ (by omega)]
  simp
  omega

variable (standIns : Text.StandIns)

theorem char_no_unit (c : Char) : Text.isHighUnit c.toNat = false ∧ Text.isLowUnit c.toNat = false := by
  have valid : c.toNat < 0xD800 ∨ 0xDFFF < c.toNat ∧ c.toNat < 0x110000 := c.valid
  constructor
  · simp only [Text.isHighUnit, Bool.and_eq_false_iff, decide_eq_false_iff_not]
    omega
  · simp only [Text.isLowUnit, Bool.and_eq_false_iff, decide_eq_false_iff_not]
    omega

theorem codeEscape_unit (position : Nat) (c next : Char) (rest : List Char) (small : c.toNat < 0x10000) :
    codeEscape standIns position (hexDigits 4 c.toNat ++ next :: rest) =
      .ok (c, ⟨position + 5, next :: rest⟩) := by
  obtain ⟨high, low⟩ := char_no_unit c
  simp only [codeEscape, hexUnit_written c.toNat small next rest, high]
  simp [Text.StandIns.charOf, high, low, Char.ofNat_toNat]

theorem codeEscape_units (position high low : Nat) (next : Char) (rest : List Char)
    (isHigh : Text.isHighUnit high = true) (isLow : Text.isLowUnit low = true) :
    codeEscape standIns position
        (hexDigits 4 high ++ '\\' :: 'u' :: (hexDigits 4 low ++ next :: rest)) =
      .ok (Text.ofPair high low, ⟨position + 11, next :: rest⟩) := by
  have small : high < 0x10000 ∧ low < 0x10000 := by
    simp only [Text.isHighUnit, Text.isLowUnit, Bool.and_eq_true, decide_eq_true_eq] at isHigh isLow
    omega
  simp only [codeEscape, hexUnit_written high small.1, hexUnit_written low small.2, isHigh, isLow, if_true]

/-- The pair of units of a character beyond the first plane. -/
theorem pair_units (c : Char) (offset : Nat) (code : c.toNat = 0x10000 + offset) :
    Text.isHighUnit (0xD800 + offset / 0x400) = true ∧ Text.isLowUnit (0xDC00 + offset % 0x400) = true ∧
      Text.ofPair (0xD800 + offset / 0x400) (0xDC00 + offset % 0x400) = c := by
  have valid : c.toNat < 0x110000 := by
    rcases c.valid with low | ⟨_, upper⟩
    · exact Nat.lt_trans low (by decide)
    · exact upper
  simp only [Text.isHighUnit, Text.isLowUnit, Bool.and_eq_true, decide_eq_true_eq, Text.ofPair]
  refine ⟨by omega, by omega, ?_⟩
  have whole : 0x10000 + (0xD800 + offset / 0x400 - 0xD800) * 0x400 +
      (0xDC00 + offset % 0x400 - 0xDC00) = c.toNat := by
    omega
  rw [whole, Char.ofNat_toNat]

variable (start fuel position : Nat) (rest done : List Char)

theorem textBody_escape (escaped decoded : Char) (simple : simpleEscape? escaped = some decoded) :
    textBody standIns start (fuel + 1) position ('\\' :: escaped :: rest) done =
      textBody standIns start fuel (position + 2) rest (decoded :: done) := by
  have other : escaped ≠ 'u' := by
    rintro rfl
    cases simple
  simp [textBody, simple]

theorem textBody_code (chars : List Char) (decoded : Char) (after : Cursor)
    (read : codeEscape standIns (position + 1) chars = .ok (decoded, after)) :
    textBody standIns start (fuel + 1) position ('\\' :: 'u' :: chars) done =
      textBody standIns start fuel after.position after.rest (decoded :: done) := by
  simp [textBody, read]

/-- A written character is read as itself, in one step. -/
theorem textBody_char (c next : Char) :
    ∃ after, textBody standIns start (fuel + 1) position (Value.jsonChar .none c ++ next :: rest) done =
      textBody standIns start fuel after (next :: rest) (c :: done) := by
  rcases char_spelled c with ⟨escaped, simple, spelled⟩ | ⟨plain, visible, _, spelled⟩ |
    ⟨small, spelled⟩ | ⟨offset, code, spelled⟩
  · exact ⟨position + 2, spelled ▸ textBody_escape standIns start fuel position (next :: rest) done
      escaped c simple⟩
  · have upper : ¬ c.toNat < 0x20 := Nat.not_lt_of_le visible
    exact ⟨position + 1, by simp [spelled, textBody, plain, upper]⟩
  · have read := codeEscape_unit standIns (position + 1) c next rest small
    refine ⟨position + 1 + 5, ?_⟩
    simp only [spelled, Value.jsonUnit, List.cons_append]
    exact textBody_code standIns start fuel position done _ c _ read
  · obtain ⟨high, low, whole⟩ := pair_units c offset code
    have read := codeEscape_units standIns (position + 1) _ _ next rest high low
    rw [whole] at read
    refine ⟨position + 1 + 11, ?_⟩
    simp only [spelled, Value.jsonUnit, List.cons_append, List.append_assoc]
    exact textBody_code standIns start fuel position done _ c _ read

/-- A written text is read as itself. -/
theorem textBody_written (content : List Char) (enough : content.length < fuel) :
    ∃ after, textBody standIns start fuel position
        (content.flatMap (Value.jsonChar .none) ++ '"' :: rest) done =
      .ok (String.ofList (done.reverse ++ content), ⟨after, rest⟩) := by
  induction content generalizing fuel position done with
  | nil =>
      obtain ⟨fuel, rfl⟩ := Nat.exists_eq_add_of_lt enough
      exact ⟨position + 1, by simp [textBody]⟩
  | cons c content ih =>
      obtain ⟨fuel, rfl⟩ := Nat.exists_eq_succ_of_ne_zero (Nat.ne_zero_of_lt enough)
      obtain ⟨next, others, split⟩ : ∃ next others,
          content.flatMap (Value.jsonChar .none) ++ '"' :: rest = next :: others :=
        List.exists_cons_of_ne_nil (by simp)
      obtain ⟨middle, step⟩ := textBody_char standIns start fuel position others done c next
      obtain ⟨after, later⟩ := ih fuel middle (c :: done) (Nat.lt_of_succ_lt_succ enough)
      refine ⟨after, ?_⟩
      rw [split] at later
      rw [List.flatMap_cons, List.append_assoc, split, step, later]
      simp

end TableScript.Reading
