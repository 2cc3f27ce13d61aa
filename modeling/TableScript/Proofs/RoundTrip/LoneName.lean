import TableScript.Proofs.RoundTrip.Name

/-!
A name that is written on its own. What is written for it is read as one token that can be a name,
and the name that this token means is the one that was written, less its zero-width spaces.
-/

namespace TableScript.Identifier

open Lexeme

/-- A name that the lexical rules leave whole when nothing else stands beside it: without quotes it
is no operator and ends with itself, and in quotes it has no double quote behind a backslash. -/
structure Whole (name : String) : Prop where
  closed : isBare name = true → name.toList.getLast? ≠ some '\n'
  free : isBare name = true → Text.upper name ∉ ["DIV", "ILIKE", "RLIKE", "REGEXP"]
  unguarded : isBare name = false → ¬ ['\\', '"'] <:+: name.toList

theorem Whole.clear {name : String} (whole : Whole name) (bare : isBare name = true) :
    Clear name where
  closed := whole.closed
  free := whole.free
  calm := fun marked => absurd (marked.symm.trans bare) Bool.false_ne_true

-- Nothing follows the closing quote, so a backslash may stand right before it.
theorem Whole.contained {name : String} (whole : Whole name) (marked : isBare name = false) :
    Contained '"' name.toList [] where
  unguarded := whole.unguarded marked
  ended := fun _ => rfl

theorem written_bare (name : String) (clear : Clear name) :
    Reads (ink name).chars [] (ink name).tokens := by
  have stands : Written [ink name] [] := ⟨ink_stands name clear _ (by simp), trivial⟩
  simpa using reads_inks [ink name] [] stands (by simp [Closed])

theorem written_token (name : String) (whole : Whole name) :
    Token.tokenize (write name) = [token name] := by
  apply tokenize_reads
  cases bare : isBare name with
  | true =>
      have reads := written_bare name (whole.clear bare)
      rwa [ink_chars, ink_tokens] at reads
  | false =>
      have reads := reads_symbol name.toList [] (whole.contained bare) (by simp)
      rw [token, write_eq]
      simpa [bare, quote_eq] using reads

theorem clean_written (name : String) (whole : Whole name) :
    clean (write name) = visible name := by
  rw [write_eq]
  split
  case isTrue bare =>
    have inner := (bare_chars name (whole.clear bare) bare).2
    have shown : name.toList.filter isVisible = name.toList :=
      visible_all _ fun hidden => absurd (inner _ hidden) (by decide)
    rw [clean, clean_bare name.toList inner, visible, shown]
  case isFalse => rw [clean, quote_eq, String.toList_ofList, clean_quoted, visible]

/-- A name on its own is written as one token that can be a name, and that token means the name. Of
zero-width spaces nothing comes back. -/
theorem written_read_back (name : String) (whole : Whole name) :
    Token.tokenize (write name) = [token name] ∧ (token name).isIdentifier = true ∧
      clean (token name).value = visible name :=
  ⟨written_token name whole, token_isIdentifier name, clean_written name whole⟩

/-- A quote, a zero-width space, blanks and a backslash before the closing quote. -/
theorem guarded_end_read_back :
    let name := " a\"b\u200B \\"
    Whole name ∧ Token.tokenize (write name) = [token name] ∧ (token name).isIdentifier = true ∧
      clean (token name).value = " a\"b \\" := by
  have whole : Whole " a\"b\u200B \\" := ⟨by decide, by decide, fun _ => by decide +kernel⟩
  obtain ⟨read, able, cleaned⟩ := written_read_back _ whole
  have shown : visible " a\"b\u200B \\" = " a\"b \\" := by decide
  exact ⟨whole, read, able, cleaned.trans shown⟩

/-- A name with a zero-width space is not the name that comes back. -/
theorem zero_width_lost :
    ¬ ∀ name : String, name ≠ "" → ∃ one, Token.tokenize (write name) = [one] ∧
      one.isIdentifier = true ∧ clean one.value = name := by
  intro always
  obtain ⟨one, read, -, same⟩ := always "a\u200Bb" (by decide)
  have written : Token.tokenize (write "a\u200Bb") = [token "a\u200Bb"] :=
    written_token "a\u200Bb" ⟨by decide, by decide, fun _ => by decide⟩
  obtain rfl : one = token "a\u200Bb" := List.singleton_inj.mp (read.symm.trans written)
  exact absurd same (by decide)

end TableScript.Identifier
