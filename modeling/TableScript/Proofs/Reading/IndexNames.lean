import TableScript.Proofs.Reading.Unseen
import TableScript.Proofs.Reading.UpperCase

/-!
Columns whose name is a word that an index clause begins with. Such a clause is known by its shape:
names up to a list in parentheses whose parts all begin with names. What does not have the shape is
the column it would be under any other name. But the words up to the list may be as many as there
are, so a data type and the options of a column pass for the name of an index, and a column with
REFERENCES before a list is lost.
-/

namespace TableScript

open Token

theorem upper_untouched (value : String)
    (untouched : ∀ c ∈ (Text.upper value).toList, Identifier.isTouched c = false) :
    ∀ c ∈ value.toList, Identifier.isTouched c = false := by
  intro c member
  cases touched : Identifier.isTouched c with
  | false => rfl
  | true =>
      have noted : Identifier.isNoted c = true := by simp [Identifier.isNoted, touched]
      have kept : c ∈ (Text.upper value).toList := by
        rw [Text.upper, String.toList_ofList]
        exact List.mem_flatMap.mpr ⟨c, member, by simp [Identifier.upper_noted c noted]⟩
      exact touched.symm.trans (untouched c kept)

theorem index_upper {name : Token} (index : name.isOneOf Keyword.indexClause = true) :
    Text.upper name.value ∈ Keyword.indexClause := by
  obtain ⟨_, member⟩ := Bool.and_eq_true_iff.mp index
  exact List.contains_iff_mem.mp member

/-- A word that an index clause begins with is clean as a name. -/
theorem index_clean {name : Token} (index : name.isOneOf Keyword.indexClause = true) :
    Identifier.clean name.value = name.value := by
  have plain : ∀ word ∈ Keyword.indexClause,
      (word.toList.all fun c => Identifier.isTouched c == false) = true := by decide +kernel
  have untouched := upper_untouched name.value fun c member =>
    beq_iff_eq.mp (List.all_eq_true.mp (plain _ (index_upper index)) c member)
  rw [Identifier.clean, Identifier.clean_untouched _ untouched, String.ofList_toList]

theorem index_occupied {name : Token} (index : name.isOneOf Keyword.indexClause = true) :
    name.value ≠ "" := by
  intro empty
  have word := index_upper index
  rw [empty] at word
  exact absurd word (by decide)

/-- What an index clause has behind its first word. -/
inductive IndexShape : List Token → Prop where
  | intro {names inside after : List Token} {parts : List (List Token)}
      (known : ∀ token ∈ names, token.isIdentifier = true) (balanced : Balanced inside)
      (occupied : inside ≠ []) (divided : Pieces "," inside parts)
      (columns : ∀ part ∈ parts, ∃ column rest, part = column :: rest ∧ column.isIdentifier = true) :
      IndexShape (names ++ openMark :: (inside ++ closeMark :: after))

theorem startsWith_iff (accepts : Token → Bool) (tokens : List Token) :
    startsWith accepts tokens = true ↔ ∃ token rest, tokens = token :: rest ∧ accepts token = true := by
  cases tokens with
  | nil => simp [startsWith]
  | cons token rest => simp [startsWith]

theorem skip_names {names : List Token} (known : ∀ token ∈ names, token.isIdentifier = true)
    (rest : List Token) : skipToGroup (names ++ openMark :: rest) = openMark :: rest := by
  rw [skipToGroup, List.dropWhile_append_of_pos known]
  rfl

theorem hasIndexColumns_iff (tokens : List Token) : hasIndexColumns tokens = true ↔ IndexShape tokens := by
  constructor
  · intro columns
    rw [hasIndexColumns] at columns
    cases found : group? (skipToGroup tokens) with
    | none => simp [found] at columns
    | some group =>
        obtain ⟨inside, after⟩ := group
        obtain ⟨balanced, same⟩ := (group_iff _ inside after).mp found
        have split : tokens =
            tokens.takeWhile isIdentifier ++ openMark :: (inside ++ closeMark :: after) := by
          rw [← same, skipToGroup, List.takeWhile_append_dropWhile]
        simp only [found, Bool.and_eq_true, Bool.not_eq_true', List.isEmpty_eq_false_iff, List.all_eq_true,
          startsWith_iff] at columns
        rw [split]
        exact .intro (fun _ member => List.mem_takeWhile_imp member) balanced columns.1
          ((pieces_iff (by decide) inside _).mp rfl) columns.2
  · rintro ⟨known, balanced, occupied, divided, columns⟩
    rw [hasIndexColumns, skip_names known, group_balanced balanced]
    simp only [Bool.and_eq_true, Bool.not_eq_true', List.isEmpty_eq_false_iff, List.all_eq_true,
      startsWith_iff]
    rw [(pieces_iff (by decide) _ _).mpr divided]
    exact ⟨occupied, columns⟩

/-- The name of a column has no part in reading its options. -/
theorem options_renamed (taken depth : Nat) (column : ColumnDefinition) (tokens : List Token)
    (name : String) : columnOptions taken depth { column with name := name } tokens =
      { columnOptions taken depth column tokens with name := name } := by
  induction tokens generalizing taken depth column with
  | nil => cases taken <;> rfl
  | cons token rest ih =>
      cases taken with
      | succ taken => exact ih taken depth column
      | zero =>
          simp only [columnOptions]
          split_ifs
          · exact ih 0 (depth + 1) column
          · exact ih 0 (depth - 1) column
          · exact ih 0 depth column
          · exact ih 1 depth { column with primaryKey := true }
          · exact ih 1 depth { column with notNull := true }
          · exact ih 0 depth { column with unique := true }
          · cases (readTarget rest).1 with
            | none => exact ih _ depth column
            | some target => exact ih _ depth { column with reference := some target }
          · exact ih 0 depth column

namespace Clause

theorem ofTokens_index {name : Token} (index : name.isOneOf Keyword.indexClause = true)
    (rest : List Token) : ofTokens? (name :: rest) =
      if hasIndexColumns rest then some (.ignored ⟨render (name :: rest), "index clause"⟩)
      else some (columnClause (render (name :: rest)) name rest) := by
  have word : name.kind = .word := beq_iff_eq.mp (Bool.and_eq_true_iff.mp index).1
  have constraint : name.isWord "CONSTRAINT" = false := isOneOf_apart index (by decide)
  have start : isConstraintStart name = false := isOneOf_apart index (by decide)
  cases shape : hasIndexColumns rest <;>
    simp [ofTokens?, constraint, start, ignoredReason?, word, index, shape]

/-- A column that has the name of an index word reads as it does under any ordinary name, unless what
stands behind the name has the shape of an index. Then it is left out. -/
theorem index_word_column {name ordinary : Token} (index : name.isOneOf Keyword.indexClause = true)
    (identifier : ordinary.isIdentifier = true) (full : Identifier.clean ordinary.value ≠ "")
    (free : ordinary.isOneOf startWords = false) (rest : List Token) :
    ∃ column, ofTokens? (ordinary :: rest) = some (.column column) ∧
      (¬ IndexShape rest →
        ofTokens? (name :: rest) = some (.column { column with name := name.value })) ∧
      (IndexShape rest →
        ofTokens? (name :: rest) = some (.ignored ⟨render (name :: rest), "index clause"⟩)) := by
  have clean := index_clean index
  have occupied := index_occupied index
  have named : name.isIdentifier = true := by
    simp [isIdentifier, beq_iff_eq.mp (Bool.and_eq_true_iff.mp index).1]
  apply Exists.intro (columnOptions 0 0
    ⟨Identifier.clean ordinary.value, render (readType rest).1, false, false, false, none⟩ (readType rest).2)
  constructor
  · rw [ofTokens_plain free, columnClause_column identifier full]
  constructor
  · intro other
    rw [← hasIndexColumns_iff] at other
    rw [ofTokens_index index, if_neg other, columnClause_column named (by rw [clean]; exact occupied),
      ← options_renamed, clean]
  · intro shape
    rw [ofTokens_index index, if_pos ((hasIndexColumns_iff rest).mpr shape)]

/-- INT and REFERENCES t pass for the name of an index, so that a column is left out; without them it
is not. -/
theorem key_column :
    ofTokens? [⟨.word, "key"⟩, ⟨.word, "INT"⟩, ⟨.word, "NOT"⟩, ⟨.word, "NULL"⟩] =
        some (.column ⟨"key", "INT", false, true, false, none⟩) ∧
      ofTokens? [⟨.word, "key"⟩, ⟨.word, "INT"⟩, ⟨.word, "REFERENCES"⟩, ⟨.word, "t"⟩, openMark,
          ⟨.word, "id"⟩, closeMark] =
        some (.ignored ⟨"key INT REFERENCES t(id)", "index clause"⟩) := by
  have read := @index_word_column ⟨.word, "key"⟩ ⟨.word, "a"⟩ (by decide +kernel) rfl (by decide +kernel)
    (by decide +kernel)
  constructor
  · obtain ⟨column, plain, kept, _⟩ := read [⟨.word, "INT"⟩, ⟨.word, "NOT"⟩, ⟨.word, "NULL"⟩]
    have other : ¬ IndexShape [⟨.word, "INT"⟩, ⟨.word, "NOT"⟩, ⟨.word, "NULL"⟩] := by
      rw [← hasIndexColumns_iff]
      decide +kernel
    have ordinary : ofTokens? [⟨.word, "a"⟩, ⟨.word, "INT"⟩, ⟨.word, "NOT"⟩, ⟨.word, "NULL"⟩] =
        some (.column ⟨"a", "INT", false, true, false, none⟩) := by decide +kernel
    cases plain.symm.trans ordinary
    exact kept other
  · obtain ⟨_, _, _, lost⟩ := read [⟨.word, "INT"⟩, ⟨.word, "REFERENCES"⟩, ⟨.word, "t"⟩, openMark,
      ⟨.word, "id"⟩, closeMark]
    have shape : IndexShape [⟨.word, "INT"⟩, ⟨.word, "REFERENCES"⟩, ⟨.word, "t"⟩, openMark,
        ⟨.word, "id"⟩, closeMark] := by
      rw [← hasIndexColumns_iff]
      decide +kernel
    exact lost shape

end Clause

end TableScript
