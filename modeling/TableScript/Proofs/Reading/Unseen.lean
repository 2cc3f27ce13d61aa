import TableScript.Proofs.Reading.Nesting

/-!
Behind its data type a column may have tokens in parentheses, such as the expression of a check or
of a default. Words in there add nothing to the column, even where they would elsewhere: another
group in the place of the first one leaves the column as it is.
-/

namespace TableScript

namespace Token

theorem flat_head {token : Token} {rest : List Token} (balanced : Balanced (token :: rest))
    (plain : token.isFlat = true) : Balanced rest := by
  generalize same : token :: rest = tokens at balanced
  cases balanced with
  | nil => cases same
  | flat _ tail =>
      obtain ⟨_, rfl⟩ := List.cons.inj same
      exact tail
  | group =>
      obtain ⟨rfl, _⟩ := List.cons.inj same
      cases plain

theorem open_head {rest : List Token} (balanced : Balanced (openMark :: rest)) :
    ∃ inside after, Balanced inside ∧ Balanced after ∧ rest = inside ++ closeMark :: after := by
  generalize same : openMark :: rest = tokens at balanced
  cases balanced with
  | nil => cases same
  | flat plain =>
      obtain ⟨rfl, _⟩ := List.cons.inj same
      cases plain
  | group inner tail =>
      obtain ⟨_, rfl⟩ := List.cons.inj same
      exact ⟨_, _, inner, tail, rfl⟩

theorem balanced_behind {front rest : List Token} (balanced : Balanced front)
    (whole : Balanced (front ++ rest)) : Balanced rest := by
  induction balanced with
  | nil => exact whole
  | flat plain _ ih => exact ih (flat_head whole plain)
  | @group inside front inner _ _ ih =>
      rw [List.append_assoc, List.cons_append] at whole
      obtain ⟨inside', after, inner', tail, same⟩ := open_head whole
      -- a group is closed in one place only
      have first := groupFrom_closed inner (front ++ rest)
      rw [← List.cons_append, same, groupFrom_closed inner' after] at first
      cases first
      exact ih tail

theorem part_cases {part : List Token} (isPart : TypePart part) :
    (∃ inside, part = openMark :: (inside ++ [closeMark])) ∨ ∀ token ∈ part, token.isFlat = true := by
  cases isPart with
  | @group inside => exact .inl ⟨inside, rfl⟩
  | dotted identifier =>
      have name := identifier_flat identifier
      have mark : point.isFlat = true := rfl
      exact .inr (by simp [name, mark])
  | brackets => exact .inr (by decide)
  | sized counts =>
      have kind := beq_iff_eq.mp counts
      exact .inr (by simp [isFlat, isOpen, isClose, isPunct, kind, openBracket, closeBracket])
  | modifier known =>
      have word := word_flat known
      exact .inr (by simp [word])
  | timeZone known words =>
      obtain ⟨time, zone⟩ := Bool.and_eq_true_iff.mp words
      have flat := And.intro (word_flat known) (And.intro (word_flat time) (word_flat zone))
      exact .inr (by simp [flat])

/-- Where a type stops before a group, what the group has inside does not matter. -/
theorem typeLength_elsewhere {kept : List Token} (balanced : Balanced kept) (occupied : kept ≠ [])
    {after : List Token} (stops : typeLength 0 (kept ++ openMark :: after) = 0) (other : List Token) :
    typeLength 0 (kept ++ openMark :: other) = 0 := by
  rcases typeLength_cases (kept ++ openMark :: other) with ends | ⟨part, rest, isPart, same⟩
  · exact ends
  exfalso
  -- A part that the type could go on with is a group, which then is one of `kept` too, or it has no
  -- parentheses and so ends before the group behind `kept`.
  rcases part_cases isPart with ⟨inside, rfl⟩ | flat
  · cases kept with
    | nil => exact occupied rfl
    | cons token kept =>
        obtain ⟨rfl, _⟩ := List.cons.inj same
        obtain ⟨inner, behind, paired, _, rfl⟩ := open_head balanced
        have length := typeLength_group paired (behind ++ openMark :: after)
        rw [List.cons_append, List.append_assoc, List.cons_append, length] at stops
        omega
  · rcases List.append_eq_append_iff.mp same with ⟨more, rfl, behind⟩ | ⟨more, rfl, _⟩
    · cases more with
      | nil =>
          rw [List.append_nil] at isPart
          rw [typeLength_part isPart] at stops
          exact occupied (List.length_eq_zero_iff.mp (by omega))
      | cons token more =>
          cases behind
          cases flat openMark (by simp)
    · rw [List.append_assoc, typeLength_part isPart] at stops
      exact part_occupied isPart (List.length_eq_zero_iff.mp (by omega))

/-- Tokens that are a data type before others, which do not go on with it. -/
inductive TypeBefore : List Token → List Token → Prop where
  | none {options : List Token} (other : startsWith beginsType options = false) : TypeBefore [] options
  | some {first : Token} {rest options : List Token} (begins : first.beginsType = true)
      (isRest : TypeRest rest) (stops : typeLength 0 options = 0) : TypeBefore (first :: rest) options

theorem readType_iff (tokens taken options : List Token) :
    readType tokens = (taken, options) ↔ tokens = taken ++ options ∧ TypeBefore taken options := by
  constructor
  · intro read
    cases tokens with
    | nil =>
        cases read
        exact ⟨rfl, .none rfl⟩
    | cons first rest =>
        rw [readType] at read
        split at read
        case isTrue begins =>
          cases read
          obtain ⟨isRest, stops⟩ := type_split rest
          exact ⟨by simp, .some begins isRest stops⟩
        case isFalse other =>
          cases read
          exact ⟨rfl, .none (by simpa [startsWith] using other)⟩
  · rintro ⟨rfl, before⟩
    cases before with
    | none other =>
        cases options with
        | nil => rfl
        | cons first rest =>
            have unlike : first.beginsType = false := other
            simp [readType, unlike]
    | some begins isRest stops =>
        have length := typeLength_rest isRest options
        rw [stops, Nat.add_zero] at length
        simp [readType, begins, length]

theorem startsWith_elsewhere (accepts : Token → Bool) {kept : List Token} (after other : List Token) :
    startsWith accepts (kept ++ openMark :: after) = startsWith accepts (kept ++ openMark :: other) := by
  cases kept <;> rfl

theorem typeBefore_elsewhere {taken kept after : List Token} (balanced : Balanced kept)
    (occupied : kept ≠ []) (before : TypeBefore taken (kept ++ openMark :: after)) (other : List Token) :
    TypeBefore taken (kept ++ openMark :: other) := by
  cases before with
  | none unlike => exact .none (by rwa [startsWith_elsewhere beginsType other after])
  | some begins isRest stops =>
      exact .some begins isRest (typeLength_elsewhere balanced occupied stops other)

theorem type_balanced {taken options : List Token} (before : TypeBefore taken options) :
    Balanced taken := by
  cases before with
  | none => exact .nil
  | some begins isRest =>
      have identifier := (Bool.and_eq_true_iff.mp begins).1
      exact .flat (identifier_flat identifier) (whole_balanced (rest_whole isRest))

end Token

open Token

/-- What a token that is no parenthesis and no REFERENCES adds to a column. -/
def marked (column : ColumnDefinition) (token : Token) (rest : List Token) : ColumnDefinition :=
  if token.isWord "PRIMARY" && startsWith (·.isWord "KEY") rest then { column with primaryKey := true }
  else if token.isWord "NOT" && startsWith (·.isWord "NULL") rest then { column with notNull := true }
  else if token.isWord "UNIQUE" then { column with unique := true }
  else column

theorem options_inside {inside : List Token} (balanced : Balanced inside) (depth : Nat)
    (column : ColumnDefinition) (rest : List Token) :
    columnOptions 0 (depth + 1) column (inside ++ rest) = columnOptions 0 (depth + 1) column rest := by
  induction balanced generalizing depth rest with
  | nil => rfl
  | flat plain _ ih =>
      obtain ⟨unopened, unclosed⟩ := flat_parts plain
      simp [columnOptions, unopened, unclosed, ih]
  | @group inside tail _ _ inner_ih tail_ih =>
      have opened : openMark.isOpen = true := rfl
      have unopened : closeMark.isOpen = false := rfl
      have closed : closeMark.isClose = true := rfl
      simp [columnOptions, opened, unopened, closed, inner_ih, tail_ih]

theorem options_group {inside : List Token} (balanced : Balanced inside) (column : ColumnDefinition)
    (rest : List Token) :
    columnOptions 0 0 column (openMark :: (inside ++ closeMark :: rest)) =
      columnOptions 0 0 column rest := by
  have opened : openMark.isOpen = true := rfl
  have unopened : closeMark.isOpen = false := rfl
  have closed : closeMark.isClose = true := rfl
  simp [columnOptions, opened, unopened, closed, options_inside balanced]

/-- The second word of a mark is skipped, but by itself it would add nothing either. -/
theorem options_second {words : List String} {word : Token} (known : word.isOneOf words = true)
    (apart : ∀ word ∈ words, word ∉ ["PRIMARY", "NOT", "UNIQUE", "REFERENCES"]) (column : ColumnDefinition)
    (rest : List Token) :
    columnOptions 1 0 column (word :: rest) = columnOptions 0 0 column (word :: rest) := by
  obtain ⟨unopened, unclosed⟩ := flat_parts (word_flat known)
  have other := isOneOf_apart known apart
  have single : ∀ single ∈ ["PRIMARY", "NOT", "UNIQUE", "REFERENCES"], word.isWord single = false :=
    fun single member => isOneOf_fewer word _ [single] other (by simpa using member)
  simp [columnOptions, unopened, unclosed, single]

theorem options_marked {token : Token} (flat : token.isFlat = true)
    (unlinked : token.isWord "REFERENCES" = false) (column : ColumnDefinition) (rest : List Token) :
    columnOptions 0 0 column (token :: rest) = columnOptions 0 0 (marked column token rest) rest := by
  obtain ⟨unopened, unclosed⟩ := flat_parts flat
  by_cases key : (token.isWord "PRIMARY" && startsWith (·.isWord "KEY") rest) = true
  · cases rest with
    | nil => simp [startsWith] at key
    | cons word rest =>
        have known : word.isWord "KEY" = true := (Bool.and_eq_true_iff.mp key).2
        have second := options_second known (by decide) { column with primaryKey := true } rest
        simp only [columnOptions, unopened, unclosed, key, marked] at second ⊢
        simpa using second
  by_cases null : (token.isWord "NOT" && startsWith (·.isWord "NULL") rest) = true
  · cases rest with
    | nil => simp [startsWith] at null
    | cons word rest =>
        have known : word.isWord "NULL" = true := (Bool.and_eq_true_iff.mp null).2
        have second := options_second known (by decide) { column with notNull := true } rest
        simp only [columnOptions, unopened, unclosed, key, null, marked] at second ⊢
        simpa using second
  by_cases unique : token.isWord "UNIQUE" = true
  · simp [columnOptions, unopened, unclosed, key, null, unique, marked]
  · simp [columnOptions, unopened, unclosed, key, null, unique, unlinked, marked]

theorem marked_elsewhere (column : ColumnDefinition) (token : Token) {kept : List Token}
    (after other : List Token) :
    marked column token (kept ++ openMark :: after) = marked column token (kept ++ openMark :: other) := by
  simp only [marked, startsWith_elsewhere _ after other]

/-- Options that link to no table are the same with other tokens inside of a group behind them. -/
theorem options_elsewhere {kept inside other : List Token} (balanced : Balanced kept)
    (enclosed : Enclosed (·.isWord "REFERENCES") 0 kept) (inner : Balanced inside)
    (inner' : Balanced other) (after : List Token) (column : ColumnDefinition) :
    columnOptions 0 0 column (kept ++ openMark :: (inside ++ closeMark :: after)) =
      columnOptions 0 0 column (kept ++ openMark :: (other ++ closeMark :: after)) := by
  induction balanced generalizing column with
  | nil => simp only [List.nil_append, options_group inner, options_group inner']
  | @flat token rest plain _ ih =>
      obtain ⟨first, later⟩ := (enclosed_cons _ 0 token rest).mp enclosed
      rw [deepen_flat plain] at later
      have unlinked : token.isWord "REFERENCES" = false := by
        cases linked : token.isWord "REFERENCES" with
        | true => exact absurd rfl (first linked)
        | false => rfl
      rw [List.cons_append, List.cons_append, options_marked plain unlinked,
        options_marked plain unlinked, marked_elsewhere, ih later]
  | @group hidden rest hiddenBalanced _ _ ih =>
      have later : Enclosed (·.isWord "REFERENCES") 0 rest := by
        have group : Balanced (openMark :: hidden ++ [closeMark]) := .group hiddenBalanced .nil
        have split : openMark :: hidden ++ closeMark :: rest =
            openMark :: hidden ++ [closeMark] ++ rest := by simp
        rw [split] at enclosed
        exact enclosed_balanced group enclosed
      simp only [List.append_assoc, List.cons_append, options_group hiddenBalanced]
      exact ih later column

theorem columnClause_column {first : Token} (identifier : first.isIdentifier = true)
    (full : Identifier.clean first.value ≠ "") (text : String) (rest : List Token) :
    columnClause text first rest = .column (columnOptions 0 0
      ⟨Identifier.clean first.value, render (readType rest).1, false, false, false, none⟩
      (readType rest).2) := by
  simp [columnClause, identifier, full]

namespace Clause

/-- The words that a clause which is no column may begin with. -/
def startWords : List String :=
  ["CONSTRAINT", "PRIMARY", "FOREIGN", "UNIQUE", "KEY", "INDEX", "FULLTEXT", "SPATIAL", "CHECK",
   "EXCLUDE", "PERIOD", "LIKE"]

theorem ignored_none {first : Token} (free : first.isOneOf startWords = false) (rest : List Token) :
    ignoredReason? first rest = none := by
  have index := isOneOf_fewer first _ Keyword.indexClause free (by decide)
  have other : ∀ word ∈ ["CHECK", "EXCLUDE", "PERIOD", "LIKE"], first.isWord word = false := by
    intro word member
    apply isOneOf_fewer first _ [word] free
    simp only [List.mem_cons, List.not_mem_nil, or_false] at member ⊢
    rintro _ rfl
    rcases member with rfl | rfl | rfl | rfl <;> decide
  simp [ignoredReason?, index, other]

theorem ofTokens_plain {first : Token} (free : first.isOneOf startWords = false) (rest : List Token) :
    ofTokens? (first :: rest) = some (columnClause (render (first :: rest)) first rest) := by
  have constraint : first.isWord "CONSTRAINT" = false :=
    isOneOf_fewer first _ ["CONSTRAINT"] free (by decide)
  have start : isConstraintStart first = false :=
    isOneOf_fewer first _ ["PRIMARY", "FOREIGN", "UNIQUE"] free (by decide)
  simp only [ofTokens?, constraint, start, ignored_none free]
  rfl

/-- Behind its data type, and where nothing before points at a table, a column may have a group with
any tokens inside: it is the same column with another group there. -/
theorem column_unseen {first : Token} {front inside other : List Token} (after : List Token)
    (identifier : first.isIdentifier = true) (full : Identifier.clean first.value ≠ "")
    (free : first.isOneOf startWords = false) (balanced : Balanced (first :: front))
    (inner : Balanced inside) (inner' : Balanced other)
    (behind : ∃ kept, kept ≠ [] ∧ (readType (front ++ openMark :: (inside ++ closeMark :: after))).2 =
      kept ++ openMark :: (inside ++ closeMark :: after))
    (enclosed : Enclosed (·.isWord "REFERENCES") 0 (first :: front)) :
    ∃ column,
      ofTokens? (first :: (front ++ openMark :: (inside ++ closeMark :: after))) = some (.column column) ∧
        ofTokens? (first :: (front ++ openMark :: (other ++ closeMark :: after))) = some (.column column) := by
  obtain ⟨kept, occupied, stops⟩ := behind
  cases read : readType (front ++ openMark :: (inside ++ closeMark :: after)) with
  | mk taken options =>
    rw [read] at stops
    obtain ⟨split, before⟩ := (readType_iff _ taken options).mp read
    rw [show options = _ from stops] at split before
    obtain rfl : front = taken ++ kept := by
      rw [← List.append_assoc] at split
      exact List.append_cancel_right split
    have typed := type_balanced before
    have leading : Balanced (first :: taken) := .flat (identifier_flat identifier) typed
    have remaining : Balanced kept := balanced_behind leading balanced
    have unlinked := enclosed_balanced leading enclosed
    have read' := (readType_iff (taken ++ kept ++ openMark :: (other ++ closeMark :: after)) taken _).mpr
      ⟨List.append_assoc _ _ _, typeBefore_elsewhere remaining occupied before _⟩
    apply Exists.intro (columnOptions 0 0
      ⟨Identifier.clean first.value, render taken, false, false, false, none⟩
      (kept ++ openMark :: (inside ++ closeMark :: after)))
    constructor
    · rw [ofTokens_plain free, columnClause_column identifier full, read]
      rw [show options = _ from stops]
    · rw [ofTokens_plain free, columnClause_column identifier full, read']
      rw [options_elsewhere remaining unlinked inner inner']

def doubtful : List Token :=
  [⟨.word, "NOT"⟩, ⟨.word, "NULL"⟩, ⟨.word, "UNIQUE"⟩]

-- x INT DEFAULT (NOT NULL UNIQUE) PRIMARY KEY is the column that x INT DEFAULT () PRIMARY KEY is
theorem doubtful_unseen :
    ∃ column,
      ofTokens? ([⟨.word, "x"⟩, ⟨.word, "INT"⟩, ⟨.word, "DEFAULT"⟩] ++
        openMark :: (doubtful ++ closeMark :: [⟨.word, "PRIMARY"⟩, ⟨.word, "KEY"⟩])) =
          some (.column column) ∧
        ofTokens? ([⟨.word, "x"⟩, ⟨.word, "INT"⟩, ⟨.word, "DEFAULT"⟩] ++
          openMark :: ([] ++ closeMark :: [⟨.word, "PRIMARY"⟩, ⟨.word, "KEY"⟩])) =
            some (.column column) := by
  apply @column_unseen ⟨.word, "x"⟩ [⟨.word, "INT"⟩, ⟨.word, "DEFAULT"⟩]
  · rfl
  · decide +kernel
  · decide +kernel
  · exact balanced_flat _ (by decide)
  · exact balanced_flat doubtful (by decide)
  · exact .nil
  · exact ⟨[⟨.word, "DEFAULT"⟩], by simp, by decide +kernel⟩
  · exact enclosed_none (by decide +kernel) 0

end Clause

end TableScript
