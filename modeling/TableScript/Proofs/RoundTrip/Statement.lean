import TableScript.Proofs.Lexing.Statements
import TableScript.Proofs.RoundTrip.Definition

/-!
The statements of a written schema, read back. A table is made by the definitions of its columns,
and a reference is added to a column by a statement of its own.
-/

namespace TableScript

open Lexeme TypeShape

/-- The words that statements are written with. -/
theorem keyword_stands (word : String)
    (known : word ∈ ["CREATE", "TABLE", "ALTER", "ADD", "FOREIGN", "KEY", "REFERENCES"])
    (rest : List Char) : (Ink.word word.toList).Stands (' ' :: rest) := by
  have each : ∀ word ∈ ["CREATE", "TABLE", "ALTER", "ADD", "FOREIGN", "KEY", "REFERENCES"],
      word ≠ "" ∧ word.toList.all Identifier.isLead = true ∧ Text.upper word ∉ operatorWords := by
    decide +kernel
  obtain ⟨occupied, leads, free⟩ := each word known
  apply word_stands word (isWord_leads word occupied leads) free _
  rintro c ⟨rfl⟩
  exact Or.inr rfl

/-- A gap stands before a name. -/
theorem gap_stands (c : Char) (gap : isGap c = true) (name : String) (clear : Identifier.Clear name)
    (inks : List Ink) (rest : List Char) :
    (Ink.gap c).Stands (inkText (Identifier.ink name :: inks) ++ rest) := by
  obtain ⟨first, more, same, quoteOrLead⟩ := Identifier.ink_head name clear
  rw [inkText_cons, same, List.cons_append, List.cons_append]
  apply gap_before c first _ gap
  rcases quoteOrLead with rfl | lead
  · exact Or.inl (by decide)
  · exact Or.inr (Or.inr lead)

theorem keyword_read (word : String)
    (known : word ∈ ["CREATE", "TABLE", "ALTER", "ADD", "FOREIGN", "KEY", "REFERENCES"])
    (words : List String) : (wordToken word).isOneOf words = words.contains word := by
  have each : ∀ word ∈ ["CREATE", "TABLE", "ALTER", "ADD", "FOREIGN", "KEY", "REFERENCES"],
      Text.upper word = word := by
    decide +kernel
  simp [Token.isOneOf, wordToken, Token.upper, each word known]

namespace Identifier

theorem name_read (name : String) (proper : Proper name) (rest : List Token)
    (undotted : ∀ next ∈ rest.head?, next.isPunct "." = false) :
    Token.readFullName (token name :: rest) = (some name, rest) := by
  have last : Token.lastPart (token name).value rest = ((token name).value, rest) := by
    cases rest with
    | nil => rfl
    | cons dot rest =>
        have plain := undotted dot rfl
        cases rest with
        | nil => rfl
        | cons next rest => simp [Token.lastPart, plain]
  simp [Token.readFullName, Token.readName, token_isIdentifier, last, clean_token name proper.toLegible,
    proper.occupied]

theorem token_flat (name : String) : (token name).isFlat = true := by
  simp [Token.isFlat, Token.isOpen, Token.isClose, token_isPunct]

/-- A list of one name in parentheses. -/
theorem names_read (name : String) (legible : Legible name) (rest : List Token) :
    Token.readNames (Token.openMark :: token name :: Token.closeMark :: rest) =
      (some [name], rest) := by
  have group := Token.group_balanced (.flat (token_flat name) .nil) rest
  have whole : Token.Whole [token name] :=
    .flat (token_flat name) (token_isPunct name ",") .nil
  have parts : Token.splitTopLevel "," [token name] = [[token name]] :=
    Token.splitTopLevel_listed [[token name]] (by simpa using whole) (by simp)
  have opened : Token.startsWith Token.isOpen
      (Token.openMark :: token name :: Token.closeMark :: rest) = true := rfl
  simp only [List.cons_append, List.nil_append] at group
  simp [Token.readNames, opened, group, parts, Token.headName?, token_isIdentifier,
    clean_token name legible]

end Identifier

namespace PlainTable

/-- A table that can be read back. -/
structure Sound (table : PlainTable) : Prop where
  name : Identifier.Safe table.name
  columns : ∀ column ∈ table.columns, PlainColumn.Sound column
  distinct : (table.columns.map (·.name)).Nodup

/-- What a table has to be for its statement to be read back. -/
structure Restorable (table : PlainTable) : Prop where
  name : Identifier.Proper table.name
  columns : ∀ column ∈ table.columns, PlainColumn.Restorable column
  distinct : (table.columns.map (·.name)).Nodup

theorem Sound.restorable {table : PlainTable} (sound : Sound table) : Restorable table where
  name := sound.name.proper
  columns := fun column member => (sound.columns column member).restorable
  distinct := sound.distinct

noncomputable def lineInks (column : PlainColumn) : List Ink :=
  .gap ' ' :: .gap ' ' :: PlainColumn.inks column

noncomputable def bodyInks : List PlainColumn → List Ink
  | [] => []
  | first :: rest =>
      lineInks first ++ (rest.flatMap (fun column => .mark ',' :: .gap '\n' :: lineInks column) ++
        [.gap '\n'])

/-- The pieces of the statement that makes a table. -/
noncomputable def createInks (table : PlainTable) : List Ink :=
  [.word "CREATE".toList, .gap ' ', .word "TABLE".toList, .gap ' ', Identifier.ink table.name, .gap ' ',
    .mark '(', .gap '\n'] ++ (bodyInks table.columns ++ [.mark ')'])

noncomputable def createTokens (table : PlainTable) : List Token :=
  wordToken "CREATE" :: wordToken "TABLE" :: Identifier.token table.name ::
    Token.openMark :: (Token.listed (table.columns.map PlainColumn.tokens) ++ [Token.closeMark])

theorem rest_text (columns : List PlainColumn)
    (restorable : ∀ column ∈ columns, PlainColumn.Restorable column) :
    inkText (columns.flatMap fun column => .mark ',' :: .gap '\n' :: lineInks column) =
      (String.join (columns.map fun column => ",\n" ++ ("  " ++ PlainColumn.definition column))).toList := by
  induction columns with
  | nil => rfl
  | cons column columns ih =>
      obtain ⟨head, others⟩ := List.forall_mem_cons.mp restorable
      rw [List.flatMap_cons, inkText_append, ih others, List.map_cons, String.join_cons,
        String.toList_append]
      simp [lineInks, PlainColumn.inks_text column head]

theorem create_text (table : PlainTable) (restorable : Restorable table) :
    (createScript table).toList = inkText (createInks table) ++ [';'] := by
  have body : inkText (bodyInks table.columns) =
      (if (table.columns.map fun column => "  " ++ PlainColumn.definition column).isEmpty then ""
        else ",\n".intercalate (table.columns.map fun column =>
          "  " ++ PlainColumn.definition column) ++ "\n").toList := by
    have each := restorable.columns
    cases columns : table.columns with
    | nil => rfl
    | cons first rest =>
        obtain ⟨head, others⟩ := List.forall_mem_cons.mp (columns ▸ each)
        rw [bodyInks, inkText_append, inkText_append, rest_text rest others, List.map_cons,
          Text.intercalate_cons, List.map_map]
        simp [lineInks, PlainColumn.inks_text first head, Function.comp_def]
  have script : createScript table = "CREATE TABLE " ++ Identifier.write table.name ++ " (\n" ++
      (if (table.columns.map fun column => "  " ++ PlainColumn.definition column).isEmpty then ""
        else ",\n".intercalate (table.columns.map fun column =>
          "  " ++ PlainColumn.definition column) ++ "\n") ++ ");" := rfl
  rw [script]
  simp only [createInks, inkText_append, inkText_cons, inkText_nil, body, String.toList_append,
    Identifier.ink_chars, List.append_assoc, List.append_nil]
  rfl

theorem create_tokens (table : PlainTable) (restorable : Restorable table) :
    inkTokens (createInks table) = createTokens table := by
  have rest : ∀ columns : List PlainColumn, (∀ column ∈ columns, PlainColumn.Restorable column) →
      inkTokens (columns.flatMap fun column => .mark ',' :: .gap '\n' :: lineInks column) =
        (columns.map PlainColumn.tokens).flatMap (Token.comma :: ·) := by
    intro columns each
    induction columns with
    | nil => rfl
    | cons column columns ih =>
        obtain ⟨head, others⟩ := List.forall_mem_cons.mp each
        rw [List.flatMap_cons, inkTokens_append, ih others, List.map_cons, List.flatMap_cons]
        simp [lineInks, PlainColumn.inks_tokens column head, Token.comma]
  have body : inkTokens (bodyInks table.columns) =
      Token.listed (table.columns.map PlainColumn.tokens) := by
    have each := restorable.columns
    cases columns : table.columns with
    | nil => rfl
    | cons first others =>
        obtain ⟨head, tail⟩ := List.forall_mem_cons.mp (columns ▸ each)
        rw [bodyInks, inkTokens_append, inkTokens_append, rest others tail, List.map_cons, Token.listed]
        simp [lineInks, PlainColumn.inks_tokens first head]
  rw [createInks, inkTokens_append, inkTokens_append, body, createTokens]
  simp [wordToken, Token.openMark, Token.closeMark]

theorem line_written (column : PlainColumn) (restorable : PlainColumn.Restorable column)
    (following : List Char) (follows : Follows following) : Written (lineInks column) following := by
  have indented : (Ink.gap ' ').Stands (inkText (.gap ' ' :: PlainColumn.inks column) ++ following) :=
    gap_before ' ' ' ' _ rfl (Or.inr (Or.inl rfl))
  have named := gap_stands ' ' rfl column.name restorable.name.toClear
    (typeInks column.dataType ++ wordInks column.markWords) following
  exact ⟨indented, named, PlainColumn.inks_written column restorable following follows⟩

theorem rest_written (columns : List PlainColumn)
    (restorable : ∀ column ∈ columns, PlainColumn.Restorable column) (following : List Char) :
    Written (columns.flatMap (fun column => .mark ',' :: .gap '\n' :: lineInks column) ++
        [.gap '\n', .mark ')']) following ∧
      Follows (inkText (columns.flatMap (fun column => .mark ',' :: .gap '\n' :: lineInks column) ++
        [.gap '\n', .mark ')']) ++ following) := by
  induction columns with
  | nil =>
      constructor
      · exact ⟨gap_before '\n' ')' _ rfl (Or.inl (by decide)), Or.inl (by decide), trivial⟩
      · rintro c ⟨rfl⟩
        exact Or.inr (Or.inr rfl)
  | cons column columns ih =>
      obtain ⟨head, others⟩ := List.forall_mem_cons.mp restorable
      obtain ⟨written, next⟩ := ih others
      rw [List.flatMap_cons, List.cons_append, List.cons_append, List.cons_append, List.cons_append,
        List.append_assoc]
      constructor
      · refine ⟨Or.inl (by decide), gap_before '\n' ' ' _ rfl (Or.inr (Or.inl rfl)), ?_⟩
        rw [written_append]
        exact ⟨line_written column head _ next, written⟩
      · rintro c ⟨rfl⟩
        exact Or.inr (Or.inl rfl)

theorem body_written (columns : List PlainColumn)
    (restorable : ∀ column ∈ columns, PlainColumn.Restorable column) (following : List Char) :
    Written (bodyInks columns ++ [.mark ')']) following ∧
      ∀ c ∈ (inkText (bodyInks columns ++ [.mark ')']) ++ following).head?,
        c ∈ stoppers ∨ isGap c = true := by
  cases columns with
  | nil =>
      constructor
      · exact ⟨Or.inl (by decide), trivial⟩
      · rintro c ⟨rfl⟩
        exact Or.inl (by decide)
  | cons first rest =>
      obtain ⟨head, others⟩ := List.forall_mem_cons.mp restorable
      obtain ⟨written, next⟩ := rest_written rest others following
      have text : bodyInks (first :: rest) ++ [.mark ')'] = lineInks first ++
          (rest.flatMap (fun column => .mark ',' :: .gap '\n' :: lineInks column) ++
            [.gap '\n', .mark ')']) := by
        simp [bodyInks]
      rw [text, written_append]
      constructor
      · exact ⟨line_written first head _ next, written⟩
      · rintro c ⟨rfl⟩
        exact Or.inr rfl

theorem create_written (table : PlainTable) (restorable : Restorable table) (following : List Char) :
    Written (createInks table) following := by
  obtain ⟨body, next⟩ := body_written table.columns restorable.columns following
  rw [createInks, written_append]
  refine ⟨⟨keyword_stands "CREATE" (by decide) _, gap_before ' ' 'T' _ rfl (Or.inr (Or.inr rfl)),
    keyword_stands "TABLE" (by decide) _, gap_stands ' ' rfl table.name restorable.name.toClear _ _,
    Identifier.ink_stands table.name restorable.name.toClear _ ?_, gap_before ' ' '(' _ rfl (Or.inl (by decide)),
    Or.inl (by decide), ⟨rfl, ?_⟩, trivial⟩, body⟩
  · rintro c ⟨rfl⟩
    decide
  · intro c head
    exact (next c head).imp_right Or.inl

/-- A written table is read as the statement that makes it. -/
theorem create_read (table : PlainTable) (restorable : Restorable table) (text : String) :
    Statement.ofRaw ⟨text, createTokens table⟩ =
      .createTable table.name (table.columns.map (.column ∘ PlainColumn.definitionOf)) true := by
  have whole : ∀ part ∈ table.columns.map PlainColumn.tokens, Token.Whole part := by
    intro part member
    obtain ⟨column, inside, rfl⟩ := List.mem_map.mp member
    exact PlainColumn.tokens_whole column (restorable.columns column inside)
  have occupied : ∀ part ∈ table.columns.map PlainColumn.tokens, part ≠ [] := by
    intro part member
    obtain ⟨column, _, rfl⟩ := List.mem_map.mp member
    exact List.cons_ne_nil _ _
  have clauses : (table.columns.map PlainColumn.tokens).filterMap Clause.ofTokens? =
      table.columns.map (.column ∘ PlainColumn.definitionOf) := by
    rw [List.filterMap_map, ← List.filterMap_eq_map]
    exact List.filterMap_congr fun column member =>
      PlainColumn.clause_read column (restorable.columns column member)
  have group := Token.group_balanced (Token.listed_balanced _ whole) []
  have named := Identifier.name_read table.name restorable.name
    (Token.openMark :: (Token.listed (table.columns.map PlainColumn.tokens) ++ [Token.closeMark]))
    (by rintro next ⟨rfl⟩; rfl)
  have unconditional : (Identifier.token table.name).isWord "IF" = false :=
    Identifier.token_isWord table.name "IF" (by decide)
  have create := keyword_read "CREATE" (by decide)
  have make := keyword_read "TABLE" (by decide)
  have statement : Statement.ofRaw ⟨text, createTokens table⟩ =
      Statement.createFrom text (Identifier.token table.name ::
        Token.openMark :: (Token.listed (table.columns.map PlainColumn.tokens) ++ [Token.closeMark])) := by
    have prefixes : "TABLE" ∉ Keyword.tablePrefixes := by decide
    simp [Statement.ofRaw, createTokens, Token.takeWord?, Token.isWord, create, make,
      Statement.skipPrefixes, prefixes, Token.skipWords, Token.takeWords?]
  rw [statement, Statement.createFrom, Token.skipWords, Token.takeWords?, Token.takeWord?]
  simp [unconditional, named, group, Token.splitTopLevel_listed _ whole occupied, clauses]

end PlainTable

namespace Relationship

/-- A reference that can be read back. -/
structure Restorable (edge : Relationship String) : Prop where
  source : Identifier.Proper edge.source
  sourceColumn : Identifier.Proper edge.sourceColumn
  target : Identifier.Proper edge.target
  targetColumn : Identifier.Legible edge.targetColumn

def script (edge : Relationship String) : String :=
  PlainTable.referenceScript edge.source edge.sourceColumn ⟨edge.target, edge.targetColumn⟩

/-- The pieces of the statement that adds a reference to a column. -/
def inks (edge : Relationship String) : List Ink :=
  [.word "ALTER".toList, .gap ' ', .word "TABLE".toList, .gap ' ', Identifier.ink edge.source,
    .gap ' ', .word "ADD".toList, .gap ' ', .word "FOREIGN".toList, .gap ' ', .word "KEY".toList,
    .gap ' ', .mark '(', Identifier.ink edge.sourceColumn, .mark ')', .gap ' ',
    .word "REFERENCES".toList, .gap ' ', Identifier.ink edge.target, .gap ' ', .mark '(',
    Identifier.ink edge.targetColumn, .mark ')']

def actionTokens (edge : Relationship String) : List Token :=
  [wordToken "ADD", wordToken "FOREIGN", wordToken "KEY", Token.openMark,
    Identifier.token edge.sourceColumn, Token.closeMark, wordToken "REFERENCES",
    Identifier.token edge.target, Token.openMark, Identifier.token edge.targetColumn, Token.closeMark]

def tokens (edge : Relationship String) : List Token :=
  wordToken "ALTER" :: wordToken "TABLE" :: Identifier.token edge.source :: actionTokens edge

/-- The constraint that a reference is read as. -/
def constraintOf (edge : Relationship String) : Constraint :=
  .foreignKey [edge.sourceColumn] ⟨edge.target, [edge.targetColumn]⟩ none

theorem inks_text (edge : Relationship String) :
    (script edge).toList = inkText (inks edge) ++ [';'] := by
  unfold script PlainTable.referenceScript inks
  simp only [inkText_cons, inkText_nil, Identifier.ink_chars, Ink.chars_word, Ink.chars_gap,
    Ink.chars_mark, String.toList_append]
  -- The words are compared character by character, which should not open the names.
  generalize (Identifier.write edge.source).toList = source
  generalize (Identifier.write edge.sourceColumn).toList = sourceColumn
  generalize (Identifier.write edge.target).toList = target
  generalize (Identifier.write edge.targetColumn).toList = targetColumn
  simp

theorem inks_tokens (edge : Relationship String) : inkTokens (inks edge) = tokens edge := by
  simp [inks, tokens, actionTokens, wordToken, Token.openMark, Token.closeMark]

theorem inks_written (edge : Relationship String) (restorable : Restorable edge) (following : List Char) :
    Written (inks edge) following := by
  have word : ∀ first rest, Identifier.isLead first = true → (Ink.gap ' ').Stands (first :: rest) :=
    fun first rest lead => gap_before ' ' first rest rfl (Or.inr (Or.inr lead))
  have mark : ∀ rest, (Ink.gap ' ').Stands ('(' :: rest) :=
    fun rest => gap_before ' ' '(' rest rfl (Or.inl (by decide))
  refine ⟨keyword_stands "ALTER" (by decide) _, word 'T' _ rfl, keyword_stands "TABLE" (by decide) _,
    gap_stands ' ' rfl edge.source restorable.source.toClear _ _, Identifier.ink_stands _ restorable.source.toClear _ ?_,
    word 'A' _ rfl, keyword_stands "ADD" (by decide) _, word 'F' _ rfl,
    keyword_stands "FOREIGN" (by decide) _, word 'K' _ rfl, keyword_stands "KEY" (by decide) _,
    mark _, Or.inl (by decide), Identifier.ink_stands _ restorable.sourceColumn.toClear _ ?_,
    Or.inl (by decide), word 'R' _ rfl, keyword_stands "REFERENCES" (by decide) _,
    gap_stands ' ' rfl edge.target restorable.target.toClear _ _, Identifier.ink_stands _ restorable.target.toClear _ ?_,
    mark _, Or.inl (by decide), Identifier.ink_stands _ restorable.targetColumn.toClear _ ?_,
    Or.inl (by decide), trivial⟩
  all_goals
    rintro c ⟨rfl⟩
    decide

theorem action_whole (edge : Relationship String) : Token.Whole (actionTokens edge) := by
  have list : ∀ (name : String) (rest : List Token), Token.Whole rest →
      Token.Whole (Token.openMark :: Identifier.token name :: Token.closeMark :: rest) :=
    fun name rest whole => .group (.flat (Identifier.token_flat name) .nil) whole
  have targets := list edge.targetColumn [] .nil
  have target := Token.Whole.flat (Identifier.token_flat edge.target)
    (Identifier.token_isPunct edge.target ",") targets
  have points : Token.Whole (wordToken "REFERENCES" :: _) := .flat rfl rfl target
  have columns := list edge.sourceColumn _ points
  exact .flat rfl rfl (.flat rfl rfl (.flat rfl rfl columns))

/-- An action that adds a reference is read as its constraint. -/
theorem action_read (edge : Relationship String) (restorable : Restorable edge) :
    Action.ofTokens (actionTokens edge) = .add (constraintOf edge) := by
  have add := keyword_read "ADD" (by decide)
  have foreign := keyword_read "FOREIGN" (by decide)
  have key := keyword_read "KEY" (by decide)
  have points := keyword_read "REFERENCES" (by decide)
  have columns := Identifier.names_read edge.sourceColumn restorable.sourceColumn.toLegible
    [wordToken "REFERENCES", Identifier.token edge.target, Token.openMark,
      Identifier.token edge.targetColumn, Token.closeMark]
  have target := Identifier.name_read edge.target restorable.target
    [Token.openMark, Identifier.token edge.targetColumn, Token.closeMark]
    (by rintro next ⟨rfl⟩; rfl)
  have targets := Identifier.names_read edge.targetColumn restorable.targetColumn []
  have group : ∀ rest, Token.skipToGroup (Token.openMark :: rest) = Token.openMark :: rest :=
    fun _ => rfl
  have read : foreignKey? none [Token.openMark, Identifier.token edge.sourceColumn, Token.closeMark,
      wordToken "REFERENCES", Identifier.token edge.target, Token.openMark,
      Identifier.token edge.targetColumn, Token.closeMark] = some (constraintOf edge) := by
    simp [foreignKey?, someNames, group, columns, Token.takeWord?, Token.isWord, points, readTarget,
      target, targets, constraintOf]
  simp [Action.ofTokens, actionTokens, constraintName, constraintAction, isConstraintStart,
    Token.takeWord?, Token.takeWords?, Token.startsWith, Token.isWord, add, foreign, key, read]

/-- A written reference is read as the statement that adds it. -/
theorem statement_read (edge : Relationship String) (restorable : Restorable edge) (text : String) :
    Statement.ofRaw ⟨text, tokens edge⟩ = .alterTable edge.source [.add (constraintOf edge)] := by
  have alter := keyword_read "ALTER" (by decide)
  have make := keyword_read "TABLE" (by decide)
  have unconditional : (Identifier.token edge.source).isWord "IF" = false :=
    Identifier.token_isWord edge.source "IF" (by decide)
  have descendants : (Identifier.token edge.source).isWord "ONLY" = false :=
    Identifier.token_isWord edge.source "ONLY" (by decide)
  have named := Identifier.name_read edge.source restorable.source (actionTokens edge)
    (by rintro next ⟨rfl⟩; rfl)
  have parts : Token.splitTopLevel "," (actionTokens edge) = [actionTokens edge] := by
    have split := Token.splitTopLevel_listed [actionTokens edge]
      (by simpa using action_whole edge) (by simp [actionTokens])
    rwa [Token.listed, List.flatMap_nil, List.append_nil] at split
  have statement : Statement.ofRaw ⟨text, tokens edge⟩ =
      Statement.alterFrom text (Identifier.token edge.source :: actionTokens edge) := by
    simp [Statement.ofRaw, tokens, Token.takeWord?, Token.takeWords?, Token.isWord, alter, make]
  rw [statement, Statement.alterFrom]
  simp [Token.skipWords, Token.takeWords?, Token.takeWord?, unconditional, descendants, named, parts,
    action_read edge restorable]

end Relationship

end TableScript
