import TableScript.Proofs.Reading.UpperCase
import TableScript.Statement.Reader

/-!
Letter case has no part in the shape of what is read. Reading looks at the kinds of tokens, at marks
and at words in upper case, and a name is cleaned alike in any case. So each reader finds in tokens
that are put in upper case what it finds in the tokens as they are, put in upper case.
-/

namespace TableScript

namespace Token

/-- A token with its text in upper case. A mark stays what it is. -/
def raised (token : Token) : Token :=
  { token with value := if token.kind = .punct then token.value else token.upper }

@[simp] theorem kind_raised (token : Token) : token.raised.kind = token.kind := rfl

@[simp] theorem upper_raised (token : Token) : token.raised.upper = token.upper := by
  simp only [upper, raised]
  split <;> simp

@[simp] theorem isOneOf_raised (token : Token) (words : List String) :
    token.raised.isOneOf words = token.isOneOf words := by
  rw [isOneOf, kind_raised, upper_raised, isOneOf]

@[simp] theorem isWord_raised (token : Token) (word : String) :
    token.raised.isWord word = token.isWord word :=
  isOneOf_raised token [word]

@[simp] theorem isPunct_raised (token : Token) (value : String) :
    token.raised.isPunct value = token.isPunct value := by
  by_cases mark : token.kind = .punct
  · simp [isPunct, raised, mark]
  · simp [isPunct, beq_false_of_ne mark]

@[simp] theorem isIdentifier_raised (token : Token) :
    token.raised.isIdentifier = token.isIdentifier := by
  rw [isIdentifier, kind_raised, isIdentifier]

@[simp] theorem isOpen_raised (token : Token) : token.raised.isOpen = token.isOpen :=
  isPunct_raised token "("

@[simp] theorem isClose_raised (token : Token) : token.raised.isClose = token.isClose :=
  isPunct_raised token ")"

theorem value_raised (token : Token) (named : token.isIdentifier = true) :
    token.raised.value = Text.upper token.value := by
  have unmarked : token.kind ≠ .punct := by
    intro mark
    simp [isIdentifier, mark] at named
  simp [raised, unmarked, upper]

theorem clean_raised (token : Token) (named : token.isIdentifier = true) :
    Identifier.clean token.raised.value = Text.upper (Identifier.clean token.value) := by
  rw [value_raised token named, Identifier.clean_upper]

@[simp] theorem startsWith_raised (accepts : Token → Bool) (tokens : List Token) :
    startsWith accepts (tokens.map raised) = startsWith (fun token => accepts token.raised) tokens := by
  cases tokens <;> rfl

@[simp] theorem takeWord_raised (word : String) (tokens : List Token) :
    takeWord? word (tokens.map raised) = (takeWord? word tokens).map (List.map raised) := by
  cases tokens with
  | nil => rfl
  | cons token rest =>
      simp only [takeWord?, List.map_cons, isWord_raised]
      split <;> rfl

@[simp] theorem takeWords_raised (words : List String) (tokens : List Token) :
    takeWords? words (tokens.map raised) = (takeWords? words tokens).map (List.map raised) := by
  induction words generalizing tokens with
  | nil => rfl
  | cons word words ih =>
      simp only [takeWords?, takeWord_raised]
      cases takeWord? word tokens with
      | none => rfl
      | some rest => exact ih rest

@[simp] theorem skipWords_raised (words : List String) (tokens : List Token) :
    skipWords words (tokens.map raised) = (skipWords words tokens).map raised := by
  rw [skipWords, takeWords_raised, Option.getD_map, skipWords]

@[simp] theorem skipToGroup_raised (tokens : List Token) :
    skipToGroup (tokens.map raised) = (skipToGroup tokens).map raised := by
  rw [skipToGroup, List.dropWhile_map]
  rfl

theorem groupFrom_raised (depth : Nat) (tokens : List Token) :
    groupFrom depth (tokens.map raised) =
      (groupFrom depth tokens).map (Prod.map (List.map raised) (List.map raised)) := by
  induction tokens generalizing depth with
  | nil => rfl
  | cons token rest ih =>
      simp only [groupFrom, List.map_cons, isClose_raised, isOpen_raised, ih]
      split
      · rfl
      · simp only [Option.map_map]
        rfl

@[simp] theorem group_raised (tokens : List Token) :
    group? (tokens.map raised) =
      (group? tokens).map (Prod.map (List.map raised) (List.map raised)) := by
  cases tokens with
  | nil => rfl
  | cons token rest =>
      simp only [group?, List.map_cons, isOpen_raised, groupFrom_raised]
      split <;> rfl

theorem splitFrom_raised (separator : String) (depth : Nat) (tokens : List Token) :
    splitFrom separator depth (tokens.map raised) =
      Prod.map (List.map raised) (List.map (List.map raised)) (splitFrom separator depth tokens) := by
  induction tokens generalizing depth with
  | nil => rfl
  | cons token rest ih =>
      simp only [splitFrom, List.map_cons, isOpen_raised, isClose_raised, isPunct_raised, ih]
      split_ifs <;> rfl

@[simp] theorem splitTopLevel_raised (separator : String) (tokens : List Token) :
    splitTopLevel separator (tokens.map raised) =
      (splitTopLevel separator tokens).map (List.map raised) := by
  have occupied : (fun part : List Token => !part.isEmpty) ∘ List.map raised =
      fun part => !part.isEmpty := funext fun part => by simp
  rw [splitTopLevel, splitFrom_raised, splitTopLevel]
  simp only [Prod.map_fst, Prod.map_snd]
  rw [← List.map_cons, List.filter_map, occupied]

/-- A name and the tokens behind it in upper case. -/
def raisedName (read : Option String × List Token) : Option String × List Token :=
  (read.1.map Text.upper, read.2.map raised)

theorem lastPart_raised (written : String) : (tokens : List Token) →
    lastPart (Text.upper written) (tokens.map raised) =
      (Text.upper (lastPart written tokens).1, (lastPart written tokens).2.map raised)
  | [] => rfl
  | [_] => rfl
  | dot :: token :: rest => by
      simp only [List.map_cons, lastPart, isPunct_raised, isIdentifier_raised]
      split_ifs with dotted
      · have named := (Bool.and_eq_true_iff.mp dotted).2
        rw [value_raised token named, lastPart_raised token.value rest]
      · rfl

@[simp] theorem readName_raised (tokens : List Token) :
    readName (tokens.map raised) = raisedName (readName tokens) := by
  cases tokens with
  | nil => rfl
  | cons token rest =>
      simp only [readName, List.map_cons, isIdentifier_raised]
      split_ifs with named
      · rw [value_raised token named, lastPart_raised]
        simp [raisedName, Identifier.clean_upper]
      · rfl

@[simp] theorem readFullName_raised (tokens : List Token) :
    readFullName (tokens.map raised) = raisedName (readFullName tokens) := by
  rw [readFullName, readName_raised, readFullName]
  obtain ⟨name, after⟩ := readName tokens
  cases name with
  | none => rfl
  | some name =>
      simp only [raisedName, Option.map_some, beq_iff_eq, Text.upper_eq_empty]
      split <;> rfl

theorem headName_raised (tokens : List Token) :
    headName? (tokens.map raised) = (headName? tokens).map Text.upper := by
  cases tokens with
  | nil => rfl
  | cons token rest =>
      simp only [headName?, List.map_cons, isIdentifier_raised]
      split_ifs with named
      · rw [clean_raised token named, Option.map_some]
      · rfl

@[simp] theorem readNames_raised (tokens : List Token) :
    readNames (tokens.map raised) =
      ((readNames tokens).1.map (List.map Text.upper), (readNames tokens).2.map raised) := by
  simp only [readNames, startsWith_raised, isOpen_raised, group_raised]
  split_ifs
  · cases group? tokens with
    | none => rfl
    | some group => simp [List.filterMap_map, List.map_filterMap, headName_raised]
  · rfl

theorem bracketLength_raised (tokens : List Token) :
    bracketLength (tokens.map raised) = bracketLength tokens := by
  cases tokens with
  | nil => rfl
  | cons first rest =>
      simp [bracketLength]

theorem isTimeZone_raised (tokens : List Token) :
    isTimeZone (tokens.map raised) = isTimeZone tokens := by
  rcases tokens with _ | ⟨time, _ | ⟨zone, rest⟩⟩
  · rfl
  · rfl
  · simp [isTimeZone]

theorem typeLength_raised (taken : Nat) (tokens : List Token) :
    typeLength taken (tokens.map raised) = typeLength taken tokens := by
  induction tokens generalizing taken with
  | nil => cases taken <;> rfl
  | cons token rest ih =>
      cases taken with
      | succ taken => exact congrArg (· + 1) (ih taken)
      | zero =>
          have modifier : token.raised.isModifier = token.isModifier := isOneOf_raised token _
          simp only [typeLength, List.map_cons, isOpen_raised, isPunct_raised, isOneOf_raised,
            startsWith_raised, isIdentifier_raised, groupFrom_raised,
            bracketLength_raised, isTimeZone_raised, modifier, ih]
          cases groupFrom 0 rest <;> simp

@[simp] theorem readType_raised (tokens : List Token) :
    readType (tokens.map raised) = Prod.map (List.map raised) (List.map raised) (readType tokens) := by
  cases tokens with
  | nil => rfl
  | cons token rest =>
      have begins : token.raised.beginsType = token.beginsType := by simp [beginsType]
      simp only [readType, List.map_cons, begins, typeLength_raised]
      split <;> simp

theorem needsSpace_raised (before after : Token) :
    needsSpace before.raised after.raised = needsSpace before after := by
  simp [needsSpace, isSolid]

theorem renderAfter_raised (before : Token) (tokens : List Token) :
    Text.upper (renderAfter before.raised (tokens.map raised)) =
      Text.upper (renderAfter before tokens) := by
  induction tokens generalizing before with
  | nil => rfl
  | cons token rest ih =>
      have value := upper_raised token
      simp only [upper] at value
      simp [renderAfter, needsSpace_raised, ih, value]

@[simp] theorem render_raised (tokens : List Token) :
    Text.upper (render (tokens.map raised)) = Text.upper (render tokens) := by
  cases tokens with
  | nil => rfl
  | cons token rest =>
      have value := upper_raised token
      simp only [upper] at value
      simp [render, renderAfter_raised, value]

end Token

def Target.upper (target : Target) : Target :=
  ⟨Text.upper target.table, target.columns.map Text.upper⟩

def ColumnDefinition.upper (column : ColumnDefinition) : ColumnDefinition :=
  { column with
    name := Text.upper column.name
    dataType := Text.upper column.dataType
    reference := column.reference.map Target.upper }

def Constraint.upper : Constraint → Constraint
  | .primaryKey columns name => .primaryKey (columns.map Text.upper) (name.map Text.upper)
  | .foreignKey columns target name =>
      .foreignKey (columns.map Text.upper) target.upper (name.map Text.upper)
  | .unique columns name => .unique (columns.map Text.upper) (name.map Text.upper)

def Ignored.upper (ignored : Ignored) : Ignored :=
  ⟨Text.upper ignored.text, Text.upper ignored.reason⟩

def Clause.upper : Clause → Clause
  | .column definition => .column definition.upper
  | .constraint rule => .constraint rule.upper
  | .ignored clause => .ignored clause.upper

def Action.upper : Action → Action
  | .add constraint => .add constraint.upper
  | .ignored action => .ignored action.upper

/-- A statement with every text of it in upper case. Its kind, its flags and the number of its parts
are what they were. -/
def Statement.upper : Statement → Statement
  | .createTable name clauses hasBody =>
      .createTable (Text.upper name) (clauses.map Clause.upper) hasBody
  | .alterTable table actions => .alterTable (Text.upper table) (actions.map Action.upper)
  | .ignored statement => .ignored statement.upper

@[simp] theorem Target.upper_upper (target : Target) : target.upper.upper = target.upper := by
  simp [Target.upper]

@[simp] theorem Constraint.upper_upper (constraint : Constraint) :
    constraint.upper.upper = constraint.upper := by
  cases constraint <;> simp [Constraint.upper, Function.comp_def]

theorem toClause_upper (action : Action) : action.toClause.upper = action.upper.toClause := by
  cases action <;> rfl

open Token

@[simp] theorem someNames_raised (tokens : List Token) :
    someNames (tokens.map raised) =
      (someNames tokens).map (Prod.map (List.map Text.upper) (List.map raised)) := by
  rw [someNames, skipToGroup_raised, readNames_raised, someNames]
  obtain ⟨names, after⟩ := readNames (skipToGroup tokens)
  rcases names with _ | ⟨_ | ⟨name, names⟩⟩ <;> rfl

@[simp] theorem readTarget_raised (tokens : List Token) :
    readTarget (tokens.map raised) =
      ((readTarget tokens).1.map Target.upper, (readTarget tokens).2.map raised) := by
  rw [readTarget, readFullName_raised, readTarget]
  obtain ⟨table, after⟩ := readFullName tokens
  cases table with
  | none => rfl
  | some table =>
      simp only [raisedName, Option.map_some, readNames_raised]
      obtain ⟨columns, rest⟩ := readNames after
      cases columns <;> rfl

theorem foreignKey_raised (name : Option String) (tokens : List Token) :
    foreignKey? (name.map Text.upper) (tokens.map raised) =
      (foreignKey? name tokens).map Constraint.upper := by
  simp only [foreignKey?, someNames_raised]
  cases someNames tokens with
  | none => rfl
  | some names =>
      obtain ⟨columns, after⟩ := names
      simp only [Option.map_some, Option.bind_eq_bind, Option.bind_some, Prod.map, takeWord_raised]
      cases takeWord? "REFERENCES" after with
      | none => rfl
      | some rest =>
          simp only [Option.map_some, Option.bind_some, readTarget_raised]
          cases (readTarget rest).1 <;> rfl

theorem constraintName_raised (tokens : List Token) :
    constraintName (tokens.map raised) = raisedName (constraintName tokens) := by
  simp only [constraintName, takeWord_raised]
  cases takeWord? "CONSTRAINT" tokens with
  | none => rfl
  | some rest =>
      simp only [Option.map_some, startsWith_raised, isOneOf_raised, readName_raised]
      split_ifs <;> rfl

theorem hasIndexColumns_raised (tokens : List Token) :
    hasIndexColumns (tokens.map raised) = hasIndexColumns tokens := by
  simp only [hasIndexColumns, skipToGroup_raised, group_raised]
  cases group? (skipToGroup tokens) with
  | none => rfl
  | some group => simp [List.all_map, Function.comp_def]

theorem isLikeClause_raised (tokens : List Token) :
    isLikeClause (tokens.map raised) = isLikeClause tokens := by
  simp only [isLikeClause, readFullName_raised]
  obtain ⟨name, after⟩ := readFullName tokens
  cases name with
  | none => rfl
  | some name => simp [raisedName]

theorem ignoredReason_raised (first : Token) (rest : List Token) :
    ignoredReason? first.raised (rest.map raised) = ignoredReason? first rest := by
  simp [ignoredReason?, hasIndexColumns_raised, isLikeClause_raised]

section Texts

-- The text that stands for what is left out is given in either case.
variable {text raisedText : String} (same : Text.upper raisedText = Text.upper text)

include same

theorem ignored_raised (reason : String) :
    (Ignored.mk raisedText reason).upper = (Ignored.mk text reason).upper := by
  rw [Ignored.upper, Ignored.upper, same]

theorem constraintAction_raised (name : Option String) (tokens : List Token) :
    (constraintAction (name.map Text.upper) raisedText (tokens.map raised)).upper =
      (constraintAction name text tokens).upper := by
  have left_out := fun reason => congrArg Action.ignored (ignored_raised same reason)
  simp only [constraintAction, takeWords_raised, takeWord_raised]
  cases takeWords? ["PRIMARY", "KEY"] tokens with
  | some rest =>
      simp only [Option.map_some, someNames_raised]
      cases someNames rest with
      | none => exact left_out _
      | some names => exact congrArg Action.add (Constraint.upper_upper (.primaryKey names.1 name))
  | none =>
      cases takeWords? ["FOREIGN", "KEY"] tokens with
      | some rest =>
          simp only [Option.map_some, Option.map_none, foreignKey_raised]
          cases foreignKey? name rest with
          | none => exact left_out _
          | some key => exact congrArg Action.add (Constraint.upper_upper key)
      | none =>
          cases takeWord? "UNIQUE" tokens with
          | none => exact left_out _
          | some rest =>
              simp only [Option.map_some, Option.map_none, startsWith_raised, isOneOf_raised,
                someNames_raised]
              split_ifs
              · exact left_out _
              · cases someNames rest with
                | none => exact left_out _
                | some names => exact congrArg Action.add (Constraint.upper_upper (.unique names.1 name))

end Texts

theorem action_raised (tokens : List Token) :
    (Action.ofTokens (tokens.map raised)).upper = (Action.ofTokens tokens).upper := by
  have text := render_raised tokens
  simp only [Action.ofTokens, takeWord_raised]
  cases takeWord? "ADD" tokens with
  | none => exact congrArg Action.ignored (ignored_raised text _)
  | some rest =>
      have starts : ∀ token : Token, isConstraintStart token.raised = isConstraintStart token :=
        fun token => isOneOf_raised token _
      simp only [Option.map_some, constraintName_raised, raisedName, startsWith_raised, starts]
      split_ifs
      · exact constraintAction_raised text _ _
      · exact congrArg Action.ignored (ignored_raised text _)

/-- The options of a column are those that they are in upper case, whatever of it is known already. -/
theorem columnOptions_raised (taken depth : Nat) (column raisedColumn : ColumnDefinition)
    (tokens : List Token) (same : raisedColumn.upper = column.upper) :
    (columnOptions taken depth raisedColumn (tokens.map raised)).upper =
      (columnOptions taken depth column tokens).upper := by
  induction tokens generalizing taken depth column raisedColumn with
  | nil => cases taken <;> exact same
  | cons token rest ih =>
      cases taken with
      | succ taken => exact ih taken depth column raisedColumn same
      | zero =>
          simp only [columnOptions, List.map_cons, isOpen_raised, isClose_raised, isWord_raised,
            startsWith_raised, readTarget_raised, List.length_map]
          split_ifs
          · exact ih 0 (depth + 1) column raisedColumn same
          · exact ih 0 (depth - 1) column raisedColumn same
          · exact ih 0 depth column raisedColumn same
          · exact ih 1 depth _ _
              (congrArg (fun upper : ColumnDefinition => { upper with primaryKey := true }) same)
          · exact ih 1 depth _ _
              (congrArg (fun upper : ColumnDefinition => { upper with notNull := true }) same)
          · exact ih 0 depth _ _
              (congrArg (fun upper : ColumnDefinition => { upper with unique := true }) same)
          · refine ih _ depth _ _ ?_
            cases (readTarget rest).1 with
            | none => exact same
            | some target =>
                have referring := congrArg
                  (fun upper : ColumnDefinition => { upper with reference := some target.upper }) same
                simpa [ColumnDefinition.upper] using referring
          · exact ih 0 depth column raisedColumn same

theorem columnClause_raised {text raisedText : String} (same : Text.upper raisedText = Text.upper text)
    (first : Token) (rest : List Token) :
    (columnClause raisedText first.raised (rest.map raised)).upper =
      (columnClause text first rest).upper := by
  cases named : first.isIdentifier with
  | false =>
      simp only [columnClause, isIdentifier_raised, named, Bool.not_false, if_true]
      exact congrArg Clause.ignored (ignored_raised same _)
  | true =>
      simp only [columnClause, isIdentifier_raised, named, Bool.not_true, Bool.false_eq_true, if_false,
        clean_raised first named, readType_raised, beq_iff_eq, Text.upper_eq_empty]
      split_ifs
      · exact congrArg Clause.ignored (ignored_raised same _)
      · refine congrArg Clause.column (columnOptions_raised 0 0 _ _ _ ?_)
        simp [ColumnDefinition.upper]

theorem clause_raised (tokens : List Token) :
    (Clause.ofTokens? (tokens.map raised)).map Clause.upper =
      (Clause.ofTokens? tokens).map Clause.upper := by
  cases tokens with
  | nil => rfl
  | cons first rest =>
      have text := render_raised (first :: rest)
      have starts : isConstraintStart first.raised = isConstraintStart first := isOneOf_raised first _
      have name := constraintName_raised (first :: rest)
      rw [List.map_cons] at text name
      simp only [List.map_cons, Clause.ofTokens?, isWord_raised, starts, name, raisedName,
        ignoredReason_raised]
      split_ifs
      · have read := constraintAction_raised text (constraintName (first :: rest)).1
          (constraintName (first :: rest)).2
        rw [Option.map_some, Option.map_some, toClause_upper, toClause_upper, read]
      · have read := constraintAction_raised text none (first :: rest)
        rw [Option.map_some, Option.map_some, toClause_upper, toClause_upper]
        exact congrArg (some ∘ Action.toClause) read
      · cases ignoredReason? first rest with
        | none => exact congrArg some (columnClause_raised text first rest)
        | some reason => exact congrArg (some ∘ Clause.ignored) (ignored_raised text reason)

section Statements

variable {text raisedText : String} (same : Text.upper raisedText = Text.upper text)

include same

theorem createFrom_raised (tokens : List Token) :
    (Statement.createFrom raisedText (tokens.map raised)).upper =
      (Statement.createFrom text tokens).upper := by
  simp only [Statement.createFrom, skipWords_raised, readFullName_raised]
  obtain ⟨name, after⟩ := readFullName (skipWords ["IF", "NOT", "EXISTS"] tokens)
  cases name with
  | none => exact congrArg Statement.ignored (ignored_raised same _)
  | some name =>
      simp only [raisedName, Option.map_some, group_raised]
      cases group? after with
      | none => simp [Statement.upper]
      | some group =>
          simp [Statement.upper, List.filterMap_map, List.map_filterMap, clause_raised]

theorem alterFrom_raised (tokens : List Token) :
    (Statement.alterFrom raisedText (tokens.map raised)).upper =
      (Statement.alterFrom text tokens).upper := by
  simp only [Statement.alterFrom, skipWords_raised, readFullName_raised]
  obtain ⟨table, after⟩ :=
    readFullName (skipWords ["ONLY"] (skipWords ["IF", "EXISTS"] (skipWords ["ONLY"] tokens)))
  cases table with
  | none => exact congrArg Statement.ignored (ignored_raised same _)
  | some table => simp [raisedName, Statement.upper, action_raised]

end Statements

def RawStatement.raised (statement : RawStatement) : RawStatement :=
  ⟨Text.upper statement.text, statement.tokens.map Token.raised⟩

/-- A statement that is put in upper case first is read as the same statement in upper case. -/
theorem ofRaw_raised (statement : RawStatement) :
    (Statement.ofRaw statement.raised).upper = (Statement.ofRaw statement).upper := by
  have text : Text.upper statement.raised.text = Text.upper statement.text :=
    Text.upper_upper statement.text
  have other := congrArg Statement.ignored (ignored_raised text Statement.otherReason)
  have prefixes : ∀ tokens : List Token, Statement.skipPrefixes (tokens.map raised) =
      (Statement.skipPrefixes tokens).map raised := by
    intro tokens
    simp [Statement.skipPrefixes, List.dropWhile_map, Function.comp_def]
  have tokens : statement.raised.tokens = statement.tokens.map raised := rfl
  simp only [Statement.ofRaw, tokens, takeWord_raised, takeWords_raised]
  cases takeWord? "CREATE" statement.tokens with
  | some rest =>
      simp only [Option.map_some, skipWords_raised, prefixes, takeWord_raised]
      cases takeWord? "TABLE" (Statement.skipPrefixes (skipWords ["OR", "REPLACE"] rest)) with
      | none => exact other
      | some tokens => exact createFrom_raised text tokens
  | none =>
      cases takeWords? ["ALTER", "TABLE"] statement.tokens with
      | none => exact other
      | some tokens => exact alterFrom_raised text tokens

/-- Two tokens that are alike but for letter case. -/
structure Token.Alike (first second : Token) : Prop where
  kind : first.kind = second.kind
  upper : first.upper = second.upper
  mark : first.kind = .punct → first.value = second.value

instance (first second : Token) : Decidable (Token.Alike first second) :=
  decidable_of_iff (first.kind = second.kind ∧ first.upper = second.upper ∧
      (first.kind = .punct → first.value = second.value))
    ⟨fun ⟨kind, upper, mark⟩ => ⟨kind, upper, mark⟩,
      fun alike => ⟨alike.kind, alike.upper, alike.mark⟩⟩

theorem Token.Alike.raised {first second : Token} (alike : Token.Alike first second) :
    first.raised = second.raised := by
  have kind := alike.kind
  by_cases mark : first.kind = .punct
  · simp [Token.raised, mark, ← kind, alike.mark mark]
  · simp [Token.raised, mark, ← kind, alike.upper]

theorem alike_raised {first second : List Token} (alike : List.Forall₂ Token.Alike first second) :
    first.map Token.raised = second.map Token.raised := by
  induction alike with
  | nil => rfl
  | cons alike _ ih => rw [List.map_cons, List.map_cons, alike.raised, ih]

/-- Letter case never changes the structure of what is read. Two statements that are alike but for
letter case are read as statements that are equal as soon as every text in them is in upper case. -/
theorem read_alike (first second : RawStatement)
    (text : Text.upper first.text = Text.upper second.text)
    (tokens : List.Forall₂ Token.Alike first.tokens second.tokens) :
    (Statement.ofRaw first).upper = (Statement.ofRaw second).upper := by
  have same : first.raised = second.raised := by
    rw [RawStatement.raised, RawStatement.raised, text, alike_raised tokens]
  rw [← ofRaw_raised first, same, ofRaw_raised]

/-- A sharp s is two letters in upper case, and a dotless i is the letter that stands in words. -/
theorem sharp_s_alike :
    let raw (text : String) : RawStatement := ⟨text, Token.tokenize text⟩
    let first := raw "alter table [\u00DF] add un\u0131que (a)"
    let second := raw "ALTER TABLE [SS] ADD UNIQUE (A)"
    Text.upper first.text = Text.upper second.text ∧
      List.Forall₂ Token.Alike first.tokens second.tokens ∧
      (Statement.ofRaw first).upper = (Statement.ofRaw second).upper ∧
      Statement.ofRaw second = .alterTable "SS" [.add (.unique ["A"] none)] := by
  intro raw first second
  have text : Text.upper first.text = Text.upper second.text := by decide +kernel
  have tokens : List.Forall₂ Token.Alike first.tokens second.tokens := by decide +kernel
  have read : Statement.ofRaw second = .alterTable "SS" [.add (.unique ["A"] none)] := by
    decide +kernel
  exact ⟨text, tokens, read_alike first second text tokens, read⟩

end TableScript
