import TableScript.Proofs.Reading.DataType

/-!
Clauses, actions and statements, read with a cursor. No reader ever comes to rely on a token that
is not there: each gives what its counterpart on lists of tokens is, for every list.
-/

namespace TableScript

namespace CursorReader

open Token

def someNames : CursorReader (Option (List String)) := do
  skipWhile isIdentifier
  match ← readNames with
  | some (name :: names) => return some (name :: names)
  | _ => return none

def foreignKey (name : Option String) : CursorReader (Option Constraint) := do
  match ← someNames with
  | none => return none
  | some columns =>
      if ← acceptWord ["REFERENCES"] then
        match ← readTarget with
        | some target => return some (.foreignKey columns target name)
        | none => return none
      else return none

def constraintAction (name : Option String) (text : String) : CursorReader Action := do
  if ← acceptSequence ["PRIMARY", "KEY"] then
    match ← someNames with
    | some columns => return .add (.primaryKey columns name)
    | none => return .ignored ⟨text, "PRIMARY KEY without a column list"⟩
  else if ← acceptSequence ["FOREIGN", "KEY"] then
    match ← foreignKey name with
    | some constraint => return .add constraint
    | none => return .ignored ⟨text, "incomplete FOREIGN KEY clause"⟩
  else if ← acceptWord ["UNIQUE"] then
    if ← isAhead 0 (·.isOneOf ["KEY", "INDEX"]) then return .ignored ⟨text, "unique index"⟩
    else
      match ← someNames with
      | some columns => return .add (.unique columns name)
      | none => return .ignored ⟨text, "UNIQUE without a column list"⟩
  else return .ignored ⟨text, "unsupported constraint"⟩

def constraintName : CursorReader (Option String) := do
  if ← acceptWord ["CONSTRAINT"] then
    if ← isAhead 0 (·.isOneOf ["PRIMARY", "FOREIGN", "UNIQUE", "CHECK"]) then return none
    else readName
  else return none

theorem gives_someNames (tokens : List Token) :
    Gives someNames tokens ((TableScript.someNames tokens).map (·.1))
      (Token.readNames (Token.skipToGroup tokens)).2 := by
  refine gives_bind (gives_skipWhile isIdentifier tokens) (gives_bind (gives_readNames _) ?_)
  simp only [TableScript.someNames, Token.skipToGroup]
  cases Token.readNames (tokens.dropWhile isIdentifier) with
  | mk found after =>
      match found with
      | none => exact gives_pure _ _
      | some [] => exact gives_pure _ _
      | some (_ :: _) => exact gives_pure _ _

theorem someNames_after (tokens after : List Token) (columns : List String)
    (found : TableScript.someNames tokens = some (columns, after)) :
    (Token.readNames (Token.skipToGroup tokens)).2 = after := by
  rw [TableScript.someNames] at found
  split at found
  case h_1 same =>
    cases found
    rw [same]
  case h_2 => cases found

theorem yields_foreignKey (name : Option String) (tokens : List Token) :
    Yields (foreignKey name) tokens (foreignKey? name tokens) := by
  refine yields_bind (gives_someNames tokens) ?_
  rw [foreignKey?]
  cases found : TableScript.someNames tokens with
  | none => exact (gives_pure _ _).yields
  | some names =>
      obtain ⟨columns, after⟩ := names
      rw [someNames_after tokens after columns found]
      refine yields_bind (gives_acceptOne "REFERENCES" after) ?_
      simp only [Option.bind_eq_bind, Option.bind_some]
      cases takeWord? "REFERENCES" after with
      | none => exact (gives_pure _ _).yields
      | some rest =>
          refine yields_bind (gives_readTarget rest) ?_
          simp only [Option.bind_some]
          cases (TableScript.readTarget rest).1 with
          | none => exact (gives_pure _ _).yields
          | some target => exact (gives_pure _ _).yields

theorem yields_constraintAction (name : Option String) (text : String) (tokens : List Token) :
    Yields (constraintAction name text) tokens (TableScript.constraintAction name text tokens) := by
  refine yields_bind (gives_acceptSequence ["PRIMARY", "KEY"] tokens) ?_
  rw [TableScript.constraintAction, skipWords]
  cases takeWords? ["PRIMARY", "KEY"] tokens with
  | some rest =>
      refine yields_bind (gives_someNames rest) ?_
      dsimp only
      cases TableScript.someNames rest with
      | none => exact (gives_pure _ _).yields
      | some names => exact (gives_pure _ _).yields
  | none =>
      refine yields_bind (gives_acceptSequence ["FOREIGN", "KEY"] tokens) ?_
      rw [skipWords]
      cases takeWords? ["FOREIGN", "KEY"] tokens with
      | some rest =>
          have key := yields_foreignKey name rest
          dsimp only
          cases found : foreignKey? name rest with
          | none => exact yields_then (found ▸ key) rfl
          | some constraint => exact yields_then (found ▸ key) rfl
      | none =>
          refine yields_bind (gives_acceptOne "UNIQUE" tokens) ?_
          cases takeWord? "UNIQUE" tokens with
          | some rest =>
              refine yields_bind (gives_isNext (·.isOneOf ["KEY", "INDEX"]) rest) ?_
              by_cases index : startsWith (·.isOneOf ["KEY", "INDEX"]) rest = true
              · simp only [index, if_true]
                exact (gives_pure _ _).yields
              · simp only [index]
                refine yields_bind (gives_someNames rest) ?_
                cases TableScript.someNames rest with
                | none => exact (gives_pure _ _).yields
                | some names => exact (gives_pure _ _).yields
          | none => exact (gives_pure _ _).yields

theorem gives_constraintName (tokens : List Token) :
    Gives constraintName tokens (TableScript.constraintName tokens).1
      (TableScript.constraintName tokens).2 := by
  refine gives_bind (gives_acceptOne "CONSTRAINT" tokens) ?_
  rw [TableScript.constraintName]
  cases takeWord? "CONSTRAINT" tokens with
  | none => exact gives_pure _ _
  | some rest =>
      refine gives_bind (gives_isNext (·.isOneOf ["PRIMARY", "FOREIGN", "UNIQUE", "CHECK"]) rest) ?_
      by_cases named : startsWith (·.isOneOf ["PRIMARY", "FOREIGN", "UNIQUE", "CHECK"]) rest = true
      · simp only [named, if_true]
        exact gives_pure _ _
      · simp only [named]
        exact gives_readName rest

def readAction (text : String) : CursorReader Action := do
  if ← acceptWord ["ADD"] then
    let name ← constraintName
    if ← isAhead 0 isConstraintStart then constraintAction name text
    else return .ignored ⟨text, "unsupported ALTER TABLE ADD action"⟩
  else return .ignored ⟨text, "unsupported ALTER TABLE action"⟩

theorem yields_readAction (tokens : List Token) :
    Yields (readAction (render tokens)) tokens (Action.ofTokens tokens) := by
  refine yields_bind (gives_acceptOne "ADD" tokens) ?_
  rw [Action.ofTokens]
  cases takeWord? "ADD" tokens with
  | none => exact (gives_pure _ _).yields
  | some rest =>
      refine yields_bind (gives_constraintName rest) (yields_bind (gives_isNext isConstraintStart _) ?_)
      by_cases starts : startsWith isConstraintStart (TableScript.constraintName rest).2 = true
      · simp only [starts, if_true]
        exact yields_constraintAction _ _ _
      · simp only [starts]
        exact (gives_pure _ _).yields

/-- Whether each part begins with a name. Each of them is taken to have a first token. -/
def allNamed : List (List Token) → CursorReader Bool
  | [] => return true
  | part :: parts => do
      let first ← need part.head?
      if first.isIdentifier then allNamed parts else return false

def hasIndexColumns : CursorReader Bool := do
  skipWhile isIdentifier
  if ← isAhead 0 isOpen then
    match ← readGroup with
    | none => return false
    | some inside => if inside.isEmpty then return false else allNamed (splitTopLevel "," inside)
  else return false

def isLikeClause : CursorReader Bool := do
  match ← readFullName with
  | none => return false
  | some _ =>
      if ← atEnd then return true
      else
        let token ← peek 0 >>= need
        return token.isOneOf ["INCLUDING", "EXCLUDING"]

/-- Why a clause is left out, if it is. It is taken to have a first token. -/
def ignoredReason (tokens : List Token) : Option (Option String) := do
  let first ← tokens.head?
  let rest := tokens.drop 1
  if first.kind != .word then return none
  else if first.isOneOf Keyword.indexClause then
    return if ← hasIndexColumns.run rest then some "index clause" else none
  else if first.isWord "CHECK" then
    return if startsWith isOpen rest then some "check clause" else none
  else if first.isWord "EXCLUDE" then
    return if startsWith (fun token => token.isOpen || token.isWord "USING") rest then
      some "exclusion constraint" else none
  else if first.isWord "PERIOD" then
    return if startsWith (·.isWord "FOR") rest then some "period clause" else none
  else if first.isWord "LIKE" then
    return if ← isLikeClause.run rest then some "LIKE clause" else none
  else return none

theorem gives_allNamed (parts : List (List Token)) (occupied : ∀ part ∈ parts, part ≠ [])
    (tokens : List Token) : Gives (allNamed parts) tokens (parts.all (startsWith isIdentifier)) tokens := by
  induction parts with
  | nil => exact gives_pure _ _
  | cons part parts ih =>
      obtain ⟨head, others⟩ := List.forall_mem_cons.mp occupied
      cases part with
      | nil => exact absurd rfl head
      | cons first rest =>
          refine gives_bind (gives_need first tokens) ?_
          by_cases named : first.isIdentifier = true
          · simpa [named, startsWith] using ih others
          · simpa [named, startsWith] using gives_pure false tokens

theorem yields_hasIndexColumns (tokens : List Token) :
    Yields hasIndexColumns tokens (TableScript.hasIndexColumns tokens) := by
  refine yields_bind (gives_skipWhile isIdentifier tokens) (yields_bind (gives_isNext isOpen _) ?_)
  rw [TableScript.hasIndexColumns, Token.skipToGroup]
  cases tokens.dropWhile isIdentifier with
  | nil => exact (gives_pure _ _).yields
  | cons token rest =>
      by_cases opens : token.isOpen = true
      · have starts : startsWith isOpen (token :: rest) = true := opens
        rw [starts, if_pos rfl]
        refine yields_bind (gives_readGroup _ starts) ?_
        cases group? (token :: rest) with
        | none => exact (gives_pure _ _).yields
        | some found =>
            obtain ⟨inside, after⟩ := found
            cases inside with
            | nil => exact (gives_pure _ _).yields
            | cons first more =>
                exact (gives_allNamed _ (split_occupied "," (first :: more)) after).yields
      · have other : startsWith isOpen (token :: rest) = false := Bool.not_eq_true _ |>.mp opens
        simp only [other, group?, opens]
        exact (gives_pure _ _).yields

theorem yields_isLikeClause (tokens : List Token) :
    Yields isLikeClause tokens (TableScript.isLikeClause tokens) := by
  refine yields_bind (gives_readFullName tokens) ?_
  rw [TableScript.isLikeClause]
  cases Token.readFullName tokens with
  | mk name after =>
      cases name with
      | none => exact (gives_pure _ _).yields
      | some name =>
          refine yields_bind (gives_atEnd after) ?_
          cases after with
          | nil => exact (gives_pure _ _).yields
          | cons token rest =>
              exact yields_bind (gives_bind (gives_peek 0 _) (gives_need token _)) (gives_pure _ _).yields

theorem ignoredReason_eq (first : Token) (rest : List Token) :
    ignoredReason (first :: rest) = some (ignoredReason? first rest) := by
  have index := (yields_hasIndexColumns rest).run
  have like := (yields_isLikeClause rest).run
  simp only [ignoredReason, ignoredReason?, List.head?_cons, List.drop_succ_cons, List.drop_zero,
    index, like, Option.bind_eq_bind, Option.bind_some, Option.pure_def, apply_ite some]

-- The marks of a column that are a single word.
def readMark (column : ColumnDefinition) (token : Token) : CursorReader ColumnDefinition := do
  if token.isWord "UNIQUE" then return { column with unique := true }
  else if token.isWord "REFERENCES" then
    match ← readTarget with
    | some target => return { column with reference := some target }
    | none => return column
  else return column

-- The marks of a column, those of two words first.
def readMarks (column : ColumnDefinition) (token : Token) : CursorReader ColumnDefinition := do
  if token.isWord "PRIMARY" && (← isAhead 0 (·.isWord "KEY")) then
    let _ ← next
    return { column with primaryKey := true }
  else if token.isWord "NOT" && (← isAhead 0 (·.isWord "NULL")) then
    let _ ← next
    return { column with notNull := true }
  else readMark column token

/-- What a token behind a data type adds to a column; `depth` groups are open. -/
def readOption (depth : Nat) (column : ColumnDefinition) (token : Token) :
    CursorReader (Nat × ColumnDefinition) := do
  if token.isOpen then return (depth + 1, column)
  else if token.isClose then return (depth - 1, column)
  else if depth != 0 then return (depth, column)
  else return (0, ← readMarks column token)

def optionStep : Nat × ColumnDefinition → CursorReader ((Nat × ColumnDefinition) ⊕ ColumnDefinition)
  | (depth, column) => do
      if ← atEnd then return .inr column
      else
        let token ← next >>= need
        return .inl (← readOption depth column token)

/-- A column, which is taken to have a first token. -/
def readColumn (text : String) : CursorReader Clause := do
  let first ← next >>= need
  if first.isIdentifier then
    let name := Identifier.clean first.value
    if name == "" then return .ignored ⟨text, "empty column name"⟩
    else
      let dataType ← readType
      let column ← loop optionStep (0, ⟨name, render dataType, false, false, false, none⟩)
      return .column column
  else return .ignored ⟨text, "clause does not start with a column name"⟩

theorem columnOptions_taken (taken rest : List Token) (depth : Nat) (column : ColumnDefinition) :
    columnOptions taken.length depth column (taken ++ rest) = columnOptions 0 depth column rest := by
  induction taken with
  | nil => rfl
  | cons token taken ih => exact ih

/-- The options of a column behind those that a token makes. -/
def Adds (column : ColumnDefinition) (token : Token) (rest : List Token) (added : ColumnDefinition)
    (after : List Token) : Prop :=
  columnOptions 0 0 column (token :: rest) = columnOptions 0 0 added after

theorem gives_readMark (token : Token) (rest : List Token) (column : ColumnDefinition)
    (unopened : ¬ token.isOpen = true) (unclosed : ¬ token.isClose = true)
    (unkeyed : ¬ (token.isWord "PRIMARY" && startsWith (·.isWord "KEY") rest) = true)
    (unset : ¬ (token.isWord "NOT" && startsWith (·.isWord "NULL") rest) = true) :
    ∃ added after, Gives (readMark column token) rest added after ∧
      Adds column token rest added after := by
  by_cases unique : token.isWord "UNIQUE" = true
  · refine ⟨{ column with unique := true }, rest, ?_, ?_⟩
    · simp only [readMark, unique, if_true]
      exact gives_pure _ _
    · simp only [Adds, columnOptions, unopened, unclosed, unkeyed, unset, unique]
      rfl
  by_cases points : token.isWord "REFERENCES" = true
  · have target := gives_readTarget rest
    obtain ⟨read, split⟩ := target.suffix
    have skipped : ∀ other, columnOptions (rest.length - (TableScript.readTarget rest).2.length) 0
        other rest = columnOptions 0 0 other (TableScript.readTarget rest).2 := by
      intro other
      have count : rest.length - (TableScript.readTarget rest).2.length = read.length := by
        rw [← congrArg List.length split, List.length_append, Nat.add_sub_cancel]
      rw [count, ← columnOptions_taken read, split]
    refine ⟨match (TableScript.readTarget rest).1 with
      | some target => { column with reference := some target }
      | none => column, (TableScript.readTarget rest).2, ?_, ?_⟩
    · simp only [readMark, unique, points, if_true]
      refine gives_bind target ?_
      cases (TableScript.readTarget rest).1 with
      | none => exact gives_pure _ _
      | some target => exact gives_pure _ _
    · rw [Adds, ← skipped]
      simp only [columnOptions, unopened, unclosed, unkeyed, unset, unique, points]
      rfl
  · refine ⟨column, rest, ?_, ?_⟩
    · simp only [readMark, unique, points]
      exact gives_pure _ _
    · simp only [Adds, columnOptions, unopened, unclosed, unkeyed, unset, unique, points]
      rfl

theorem gives_readMarks (token : Token) (rest : List Token) (column : ColumnDefinition)
    (unopened : ¬ token.isOpen = true) (unclosed : ¬ token.isClose = true) :
    ∃ added after, Gives (readMarks column token) rest added after ∧
      Adds column token rest added after := by
  have keyAhead := gives_isNext (·.isWord "KEY") rest
  have nullAhead := gives_isNext (·.isWord "NULL") rest
  by_cases key : (token.isWord "PRIMARY" && startsWith (·.isWord "KEY") rest) = true
  · cases rest with
    | nil => simp [startsWith] at key
    | cons word after =>
        refine ⟨{ column with primaryKey := true }, after, gives_bind keyAhead ?_, ?_⟩
        · simp only [key, if_true]
          exact gives_bind (gives_next word after) (gives_pure _ _)
        · simp only [Adds, columnOptions, unopened, unclosed, key]
          rfl
  by_cases null : (token.isWord "NOT" && startsWith (·.isWord "NULL") rest) = true
  · cases rest with
    | nil => simp [startsWith] at null
    | cons word after =>
        refine ⟨{ column with notNull := true }, after, gives_bind keyAhead ?_, ?_⟩
        · simp only [key]
          refine gives_bind nullAhead ?_
          simp only [null, if_true]
          exact gives_bind (gives_next word after) (gives_pure _ _)
        · simp only [Adds, columnOptions, unopened, unclosed, key, null]
          rfl
  obtain ⟨added, after, mark, adds⟩ := gives_readMark token rest column unopened unclosed key null
  refine ⟨added, after, gives_bind keyAhead ?_, adds⟩
  simp only [key]
  refine gives_bind nullAhead ?_
  simp only [null]
  exact mark

/-- A token and what belongs to it are read in one round. -/
theorem gives_readOption (token : Token) (rest : List Token) (depth : Nat)
    (column : ColumnDefinition) :
    ∃ state after, Gives (readOption depth column token) rest state after ∧
      columnOptions 0 depth column (token :: rest) = columnOptions 0 state.1 state.2 after := by
  by_cases opens : token.isOpen = true
  · refine ⟨(depth + 1, column), rest, ?_, by simp [columnOptions, opens]⟩
    simp only [readOption, opens, if_true]
    exact gives_pure _ _
  by_cases closes : token.isClose = true
  · refine ⟨(depth - 1, column), rest, ?_, by simp [columnOptions, opens, closes]⟩
    simp only [readOption, opens, closes, if_true]
    exact gives_pure _ _
  cases depth with
  | succ depth =>
      refine ⟨(depth + 1, column), rest, ?_, by simp [columnOptions, opens, closes]⟩
      simp only [readOption, opens, closes]
      exact gives_pure _ _
  | zero =>
      obtain ⟨added, after, marks, adds⟩ := gives_readMarks token rest column opens closes
      refine ⟨(0, added), after, ?_, adds⟩
      simp only [readOption, opens, closes]
      exact gives_bind marks (gives_pure _ _)

theorem gives_optionLoop (tokens : List Token) (depth : Nat) (column : ColumnDefinition) :
    Gives (loop optionStep (depth, column)) tokens (columnOptions 0 depth column tokens) [] := by
  induction count : tokens.length using Nat.strongRecOn generalizing tokens depth column with
  | ind count ih =>
      cases tokens with
      | nil => exact gives_done (gives_bind (gives_atEnd []) (gives_pure _ _))
      | cons token rest =>
          obtain ⟨state, after, option, same⟩ := gives_readOption token rest depth column
          have shorter : after.length < (token :: rest).length :=
            Nat.lt_succ_of_le option.suffix.length_le
          rw [same]
          exact gives_again (gives_bind (gives_atEnd _) (gives_bind (gives_needed token rest)
            (gives_bind option (gives_pure _ _)))) shorter
            (ih after.length (count ▸ shorter) after state.1 state.2 rfl)

theorem yields_readColumn (text : String) (first : Token) (rest : List Token) :
    Yields (readColumn text) (first :: rest) (columnClause text first rest) := by
  refine yields_bind (gives_needed first rest) ?_
  rw [columnClause]
  by_cases named : first.isIdentifier = true
  · by_cases empty : (Identifier.clean first.value == "") = true
    · simp only [named, empty, if_true]
      exact (gives_pure _ _).yields
    · simp only [named, empty, if_true]
      exact yields_bind (gives_readType rest) (yields_bind (gives_optionLoop _ _ _) (gives_pure _ _).yields)
  · simp only [named]
    exact (gives_pure _ _).yields

/-- A clause, which is taken to have a first token. -/
def readClause (tokens : List Token) : CursorReader Clause := do
  let text := render tokens
  let first ← peek 0 >>= need
  if first.isWord "CONSTRAINT" then
    let name ← constraintName
    return (← constraintAction name text).toClause
  else if isConstraintStart first then return (← constraintAction none text).toClause
  else
    match ← need (ignoredReason tokens) with
    | some reason => return .ignored ⟨text, reason⟩
    | none => readColumn text

/-- Tokens, if there are any, are always read as some clause. -/
theorem yields_readClause (tokens : List Token) (occupied : tokens ≠ []) :
    ∃ clause, Clause.ofTokens? tokens = some clause ∧ Yields (readClause tokens) tokens clause := by
  cases tokens with
  | nil => exact absurd rfl occupied
  | cons first rest =>
      have peeked : ∀ {follow : Token → CursorReader Clause} {clause},
          Yields (follow first) (first :: rest) clause →
          Yields (peek 0 >>= need >>= follow) (first :: rest) clause := fun yields =>
        yields_bind (gives_bind (gives_peek 0 (first :: rest)) (gives_need first _)) yields
      by_cases named : first.isWord "CONSTRAINT" = true
      · refine ⟨_, by simp only [Clause.ofTokens?, named, if_true]; rfl, peeked ?_⟩
        simp only [named, if_true]
        exact yields_bind (gives_constraintName _) (yields_then (yields_constraintAction _ _ _) rfl)
      by_cases starts : isConstraintStart first = true
      · refine ⟨_, by simp only [Clause.ofTokens?, named, starts, if_true]; rfl, peeked ?_⟩
        simp only [named, starts, if_true]
        exact yields_then (yields_constraintAction _ _ _) rfl
      have reason := ignoredReason_eq first rest
      cases ignored : ignoredReason? first rest with
      | some reason' =>
          rw [ignored] at reason
          refine ⟨.ignored ⟨render (first :: rest), reason'⟩,
            by simp only [Clause.ofTokens?, named, starts, ignored]; rfl, peeked ?_⟩
          simp only [named, starts, reason]
          exact yields_bind (gives_need (some reason') _) (gives_pure _ _).yields
      | none =>
          rw [ignored] at reason
          refine ⟨columnClause (render (first :: rest)) first rest,
            by simp only [Clause.ofTokens?, named, starts, ignored]; rfl, peeked ?_⟩
          simp only [named, starts, reason]
          exact yields_bind (gives_need (none : Option String) _) (yields_readColumn _ first rest)

def rest : CursorReader (List Token) :=
  fun cursor => some (cursor.ahead, ⟨cursor.ahead.reverse ++ cursor.behind, []⟩)

def readCreate (text : String) : CursorReader Statement := do
  let _ ← acceptSequence ["IF", "NOT", "EXISTS"]
  match ← readFullName with
  | none => return .ignored ⟨text, "CREATE TABLE without a table name"⟩
  | some name =>
      if ← isAhead 0 isOpen then
        match ← readGroup with
        | none => return .createTable name [] false
        | some body =>
            let clauses ← need
              ((splitTopLevel "," body).mapM fun part => (readClause part).run part)
            return .createTable name clauses true
      else return .createTable name [] false

def readAlter (text : String) : CursorReader Statement := do
  let _ ← acceptWord ["ONLY"]
  let _ ← acceptSequence ["IF", "EXISTS"]
  let _ ← acceptWord ["ONLY"]
  match ← readFullName with
  | none => return .ignored ⟨text, "ALTER TABLE without a table name"⟩
  | some table =>
      let actions ← need
        ((splitTopLevel "," (← rest)).mapM fun part => (readAction (render part)).run part)
      return .alterTable table actions

def readStatement (text : String) : CursorReader Statement := do
  let other := Statement.ignored ⟨text, Statement.otherReason⟩
  if ← acceptWord ["CREATE"] then
    let _ ← acceptSequence ["OR", "REPLACE"]
    skipWhile (·.isOneOf Keyword.tablePrefixes)
    if ← acceptWord ["TABLE"] then readCreate text else return other
  else if ← acceptSequence ["ALTER", "TABLE"] then readAlter text
  else return other

theorem clauses_read (parts : List (List Token)) (occupied : ∀ part ∈ parts, part ≠ []) :
    (parts.mapM fun part => (readClause part).run part) = some (parts.filterMap Clause.ofTokens?) := by
  induction parts with
  | nil => rfl
  | cons part parts ih =>
      obtain ⟨head, others⟩ := List.forall_mem_cons.mp occupied
      obtain ⟨clause, made, yields⟩ := yields_readClause part head
      rw [List.mapM_cons, yields.run, ih others, List.filterMap_cons, made]
      rfl

theorem actions_read (parts : List (List Token)) :
    (parts.mapM fun part => (readAction (render part)).run part) = some (parts.map Action.ofTokens) := by
  induction parts with
  | nil => rfl
  | cons part parts ih =>
      rw [List.mapM_cons, (yields_readAction part).run, ih]
      rfl

theorem yields_readCreate (text : String) (tokens : List Token) :
    Yields (readCreate text) tokens (Statement.createFrom text tokens) := by
  refine yields_bind (gives_acceptSequence ["IF", "NOT", "EXISTS"] tokens)
    (yields_bind (gives_readFullName _) ?_)
  rw [Statement.createFrom]
  cases Token.readFullName (skipWords ["IF", "NOT", "EXISTS"] tokens) with
  | mk found after =>
      cases found with
      | none => exact (gives_pure _ _).yields
      | some name =>
          refine yields_bind (gives_isNext isOpen after) ?_
          by_cases opens : startsWith isOpen after = true
          · simp only [opens, if_true]
            refine yields_bind (gives_readGroup after opens) ?_
            cases group? after with
            | none => exact (gives_pure _ _).yields
            | some group =>
                have clauses := clauses_read _ (split_occupied "," group.1)
                simp only [Option.map_some, clauses]
                exact yields_bind (gives_need _ _) (gives_pure _ _).yields
          · have absent : group? after = none := by
              cases after with
              | nil => rfl
              | cons token rest => exact if_neg opens
            simp only [opens, absent]
            exact (gives_pure _ _).yields

theorem skipWords_one (word : String) (tokens : List Token) :
    skipWords [word] tokens = (takeWord? word tokens).getD tokens := by
  rw [skipWords, takeWords?]
  cases takeWord? word tokens <;> rfl

theorem gives_rest (tokens : List Token) : Gives rest tokens tokens [] :=
  fun _ => ⟨tokens, by simp, rfl⟩

theorem yields_readAlter (text : String) (tokens : List Token) :
    Yields (readAlter text) tokens (Statement.alterFrom text tokens) := by
  refine yields_bind (gives_acceptOne "ONLY" tokens) (yields_bind (gives_acceptSequence ["IF", "EXISTS"] _)
    (yields_bind (gives_acceptOne "ONLY" _) (yields_bind (gives_readFullName _) ?_)))
  rw [Statement.alterFrom]
  simp only [skipWords_one]
  cases Token.readFullName _ with
  | mk found after =>
      cases found with
      | none => exact (gives_pure _ _).yields
      | some name =>
          refine yields_bind (gives_rest after) ?_
          rw [actions_read]
          exact yields_bind (gives_need _ _) (gives_pure _ _).yields

theorem yields_readStatement (raw : RawStatement) :
    Yields (readStatement raw.text) raw.tokens (Statement.ofRaw raw) := by
  refine yields_bind (gives_acceptOne "CREATE" raw.tokens) ?_
  rw [Statement.ofRaw]
  cases takeWord? "CREATE" raw.tokens with
  | some rest =>
      refine yields_bind (gives_acceptSequence ["OR", "REPLACE"] rest)
        (yields_bind (gives_skipWhile (·.isOneOf Keyword.tablePrefixes) _)
          (yields_bind (gives_acceptOne "TABLE" _) ?_))
      dsimp only [Statement.skipPrefixes]
      cases takeWord? "TABLE" _ with
      | some tokens => exact yields_readCreate raw.text tokens
      | none => exact (gives_pure _ _).yields
  | none =>
      refine yields_bind (gives_acceptSequence ["ALTER", "TABLE"] raw.tokens) ?_
      dsimp only
      rw [skipWords]
      cases takeWords? ["ALTER", "TABLE"] raw.tokens with
      | some tokens => exact yields_readAlter raw.text tokens
      | none => exact (gives_pure _ _).yields

end CursorReader

end TableScript
