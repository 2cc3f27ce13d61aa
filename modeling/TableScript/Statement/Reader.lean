import TableScript.Statement.Basic
import TableScript.Statement.ColumnType
import TableScript.Script

/-!
Reading statements.

    statement  := createTable | alterTable | anything else, which is left out
    createTable:= CREATE [OR REPLACE] [TEMPORARY ...] TABLE [IF NOT EXISTS] name
                  [ '(' clause {',' clause} ')' ] [options]
    alterTable := ALTER TABLE [ONLY] [IF EXISTS] [ONLY] name action {',' action}
    action     := ADD [CONSTRAINT name] constraint
    clause     := [CONSTRAINT name] constraint | indexClause | columnDefinition
    constraint := PRIMARY KEY (names) | FOREIGN KEY (names) REFERENCES name [(names)]
                | UNIQUE (names)
    columnDefinition := name [type] {option}
-/

namespace TableScript

open Token

-- The names at the front, unless there are none.
def someNames (tokens : List Token) : Option (List String × List Token) :=
  match readNames (skipToGroup tokens) with
  | (some (name :: names), after) => some (name :: names, after)
  | _ => none

def readTarget (tokens : List Token) : Option Target × List Token :=
  match readFullName tokens with
  | (none, after) => (none, after)
  | (some table, after) =>
      let (columns, rest) := readNames after
      (some ⟨table, columns.getD []⟩, rest)

def foreignKey? (name : Option String) (tokens : List Token) : Option Constraint := do
  let (columns, after) ← someNames tokens
  let target ← takeWord? "REFERENCES" after
  let target ← (readTarget target).1
  some (.foreignKey columns target name)

/-- The constraint at the front of a list of tokens; `text` stands for it where it is left out. -/
def constraintAction (name : Option String) (text : String) (tokens : List Token) : Action :=
  let ignored := fun reason => Action.ignored ⟨text, reason⟩
  match takeWords? ["PRIMARY", "KEY"] tokens with
  | some rest =>
      match someNames rest with
      | some (columns, _) => .add (.primaryKey columns name)
      | none => ignored "PRIMARY KEY without a column list"
  | none =>
      match takeWords? ["FOREIGN", "KEY"] tokens with
      | some rest =>
          match foreignKey? name rest with
          | some constraint => .add constraint
          | none => ignored "incomplete FOREIGN KEY clause"
      | none =>
          match takeWord? "UNIQUE" tokens with
          | some rest =>
              if startsWith (·.isOneOf ["KEY", "INDEX"]) rest then ignored "unique index"
              else
                match someNames rest with
                | some (columns, _) => .add (.unique columns name)
                | none => ignored "UNIQUE without a column list"
          | none => ignored "unsupported constraint"

def isConstraintStart (token : Token) : Bool :=
  token.isOneOf ["PRIMARY", "FOREIGN", "UNIQUE"]

-- The name of a constraint behind the word CONSTRAINT; it may be left out.
def constraintName (tokens : List Token) : Option String × List Token :=
  match takeWord? "CONSTRAINT" tokens with
  | none => (none, tokens)
  | some rest =>
      if startsWith (·.isOneOf ["PRIMARY", "FOREIGN", "UNIQUE", "CHECK"]) rest then (none, rest)
      else readName rest

namespace Action

def ofTokens (tokens : List Token) : Action :=
  let text := render tokens
  match takeWord? "ADD" tokens with
  | none => .ignored ⟨text, "unsupported ALTER TABLE action"⟩
  | some rest =>
      let (name, rest) := constraintName rest
      if startsWith isConstraintStart rest then constraintAction name text rest
      else .ignored ⟨text, "unsupported ALTER TABLE ADD action"⟩

end Action

-- A list of columns in parentheses, perhaps behind a name and a method.
def hasIndexColumns (tokens : List Token) : Bool :=
  match group? (skipToGroup tokens) with
  | none => false
  | some (inside, _) =>
      !inside.isEmpty && (splitTopLevel "," inside).all (startsWith isIdentifier)

def isLikeClause (tokens : List Token) : Bool :=
  match readFullName tokens with
  | (none, _) => false
  | (some _, after) => after.isEmpty || startsWith (·.isOneOf ["INCLUDING", "EXCLUDING"]) after

/-- Why a clause with this first token is left out, if it is. Such clauses are known by their
shape and not by their first word alone, so a column may have that word as its name. -/
def ignoredReason? (first : Token) (rest : List Token) : Option String :=
  if first.kind != .word then none
  else if first.isOneOf Keyword.indexClause then
    if hasIndexColumns rest then some "index clause" else none
  else if first.isWord "CHECK" then
    if startsWith isOpen rest then some "check clause" else none
  else if first.isWord "EXCLUDE" then
    if startsWith (fun token => token.isOpen || token.isWord "USING") rest then
      some "exclusion constraint"
    else none
  else if first.isWord "PERIOD" then
    if startsWith (·.isWord "FOR") rest then some "period clause" else none
  else if first.isWord "LIKE" then
    if isLikeClause rest then some "LIKE clause" else none
  else none

/-- What the tokens behind a data type add to a column. The first `taken` tokens are already
read; inside of `depth` parentheses nothing counts. -/
def columnOptions : Nat → Nat → ColumnDefinition → List Token → ColumnDefinition
  | _, _, column, [] => column
  | taken + 1, depth, column, _ :: rest => columnOptions taken depth column rest
  | 0, depth, column, token :: rest =>
      if token.isOpen then columnOptions 0 (depth + 1) column rest
      else if token.isClose then columnOptions 0 (depth - 1) column rest
      else if depth != 0 then columnOptions 0 depth column rest
      else if token.isWord "PRIMARY" && startsWith (·.isWord "KEY") rest then
        columnOptions 1 depth { column with primaryKey := true } rest
      else if token.isWord "NOT" && startsWith (·.isWord "NULL") rest then
        columnOptions 1 depth { column with notNull := true } rest
      else if token.isWord "UNIQUE" then
        columnOptions 0 depth { column with unique := true } rest
      else if token.isWord "REFERENCES" then
        let (target, after) := readTarget rest
        let column := match target with
          | some target => { column with reference := some target }
          | none => column
        columnOptions (rest.length - after.length) depth column rest
      else columnOptions 0 depth column rest

def columnClause (text : String) (first : Token) (rest : List Token) : Clause :=
  if !first.isIdentifier then .ignored ⟨text, "clause does not start with a column name"⟩
  else
    let name := Identifier.clean first.value
    if name == "" then .ignored ⟨text, "empty column name"⟩
    else
      let (dataType, options) := readType rest
      .column (columnOptions 0 0 ⟨name, render dataType, false, false, false, none⟩ options)

namespace Clause

/-- The clause that a non-empty list of tokens is. -/
def ofTokens? : List Token → Option Clause
  | [] => none
  | first :: rest =>
      let tokens := first :: rest
      let text := render tokens
      if first.isWord "CONSTRAINT" then
        let (name, after) := constraintName tokens
        some (constraintAction name text after).toClause
      else if isConstraintStart first then some (constraintAction none text tokens).toClause
      else
        match ignoredReason? first rest with
        | some reason => some (.ignored ⟨text, reason⟩)
        | none => some (columnClause text first rest)

end Clause

namespace Statement

def createFrom (text : String) (tokens : List Token) : Statement :=
  match readFullName (skipWords ["IF", "NOT", "EXISTS"] tokens) with
  | (none, _) => .ignored ⟨text, "CREATE TABLE without a table name"⟩
  | (some name, after) =>
      match group? after with
      | none => .createTable name [] false
      | some (body, _) => .createTable name ((splitTopLevel "," body).filterMap Clause.ofTokens?) true

def alterFrom (text : String) (tokens : List Token) : Statement :=
  let tokens := skipWords ["ONLY"] (skipWords ["IF", "EXISTS"] (skipWords ["ONLY"] tokens))
  match readFullName tokens with
  | (none, _) => .ignored ⟨text, "ALTER TABLE without a table name"⟩
  | (some table, after) => .alterTable table ((splitTopLevel "," after).map Action.ofTokens)

def skipPrefixes (tokens : List Token) : List Token :=
  tokens.dropWhile (·.isOneOf Keyword.tablePrefixes)

def otherReason : String :=
  "not a CREATE TABLE or ALTER TABLE statement"

def ofRaw (statement : RawStatement) : Statement :=
  let other := Statement.ignored ⟨statement.text, otherReason⟩
  match takeWord? "CREATE" statement.tokens with
  | some rest =>
      match takeWord? "TABLE" (skipPrefixes (skipWords ["OR", "REPLACE"] rest)) with
      | some tokens => createFrom statement.text tokens
      | none => other
  | none =>
      match takeWords? ["ALTER", "TABLE"] statement.tokens with
      | some tokens => alterFrom statement.text tokens
      | none => other

def isClassified : Statement → Bool
  | .createTable _ _ _ => true
  | .alterTable _ _ => true
  | .ignored _ => false

end Statement

end TableScript
