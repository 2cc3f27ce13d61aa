import TableScript.Journal.Basic
import TableScript.Token

/-!
Splitting a script into statements at its semicolons. A semicolon inside a quoted text is part of
a longer lexeme and splits nothing, and parentheses do not count. Statements that say nothing
about the structure of tables are left out, with a record.
-/

namespace TableScript

/-- One statement of a script: its text, trimmed, and its tokens. -/
structure RawStatement where
  text : String
  tokens : List Token

namespace Script

open Lexeme Pattern

/-- How the statements begin that are left out. -/
def ignoredStart : Pattern :=
  choice
    [.seq (letters "SET") blank, .seq (letters "USE") blank,
     .seq (phrase ["CREATE", "DATABASE"]) wordEdge, .seq (phrase ["DROP", "TABLE"]) wordEdge,
     .seq (phrase ["INSERT", "INTO"]) wordEdge, exactly "/*!"]

def isIgnored (text : String) : Bool :=
  (ignoredStart.stop? ⟨none, text.toList⟩).isSome

def isSeparator (lexeme : Lexeme) : Bool :=
  lexeme.kind == .punctuation && lexeme.chars == [';']

-- The lexemes between separators; two separators in a row have an empty piece between them.
def pieces : List Lexeme → List (List Lexeme)
  | [] => [[]]
  | lexeme :: rest =>
      if isSeparator lexeme then [] :: pieces rest
      else
        match pieces rest with
        | [] => [[lexeme]]
        | piece :: others => (lexeme :: piece) :: others

def statementOf (piece : List Lexeme) : RawStatement :=
  { text := Text.trim (String.ofList (piece.flatMap Lexeme.chars))
    tokens := piece.flatMap Token.ofLexeme }

def skipped (statement : RawStatement) : Journal.Record :=
  .debug "lexer" ("Skipping ignore-listed statement: " ++ excerpt 50 statement.text)
    (.onStatement (excerpt 100 statement.text) "split")

def splitPieces : List (List Lexeme) → List RawStatement × List Journal.Record
  | [] => ([], [])
  | piece :: rest =>
      let statement := statementOf piece
      let (statements, records) := splitPieces rest
      if statement.tokens.isEmpty then (statements, records)
      else if isIgnored statement.text then (statements, skipped statement :: records)
      else (statement :: statements, records)

/-- The statements of a script in order, and a record for each one that is left out. -/
def split [TagReading] (script : String) : List RawStatement × List Journal.Record :=
  splitPieces (pieces (scan script))

end Script

end TableScript
