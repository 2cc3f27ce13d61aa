import TableScript.Proofs.Lexing.Uncommented

/-!
Statements that are put together from pieces, each with a semicolon behind it. Splitting their
script gives them back, with the tokens of their pieces.
-/

namespace TableScript.Script

open Lexeme

theorem pieces_plain (lexemes rest : List Lexeme)
    (plain : ∀ lexeme ∈ lexemes, isSeparator lexeme = false) (piece : List Lexeme)
    (others : List (List Lexeme)) (split : pieces rest = piece :: others) :
    pieces (lexemes ++ rest) = (lexemes ++ piece) :: others := by
  induction lexemes with
  | nil => exact split
  | cons lexeme lexemes ih =>
      obtain ⟨head, tail⟩ := List.forall_mem_cons.mp plain
      simp [pieces, head, ih tail]

/-- The script of some statements. A line feed ends it. -/
def statementsText (statements : List (List Ink)) : List Char :=
  statements.flatMap (fun inks => inkText inks ++ [';']) ++ ['\n']

def rawOf (inks : List Ink) : RawStatement :=
  ⟨Text.trim (String.ofList (inkText inks)), inkTokens inks⟩

/-- A statement that is written out in front of its semicolon and not left out. -/
structure Kept (inks : List Ink) : Prop where
  written : ∀ rest, Written inks (';' :: rest)
  occupied : inkTokens inks ≠ []
  heeded : isIgnored (Text.trim (String.ofList (inkText inks))) = false

theorem splitPieces_statements (statements : List (List Ink))
    (kept : ∀ inks ∈ statements, Kept inks) (before : Option Char) :
    splitPieces (pieces (scanAfter before (statementsText statements))) =
      (statements.map rawOf, []) := by
  induction statements generalizing before with
  | nil =>
      have scan : scanAfter before ['\n'] = [⟨.blank, ['\n']⟩] := scan_lineFeed before []
      rw [statementsText, List.flatMap_nil, List.nil_append, scan]
      rfl
  | cons inks statements ih =>
      obtain ⟨head, others⟩ := List.forall_mem_cons.mp kept
      have split : statementsText (inks :: statements) =
          inkText inks ++ ';' :: statementsText statements := by
        simp [statementsText]
      have semicolon : Closed (';' :: statementsText statements) := by
        rintro c ⟨rfl⟩
        decide
      obtain ⟨lexemes, scan, chars, tokens, plain⟩ :=
        reads_inks inks _ (head.written (statementsText statements)) semicolon before
      have separator : scanAfter ((inkText inks).getLast?.or before)
          (';' :: statementsText statements) =
          ⟨.punctuation, [';']⟩ :: scanAfter (some ';') (statementsText statements) :=
        scan_mark _ ';' _ (by decide)
      have cut : pieces (⟨.punctuation, [';']⟩ :: scanAfter (some ';') (statementsText statements)) =
          [] :: pieces (scanAfter (some ';') (statementsText statements)) := rfl
      rw [split, scan, separator, pieces_plain lexemes _ plain _ _ cut, List.append_nil]
      have statement : statementOf lexemes = rawOf inks := by
        rw [statementOf, chars, tokens]
        rfl
      have there : (rawOf inks).tokens.isEmpty = false := by
        simpa [rawOf] using head.occupied
      have heeded : isIgnored (rawOf inks).text = false := head.heeded
      simp only [splitPieces, statement, there, heeded, ih others, List.map_cons]
      rfl

theorem strip_statements (statements : List (List Ink)) (kept : ∀ inks ∈ statements, Kept inks) :
    Comment.stripChars .plain (statementsText statements) = statementsText statements := by
  induction statements with
  | nil => rfl
  | cons inks statements ih =>
      obtain ⟨head, others⟩ := List.forall_mem_cons.mp kept
      have split : statementsText (inks :: statements) =
          inkText inks ++ ';' :: statementsText statements := by
        simp [statementsText]
      rw [split, Comment.strip_inks inks _ (head.written _), Comment.strip_mute ';' _ rfl, ih others]

/-- Splitting a script, without its comments, gives its statements. -/
theorem split_statements (statements : List (List Ink)) (kept : ∀ inks ∈ statements, Kept inks) :
    split (Comment.strip (String.ofList (statementsText statements))) =
      (statements.map rawOf, []) := by
  rw [Comment.strip, String.toList_ofList, strip_statements statements kept, split, scan,
    String.toList_ofList]
  exact splitPieces_statements statements kept none

theorem create_heeded (rest : List Char) :
    isIgnored (String.ofList ("CREATE TABLE ".toList ++ rest)) = false := by
  simp only [isIgnored, String.toList_ofList]
  rfl

theorem alter_heeded (rest : List Char) :
    isIgnored (String.ofList ("ALTER TABLE ".toList ++ rest)) = false := by
  simp only [isIgnored, String.toList_ofList]
  rfl

end TableScript.Script
