import TableScript.Command.Run
import TableScript.Proofs.Lexing.Ending
import TableScript.Proofs.Lexing.Statements
import Mathlib.Data.List.DropRight

/-!
Scripts that are joined. Where nothing of a script is left open at its end, a semicolon and a line
feed keep it apart from the next one, so the statements of joined scripts are those of each script
in turn.
-/

namespace TableScript.Script

open Lexeme

def statementsAfter [TagReading] (before : Option Char) (chars : List Char) : List RawStatement :=
  (splitPieces (pieces (scanAfter before chars))).1

theorem splitPieces_append (first second : List (List Lexeme)) :
    (splitPieces (first ++ second)).1 = (splitPieces first).1 ++ (splitPieces second).1 := by
  induction first with
  | nil => rfl
  | cons piece first ih =>
      simp only [List.cons_append, splitPieces]
      split
      · exact ih
      · split
        · exact ih
        · exact congrArg _ ih

theorem pieces_occupied (lexemes : List Lexeme) : ∃ piece others, pieces lexemes = piece :: others := by
  cases lexemes with
  | nil => exact ⟨[], [], rfl⟩
  | cons lexeme rest =>
      simp only [pieces]
      split
      · exact ⟨[], pieces rest, rfl⟩
      · split
        · exact ⟨[lexeme], [], rfl⟩
        · exact ⟨_, _, rfl⟩

theorem pieces_separated (lexemes rest : List Lexeme) (separator : Lexeme)
    (separates : isSeparator separator = true) :
    pieces (lexemes ++ separator :: rest) = pieces lexemes ++ pieces rest := by
  induction lexemes with
  | nil => simp [pieces, separates]
  | cons lexeme lexemes ih =>
      simp only [List.cons_append, pieces, ih]
      split
      · rfl
      · obtain ⟨piece, others, split⟩ := pieces_occupied lexemes
        rw [split]
        rfl

theorem statements_shut [TagReading] (chars tail : List Char) (shut : Shut chars) :
    statementsAfter none (chars ++ ';' :: tail) =
      statementsAfter none chars ++ statementsAfter (some ';') tail := by
  have semicolon : Behind (';' :: tail) := by simp [Behind]
  have scan := scan_shut_from semicolon _ none chars shut
  rw [scan_mark _ ';' tail (by decide)] at scan
  rw [statementsAfter, scan, pieces_separated _ _ _ rfl, splitPieces_append]
  rfl

theorem trim_blanks (gap rest : List Char) (blank : ∀ c ∈ gap, Text.isBlank c = true) :
    Text.trim (String.ofList (gap ++ rest)) = Text.trim (String.ofList rest) := by
  simp only [Text.trim, String.toList_ofList, Text.trimChars, List.dropWhile_append_of_pos blank]

/-- Blanks say nothing, and change nothing that stands behind them. -/
theorem statements_blanks [TagReading] (before : Option Char) (gap tail : List Char)
    (blank : ∀ c ∈ gap, Text.isBlank c = true)
    (apart : gap.getLast? = some '\r' → tail.head? ≠ some '\n') :
    statementsAfter before (gap ++ tail) = statementsAfter (gap.getLast?.or before) tail := by
  obtain ⟨lexemes, scan, chars, tokens, plain⟩ := reads_blanks gap tail blank apart before
  obtain ⟨piece, others, split⟩ := pieces_occupied (scanAfter (gap.getLast?.or before) tail)
  have statement : statementOf (lexemes ++ piece) = statementOf piece := by
    simp only [statementOf, List.flatMap_append, chars, tokens, trim_blanks gap _ blank,
      List.nil_append]
  rw [statementsAfter, statementsAfter, scan, pieces_plain lexemes _ plain piece others split, split]
  simp only [splitPieces, statement]

theorem statements_margin [TagReading] (before : Option Char) (gap tail : List Char)
    (blank : ∀ c ∈ gap, Text.isBlank c = true) :
    statementsAfter before (gap ++ '\n' :: tail) = statementsAfter none tail := by
  have all : ∀ c ∈ gap ++ ['\n'], Text.isBlank c = true :=
    List.forall_mem_append.mpr ⟨blank, by simp [Text.isBlank]⟩
  have later := statements_blanks before (gap ++ ['\n']) tail all (by simp)
  rw [List.getLast?_concat, Option.some_or, List.append_assoc, List.singleton_append] at later
  rw [later, statementsAfter, scan_behind_lineFeed, statementsAfter]

theorem statements_blank [TagReading] (before : Option Char) (gap : List Char)
    (blank : ∀ c ∈ gap, Text.isBlank c = true) : statementsAfter before gap = [] := by
  have alone := statements_blanks before gap [] blank (by simp)
  rw [List.append_nil] at alone
  rw [alone]
  rfl

/-- A text that is blank, or where only blanks stand behind a semicolon of its own. -/
def Terminated [TagReading] (chars : List Char) : Prop :=
  let inked := chars.rdropWhile Text.isBlank
  inked = [] ∨ inked.getLast? = some ';' ∧ Shut inked.dropLast

instance [TagReading] (chars : List Char) : Decidable (Terminated chars) :=
  inferInstanceAs (Decidable (_ ∨ _ ∧ _))

theorem terminated_parts [TagReading] (chars : List Char) (terminated : Terminated chars) :
    ∃ gap, (∀ c ∈ gap, Text.isBlank c = true) ∧
      (chars = gap ∨ ∃ front, Shut front ∧ chars = front ++ ';' :: gap) := by
  refine ⟨chars.rtakeWhile Text.isBlank, fun c member => List.mem_rtakeWhile_imp member, ?_⟩
  have parts := List.rdropWhile_append_rtakeWhile (p := Text.isBlank) (l := chars)
  rcases terminated with empty | ⟨last, shut⟩
  · rw [empty] at parts
    exact Or.inl parts.symm
  · refine Or.inr ⟨_, shut, ?_⟩
    calc chars = chars.rdropWhile Text.isBlank ++ chars.rtakeWhile Text.isBlank := parts.symm
      _ = (chars.rdropWhile Text.isBlank).dropLast ++ [';'] ++ chars.rtakeWhile Text.isBlank := by
        rw [List.dropLast_append_getLast? ';' last]
      _ = _ := by simp

/-- Nothing of a script is left open that a semicolon and a line feed do not end. Without comments
no lexeme of it can go on, and a line comment at its end, which takes the semicolon in, stands
behind a semicolon of the script itself. -/
def Ends [TagReading] (script : String) : Prop :=
  let mode := Comment.modeAfter .plain script.toList
  let text := Comment.stripChars .plain script.toList
  (mode = .plain ∧ Shut text) ∨ (mode = .line ∧ Terminated text)

instance [TagReading] (script : String) : Decidable (Ends script) :=
  inferInstanceAs (Decidable (_ ∧ _ ∨ _ ∧ _))

theorem statements_terminated [TagReading] (before tail : List Char)
    (terminated : Terminated before) :
    statementsAfter none (before ++ '\n' :: tail) =
      statementsAfter none before ++ statementsAfter none tail := by
  obtain ⟨gap, blank, rfl | ⟨front, shut, rfl⟩⟩ := terminated_parts before terminated
  · rw [statements_margin none before tail blank, statements_blank none before blank, List.nil_append]
  · rw [List.append_assoc, List.cons_append, statements_shut front _ shut,
      statements_margin _ gap tail blank, statements_shut front gap shut,
      statements_blank _ gap blank, List.append_nil]

theorem statements_joined [TagReading] (script : String) (rest : List Char) (ends : Ends script) :
    statementsAfter none (Comment.stripChars .plain (script.toList ++ ';' :: '\n' :: rest)) =
      statementsAfter none (Comment.stripChars .plain script.toList) ++
        statementsAfter none (Comment.stripChars .plain rest) := by
  have strip := Comment.strip_behind .plain script.toList ('\n' :: rest) ';'
    (Comment.barrier_parts ';' (by decide)) (fun hyphen => absurd hyphen (by decide)) trivial
  rcases ends with ⟨plain, shut⟩ | ⟨line, terminated⟩
  · rw [strip (Or.inl plain), plain, Comment.strip_mute ';' _ rfl, Comment.strip_mute '\n' _ rfl,
      statements_shut _ _ shut]
    exact congrArg _ (statements_margin _ [] _ (by simp))
  · have swallowed : Comment.stripChars .line (';' :: '\n' :: rest) =
        '\n' :: Comment.stripChars .plain rest := by
      simp [Comment.stripChars]
    rw [strip (Or.inr line), line, swallowed, statements_terminated _ _ terminated]

end TableScript.Script

namespace TableScript

open Script

theorem read_statements [Lexeme.TagReading] (script : String) :
    (readStatements script).1 =
      (statementsAfter none (Comment.stripChars .plain script.toList)).map Statement.ofRaw := by
  simp only [readStatements, Parse.readAll, split, Comment.strip, Lexeme.scan, String.toList_ofList]
  rfl

theorem joinScripts_cons (first second : String) (rest : List String) :
    (Command.joinScripts (first :: second :: rest)).toList =
      first.toList ++ ';' :: '\n' :: (Command.joinScripts (second :: rest)).toList := by
  rw [Command.joinScripts, String.intercalate_cons_cons, String.toList_append, String.toList_append,
    List.append_assoc]
  rfl

/-- The statements of joined scripts are those of each script, in order. -/
theorem joined_read_apart [Lexeme.TagReading] (scripts : List String)
    (ends : ∀ script ∈ scripts.dropLast, Ends script) :
    (readStatements (Command.joinScripts scripts)).1 =
      scripts.flatMap fun script => (readStatements script).1 := by
  induction scripts with
  | nil => rfl
  | cons first scripts ih =>
      cases scripts with
      | nil => simp [Command.joinScripts]
      | cons second rest =>
          rw [List.dropLast_cons_of_ne_nil (by simp)] at ends
          obtain ⟨head, others⟩ := List.forall_mem_cons.mp ends
          rw [List.flatMap_cons, ← ih others, read_statements, read_statements, read_statements,
            joinScripts_cons, statements_joined first _ head, List.map_append]

-- No semicolon at the end, then a comment without a line feed behind one.
def tableScripts : List String :=
  ["CREATE TABLE a (x INT) --;\n", "CREATE TABLE b; --", "ALTER TABLE b ADD UNIQUE (y)"]

-- Tags that differ in letter case. The last one opens nothing where it stands.
def tagScripts : List String :=
  ["CREATE TABLE a $A$;$a$$A$", "CREATE TABLE b"]

theorem table_scripts_read_apart :
    ((∀ script ∈ tableScripts.dropLast, Ends script) ∧
      (readStatements (Command.joinScripts tableScripts)).1 =
        [.createTable "a" [.column ⟨"x", "INT", false, false, false, none⟩] true,
          .createTable "b" [] false, .alterTable "b" [.add (.unique ["y"] none)]]) ∧
    (∀ script ∈ tagScripts.dropLast, @Ends .caseless script) ∧
      (@readStatements .caseless (Command.joinScripts tagScripts)).1 =
        [.createTable "a" [] false, .createTable "b" [] false] := by
  have ends : ∀ script ∈ tableScripts.dropLast, Ends script := by decide +kernel
  have caseless : ∀ script ∈ tagScripts.dropLast, @Ends .caseless script :=
    List.forall_mem_singleton.mpr (by decide +kernel)
  refine ⟨⟨ends, (joined_read_apart tableScripts ends).trans ?_⟩,
    caseless, (@joined_read_apart .caseless tagScripts caseless).trans ?_⟩
  · decide +kernel
  · decide +kernel

-- A comment without a line feed takes the semicolon in, and the second table with it.
example : (readStatements (Command.joinScripts
    ["CREATE TABLE a --", "CREATE TABLE b"])).1.length = 1 := by
  decide +kernel

-- The middle tag closes the text where letter case does not count, and then the last one opens another.
example : Ends "x $A$ y $a$ z $A$" ∧ ¬ @Ends .caseless "x $A$ y $a$ z $A$" := by
  decide +kernel

end TableScript
