import TableScript.Comment
import TableScript.Document.Misuse
import TableScript.Link
import TableScript.Statement.Reader
import TableScript.Text.Utf8

/-!
From a script to its statements and to the schema they describe. A script that cannot be
understood is never refused: what is not understood is left out, and put on record.
-/

namespace TableScript

open Journal

namespace Parse

def source : String := "parser"

def classified (raw : RawStatement) : Record :=
  .debug source ("Classified statement: " ++ excerpt 50 raw.text)
    (.onStatement (excerpt 100 raw.text) "classify")

def readAll (raws : List RawStatement) : List Statement × List Record :=
  let statements := raws.map Statement.ofRaw
  let records := raws.filterMap fun raw =>
    if (Statement.ofRaw raw).isClassified then some (classified raw) else none
  (statements, records)

def summary (schema : PlainSchema) (statements : List Statement) : Record :=
  .info source
    ("Parsed " ++ toString schema.tables.length ++ " tables, " ++
      toString schema.relationships.length ++ " relationships from " ++
      toString statements.length ++ " statements")
    (.about "parse")

end Parse

/-- The statements of a script, without their comments. -/
def readStatements [Lexeme.TagReading] (script : String) : List Statement × List Record :=
  let (raws, skipped) := Script.split (Comment.strip script)
  let (statements, records) := Parse.readAll raws
  (statements, skipped ++ records)

/-- The schema that a script describes, and the records made on the way. -/
def parse (mode : Resolution) (script : String) : PlainSchema × List Record :=
  let (statements, read) := readStatements script
  let (schema, linked) := link mode statements
  (schema, read ++ linked ++ [Parse.summary schema statements])

/-- What may be handed over as a script: a text, the bytes of one, or something else. -/
inductive ScriptInput where
  | text (script : String)
  | bytes (script : List UInt8)
  | value (found : Value)

namespace ScriptInput

/-- The script of an input. Bytes are repaired where they are no text. -/
def script? : ScriptInput → Except Value String
  | .text script => .ok script
  | .bytes script => .ok (Text.repair script)
  | .value found => .error found

-- Long values are cut off.
def shortDisplay (found : Value) : String :=
  let shown := found.display
  if 100 < shown.length then excerpt 100 shown ++ "..." else shown

def refusal (found : Value) : String :=
  "Expected SQL text, got " ++ found.kind.name ++ ": " ++ shortDisplay found

end ScriptInput

end TableScript
