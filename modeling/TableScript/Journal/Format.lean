import TableScript.Journal.Basic
import TableScript.Document.Writer

/-!
Records as lines of text: a short line for people, with colours if wanted, and a JSON object for
machines.
-/

namespace TableScript.Journal

def colors : List (String × String) :=
  [("DEBUG", "36"), ("INFO", "32"), ("WARNING", "33"), ("ERROR", "31"), ("CRITICAL", "35")]

def colorCode (code : String) : String :=
  "\x1b[" ++ code ++ "m"

def levelMark (colored : Bool) (level : String) : String :=
  let mark := "[" ++ level ++ "]"
  match if colored then colors.lookup level else none with
  | some code => colorCode code ++ mark ++ colorCode "0"
  | none => mark

-- Statements are too long for a line, and left out.
def labels (context : Context) : List (String × Option Value) :=
  [("table", context.table), ("op", context.operation), ("file", context.file)]

def Record.line (colored : Bool) (record : Record) : String :=
  let known := (labels record.context).filterMap fun (label, value) =>
    value.map fun found => label ++ "=" ++ found.inWords
  let context := if known.isEmpty then "" else " [" ++ ", ".intercalate known ++ "]"
  levelMark colored record.level.name ++ " " ++ record.message ++ context

/-- The JSON form of a record made at a given time, with the trace of an exception if there is
one. A field of the context wins over a field of the same name. -/
def Record.json (time : String) (trace : Option String) (record : Record) : String :=
  let head : List (String × Value) :=
    [("timestamp", .text time), ("level", .text record.level.name),
     ("logger", .text record.source), ("message", .text record.message)]
  let entry := head ++ record.context.fields
  let entry := match trace with
    | some trace => entry ++ [("exception", .text trace)]
    | none => entry
  (Value.object entry).line

end TableScript.Journal
