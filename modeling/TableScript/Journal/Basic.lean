import TableScript.Document.Basic

/-!
The journal: records of what was noticed along the way, in order. A record says how serious it
is, which part of the library made it, and what it is about.
-/

namespace TableScript.Journal

structure Level where
  name : String
  rank : Nat
  deriving DecidableEq

namespace Level

def debug : Level := ⟨"DEBUG", 10⟩
def info : Level := ⟨"INFO", 20⟩
def warning : Level := ⟨"WARNING", 30⟩
def error : Level := ⟨"ERROR", 40⟩
def critical : Level := ⟨"CRITICAL", 50⟩

/-- The least level that is shown, by how often more detail was asked for. -/
def shownAt (detail : Int) : Level :=
  if 2 ≤ detail then debug else if detail = 1 then info else warning

end Level

/-- What a record is about, as far as it is known. -/
structure Context where
  table : Option Value
  operation : Option Value
  file : Option Value
  statement : Option Value

namespace Context

def none : Context := ⟨.none, .none, .none, .none⟩

def about (operation : String) : Context :=
  { none with operation := some (.text operation) }

def onTable (table : Value) (operation : String) : Context :=
  { about operation with table := some table }

def onFile (file operation : String) : Context :=
  { about operation with file := some (.text file) }

def onStatement (statement operation : String) : Context :=
  { about operation with statement := some (.text statement) }

/-- The fields that are known, in the order in which they are written. -/
def fields (context : Context) : List (String × Value) :=
  [("table_name", context.table), ("operation", context.operation),
   ("file_path", context.file), ("statement", context.statement)].filterMap
    fun (name, value) => value.map fun known => (name, known)

end Context

structure Record where
  level : Level
  source : String
  message : String
  context : Context

def rootSource : String := "erdforge"

/-- The full name of a part of the library, as records carry it. -/
def sourceName (part : String) : String :=
  if part == "" then rootSource else rootSource ++ "." ++ part

def Record.debug (part message : String) (context : Context) : Record :=
  ⟨.debug, sourceName part, message, context⟩

def Record.info (part message : String) (context : Context) : Record :=
  ⟨.info, sourceName part, message, context⟩

def Record.error (part message : String) (context : Context) : Record :=
  ⟨.error, sourceName part, message, context⟩

end TableScript.Journal

namespace TableScript

-- The beginning of a text, for messages.
def excerpt (length : Nat) (text : String) : String :=
  String.ofList (text.toList.take length)

end TableScript
