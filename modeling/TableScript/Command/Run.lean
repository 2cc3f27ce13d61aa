import TableScript.Catalog
import TableScript.Command.Options
import TableScript.Command.Search
import TableScript.Document.Reader
import TableScript.Journal.Format
import TableScript.Parse
import TableScript.Schema.Document
import TableScript.Schema.Load
import TableScript.Schema.Write

/-!
Running a command: where its schema comes from, where it goes, and what is printed on the way.
Whatever goes wrong ends the command with one line of explanation and the exit status 1; what
was printed and written until then stays.
-/

namespace TableScript.Command

open Journal

def version : String := "0.1.0"
def versionLine : String := "erdforge v" ++ version ++ "\n"

/-- The last component of the name that the records of a command carry. -/
def source : String := "cli"

inductive Fault where
  -- Without a source there is nothing to look for, or to open.
  | nothingToFind
  | nothingToOpen
  | noResolution
  | pathNotFound (path : String)
  | noScripts (path : String)
  | storage (path : String) (fault : StorageFault)
  | undecodable (found : Text.Undecodable)
  | unencodable (found : Text.Unencodable)
  | notADocument (path text : String) (failure : Reading.Failure)
  | load (fault : LoadFault)
  | misuse (misuse : Misuse)
  | noCatalog (source : String)

def defectReason : Text.Defect → String
  | .badStart => "invalid start byte"
  | .badContinuation => "invalid continuation byte"
  | .cutShort => "unexpected end of data"

def undecodableMessage (found : Text.Undecodable) : String :=
  let covered := match found.bytes with
    | [byte] => "byte 0x" ++ String.ofList (hexDigits 2 byte.toNat) ++ " in position " ++
        toString found.start
    | bytes => "bytes in position " ++ toString found.start ++ "-" ++
        toString (found.start + bytes.length - 1)
  "'utf-8' codec can't decode " ++ covered ++ ": " ++ defectReason found.defect

/-- How an option without a value is shown. -/
def noValue : Value := .list []

def unencodableMessage (found : Text.Unencodable) : String :=
  let covered :=
    if found.count = 1 then
      "character '\\u" ++ String.ofList (hexDigits 4 found.unit) ++ "' in position " ++
        toString found.start
    else
      "characters in position " ++ toString found.start ++ "-" ++
        toString (found.start + found.count - 1)
  "'utf-8' codec can't encode " ++ covered ++ ": surrogates not allowed"

def Fault.message (standIns : Text.StandIns) : Fault → String
  | .nothingToFind =>
      "stat: path should be string, bytes, os.PathLike or integer, not " ++ noValue.kind.name
  | .nothingToOpen => "expected str, bytes or os.PathLike object, not " ++ noValue.kind.name
  | .noResolution => Resolution.refusal noValue
  | .pathNotFound path => "Path not found: " ++ path
  | .noScripts path => "No .sql files found in directory: " ++ path
  | .storage path found => found.message path
  | .undecodable found => undecodableMessage found
  | .unencodable found => unencodableMessage found
  | .notADocument path text failure =>
      if failure.isMalformed then
        path ++ " is not a JSON schema document: " ++ failure.message text
      else failure.message text
  | .load fault => fault.message standIns
  | .misuse wrong => wrong.message
  | .noCatalog source => "No catalog is known for " ++ source

structure Session where
  stdout : String
  records : List Record
  -- What stands for lone surrogates in the schema, and so in what is printed of it.
  standIns : Text.StandIns

abbrev Work (m : Type → Type) := ExceptT Fault (StateT Session m)

/-- What a command leaves behind, the files it wrote apart. -/
structure Outcome where
  exit : Nat
  stdout : String
  stderr : String
  standIns : Text.StandIns

section Work

variable {m : Type → Type} [Monad m]

def note (records : List Record) : Work m Unit :=
  modify fun session => { session with records := session.records ++ records }

def say (text : String) : Work m Unit :=
  modify fun session => { session with stdout := session.stdout ++ text }

def stored {α : Type} (path : String) (action : m (Except StorageFault α)) : Work m α := do
  match ← (liftM action : Work m (Except StorageFault α)) with
  | .ok a => return a
  | .error fault => throw (.storage path fault)

def readScript (storage : Storage m) (path : String) : Work m String := do
  let bytes ← stored path (storage.read path)
  return Text.withLineFeeds (Text.repair bytes)

def readScripts (storage : Storage m) : List String → Work m (List String)
  | [] => return []
  | path :: rest => do
      note [.debug source ("Reading " ++ path) (.onFile path "read")]
      let script ← readScript storage path
      return script :: (← readScripts storage rest)

-- A script without a last semicolon must not run into the next one.
def joinScripts (scripts : List String) : String :=
  ";\n".intercalate scripts

/-- The script of a file, or of all files below a directory. -/
def readSource (storage : Storage m) (path : String) : Work m String := do
  match ← (liftM (storage.kindOf path) : Work m PathKind) with
  | .file => readScript storage path
  | .device | .missing => throw (.pathNotFound path)
  | .directory =>
      let paths ← (liftM (Search.scriptPaths storage path) : Work m (List String))
      if paths.isEmpty then throw (.noScripts path)
      return joinScripts (← readScripts storage paths)

def readDocument (storage : Storage m) (path : String) : Work m (Schema Value Bool) := do
  let bytes ← stored path (storage.read path)
  match Text.decode bytes with
  | .error found => throw (.undecodable found)
  | .ok decoded =>
      let text := Text.withLineFeeds decoded
      match Document.read text with
      | .error failure => throw (.notADocument path text failure)
      | .ok document =>
          modify fun session => { session with standIns := document.standIns }
          match Schema.ofDocument document.value with
          | .error fault => throw (.load fault)
          | .ok schema => return schema

def orThrow {α : Type} (fault : Fault) : Option α → Work m α
  | some a => return a
  | none => throw fault

def readParsed (storage : Storage m) (options : Options) : Work m PlainSchema := do
  let mode ← orThrow .noResolution options.resolution
  let script ← readSource storage (← orThrow .nothingToFind options.source)
  let (schema, records) := parse mode script
  note records
  return schema

inductive Form where
  | document
  | script

section Output

variable {ν φ : Type} [OfText ν] [OfFlag φ]

def scriptOf (schema : Schema ν φ) : Work m String :=
  match schema.script with
  | .ok script => return script
  | .error misuse => throw (.misuse misuse)

def writeDocument (storage : Storage m) (schema : Schema ν φ) (path : String) : Work m Unit := do
  let standIns := (← get).standIns
  stored path (storage.write path (Text.encode (schema.toDocument.indented standIns)))
  say ("JSON schema saved to " ++ path ++ "\n")

-- The file is opened before the script is made, and stays empty if that fails.
def writeScript (storage : Storage m) (schema : Schema ν φ) (path : String) : Work m Unit := do
  stored path (storage.write path [])
  match Text.encode? (← get).standIns (← scriptOf schema) with
  | .error found => throw (.unencodable found)
  | .ok bytes => stored path (storage.write path bytes)
  say ("SQL script saved to " ++ path ++ "\n")

-- An empty path asks for no file.
def wanted (path : Option String) : Option String :=
  path.filter (· != "")

/-- Writes the files that are asked for; without any, prints the usual form of the command. -/
def output (storage : Storage m) (options : Options) (usual : Form) (schema : Schema ν φ) :
    Work m Unit := do
  if let some path := wanted options.jsonOut then writeDocument storage schema path
  if let some path := wanted options.sqlOut then writeScript storage schema path
  if (wanted options.jsonOut).isNone && (wanted options.sqlOut).isNone then
    match usual with
    | .document => say (schema.toDocument.indented (← get).standIns ++ "\n")
    | .script => say (← scriptOf schema)

end Output

def shownOption (option : Option String) : String :=
  option.getD noValue.display

def work (storage : Storage m) (catalog : Option (List (CatalogTable Value Value)))
    (options : Options) : Work m Unit := do
  match options.task with
  | .parse => output storage options .document (← readParsed storage options)
  | .format => output storage options .script (← readParsed storage options)
  | .generate =>
      let path ← orThrow .nothingToOpen options.source
      output storage options .script (← readDocument storage path)
  | .introspect =>
      let place := shownOption options.source
      note [.info source ("Introspecting database at " ++ place) .none]
      match catalog with
      | none => throw (.noCatalog place)
      | some reported =>
          let (schema, records) := Catalog.introspect reported
          note records
          output storage options .document schema

def announcement (options : Options) : Record :=
  .debug source ("Command=" ++ options.task.name ++ ", Source=" ++ shownOption options.source ++
    ", Resolution=" ++ shownOption (options.resolution.map Resolution.name)) .none

def failed : Record :=
  .debug source "Command failed" .none

/-- How records are written: the time they carry, and the trace that goes with a failure. -/
structure Stamp where
  time : String
  trace : String

def recordLine (stamp : Stamp) (options : Options) (trace : Option String) (record : Record) :
    String :=
  if record.level.rank < (Level.shownAt options.detail).rank then ""
  else
    match options.logFormat with
    | .text => record.line false ++ "\n"
    | .json => record.json stamp.time trace ++ "\n"

def recordLines (stamp : Stamp) (options : Options) (records : List Record) : String :=
  String.join (records.map (recordLine stamp options none))

def runOptions (storage : Storage m) (catalog : Option (List (CatalogTable Value Value)))
    (stamp : Stamp) (options : Options) : m Outcome := do
  let start : Session := ⟨"", [announcement options], .none⟩
  let (result, session) ← ((work storage catalog options).run).run start
  let lines := recordLines stamp options session.records
  match result with
  | .ok _ => return ⟨0, session.stdout, lines, session.standIns⟩
  | .error fault =>
      let last := recordLine stamp options (some stamp.trace) failed
      let explanation := "Error: " ++ fault.message session.standIns ++ "\n"
      return ⟨1, session.stdout, lines ++ last ++ explanation, session.standIns⟩

end Work

def usage : String :=
  "usage: erdforge [options] parse|generate|format|introspect --source SOURCE\n"

/-- Runs a command line. -/
def run {m : Type → Type} [Monad m] (storage : Storage m)
    (catalog : Option (List (CatalogTable Value Value))) (stamp : Stamp)
    (arguments : List String) : m Outcome :=
  match Request.ofArguments arguments with
  | .refused => return ⟨2, "", usage, .none⟩
  | .help => return ⟨0, usage, "", .none⟩
  | .version => return ⟨0, versionLine, "", .none⟩
  | .run options => runOptions storage catalog stamp options

end TableScript.Command
