import TableScript.Command.Storage
import TableScript.Command.Wildcard

/-!
Searching for the scripts below a directory. The path of the directory is read as a pattern: a
name with wildcards leads to every directory that fits it, even when a directory has that very
name, and two stars lead to a directory and to all that are below it. Hidden names are found only
where a pattern is hidden itself. What is found in several ways is found several times.
-/

namespace TableScript.Command.Search

/-- A name appended to a path. Nothing appended to a path closes it with a slash. -/
def join (path name : String) : String :=
  if path == "" || endsInSlash path then path ++ name else path ++ "/" ++ name

-- A path without slashes at its end, unless it has nothing else.
def withoutEnd (path : String) : String :=
  let kept := (path.toList.reverse.dropWhile (· == '/')).reverse
  if kept.isEmpty then path else String.ofList kept

/-- A path as the part before its first name with wildcards, and the names from there on. -/
def splitPattern (path : String) : String × List String :=
  let names := splitPath path
  let plain := names.takeWhile fun name => !Wildcard.isWild name
  let wild := names.dropWhile fun name => !Wildcard.isWild name
  let start := if plain == [""] then "/" else withoutEnd ("/".intercalate plain)
  (start, wild.filter (· != ""))

section Search

variable {m : Type → Type} [Monad m] (storage : Storage m)

-- The empty path stands for the directory where paths begin.
def entries (path : String) : m (List Entry) :=
  storage.below (if path == "" then "." else path)

def childNames (pattern : String) (entries : List Entry) : List String :=
  entries.filterMap fun entry =>
    match entry.names with
    | [name] => if Wildcard.fits pattern name then some name else none
    | _ => none

def innerPaths (entries : List Entry) : List String :=
  (entries.filter fun entry => entry.isDirectory && !entry.names.any Wildcard.isHidden).map
    fun entry => "/".intercalate entry.names

def allBelow (path : String) : m (List String) := do
  let inner := innerPaths (← entries storage path)
  let isThere := path == "" || (← storage.kindOf path) == .directory
  return (if isThere then "" :: inner else inner).map (join path)

def fittingBelow (pattern path : String) : m (List String) := do
  let directories := (← entries storage path).filter (·.isDirectory)
  return (childNames pattern directories).map (join path)

def namedBelow (name path : String) : m (List String) := do
  let joined := join path name
  return if (← storage.kindOf joined) == .missing then [] else [joined]

/-- Where one name of a pattern leads from a path. -/
def step (name path : String) : m (List String) :=
  if name == "**" then allBelow storage path
  else if Wildcard.isWild name then fittingBelow storage name path
  else namedBelow storage name path

def walk : List String → List String → m (List String)
  | [], paths => return paths
  | name :: rest, paths => do
      let next ← paths.mapM (step storage name)
      walk rest next.flatten

def scriptsIn (path : String) : m (List String) := do
  return (childNames "*.sql" (← entries storage path)).map (join path)

/-- The paths of all scripts below a directory, in order. -/
def scriptPaths (path : String) : m (List String) := do
  let (start, names) := splitPattern path
  let directories ← walk storage (names ++ ["**"]) [start]
  let found ← directories.mapM (scriptsIn storage)
  return found.flatten.mergeSort fun a b => decide (a ≤ b)

end Search

end TableScript.Command.Search
