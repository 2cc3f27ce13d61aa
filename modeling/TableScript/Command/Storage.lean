import TableScript.Document.Display

/-!
Storage: files and directories, as a command uses them. The operations are given by whoever runs
the command, so that it runs on a disk as well as on a tree in memory.
-/

namespace TableScript.Command

inductive PathKind where
  | file
  | directory
  -- A device, which takes and gives bytes but is neither of both.
  | device
  | missing
  deriving DecidableEq

inductive StorageFault where
  | missing
  | notADirectory
  | isADirectory
  | longName
  | zeroCharacter
  | other (text : String)

def displayPath (path : String) : String :=
  (Value.text path).display

def StorageFault.message (path : String) : StorageFault → String
  | .missing => "[Errno 2] No such file or directory: " ++ displayPath path
  | .notADirectory => "[Errno 20] Not a directory: " ++ displayPath path
  | .isADirectory => "[Errno 21] Is a directory: " ++ displayPath path
  | .longName => "[Errno 36] File name too long: " ++ displayPath path
  | .zeroCharacter => "embedded null byte"
  | .other text => text

/-- The names of a path, with the empty ones. -/
def splitPath (path : String) : List String :=
  (path.toList.splitOn '/').map String.ofList

def endsInSlash (path : String) : Bool :=
  path.toList.getLast? == some '/'

/-- What no path can be, wherever it leads. -/
def pathFault? (path : String) : Option StorageFault :=
  if path.toList.contains '\x00' then some .zeroCharacter
  else if path == "" then some .missing
  else if 4096 ≤ path.utf8ByteSize then some .longName
  else none

/-- Something below a directory, by the names that lead to it from there. -/
structure Entry where
  names : List String
  isDirectory : Bool

structure Storage (m : Type → Type) where
  kindOf : String → m PathKind
  read : String → m (Except StorageFault (List UInt8))
  -- Everything below a directory; nothing below what is none.
  below : String → m (List Entry)
  write : String → List UInt8 → m (Except StorageFault Unit)

end TableScript.Command
