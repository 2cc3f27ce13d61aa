import TableScript.Command.Storage

/-!
A tree of files in memory, with paths that are relative to its root. A path is followed name by
name, and every name but the last has to lead to a directory. Of what lies outside of the tree
only the directories that hold it are known, and the null device.
-/

namespace TableScript.Command

inductive Node where
  | file (bytes : List UInt8)
  | directory
  deriving DecidableEq

/-- Files and directories by the names that lead to them from the root. -/
abbrev FileTree := List (List String × Node)

/-- Where a path leads. -/
inductive Place where
  | inside (names : List String)
  | outside (names : List String)
  | nullDevice
  deriving DecidableEq

def longestName : Nat := 255

namespace Place

-- The name of a directory outside of the tree that is known because it holds the null device.
def devices : List String := ["dev"]

def parent : Place → Place
  | .inside [] => .outside []
  | .inside names => .inside names.dropLast
  | .outside _ => .outside []
  | .nullDevice => .outside devices

def child (name : String) : Place → Place
  | .inside names => .inside (names ++ [name])
  | .outside names =>
      if names == devices && name == "null" then .nullDevice else .outside (names ++ [name])
  | .nullDevice => .nullDevice

end Place

namespace FileTree

def node? (tree : FileTree) (names : List String) : Option Node :=
  if names.isEmpty then some .directory
  else
    match tree.find? fun entry => entry.1 == names with
    | some (_, node) => some node
    | none =>
        -- A directory need not be listed when something stands below it.
        if tree.any fun entry => names.isPrefixOf entry.1 then some .directory else none

def kindAt (tree : FileTree) : Place → PathKind
  | .inside names =>
      match node? tree names with
      | some (.file _) => .file
      | some .directory => .directory
      | none => .missing
  | .outside names => if names == [] || names == Place.devices then .directory else .missing
  | .nullDevice => .device

-- A name of a path: an empty one and a point stay, two points go up.
def step (place : Place) (name : String) : Except StorageFault Place :=
  if name == "" || name == "." then .ok place
  else if name == ".." then .ok place.parent
  else if longestName < name.utf8ByteSize then .error .longName
  else .ok (place.child name)

/-- Follows the names of a path from a place. -/
def follow (tree : FileTree) (place : Place) : List String → Except StorageFault Place
  | [] => .ok place
  | name :: rest =>
      match kindAt tree place with
      | .missing => .error .missing
      | .file | .device => .error .notADirectory
      | .directory =>
          match step place name with
          | .error fault => .error fault
          | .ok next => follow tree next rest

def start (path : String) : Place :=
  if path.toList.head? == some '/' then .outside [] else .inside []

/-- The place that a path leads to, whether or not something is there. -/
def place (tree : FileTree) (path : String) : Except StorageFault Place :=
  match pathFault? path with
  | some fault => .error fault
  | none => follow tree (start path) (splitPath path)

def kindOf (tree : FileTree) (path : String) : PathKind :=
  match place tree path with
  | .error _ => .missing
  | .ok place => kindAt tree place

def bytesAt (tree : FileTree) : Place → Except StorageFault (List UInt8)
  | .inside names =>
      match node? tree names with
      | some (.file bytes) => .ok bytes
      | some .directory => .error .isADirectory
      | none => .error .missing
  | .outside names =>
      if kindAt tree (.outside names) = .directory then .error .isADirectory else .error .missing
  | .nullDevice => .ok []

def read (tree : FileTree) (path : String) : Except StorageFault (List UInt8) :=
  (place tree path).bind (bytesAt tree)

-- All names at and above the entries of a tree, each once.
def listed (tree : FileTree) : List (List String) :=
  (tree.flatMap fun entry => (List.range entry.1.length).map fun n => entry.1.take (n + 1)).eraseDups

def below (tree : FileTree) (path : String) : List Entry :=
  match place tree path with
  | .ok (.inside top) =>
      (listed tree).filterMap fun names =>
        if top.isPrefixOf names && names.length != top.length then
          some ⟨names.drop top.length, node? tree names == some .directory⟩
        else none
  | _ => []

def put (names : List String) (bytes : List UInt8) : FileTree → FileTree
  | [] => [(names, .file bytes)]
  | entry :: rest =>
      if entry.1 == names then (names, .file bytes) :: rest else entry :: put names bytes rest

-- The names of a path without its last one, which has slashes behind it.
def namesAbove (path : String) : List String :=
  ((splitPath path).reverse.dropWhile (· == "")).tail.reverse

/-- What is written outside of the tree is not kept. -/
def writeAt (tree : FileTree) (place : Place) (bytes : List UInt8) :
    Except StorageFault FileTree :=
  match place, kindAt tree place with
  | _, .directory => .error .isADirectory
  | .inside names, _ => .ok (put names bytes tree)
  | _, _ => .ok tree

/-- A path that ends in a slash can only mean a directory. -/
def write (tree : FileTree) (path : String) (bytes : List UInt8) :
    Except StorageFault FileTree :=
  match pathFault? path with
  | some fault => .error fault
  | none =>
      if endsInSlash path then
        match follow tree (start path) (namesAbove path ++ [""]) with
        | .error fault => .error fault
        | .ok _ => .error .isADirectory
      else (follow tree (start path) (splitPath path)).bind fun place => writeAt tree place bytes

/-- A tree as a storage, with itself as the state. -/
def storage : Storage (StateM FileTree) :=
  { kindOf := fun path => do return kindOf (← get) path
    read := fun path => do return read (← get) path
    below := fun path => do return below (← get) path
    write := fun path bytes => do
      match write (← get) path bytes with
      | .error fault => return .error fault
      | .ok tree => do
          set tree
          return .ok () }

/-- A tree from the paths of its files and directories. -/
def ofPaths (paths : List (String × Node)) : FileTree :=
  paths.map fun (path, node) =>
    ((splitPath path).filter fun name => name != "" && name != ".", node)

/-- The files of a tree that are new in it or changed, compared with an earlier one. -/
def changes (before after : FileTree) : List (String × List UInt8) :=
  after.filterMap fun (names, node) =>
    match node with
    | .directory => none
    | .file bytes =>
        if node? before names == some (.file bytes) then none
        else some ("/".intercalate names, bytes)

end FileTree

end TableScript.Command
