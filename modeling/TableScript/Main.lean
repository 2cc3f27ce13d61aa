import TableScript.Command.Run
import Std.Time.Format

/-!
The program: runs a command line on the files of the disk. There is no database driver here, so
no catalog is known.
-/

namespace TableScript.Main

open Command

-- Error numbers come with either sign.
def faultOf (number : UInt32) (text : String) : StorageFault :=
  let size := min number.toNat (0x100000000 - number.toNat)
  if size = 2 then .missing
  else if size = 20 then .notADirectory
  else if size = 21 then .isADirectory
  else if size = 36 then .longName
  else .other text

def storageFault (error : IO.Error) : StorageFault :=
  match error with
  | .noFileOrDirectory _ number _ => faultOf number (toString error)
  | .inappropriateType _ number _ => faultOf number (toString error)
  | .noSuchThing _ number _ => faultOf number (toString error)
  | .invalidArgument _ number _ => faultOf number (toString error)
  | error => .other (toString error)

def attempt {α : Type} (path : String) (action : IO α) : IO (Except StorageFault α) := do
  match pathFault? path with
  | some fault => return .error fault
  | none =>
      try
        return .ok (← action)
      catch error =>
        return .error (storageFault error)

def kindOf (path : String) : IO PathKind := do
  if (pathFault? path).isSome then return .missing
  let place := (← IO.currentDir) / path
  if ← place.isDir then return .directory
  unless ← place.pathExists do return .missing
  return if (← place.metadata).type == .file then .file else .device

partial def below (path : String) (names : List String) : IO (List Entry) := do
  let place := (← IO.currentDir) / "/".intercalate (path :: names)
  unless ← place.isDir do return []
  let mut found := []
  for entry in ← place.readDir do
    let inner := names ++ [entry.fileName]
    let more ← below path inner
    found := found ++ ⟨inner, ← entry.path.isDir⟩ :: more
  return found

def disk : Storage IO :=
  { kindOf := kindOf
    read := fun path => attempt path do
      return (← IO.FS.readBinFile path).toList
    below := fun path => below path []
    write := fun path bytes => attempt path (IO.FS.writeBinFile path ⟨bytes.toArray⟩) }

def now : IO String := do
  let time := Std.Time.DateTime.ofTimestamp (← Std.Time.Timestamp.now) Std.Time.TimeZone.ZoneRules.UTC
  return time.format "uuuu-MM-dd'T'HH:mm:ss.SSSSSS'Z'"

end TableScript.Main

def main (arguments : List String) : IO UInt32 := do
  let stamp : TableScript.Command.Stamp := ⟨← TableScript.Main.now, "command failed"⟩
  let outcome ← TableScript.Command.run TableScript.Main.disk none stamp arguments
  IO.print outcome.stdout
  IO.eprint outcome.stderr
  return outcome.exit.toUInt32
