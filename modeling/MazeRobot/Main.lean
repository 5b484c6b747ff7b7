import MazeRobot.Console.Basic

/-! # The program

The command line on a disk and a terminal. All decisions are made elsewhere; here files, input and
output are joined to them. -/

namespace MazeRobot.Console

/-- The reason for which the system refuses a request. -/
def reasonOf (error : IO.Error) : FileReason :=
  match error with
  | .noFileOrDirectory _ _ _ | .noSuchThing _ _ _ => .missing
  | .inappropriateType _ code _ => if code = 21 then .isFolder else .notFolder
  | .permissionDenied _ _ _ => .other "permission denied"
  | error => .other (toString error)

/-- A request on a path, with the reason where the system refuses it. -/
def attempt {α : Type} (action path : String) (request : IO α) : IO (Except FileFault α) := do
  if path.isEmpty then return .error ⟨action, path, .missing⟩
  try
    return .ok (← request)
  catch error => return .error ⟨action, path, reasonOf error⟩

/-- The bytes of a file of the disk. -/
def readDisk (path : String) : IO (Except FileFault (List UInt8)) := do
  let place := (← IO.currentDir) / path
  if !path.isEmpty && (← place.isDir) then return .error ⟨"read", path, .isFolder⟩
  else attempt "open" path do return (← IO.FS.readBinFile place).toList

/-- The entries of a folder of the disk. -/
def listDisk (path : String) : IO (Except FileFault (List FolderEntry)) :=
  attempt "open" path do
    let entries ← ((← IO.currentDir) / path).readDir
    let found ← entries.toList.mapM fun entry => do
      return (⟨entry.fileName, ← entry.path.isDir⟩ : FolderEntry)
    return found.mergeSort fun a b => a.name ≤ b.name

/-- The disk serves as a file store. -/
instance : FileStore IO where
  readFile := readDisk
  listFolder := listDisk
  writeFile path bytes := attempt "open" path do
    IO.FS.writeBinFile ((← IO.currentDir) / path) ⟨bytes.toArray⟩

/-- Writes a text and lets it be seen. -/
def say (stream : IO.FS.Stream) (text : String) : IO Unit := do
  stream.putStr text
  stream.flush

/-- Answers lines of the standard input until it ends or someone asks for the end. -/
partial def converse (stepper : Stepper) (pending : List Line) : IO Stepper := do
  let output ← IO.getStdout
  say output stepper.prompt
  let pending ←
    if pending.isEmpty then do
      let text ← (← IO.getStdin).getLine
      pure (lines (Text.utf8 text))
    else pure pending
  match pending with
  | [] => say output "\n"; return stepper
  | line :: rest =>
    let response := stepper.answer line
    say (← IO.getStderr) response.log
    say output response.out
    if response.ended then return response.stepper else converse response.stepper rest

end MazeRobot.Console

open MazeRobot.Console in
/-- Runs a command and gives its exit code. -/
def main (arguments : List String) : IO UInt32 := do
  let home := (← IO.getEnv "HOME").getD ""
  match ← start home arguments with
  | .finished reply =>
    say (← IO.getStderr) reply.err
    say (← IO.getStdout) reply.out
    return UInt32.ofNat reply.code
  | .stepping stepper =>
    say (← IO.getStdout) stepper.greeting
    closeStepper home (← converse stepper [])
    return 0
