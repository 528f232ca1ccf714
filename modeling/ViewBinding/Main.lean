import ViewBinding.Command.Run

/-!
# The program

The program reads what its arguments name before anything else is done, runs the command, and
prints what comes of it.
-/

namespace ViewBinding

open Files

/-- The fault of that number and wording of the system. -/
def faultOfCode (code : UInt32) (wording : String) : Fault :=
  match code.toNat with
  | 2 => .noSuchFile
  | 17 => .alreadyExists
  | 20 => .notDirectory
  | 21 => .isDirectory
  | 36 => .nameTooLong
  | 40 => .tooManyLinks
  | n => .other (wording ++ " (os error " ++ toString n ++ ")")

/-- The fault that an error of the system is. -/
def faultOf : IO.Error → Fault
  | .alreadyExists _ code wording | .invalidArgument _ code wording
  | .permissionDenied _ code wording | .resourceExhausted _ code wording
  | .inappropriateType _ code wording | .noSuchThing _ code wording
  | .interrupted _ code wording | .noFileOrDirectory _ code wording
  | .otherError code wording | .resourceBusy code wording | .resourceVanished code wording
  | .unsupportedOperation code wording | .hardwareFault code wording
  | .unsatisfiedConstraints code wording | .illegalOperation code wording
  | .protocolError code wording | .timeExpired code wording => faultOfCode code wording
  | .unexpectedEof => .other "unexpected end of file"
  | .userError wording => .other wording

/-- What comes of an action, its error as a fault. -/
def attempt {α : Type} (action : IO α) : IO (Except Fault α) := do
  try
    return .ok (← action)
  catch e =>
    return .error (faultOf e)

/-- What comes of an action on a path. -/
def attemptAt {α : Type} (text : String) (action : IO α) : IO (Except Fault α) :=
  if (Files.Path.mk text).hasNull then pure (.error .nullInPath) else attempt action

/-- The file or directory at a path. -/
def entryAt (text : String) : IO.FS.DirEntry := ⟨".", text⟩

/-- Reads a file as a text. -/
def readText (text : String) : IO (Except Fault String) := do
  return (← attemptAt text (IO.FS.readBinFile text)).bind decode

/-- Whether there is a directory at a path. -/
def isDirectoryAt (text : String) : IO Bool := do
  match ← attemptAt text (entryAt text).path.metadata with
  | .ok found => return text ≠ "" && found.type == .dir
  | .error _ => return false

/-- Whether a path leads to a file, links being followed. -/
def isFileAt (text : String) : IO Bool := do
  match ← attemptAt text (entryAt text).path.metadata with
  | .ok found => return found.type == .file
  | .error _ => return false

/-- The entries of a directory with everything below them. -/
partial def listingsAt (directory : Files.Path) : IO (Except Fault (List Listing)) := do
  match ← attemptAt directory.text (entryAt directory.text).path.readDir with
  | .error fault => return .error fault
  | .ok entries =>
    let mut found := []
    for entry in entries do
      let name := entry.fileName
      let path := directory.push name
      let listing ← match ← attempt entry.path.symlinkMetadata with
        | .error fault => pure (Listing.sealedDirectory name fault)
        | .ok status =>
          if status.type == .dir then
            match ← listingsAt path with
            | .ok entries => pure (Listing.directory name entries)
            | .error fault => pure (Listing.sealedDirectory name fault)
          else if ← isFileAt path.text then
            pure (Listing.file name (← readText path.text))
          else pure (Listing.other name)
      found := found ++ [listing]
    return .ok found

/-- What is found at a path. -/
def foundAt (path : Files.Path) : IO Found := do
  if ← isDirectoryAt path.text then
    match ← listingsAt path with
    | .ok entries => return .directory entries
    | .error fault => return .sealedDirectory fault
  else return .file (← readText path.text)

/-- What is found around the program when it runs with these inputs. -/
def hostFor (inputs : Inputs) : IO Host := do
  let named := inputs.paths ++ inputs.manifests
  let stdin ← if named.any Inputs.isStdin then
      attempt (do (← IO.getStdin).readBinToEnd)
    else pure (.ok ByteArray.empty)
  let files := named.filter fun p => !Inputs.isStdin p
  let found ← files.mapM fun p => do return (p, ← foundAt p)
  let isTerminal := (← (← IO.getStdout).isTty) && (← (← IO.getStderr).isTty)
  return {
    surroundings := {
      stdin := stdin.bind decode
      look := fun p => ((found.find? fun entry => entry.1 == p).map Prod.snd).getD
        (.file (.error .noSuchFile)) }
    isTerminal }

/-- The disk of the system. -/
def systemDisk : Disk IO where
  isDirectory p := isDirectoryAt p.text
  makeDirectory p := attemptAt p.text (IO.FS.createDir p.text)
  write p text := attemptAt p.text (IO.FS.writeFile p.text text)

end ViewBinding

open ViewBinding in
/-- Runs the program. -/
def main (arguments : List String) : IO UInt32 := do
  let inputs := match Command.parse arguments with
    | .ok command => command.common.inputs
    | .error _ => ⟨[], none, []⟩
  let outcome ← runProgram systemDisk (← hostFor inputs) arguments
  IO.eprint outcome.stderr
  IO.print outcome.stdout
  return UInt32.ofNat outcome.status
