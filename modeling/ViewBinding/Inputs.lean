import ViewBinding.Files.Listing
import ViewBinding.Source

/-!
# Inputs

What a round is to read is named by an optional text, paths to Java sources, and paths to
manifests. `ViewBinding.Inputs.load` reads them, given what is found at each path: first the text,
then the sources in order, each directory standing for the Java files below it, then the
manifests. The path `-` stands for the standard input, which may be named only once; after it has
been read nothing is left of it. Reading stops at the first input that fails.
-/

namespace ViewBinding

open Files

/-- Where the inputs of a round are. -/
structure Inputs where
  /-- Java files and directories. -/
  paths : List Path
  /-- A Java text. -/
  text : Option String
  manifests : List Path
deriving DecidableEq, Repr, Inhabited

/-- The inputs of a round. -/
structure Loaded where
  sources : Sources
  manifests : Sources
deriving DecidableEq, Repr, Inhabited

/-- Why inputs cannot be loaded. -/
inductive LoadError
  | stdin (fault : Fault)
  | file (path : Path) (fault : Fault)
  | directory (path : Path) (fault : Fault)
  /-- There are no Java files in a directory. -/
  | noJavaFiles (path : Path)
  /-- The standard input is named more than once. -/
  | stdinTwice
  /-- Nothing is named. -/
  | nothing
deriving DecidableEq, Repr

/-- The wording of an error. -/
def LoadError.message : LoadError → String
  | .stdin fault => "failed to read stdin: " ++ fault.message
  | .file path fault => "failed to read '" ++ path.text ++ "': " ++ fault.message
  | .directory path fault => "failed to read directory '" ++ path.text ++ "': " ++ fault.message
  | .noJavaFiles path => "no .java files found in '" ++ path.text ++ "'"
  | .stdinTwice => "stdin can only be used for one input"
  | .nothing => "nothing to scan: pass Java paths, -s/--source or --manifest"

/-- What can be read: the standard input and what is found at each path. -/
structure Surroundings where
  stdin : Except Fault String
  look : Path → Found

namespace Inputs

/-- Whether the path stands for the standard input. -/
def isStdin (p : Path) : Bool :=
  p.text == "-"

/-- How often the standard input is named. -/
def stdinCount (i : Inputs) : Nat :=
  (i.paths ++ i.manifests).countP isStdin

/-- The source that a text is which was to be read from a file. -/
def fileSource (path : Path) : Except Fault String → Except LoadError Source
  | .ok content => .ok ⟨.file path.text, content⟩
  | .error fault => .error (.file path fault)

/-- The standard input as a source. -/
def stdinSource (s : Surroundings) : Except LoadError Source :=
  match s.stdin with
  | .ok content => .ok ⟨.stdin, content⟩
  | .error fault => .error (.stdin fault)

/-- The sources that files are. -/
def fileSources : List FoundFile → Except LoadError Sources
  | [] => .ok []
  | f :: files => do
    let source ← fileSource f.path f.content
    return source :: (← fileSources files)

/-- The sources that a path to Java stands for. -/
def javaSources (s : Surroundings) (p : Path) : Except LoadError Sources :=
  if isStdin p then (stdinSource s).map fun source => [source]
  else
    match s.look p with
    | .directory entries =>
      match javaFiles p entries with
      | .error unread => .error (.directory unread.path unread.fault)
      | .ok [] => .error (.noJavaFiles p)
      | .ok files => fileSources files
    | .sealedDirectory fault => .error (.directory p fault)
    | .file content => (fileSource p content).map fun source => [source]

/-- The manifest that a path stands for. -/
def manifestSource (s : Surroundings) (p : Path) : Except LoadError Source :=
  if isStdin p then stdinSource s else fileSource p (s.look p).read

/-- What can be read once a path has been read: nothing is left of the standard input then. -/
def after (s : Surroundings) (p : Path) : Surroundings :=
  if isStdin p then { s with stdin := .ok "" } else s

/-- The sources that paths to Java stand for, one after the other. -/
def allJavaSources (s : Surroundings) : List Path → Except LoadError Sources
  | [] => .ok []
  | p :: paths => do
    let first ← javaSources s p
    return first ++ (← allJavaSources (after s p) paths)

/-- The manifests that paths stand for, one after the other. -/
def allManifests (s : Surroundings) : List Path → Except LoadError Sources
  | [] => .ok []
  | p :: paths => do
    let first ← manifestSource s p
    return first :: (← allManifests (after s p) paths)

/-- The sources that a text and paths to Java stand for. -/
def loadSources (s : Surroundings) (text : Option String) (paths : List Path) :
    Except LoadError Sources := do
  let first := text.toList.map fun content => Source.mk .inline content
  return first ++ (← allJavaSources s paths)

/-- Reads the inputs. -/
def load (s : Surroundings) (i : Inputs) : Except LoadError Loaded := do
  if i.stdinCount > 1 then throw .stdinTwice
  let sources ← loadSources s i.text i.paths
  let manifests ← allManifests (i.paths.foldl after s) i.manifests
  if sources.isEmpty && manifests.isEmpty then throw .nothing
  return ⟨sources, manifests⟩

end Inputs

end ViewBinding
