import ViewBinding.Files.Disk
import ViewBinding.Files.Listing

/-!
# Trees of files

A file system as a value: directories, files and symbolic links below one root, and the directory
from which relative paths start. `ViewBinding.Files.Tree.walk` follows a path piece by piece; a
link is replaced by the path it holds, and a path may lead through forty of them. How long names
and paths may be is a matter of `ViewBinding.Files.Limits`: those of the system are 255 and 4095
bytes, and an ideal file system has none.

Reading never fails once a file is found, but for its content. Writing creates a file or replaces
its content (`ViewBinding.Files.Tree.write`). With its operations a tree is a disk
(`ViewBinding.Files.Tree.disk`, and `ViewBinding.Files.Tree.diskWithin` for other limits).
-/

namespace ViewBinding.Files

/-- An entry of a directory. -/
inductive Entry
  | file (name : String) (bytes : ByteArray)
  | directory (name : String) (entries : List Entry)
  | link (name : String) (target : String)

namespace Entry

/-- The name of an entry. -/
def name : Entry → String
  | file name _ => name
  | directory name _ => name
  | link name _ => name

/-- The entries of a directory; nothing else has any. -/
def entries : Entry → List Entry
  | directory _ entries => entries
  | _ => []

/-- Whether the entry is a directory. -/
def isDirectory : Entry → Bool
  | directory _ _ => true
  | _ => false

/-- The entry of that name. -/
def child? (e : Entry) (name : String) : Option Entry :=
  e.entries.find? fun c => c.name == name

/-- The entry that a chain of names leads to. -/
def at? (e : Entry) : List String → Option Entry
  | [] => some e
  | name :: names => (e.child? name).bind fun c => c.at? names

/-- Puts an entry among others, in the place of the one of its name or at the end. -/
def putAmong (new : Entry) : List Entry → List Entry
  | [] => [new]
  | e :: es => if e.name = new.name then new :: es else e :: putAmong new es

/-- Puts an entry into the directory that a chain of names leads to. -/
def putAt (new : Entry) : List String → Entry → Entry
  | [], .directory name entries => .directory name (putAmong new entries)
  | next :: names, .directory name entries =>
    .directory name (entries.map fun c => if c.name = next then putAt new names c else c)
  | _, e => e

end Entry

/-- A file system. -/
structure Tree where
  root : Entry
  /-- The names that lead from the root to the directory where relative paths start. -/
  current : List String

/-- Where a path leads. -/
inductive Goal
  /-- To the entry that a chain of names leads to. -/
  | entry (chain : List String) (e : Entry)
  /-- To a name that is still free in a directory; the path ends in a slash or not. -/
  | free (chain : List String) (name : String) (slash : Bool)

/-- How many bytes names and paths may have; without a number they may have any. -/
structure Limits where
  name : Option Nat
  path : Option Nat
deriving DecidableEq, Repr

namespace Limits

/-- The limits of the system. -/
def system : Limits := ⟨some 255, some 4095⟩

/-- No limits. -/
def unbounded : Limits := ⟨none, none⟩

/-- Whether a text has more bytes than a limit allows. -/
def exceeds (limit : Option Nat) (text : String) : Bool :=
  limit.any fun size => size < text.utf8ByteSize

end Limits

namespace Tree

/-- How many links a path may lead through. -/
def maxLinks : Nat := 40

/-- Where the pieces of a path lead from the entry at the end of `chain`. A link in the last
place is followed if `follow` says so, one in another place always. -/
def walk (t : Tree) (limits : Limits) (follow : Bool) :
    Nat → List String → List String → Except Fault Goal
  | _, chain, [] =>
    match t.root.at? chain with
    | some e => .ok (.entry chain e)
    | none => .error .noSuchFile
  | links, chain, piece :: rest =>
    match t.root.at? chain with
    | none => .error .noSuchFile
    | some e =>
      if !e.isDirectory then .error .notDirectory
      else if piece = "" || piece = "." then t.walk limits follow links chain rest
      else if piece = ".." then t.walk limits follow links chain.dropLast rest
      else if Limits.exceeds limits.name piece then .error .nameTooLong
      else
        match e.child? piece with
        | none =>
          if rest.all (· == "") then .ok (.free chain piece (!rest.isEmpty))
          else .error .noSuchFile
        | some (.link _ target) =>
          if rest.isEmpty && !follow then .ok (.entry (chain ++ [piece]) (.link piece target))
          else
            match links with
            | 0 => .error .tooManyLinks
            | links + 1 =>
              let start := if (Path.mk target).isAbsolute then [] else chain
              let pieces := (Text.pieces '/' target.toList).map String.ofList
              t.walk limits follow links start (pieces ++ rest)
        | some _ => t.walk limits follow links (chain ++ [piece]) rest
  termination_by links _ todo => (links, todo.length)

/-- Where a path leads. -/
def find (t : Tree) (follow : Bool) (p : Path) (limits : Limits := .system) :
    Except Fault Goal :=
  if p.hasNull then .error .nullInPath
  else if p.text = "" then .error .noSuchFile
  else if Limits.exceeds limits.path p.text then .error .nameTooLong
  else
    let pieces := (Text.pieces '/' p.text.toList).map String.ofList
    t.walk limits follow maxLinks (if p.isAbsolute then [] else t.current) pieces

/-! ### Reading -/

/-- What comes of reading the file that a walk leads to. -/
def readGoal : Except Fault Goal → Except Fault String
  | .error fault => .error fault
  | .ok (.free _ _ _) => .error .noSuchFile
  | .ok (.entry _ (.file _ bytes)) => decode bytes
  | .ok (.entry _ _) => .error .isDirectory

mutual

/-- An entry of the directory at the path `dir` with everything below it. -/
def listing (t : Tree) (limits : Limits) (dir : Path) : Entry → Listing
  | .file name _ => .file name (readGoal (t.find true (dir.push name) limits))
  | .directory name entries =>
    match t.find true (dir.push name) limits with
    | .error fault => .sealedDirectory name fault
    | .ok _ => .directory name (t.listings limits (dir.push name) entries)
  | .link name _ =>
    match t.find true (dir.push name) limits with
    | .ok (.entry _ (.file _ bytes)) => .file name (decode bytes)
    | _ => .other name

/-- Entries of the directory at the path `dir` with everything below them. -/
def listings (t : Tree) (limits : Limits) (dir : Path) : List Entry → List Listing
  | [] => []
  | e :: es => t.listing limits dir e :: t.listings limits dir es

end

/-- What is found at a path where names and paths keep to limits. -/
def lookWithin (t : Tree) (limits : Limits) (p : Path) : Found :=
  match t.find true p limits with
  | .ok (.entry _ (.directory _ entries)) => .directory (t.listings limits p entries)
  | goal => .file (readGoal goal)

/-- The entries of a directory where names and paths keep to limits. -/
def listWithin (t : Tree) (limits : Limits) (p : Path) : Except Fault (List Listing) :=
  match t.find true p limits with
  | .error fault => .error fault
  | .ok (.free _ _ _) => .error .noSuchFile
  | .ok (.entry _ (.directory _ entries)) => .ok (t.listings limits p entries)
  | .ok (.entry _ _) => .error .notDirectory

/-- What is found at a path, with the limits of the system. -/
def look (t : Tree) (p : Path) : Found :=
  t.lookWithin .system p

/-- The entries of a directory, with the limits of the system. -/
def list (t : Tree) (p : Path) : Except Fault (List Listing) :=
  t.listWithin .system p

/-- The Java files below the directory at a path. -/
def javaFiles (t : Tree) (dir : Path) (limits : Limits := .system) :
    Except Sealed (List FoundFile) :=
  match t.listWithin limits dir with
  | .error fault => .error ⟨dir, fault⟩
  | .ok entries => Files.javaFiles dir entries

/-- Whether there is a directory at the path. -/
def isDirectory (t : Tree) (p : Path) (limits : Limits := .system) : Bool :=
  match t.find true p limits with
  | .ok (.entry _ e) => e.isDirectory
  | _ => false

/-! ### Writing -/

/-- Creates a file or replaces its content. -/
def write (t : Tree) (p : Path) (text : String) (limits : Limits := .system) :
    Except Fault Tree :=
  let put (chain : List String) (name : String) : Tree :=
    { t with root := Entry.putAt (.file name text.toUTF8) chain t.root }
  match t.find true p limits with
  | .error fault => .error fault
  | .ok (.free chain name false) => .ok (put chain name)
  | .ok (.free _ _ true) => .error .isDirectory
  | .ok (.entry chain (.file name _)) => .ok (put chain.dropLast name)
  | .ok (.entry _ _) => .error .isDirectory

/-- Creates one directory. -/
def makeDirectory (t : Tree) (p : Path) (limits : Limits := .system) : Except Fault Tree :=
  match t.find false p limits with
  | .error fault => .error fault
  | .ok (.free chain name _) =>
    .ok { t with root := Entry.putAt (.directory name []) chain t.root }
  | .ok (.entry _ _) => .error .alreadyExists

/-- Does what may change the tree, and leaves it as it is if that fails. -/
def attempt (change : Tree → Except Fault Tree) : StateM Tree (Except Fault Unit) := do
  match change (← get) with
  | .ok t => set t; return .ok ()
  | .error fault => return .error fault

/-- The disk whose state is a tree, where names and paths keep to limits. -/
def diskWithin (limits : Limits) : Disk (StateM Tree) where
  isDirectory p := return (← get).isDirectory p limits
  makeDirectory p := attempt fun t => t.makeDirectory p limits
  write p text := attempt fun t => t.write p text limits

/-- The disk whose state is a tree, with the limits of the system. -/
def disk : Disk (StateM Tree) :=
  diskWithin .system

end Tree

end ViewBinding.Files
