import ViewBinding.Files.Fault
import ViewBinding.Files.Path

/-!
# What is found at a path

A `ViewBinding.Files.Listing` is an entry of a directory as it was found, with everything below
it. A symbolic link to a file counts as a file; one to anything else, or to nothing, is never
followed, so that a listing is finite whatever the links are.

`ViewBinding.Files.javaFiles` finds the Java files of a directory: all files below it whose name
has the extension `java`, in the order of their paths. It keeps a list of the directories still to
be read (`ViewBinding.Files.gather`), from which each is taken before those that were found earlier.
-/

namespace ViewBinding.Files

/-- An entry of a directory and everything below it. -/
inductive Listing
  | file (name : String) (content : Except Fault String)
  | directory (name : String) (entries : List Listing)
  /-- A directory whose entries cannot be read. -/
  | sealedDirectory (name : String) (fault : Fault)
  /-- Neither a file nor a directory. -/
  | other (name : String)

/-- What is found at a path, links being followed. -/
inductive Found
  | directory (entries : List Listing)
  /-- A directory whose entries cannot be read. -/
  | sealedDirectory (fault : Fault)
  /-- Anything else, with what comes of reading it. -/
  | file (content : Except Fault String)

/-- What comes of reading what was found as a text. -/
def Found.read : Found → Except Fault String
  | directory _ => .error .isDirectory
  | sealedDirectory _ => .error .isDirectory
  | file content => content

/-- A directory that is still to be read, with its entries. -/
structure Pending where
  path : Path
  entries : Except Fault (List Listing)

/-- A file that was found, with what comes of reading it. -/
structure FoundFile where
  path : Path
  content : Except Fault String

/-- The path of a directory that cannot be read, and why. -/
structure Sealed where
  path : Path
  fault : Fault
deriving DecidableEq, Repr

namespace Listing

/-- The Java file that an entry of the directory `dir` is, if it is one. -/
def javaFile? (dir : Path) : Listing → Option FoundFile
  | .file name content =>
    if (dir.push name).extension? = some "java" then some ⟨dir.push name, content⟩ else none
  | _ => none

/-- The directory that an entry of the directory `dir` is, if it is one. -/
def pending? (dir : Path) : Listing → Option Pending
  | .directory name entries => some ⟨dir.push name, .ok entries⟩
  | .sealedDirectory name fault => some ⟨dir.push name, .error fault⟩
  | _ => none

end Listing

/-- The Java files among the entries of the directory `dir`. -/
def javaFilesAmong (dir : Path) (entries : List Listing) : List FoundFile :=
  entries.filterMap (Listing.javaFile? dir)

/-- The directories among the entries of the directory `dir`. -/
def pendingAmong (dir : Path) (entries : List Listing) : List Pending :=
  entries.filterMap (Listing.pending? dir)

mutual

/-- How many directories there are at or below an entry. -/
def Listing.directories : Listing → Nat
  | .directory _ entries => directoriesAmong entries + 1
  | .sealedDirectory _ _ => 1
  | _ => 0

/-- How many directories there are at or below entries. -/
def directoriesAmong : List Listing → Nat
  | [] => 0
  | entry :: entries => entry.directories + directoriesAmong entries

end

/-- How many directories are to be read from this one on. -/
def Pending.directories (p : Pending) : Nat :=
  match p.entries with
  | .ok entries => directoriesAmong entries + 1
  | .error _ => 1

/-- How many directories are to be read from these on. -/
def pendingDirectories : List Pending → Nat
  | [] => 0
  | p :: pending => p.directories + pendingDirectories pending

theorem pendingDirectories_append (pending pending' : List Pending) :
    pendingDirectories (pending ++ pending') =
      pendingDirectories pending + pendingDirectories pending' := by
  induction pending with
  | nil => exact (Nat.zero_add _).symm
  | cons p pending ih =>
    rw [List.cons_append, pendingDirectories, pendingDirectories, ih, Nat.add_assoc]

theorem pendingDirectories_reverse (pending : List Pending) :
    pendingDirectories pending.reverse = pendingDirectories pending := by
  induction pending with
  | nil => rfl
  | cons p pending ih =>
    rw [List.reverse_cons, pendingDirectories_append, ih, Nat.add_comm]
    rfl

theorem pendingAmong_cons (dir : Path) (entry : Listing) (entries : List Listing) :
    pendingAmong dir (entry :: entries) =
      (entry.pending? dir).toList ++ pendingAmong dir entries := by
  rw [pendingAmong, List.filterMap_cons]
  cases entry.pending? dir <;> rfl

theorem pendingDirectories_pendingAmong (dir : Path) (entries : List Listing) :
    pendingDirectories (pendingAmong dir entries) = directoriesAmong entries := by
  induction entries with
  | nil => rfl
  | cons entry entries ih =>
    rw [pendingAmong_cons, pendingDirectories_append, ih, directoriesAmong]
    cases entry <;> rfl

/-- Reads the directories one after the other: adds the Java files of each to those that are
there already, and puts the directories in it in front of those still to be read, the last one
first. -/
def gather (files : List FoundFile) : List Pending → Except Sealed (List FoundFile)
  | [] => .ok files
  | ⟨dir, .error fault⟩ :: _ => .error ⟨dir, fault⟩
  | ⟨dir, .ok entries⟩ :: pending =>
    gather (files ++ javaFilesAmong dir entries) ((pendingAmong dir entries).reverse ++ pending)
termination_by pending => pendingDirectories pending
decreasing_by
  simp only [pendingDirectories_append, pendingDirectories_reverse,
    pendingDirectories_pendingAmong, pendingDirectories, Pending.directories]
  omega

/-- The files in the order of their paths. -/
def sortFiles (files : List FoundFile) : List FoundFile :=
  files.mergeSort fun a b => (compare a.path b.path).isLE

/-- The Java files below a directory with these entries. -/
def javaFiles (dir : Path) (entries : List Listing) : Except Sealed (List FoundFile) :=
  (gather [] [⟨dir, .ok entries⟩]).map sortFiles

end ViewBinding.Files
