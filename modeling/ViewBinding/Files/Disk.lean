import ViewBinding.Files.Fault
import ViewBinding.Files.Path

/-!
# Disks

A disk is whatever files can be written to. It is given by what it does for one path;
`ViewBinding.Files.Disk.makeDirectories` creates a directory together with all that are missing
above it, from the lowest that is there on down.
-/

namespace ViewBinding.Files

/-- What a disk can do. -/
structure Disk (m : Type → Type) where
  /-- Whether there is a directory at a path. -/
  isDirectory : Path → m Bool
  /-- Creates one directory. -/
  makeDirectory : Path → m (Except Fault Unit)
  /-- Creates a file or replaces its content. -/
  write : Path → String → m (Except Fault Unit)

namespace Disk

variable {m : Type → Type} [Monad m]

/-- A fault in creating a directory is none if the directory is there. -/
def excuse (d : Disk m) (p : Path) (fault : Fault) : m (Except Fault Unit) := do
  if ← d.isDirectory p then pure (.ok ()) else pure (.error fault)

/-- Creates a directory and all that are missing above it. The fuel bounds the number of its
components. -/
def makeUpward (d : Disk m) : Nat → Path → m (Except Fault Unit)
  | 0, _ => pure (.ok ())
  | fuel + 1, p =>
    match p.parent? with
    | none => pure (.ok ())
    | some above => do
      match ← d.makeDirectory p with
      | .ok () => pure (.ok ())
      | .error .noSuchFile =>
        match ← d.makeUpward fuel above with
        | .error fault => pure (.error fault)
        | .ok () =>
          match ← d.makeDirectory p with
          | .ok () => pure (.ok ())
          | .error fault => d.excuse p fault
      | .error fault => d.excuse p fault

/-- Creates a directory and all that are missing above it. -/
def makeDirectories (d : Disk m) (p : Path) : m (Except Fault Unit) :=
  d.makeUpward (p.components.length + 1) p

end Disk

end ViewBinding.Files
