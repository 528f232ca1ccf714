import Mathlib.Data.List.Perm.Basic
import ViewBinding.Files.Listing

/-!
# Reading directories one after the other

`ViewBinding.Files.gather` works on a list of directories. What it is to find can be said without
that list, by recursion over the entries: all Java files at or below them
(`ViewBinding.Files.filesBelow`). It finds just these if all directories at or below them can be
read (`ViewBinding.Files.gather_perm`); otherwise it stops at one of those that cannot
(`ViewBinding.Files.gather_error`).
-/

namespace ViewBinding.Files

open scoped List

mutual

/-- The Java files at or below an entry of the directory `dir`. -/
def Listing.filesBelow (dir : Path) : Listing → List FoundFile
  | .directory name entries => Files.filesBelow (dir.push name) entries
  | .sealedDirectory _ _ => []
  | .file name content => ((Listing.file name content).javaFile? dir).toList
  | .other _ => []

/-- The Java files at or below entries of the directory `dir`. -/
def filesBelow (dir : Path) : List Listing → List FoundFile
  | [] => []
  | entry :: entries => entry.filesBelow dir ++ filesBelow dir entries

end

mutual

/-- The directories at or below an entry of the directory `dir` that cannot be read. -/
def Listing.sealedBelow (dir : Path) : Listing → List Sealed
  | .directory name entries => Files.sealedBelow (dir.push name) entries
  | .sealedDirectory name fault => [⟨dir.push name, fault⟩]
  | .file _ _ => []
  | .other _ => []

/-- The directories at or below entries of the directory `dir` that cannot be read. -/
def sealedBelow (dir : Path) : List Listing → List Sealed
  | [] => []
  | entry :: entries => entry.sealedBelow dir ++ sealedBelow dir entries

end

namespace Pending

/-- The Java files below a directory. -/
def filesBelow (p : Pending) : List FoundFile :=
  match p.entries with
  | .ok entries => Files.filesBelow p.path entries
  | .error _ => []

/-- The directory and those below it if they cannot be read. -/
def sealedBelow (p : Pending) : List Sealed :=
  match p.entries with
  | .ok entries => Files.sealedBelow p.path entries
  | .error fault => [⟨p.path, fault⟩]

end Pending

variable {dir : Path} {entries : List Listing} {files all : List FoundFile}
  {pending : List Pending} {s : Sealed}

theorem javaFilesAmong_cons (dir : Path) (entry : Listing) (entries : List Listing) :
    javaFilesAmong dir (entry :: entries) =
      (entry.javaFile? dir).toList ++ javaFilesAmong dir entries := by
  rw [javaFilesAmong, List.filterMap_cons]
  cases entry.javaFile? dir <;> rfl

/-! ### One directory -/

/-- The files of an entry are itself, if it is one, and those of the directory that it is. -/
theorem Listing.filesBelow_eq (dir : Path) (entry : Listing) :
    entry.filesBelow dir = (entry.javaFile? dir).toList ++
      (entry.pending? dir).toList.flatMap Pending.filesBelow := by
  cases entry <;> simp [filesBelow, javaFile?, pending?, Pending.filesBelow]

theorem Listing.sealedBelow_eq (dir : Path) (entry : Listing) :
    entry.sealedBelow dir = (entry.pending? dir).toList.flatMap Pending.sealedBelow := by
  cases entry <;> simp [sealedBelow, pending?, Pending.sealedBelow]

/-- The files below a directory are those in it and those below the directories in it. -/
theorem filesBelow_perm (dir : Path) (entries : List Listing) :
    (filesBelow dir entries).Perm
      (javaFilesAmong dir entries ++ (pendingAmong dir entries).flatMap Pending.filesBelow) := by
  induction entries with
  | nil => exact .refl _
  | cons entry entries ih =>
    rw [filesBelow, Listing.filesBelow_eq, javaFilesAmong_cons, pendingAmong_cons,
      List.flatMap_append, List.append_assoc, List.append_assoc]
    refine .append_left _ ?_
    calc (entry.pending? dir).toList.flatMap Pending.filesBelow ++ filesBelow dir entries
        ~ (entry.pending? dir).toList.flatMap Pending.filesBelow ++
            (javaFilesAmong dir entries ++
              (pendingAmong dir entries).flatMap Pending.filesBelow) := ih.append_left _
      _ ~ javaFilesAmong dir entries ++
            ((entry.pending? dir).toList.flatMap Pending.filesBelow ++
              (pendingAmong dir entries).flatMap Pending.filesBelow) :=
          List.perm_append_comm_assoc _ _ _

theorem sealedBelow_eq (dir : Path) (entries : List Listing) :
    sealedBelow dir entries = (pendingAmong dir entries).flatMap Pending.sealedBelow := by
  induction entries with
  | nil => rfl
  | cons entry entries ih =>
    rw [sealedBelow, Listing.sealedBelow_eq, pendingAmong_cons, List.flatMap_append, ih]

/-! ### All of them -/

/-- **All Java files are gathered**, each one as often as it is there, if all directories can be
read. -/
theorem gather_perm (h : gather files pending = .ok all) :
    all.Perm (files ++ pending.flatMap Pending.filesBelow) ∧
      pending.flatMap Pending.sealedBelow = [] := by
  fun_induction gather files pending with
  | case1 files =>
    cases h
    simp
  | case2 => cases h
  | case3 files dir entries pending ih =>
    obtain ⟨hfiles, hsealed⟩ := ih h
    rw [List.flatMap_append, List.append_eq_nil_iff, List.flatMap_eq_nil_iff] at hsealed
    constructor
    · calc all
          ~ files ++ javaFilesAmong dir entries ++
              ((pendingAmong dir entries).reverse ++ pending).flatMap Pending.filesBelow := hfiles
        _ ~ files ++ (javaFilesAmong dir entries ++
              (pendingAmong dir entries).flatMap Pending.filesBelow ++
              pending.flatMap Pending.filesBelow) := by
          rw [List.append_assoc, List.flatMap_append, ← List.append_assoc (javaFilesAmong _ _)]
          exact ((((List.reverse_perm _).flatMap_right _).append_left _).append_right _).append_left
            files
        _ ~ files ++ (filesBelow dir entries ++ pending.flatMap Pending.filesBelow) :=
          ((filesBelow_perm dir entries).symm.append_right _).append_left _
    · rw [List.flatMap_cons, hsealed.2, List.append_nil]
      change sealedBelow dir entries = []
      rw [sealedBelow_eq, List.flatMap_eq_nil_iff]
      exact fun p hp => hsealed.1 p (List.mem_reverse.mpr hp)

/-- **What is reported cannot be read.** -/
theorem gather_error (h : gather files pending = .error s) :
    s ∈ pending.flatMap Pending.sealedBelow := by
  fun_induction gather files pending with
  | case1 => cases h
  | case2 files dir fault pending =>
    cases h
    simp [Pending.sealedBelow]
  | case3 files dir entries pending ih =>
    rw [List.flatMap_cons, List.mem_append]
    change s ∈ sealedBelow dir entries ∨ _
    rw [sealedBelow_eq]
    rcases List.mem_append.mp (List.flatMap_append ▸ ih h) with hin | hlater
    · obtain ⟨p, hp, hs⟩ := List.mem_flatMap.mp hin
      exact .inl (List.mem_flatMap.mpr ⟨p, List.mem_reverse.mp hp, hs⟩)
    · exact .inr hlater

end ViewBinding.Files
