import ViewBinding.Emission
import ViewBinding.Proofs.Companion.PerType
import ViewBinding.Proofs.Files.Inside
import ViewBinding.Proofs.Scan.Owners

/-!
# Where companions are stored

The path of a companion is put together from the segments of its package and the name of its
class. A segment is whatever the source has between two full stops of its package, comments
included, so it may start with a slash; the path is then absolute, and the directory that it was
to lead on from is lost. `ViewBinding.Companion.PartsStay` says of the parts what keeps the path
inside (`ViewBinding.Companion.path_isInside_iff`). The types of manifests always do.

If the parts of all companions stay, storing them on a disk writes below the given directory only:
what the disk does elsewhere does not matter (`ViewBinding.Companion.emit_store_congr`).
-/

namespace ViewBinding

open Java Text Files

namespace Companion

variable {c : Companion} {fields : List BoundField}

/-! ### The parts of a path -/

/-- The name of the file in its directory. -/
def fileName (c : Companion) : String :=
  c.name ++ ".java"

/-- The names of the directories. -/
def directories (c : Companion) : List String :=
  (segments c.package).filter fun segment => segment ≠ ""

theorem path_eq (c : Companion) :
    c.path = (c.directories.foldl Path.push ⟨""⟩).push c.fileName :=
  rfl

/-- **The parts of the path stay inside**: none of them is absolute, and the name of the file does
not lead up, nor does it put a full stop at the start. -/
structure PartsStay (c : Companion) : Prop where
  package : ∀ segment ∈ segments c.package, (Files.Path.mk segment).isAbsolute = false
  file : (Files.Path.mk c.fileName).isAbsolute = false
  up : Component.up ∉ (Files.Path.mk c.fileName).components
  here : Component.here ∈ (Files.Path.mk c.fileName).components → ∃ s ∈ segments c.package, s ≠ ""

theorem dot_not_mem_of_mem_segments {s segment : String} (h : segment ∈ segments s) :
    '.' ∉ segment.toList := by
  obtain ⟨piece, hpiece, rfl⟩ := List.mem_map.mp h
  intro hdot
  rw [String.toList_ofList] at hdot
  exact (exists_mem_pieces_iff.mp ⟨piece, hpiece, hdot⟩).2 rfl

theorem mem_directories {segment : String} :
    segment ∈ c.directories ↔ segment ∈ segments c.package ∧ segment ≠ "" := by
  simp [directories]

theorem isAbsolute_path (c : Companion) :
    c.path.isAbsolute = false ↔
      (∀ segment ∈ segments c.package, (Files.Path.mk segment).isAbsolute = false) ∧
        (Files.Path.mk c.fileName).isAbsolute = false := by
  have hdirectories : (∀ segment ∈ c.directories, (Files.Path.mk segment).isAbsolute = false) ↔
      ∀ segment ∈ segments c.package, (Files.Path.mk segment).isAbsolute = false := by
    -- the empty segments that are left out are not absolute
    refine ⟨fun h segment hmem => ?_, fun h segment hmem => h segment (mem_directories.mp hmem).1⟩
    by_cases hempty : segment = ""
    · rw [hempty]
      rfl
    · exact h segment (mem_directories.mpr ⟨hmem, hempty⟩)
  rw [path_eq, Path.isAbsolute_push, Path.isAbsolute_foldl_push, ← hdirectories,
    Bool.or_eq_false_iff, Bool.or_eq_false_iff, List.any_eq_false]
  simp [Path.isAbsolute]

section Relative

variable (hpackage : ∀ segment ∈ segments c.package, (Files.Path.mk segment).isAbsolute = false)
  (hfile : (Files.Path.mk c.fileName).isAbsolute = false)

include hpackage hfile

theorem inner_path :
    c.path.inner = (c.directories.flatMap fun segment => (Files.Path.mk segment).inner)
      ++ (Files.Path.mk c.fileName).inner := by
  rw [path_eq, Path.inner_push _ hfile,
    Path.inner_foldl_push _ fun segment hmem => hpackage segment (mem_directories.mp hmem).1]
  rfl

/-- What a path starts with is up to its first part. -/
theorem opening_path :
    c.path.opening = if c.directories = [] then (Files.Path.mk c.fileName).opening else [] := by
  have hrelative : ∀ segment ∈ c.directories, (Files.Path.mk segment).isAbsolute = false :=
    fun segment hmem => hpackage segment (mem_directories.mp hmem).1
  rw [path_eq]
  split
  · rename_i hnil
    rw [hnil, List.foldl_nil, Path.push_empty]
  · cases hd : c.directories with
    | nil => contradiction
    | cons first rest =>
      have hmem : first ∈ c.directories := hd ▸ List.mem_cons_self
      have hne : (Files.Path.mk first).text ≠ "" := (mem_directories.mp hmem).2
      have hrest : ∀ segment ∈ rest, (Files.Path.mk segment).isAbsolute = false :=
        fun segment h => hrelative segment (hd ▸ List.mem_cons_of_mem first h)
      -- from the first segment on the opening stays, and a segment has no full stop to start with
      rw [List.foldl_cons, Path.push_empty,
        Path.opening_push (Path.text_foldl_push_ne_empty hne hrest) hfile,
        Path.opening_foldl_push hne hrest]
      exact Path.opening_eq_nil (dot_not_mem_of_mem_segments (mem_directories.mp hmem).1)
        (hrelative first hmem)

theorem up_mem_inner_path : .up ∈ c.path.inner ↔ .up ∈ (Files.Path.mk c.fileName).inner := by
  rw [inner_path hpackage hfile, List.mem_append, or_iff_right]
  intro h
  obtain ⟨segment, hmem, hup⟩ := List.mem_flatMap.mp h
  exact Path.up_not_mem_inner (dot_not_mem_of_mem_segments (mem_directories.mp hmem).1) hup

end Relative

/-- **The path stays inside exactly if its parts do.** -/
theorem path_isInside_iff (c : Companion) : c.path.IsInside ↔ c.PartsStay := by
  have hfinal : (Files.Path.mk c.fileName).inner ≠ [] :=
    Path.inner_ne_nil (c := 'j') (by simp [fileName]) (by decide) (by decide)
  have hdirectories : c.directories ≠ [] ↔ ∃ s ∈ segments c.package, s ≠ "" := by
    simp [directories, List.filter_eq_nil_iff]
  rw [Path.isInside_iff]
  constructor
  · rintro ⟨hopening, hup, -⟩
    obtain ⟨hpackage, hfile⟩ := (isAbsolute_path c).mp (Path.isAbsolute_of_opening hopening)
    refine ⟨hpackage, hfile, ?_, fun hhere => hdirectories.mp fun hnil => ?_⟩
    · rwa [Path.up_mem_components_iff, ← up_mem_inner_path hpackage hfile]
    · rw [opening_path hpackage hfile, if_pos hnil] at hopening
      exact (Path.here_mem_components_iff hfile).mp hhere hopening
  · rintro ⟨hpackage, hfile, hup, hhere⟩
    refine ⟨?_, ?_, ?_⟩
    · rw [opening_path hpackage hfile]
      split
      · rename_i hnil
        by_contra hopening
        exact hdirectories.mpr (hhere ((Path.here_mem_components_iff hfile).mpr hopening)) hnil
      · rfl
    · rwa [up_mem_inner_path hpackage hfile, ← Path.up_mem_components_iff]
    · rw [inner_path hpackage hfile]
      exact fun hnil => hfinal (List.append_eq_nil_iff.mp hnil).2

/-- **An absolute segment loses the directory**: the path that leads on from it is the path
itself. -/
theorem push_path_of_mem_segments {segment : String} (hmem : segment ∈ segments c.package)
    (h : (Files.Path.mk segment).isAbsolute = true) (root : Path) :
    root.push c.path.text = c.path := by
  have hpath : c.path.isAbsolute = true := by
    by_contra hrelative
    have hsegment := ((isAbsolute_path c).mp (by simpa using hrelative)).1 segment hmem
    rw [h] at hsegment
    cases hsegment
  exact if_pos hpath

/-! ### Names that keep the path inside -/

/-- For a class whose name has no slash, all is up to the package. -/
theorem partsStay_iff_of_not_mem (h : '/' ∉ c.name.toList) :
    c.PartsStay ↔ ∀ segment ∈ segments c.package, (Files.Path.mk segment).isAbsolute = false := by
  have hslash : '/' ∉ (Files.Path.mk c.fileName).text.toList := by simpa [fileName] using h
  have hcomponents : (Files.Path.mk c.fileName).components = [.name c.fileName] :=
    Path.components_of_not_mem (c := 'j') hslash (by simp [fileName]) (by decide)
  refine ⟨fun hstay => hstay.package, fun hpackage =>
    ⟨hpackage, Path.isAbsolute_of_not_mem hslash, ?_, ?_⟩⟩ <;> rw [hcomponents] <;> simp

theorem slash_not_mem_of_isIdentifier {s : String} (h : isIdentifier s) : '/' ∉ s.toList :=
  fun hmem => absurd (isNamePart_of_isIdentifier h hmem) (by decide)

/-- **A type whose names are identifiers has a companion that stays inside.** -/
theorem partsStay_of_isWellNamed (hc : c.name = companionName c.owner.simple)
    (hpackage : c.package = c.owner.package) (h : c.owner.IsWellNamed) : c.PartsStay := by
  have hsimple : isIdentifier c.owner.simple :=
    h.nesting _ (List.mem_append_right _ List.mem_cons_self)
  have hname : '/' ∉ c.name.toList := by
    have := slash_not_mem_of_isIdentifier hsimple
    simpa [hc, companionName] using this
  refine (partsStay_iff_of_not_mem hname).mpr fun segment hmem => ?_
  have hvalid := h.package
  rw [← hpackage, isPackageName, Bool.or_eq_true] at hvalid
  rcases hvalid with hempty | hall
  · rw [eq_of_beq hempty] at hmem
    rw [List.mem_singleton.mp hmem]
    rfl
  · exact Path.isAbsolute_of_not_mem
      (slash_not_mem_of_isIdentifier (List.all_eq_true.mp hall segment hmem))

end Companion

/-! ### Storing below a directory -/

section Storing

variable {m : Type → Type} [Monad m] {d d' : Disk m} {root : Path} {companions : List Companion}

/-- The disks do the same but for what they write elsewhere than below `root`. -/
structure Files.Disk.AgreeBelow (root : Path) (d d' : Disk m) : Prop where
  isDirectory : ∀ p, d.isDirectory p = d'.isDirectory p
  makeDirectory : ∀ p, d.makeDirectory p = d'.makeDirectory p
  write : ∀ p text, root.IsBelow p → d.write p text = d'.write p text

theorem Files.Disk.AgreeBelow.makeUpward_eq (h : Disk.AgreeBelow root d d') (fuel : Nat)
    (p : Path) : d.makeUpward fuel p = d'.makeUpward fuel p := by
  induction fuel generalizing p with
  | zero => rfl
  | succ fuel ih =>
    have hexcuse (fault : Fault) : d.excuse p fault = d'.excuse p fault := by
      rw [Disk.excuse, Disk.excuse, h.isDirectory]
    unfold Disk.makeUpward
    split
    · rfl
    · rename_i above _
      simp only [h.makeDirectory, ih above, hexcuse]

theorem Files.Disk.AgreeBelow.writeFile_eq (h : Disk.AgreeBelow root d d') {p : Path}
    (hp : root.IsBelow p) (text : String) : d.writeFile p text = d'.writeFile p text := by
  simp only [Disk.writeFile, Disk.makeDirectories, h.makeUpward_eq, h.write p text hp]

theorem emit_congr {store store' : Store m} {l : Layout}
    (h : ∀ c ∈ companions, ∀ text, store c text = store' c text) :
    emit store l companions = emit store' l companions := by
  induction companions with
  | nil => rfl
  | cons c companions ih =>
    obtain ⟨hc, hcompanions⟩ := List.forall_mem_cons.mp h
    simp only [emit, hc, ih hcompanions]

/-- **Companions whose parts stay are stored below the directory**: what the disk writes elsewhere
does not matter. -/
theorem Companion.emit_store_congr (h : Disk.AgreeBelow root d d')
    (hstay : ∀ c ∈ companions, c.PartsStay) (l : Layout) :
    emit (d.store root) l companions = emit (d'.store root) l companions := by
  refine emit_congr fun c hc text => ?_
  have hinside := (path_isInside_iff c).mpr (hstay c hc)
  exact h.writeFile_eq (hinside.isBelow_push root) text

end Storing

/-! ### The companions of a scan -/

/-- A companion is in the package of a source, or its parts stay. -/
theorem Scan.package_or_partsStay {sources manifests : Sources} {strict : Bool} {s : Scan}
    {c : Companion} (h : scan sources manifests strict = .ok s)
    (hc : c ∈ s.synthesize.companions) :
    (∃ source ∈ sources, c.package = packageOf source.content) ∨ c.PartsStay := by
  obtain ⟨g, hg, hgc⟩ := Companion.exists_group_of_mem hc
  obtain ⟨f, hf, howner⟩ := List.mem_map.mp (Companion.binds_of_ofGroup? hg hgc).owner_mem
  have hnames : c.name = Companion.companionName c.owner.simple ∧ c.package = c.owner.package := by
    rw [(Companion.ofGroup?_eq_some_iff.mp hgc).2]
    exact ⟨rfl, rfl⟩
  rw [hnames.2, ← howner]
  rcases package_of_mem_scan h hf with hsource | hnamed
  · exact .inl hsource
  · exact .inr (Companion.partsStay_of_isWellNamed hnames.1 hnames.2 (howner ▸ hnamed))

/-- **The path of a companion stays inside exactly if its parts do**, which only a source can
break; for a class whose name has no slash, it does so with an absolute segment of the package. Such
a companion is stored at its path whatever the directory. If the parts of all companions stay, only
files below the directory are written. -/
theorem Scan.path_isInside_iff_partsStay {sources manifests : Sources} {strict : Bool} {s : Scan}
    (h : scan sources manifests strict = .ok s) :
    (∀ c ∈ s.synthesize.companions,
      (c.path.IsInside ↔ c.PartsStay) ∧
      ((∃ source ∈ sources, c.package = packageOf source.content) ∨ c.PartsStay) ∧
      ('/' ∉ c.name.toList → (c.PartsStay ↔
        ∀ segment ∈ segments c.package, (Files.Path.mk segment).isAbsolute = false)) ∧
      ((∃ segment ∈ segments c.package, (Files.Path.mk segment).isAbsolute) →
        ∀ root : Path, root.push c.path.text = c.path)) ∧
    ((∀ c ∈ s.synthesize.companions, c.PartsStay) →
      ∀ (m : Type → Type) [Monad m] (d d' : Disk m) (root : Path) (l : Layout),
        Disk.AgreeBelow root d d' →
          emit (d.store root) l s.synthesize.companions =
            emit (d'.store root) l s.synthesize.companions) := by
  refine ⟨fun c hc => ⟨Companion.path_isInside_iff c, Scan.package_or_partsStay h hc,
      Companion.partsStay_iff_of_not_mem, ?_⟩,
    fun hstay m _ d d' root l hagree => Companion.emit_store_congr hagree hstay l⟩
  rintro ⟨segment, hmem, habsolute⟩ root
  exact Companion.push_path_of_mem_segments hmem habsolute root

/-- The scan of one source without manifests. -/
def scanOf (content : String) : Scan :=
  let java := allBindings [⟨.inline, content⟩]
  ⟨[⟨.inline, content⟩], java.fields ++ [], java.report ++ [], false⟩

theorem scan_eq_scanOf (content : String) :
    scan [⟨.inline, content⟩] [] false = .ok (scanOf content) :=
  rfl

/-- A comment before a full stop in a package stays inside. -/
theorem Scan.path_isInside_iff_partsStay_comment :
    let s := scanOf "package a/**/.b;\nclass A \x7b @BindView(1) View v; \x7d\n"
    s.synthesize.companions.map Companion.path = [⟨"a/**/b/AViewBinding.java"⟩] ∧
      ∀ c ∈ s.synthesize.companions, c.path.IsInside ↔ c.PartsStay :=
  ⟨by decide +kernel,
    fun c hc => ((Scan.path_isInside_iff_partsStay (scan_eq_scanOf _)).1 c hc).1⟩

/-- **A comment after a full stop in a package leads outside.** The round is valid, and its
companion is stored below the root of the file system. -/
theorem Scan.exists_path_outside :
    ∃ s c, scan [⟨.inline, "package a./**/b;\nclass A \x7b @BindView(1) View v; \x7d\n"⟩] [] false =
        .ok s ∧
      s.synthesize.isValid = true ∧ c ∈ s.synthesize.companions ∧
      c.path = ⟨"/**/b/AViewBinding.java"⟩ ∧ ¬c.path.IsInside := by
  let s := scanOf "package a./**/b;\nclass A \x7b @BindView(1) View v; \x7d\n"
  obtain ⟨hpaths, hvalid⟩ :
      s.synthesize.companions.map Companion.path = [⟨"/**/b/AViewBinding.java"⟩] ∧
        s.synthesize.isValid = true := by decide +kernel
  obtain ⟨c, hc, hpath⟩ := List.mem_map.mp (hpaths ▸ List.mem_cons_self)
  refine ⟨s, c, scan_eq_scanOf _, hvalid, hc, hpath, fun hinside => ?_⟩
  have hroot := Path.isAbsolute_of_opening (Path.isInside_iff.mp hinside).1
  rw [hpath] at hroot
  revert hroot
  decide

end ViewBinding
