import ViewBinding.Proofs.Companion.Clashes
import ViewBinding.Proofs.Companion.Location
import ViewBinding.Proofs.Emission.Memory
import ViewBinding.Proofs.Files.Roots

/-!
# Filling an empty directory

What an emission leaves in a directory that was empty is what it leaves in memory: one file for each
companion, at its path and with its text (`ViewBinding.Companion.emit_fills_emptyRoot`). This needs
that the paths of the companions do not get in each other's way. A companion with legal names is
stored at its `ViewBinding.Companion.pathNames`, the segments of its package and the name of its
file; only the last of them has a full stop, so the path of one companion never ends at a directory
of another one (`ViewBinding.Companion.not_pathNames_inside`).
-/

namespace ViewBinding

open Java Text Files

namespace Companion

variable {c d : Companion}

/-- The package and the name of the class are legal. -/
structure IsLegal (c : Companion) : Prop where
  package : isPackageName c.package
  name : isIdentifier c.name

/-- The names that lead from the root of generated classes to the file of a companion. -/
def pathNames (c : Companion) : List String :=
  c.directories ++ [c.fileName]

/-! ### Legal names -/

theorem isProperName_of_forall {s : String} {x : Char} (hx : x ∈ s.toList) (hdot : x ≠ '.')
    (h : ∀ y ∈ s.toList, y ≠ '/' ∧ y ≠ '\x00') : IsProperName s where
  ne_empty := by
    rintro rfl
    cases hx
  ne_here := by
    rintro rfl
    exact hdot (List.mem_singleton.mp hx)
  ne_up := by
    rintro rfl
    have hx : x ∈ ['.', '.'] := hx
    simp [hdot] at hx
  slash hmem := (h _ hmem).1 rfl
  null hmem := (h _ hmem).2 rfl

theorem exists_mem_of_isIdentifier {s : String} (h : isIdentifier s) : ∃ x, x ∈ s.toList := by
  cases hs : s.toList with
  | nil =>
    rw [isIdentifier, hs] at h
    cases h
  | cons x rest => exact ⟨x, List.mem_cons_self⟩

theorem isProperName_of_isIdentifier {s : String} (h : isIdentifier s) : IsProperName s := by
  obtain ⟨x, hx⟩ := exists_mem_of_isIdentifier h
  refine isProperName_of_forall hx ?_ fun y hy => ⟨?_, ?_⟩ <;> rintro rfl
  · exact not_mem_of_isIdentifier h (by decide) hx
  · exact not_mem_of_isIdentifier h (by decide) hy
  · exact not_mem_of_isIdentifier h (by decide) hy

section Legal

variable (h : c.IsLegal)

include h

theorem IsLegal.isIdentifier_of_mem {name : String} (hname : name ∈ c.directories) :
    isIdentifier name := by
  obtain ⟨hmem, hne⟩ := mem_directories.mp hname
  have hpackage := h.package
  rw [isPackageName, Bool.or_eq_true] at hpackage
  rcases hpackage with hempty | hall
  · rw [eq_of_beq hempty] at hmem
    exact absurd (List.mem_singleton.mp hmem) hne
  · exact List.all_eq_true.mp hall name hmem

theorem IsLegal.isProperName_directories : ∀ name ∈ c.directories, IsProperName name :=
  fun _ hname => isProperName_of_isIdentifier (h.isIdentifier_of_mem hname)

theorem IsLegal.isProperName_fileName : IsProperName c.fileName := by
  refine isProperName_of_forall (x := 'j') (by simp [fileName]) (by decide) fun y hy => ?_
  rw [fileName, String.toList_append, List.mem_append] at hy
  rcases hy with hy | hy
  · constructor <;> rintro rfl
    · exact not_mem_of_isIdentifier h.name (by decide) hy
    · exact not_mem_of_isIdentifier h.name (by decide) hy
  · constructor <;> rintro rfl <;> revert hy <;> decide

theorem IsLegal.isProperName_pathNames : ∀ name ∈ c.pathNames, IsProperName name :=
  Tree.isProperName_concat h.isProperName_directories h.isProperName_fileName

theorem IsLegal.path_eq_spelled : c.path = ⟨Path.spelled c.pathNames⟩ := by
  rw [path_eq, ← Path.foldl_push_eq_spelled h.isProperName_pathNames (by simp [pathNames]),
    pathNames, List.foldl_append]
  rfl

/-- The path of a companion leads along its names. -/
theorem IsLegal.components_path : c.path.components = c.pathNames.map Component.name := by
  rw [h.path_eq_spelled, Path.components_spelled h.isProperName_pathNames (by simp [pathNames])]

/-- The directories of a companion say what its package is. -/
theorem IsLegal.segments_package :
    c.directories = if c.package = "" then [] else segments c.package := by
  split
  · rename_i hempty
    rw [directories, hempty]
    rfl
  · rename_i hne
    have hpackage := h.package
    rw [isPackageName, Bool.or_eq_true, beq_iff_eq, or_iff_right hne] at hpackage
    refine List.filter_eq_self.mpr fun segment hmem => ?_
    have hsegment := isProperName_of_isIdentifier (List.all_eq_true.mp hpackage segment hmem)
    simpa using hsegment.ne_empty

end Legal

/-- **Companions of different names are stored at different places.** -/
theorem qualified_eq_of_pathNames (hc : c.IsLegal) (hd : d.IsLegal)
    (h : c.pathNames = d.pathNames) : c.qualified = d.qualified := by
  obtain ⟨hdirectories, hfile⟩ := List.append_inj' h rfl
  have hname : c.name = d.name := by
    have := List.singleton_inj.mp hfile
    simpa [fileName] using this
  have hpackage : c.package = d.package := by
    rw [hc.segments_package, hd.segments_package] at hdirectories
    split at hdirectories <;> split at hdirectories
    · rename_i hcp hdp
      rw [hcp, hdp]
    · exact absurd hdirectories.symm (segments_ne_nil _)
    · exact absurd hdirectories (segments_ne_nil _)
    · rw [← dotted_segments c.package, hdirectories, dotted_segments]
  rw [qualified, qualified, hpackage, hname]

/-- **The file of a companion is no directory of another one**, for its name has a full stop. -/
theorem not_pathNames_inside (hd : d.IsLegal) : ¬c.pathNames <+: d.directories := by
  intro hinitial
  have hmem : c.fileName ∈ d.directories := hinitial.subset (by simp [pathNames])
  exact not_mem_of_isIdentifier (hd.isIdentifier_of_mem hmem) (c := '.') (by decide)
    (by simp [fileName])

/-- Two companions of which neither is stored where the other is, nor in a directory that the
other needs for a file. -/
def KeepApart (c d : Companion) : Prop :=
  ¬c.path.components <+: d.path.components ∧ ¬d.path.components <+: c.path.components

theorem keepApart_of_pathNames_ne (hc : c.IsLegal) (hd : d.IsLegal)
    (h : c.pathNames ≠ d.pathNames) : c.KeepApart d := by
  have hmap {xs ys : List String} (hinitial : xs.map Component.name <+: ys.map Component.name) :
      xs <+: ys := by
    refine (List.prefix_map_iff_of_injective fun x y hxy => ?_).mp hinitial
    exact Component.name.inj hxy
  have hnot {a b : Companion} (hb : b.IsLegal) (hne : a.pathNames ≠ b.pathNames) :
      ¬a.pathNames <+: b.pathNames := by
    intro hinitial
    rcases List.prefix_concat_iff.mp hinitial with heq | hdirectories
    · exact hne heq
    · exact not_pathNames_inside hb hdirectories
  rw [KeepApart, hc.components_path, hd.components_path]
  exact ⟨fun hi => hnot hd h (hmap hi), fun hi => hnot hc h.symm (hmap hi)⟩

theorem same_eq_false_of_keepApart (h : c.KeepApart d) : c.path.same d.path = false := by
  rw [Path.same, beq_eq_false_iff_ne]
  exact fun heq => h.1 (heq ▸ List.prefix_rfl)

/-! ### On a disk -/

section Disk

variable {t t' : Tree} {root : Path} {base pre : List String} {l : Layout}
  {stored companions : List Companion}

/-- **The companions stored so far are all that is new** in the tree: each is in its file, and
besides there are directories above these files. -/
structure Holds (t t' : Tree) (base pre : List String) (l : Layout) (stored : List Companion) :
    Prop where
  grows : t.Extends t'
  file : ∀ c ∈ stored, t'.kindAt (base ++ (pre ++ c.pathNames)) = some (.file (c.render l).toUTF8)
  only : ∀ chain, t'.kindAt chain = t.kindAt chain ∨
    (∃ c ∈ stored, chain = base ++ (pre ++ c.pathNames)) ∨
    (t'.kindAt chain = some .directory ∧
      ∃ c ∈ stored, ∃ front, front <+: pre ++ c.directories ∧ chain = base ++ front)

theorem holds_nil (t : Tree) : Holds t t base pre l [] where
  grows := .refl t
  file _ hc := by cases hc
  only _ := .inl rfl

section Below

variable {names : List String} {bytes : ByteArray}

/-- Where there was nothing but directories, the files are those of the companions. -/
theorem Holds.kindAt_eq_file_iff (h : Holds t t' base pre l stored)
    (hold : ∀ k, t.kindAt (base ++ (pre ++ names)) = some k → k = .directory) :
    t'.kindAt (base ++ (pre ++ names)) = some (.file bytes) ↔
      ∃ c ∈ stored, names = c.pathNames ∧ bytes = (c.render l).toUTF8 := by
  constructor
  · intro hfile
    rcases h.only (base ++ (pre ++ names)) with hsame | ⟨c, hc, heq⟩ | ⟨hdir, -⟩
    · cases hold _ (hsame.symm.trans hfile)
    · have hthere := h.file c hc
      rw [← heq, hfile, Option.some_inj, Files.Kind.file.injEq] at hthere
      rw [List.append_cancel_left_eq, List.append_cancel_left_eq] at heq
      exact ⟨c, hc, heq, hthere⟩
    · cases hfile.symm.trans hdir
  · rintro ⟨c, hc, rfl, rfl⟩
    exact h.file c hc

/-- Where there was nothing but directories, there are no links. -/
theorem Holds.kindAt_ne_link (h : Holds t t' base pre l stored)
    (hold : ∀ k, t.kindAt (base ++ (pre ++ names)) = some k → k = .directory) (target : String) :
    t'.kindAt (base ++ (pre ++ names)) ≠ some (.link target) := by
  intro htarget
  rcases h.only (base ++ (pre ++ names)) with hsame | ⟨c, hc, heq⟩ | ⟨hdir, -⟩
  · cases hold _ (hsame.symm.trans htarget)
  · rw [heq, h.file c hc] at htarget
    cases htarget
  · cases htarget.symm.trans hdir

/-- Nothing is new but in the directory, if those above it have been there. -/
theorem Holds.kindAt_outside (h : Holds t t' base pre l stored) {other : List String}
    (habove : ∀ front, front <+: base ++ pre → front ≠ base ++ pre →
      t.kindAt front = some .directory)
    (hother : ¬base ++ pre <+: other) : t'.kindAt other = t.kindAt other := by
  rcases h.only other with hsame | ⟨c, -, rfl⟩ | ⟨hdir, c, -, front, hfront, rfl⟩
  · exact hsame
  · exact absurd ⟨c.pathNames, List.append_assoc ..⟩ hother
  · -- the directory is above the one that is filled
    have hfront' : base ++ front <+: base ++ pre := by
      rcases List.prefix_or_prefix_of_prefix hfront (List.prefix_append pre _) with
        hpre | ⟨rest, rfl⟩
      · exact (List.prefix_append_right_inj base).mpr hpre
      · exact absurd ⟨rest, List.append_assoc ..⟩ hother
    rw [hdir, habove _ hfront' fun heq => hother (heq ▸ List.prefix_rfl)]

end Below

section Empty

variable (hempty : ∀ names, names ≠ [] → t.kindAt (base ++ pre ++ names) = none)

include hempty

/-- Only directories are in the way to the file of one more companion. -/
theorem Holds.isOpen (h : Holds t t' base pre l stored) (hopen : t.IsOpen base pre)
    (hc : c.IsLegal) : t'.IsOpen base (pre ++ c.directories) := by
  intro front hfront
  rcases h.only (base ++ front) with hsame | ⟨d, hd, heq⟩ | ⟨hdir, -⟩
  · rw [hsame]
    rcases List.prefix_or_prefix_of_prefix hfront (List.prefix_append pre _) with
      hpre | ⟨rest, rfl⟩
    · exact hopen front hpre
    · by_cases hne : rest = []
      · exact hopen _ (by simp [hne])
      · exact .inr (by rw [← List.append_assoc]; exact hempty rest hne)
  · -- a file in the way would be named like a directory
    rw [List.append_cancel_left_eq] at heq
    rw [heq, List.prefix_append_right_inj] at hfront
    exact absurd hfront (not_pathNames_inside hc)
  · exact .inl hdir

/-- The place of one more companion is free. -/
theorem Holds.isFree (h : Holds t t' base pre l stored) (hstored : ∀ d ∈ stored, d.IsLegal)
    (hne : ∀ d ∈ stored, c.pathNames ≠ d.pathNames) :
    t'.kindAt (base ++ (pre ++ c.pathNames)) = none := by
  rcases h.only (base ++ (pre ++ c.pathNames)) with
    hsame | ⟨d, hd, heq⟩ | ⟨-, d, hd, front, hf, heq⟩
  · rw [hsame, ← List.append_assoc]
    exact hempty _ (by simp [pathNames])
  · rw [List.append_cancel_left_eq, List.append_cancel_left_eq] at heq
    exact absurd heq (hne d hd)
  · rw [List.append_cancel_left_eq] at heq
    rw [← heq, List.prefix_append_right_inj] at hf
    exact absurd hf (not_pathNames_inside (hstored d hd))

/-- **One more companion is stored.** Neither its file nor its directories are in the way of those
that are there. -/
theorem Holds.store (h : Holds t t' base pre l stored) (hreaches : t.Reaches root base pre)
    (hopen : t.IsOpen base pre) (hstored : ∀ d ∈ stored, d.IsLegal) (hc : c.IsLegal)
    (hne : ∀ d ∈ stored, c.pathNames ≠ d.pathNames) :
    ∃ t'', Tree.idealDisk.store root c (c.render l) t' = (.ok (root.push c.path.text), t'') ∧
      Holds t t'' base pre l (stored ++ [c]) := by
  have hopen' := h.isOpen hempty hopen hc
  have hfree := h.isFree hempty hstored hne
  have hplace : base ++ (pre ++ c.pathNames) = base ++ (pre ++ c.directories) ++ [c.fileName] := by
    simp [pathNames]
  rw [hplace] at hfree
  -- the directories that are missing are made first, then the file is put where they lead
  obtain ⟨made, hmakes, hfree', hwrite⟩ := hreaches.writeFile h.grows hc.isProperName_directories
    hc.isProperName_fileName hopen' hfree (c.render l)
  have hdir := hmakes.made List.prefix_rfl
  have hput := Tree.kindAt_putAt_file (c.render l).toUTF8 hdir hfree'
  have hgrows := (hmakes.extends hopen').trans
    (Tree.extends_putAt_file (c.render l).toUTF8 hdir hfree')
  refine ⟨_, ?_, h.grows.trans hgrows, fun d hd => ?_, fun chain => ?_⟩
  · rw [Disk.store, hc.path_eq_spelled]
    exact hwrite
  · rcases List.mem_append.mp hd with hd | hd
    · exact hgrows.kindAt (h.file d hd)
    · rw [List.mem_singleton.mp hd, hput, if_pos hplace]
  · rw [hput]
    split
    · rename_i heq
      exact .inr (.inl ⟨c, by simp, heq.trans hplace.symm⟩)
    · by_cases hon : ∃ front, front <+: pre ++ c.directories ∧ chain = base ++ front
      · obtain ⟨front, hfront, rfl⟩ := hon
        exact .inr (.inr ⟨hmakes.made hfront, c, by simp, front, hfront, rfl⟩)
      · have hsame := hmakes.same fun front hfront heq => hon ⟨front, hfront, heq⟩
        rw [hsame]
        rcases h.only chain with hold | ⟨d, hd, heq⟩ | ⟨hdir, d, hd, habove⟩
        · exact .inl hold
        · exact .inr (.inl ⟨d, List.mem_append_left _ hd, heq⟩)
        · exact .inr (.inr ⟨hdir, d, List.mem_append_left _ hd, habove⟩)

/-- **All companions are stored**, and they are all that is new. -/
theorem Holds.emit (h : Holds t t' base pre l stored) (hreaches : t.Reaches root base pre)
    (hopen : t.IsOpen base pre) (hlegal : ∀ c ∈ stored ++ companions, c.IsLegal)
    (hne : (stored ++ companions).Pairwise fun c d => c.pathNames ≠ d.pathNames) :
    ∃ files, ViewBinding.emit (Tree.idealDisk.store root) l companions t' =
        (.ok (companions.map fun c => root.push c.path.text), files) ∧
      Holds t files base pre l (stored ++ companions) := by
  induction companions generalizing t' stored with
  | nil => exact ⟨t', rfl, by rwa [List.append_nil]⟩
  | cons c companions ih =>
    have hapart := (List.pairwise_append.mp hne).2.2
    obtain ⟨t'', hstore, hholds⟩ := h.store hempty hreaches hopen
      (fun d hd => hlegal d (List.mem_append_left _ hd)) (hlegal c (by simp))
      fun d hd => (hapart d hd c List.mem_cons_self).symm
    rw [List.append_cons] at hlegal hne ⊢
    obtain ⟨files, hemit, hall⟩ := ih hholds hlegal hne
    exact ⟨files, by rw [emit_cons_of_ok hstore, hemit]; rfl, hall⟩

end Empty

/-- Companions that differ in their qualified names are stored at different places. -/
theorem pairwise_pathNames_ne (hlegal : ∀ c ∈ companions, c.IsLegal)
    (hnodup : (companions.map qualified).Nodup) :
    companions.Pairwise fun c d => c.pathNames ≠ d.pathNames := by
  refine (List.pairwise_map.mp hnodup).imp_of_mem fun hc hd hne hpaths => ?_
  exact hne (qualified_eq_of_pathNames (hlegal _ hc) (hlegal _ hd) hpaths)

/-- **An emission to an empty directory stores the files that it stores in memory.** It succeeds,
and the files below the directory are those in memory: one for each companion, at its path and with
its text. Nothing changes outside the directory. No companion is stored where another one is, or in
a directory that another one needs for its file. -/
theorem emit_fills_emptyRoot {chain : List String} (hempty : t.IsEmptyRoot root chain)
    (hlegal : ∀ c ∈ companions, c.IsLegal) (hnodup : (companions.map qualified).Nodup)
    (l : Layout) :
    ∃ files shelf,
      emit (Tree.idealDisk.store root) l companions t =
        (.ok (companions.map fun c => root.push c.path.text), files) ∧
      emit Shelf.store l companions [] = (.ok (companions.map path), shelf) ∧
      shelf = companions.map (fun c => (c.path, c.render l)) ∧
      (∀ names bytes, files.kindAt (chain ++ names) = some (.file bytes) ↔
        ∃ entry ∈ shelf, entry.1.components = names.map Component.name ∧
          bytes = entry.2.toUTF8) ∧
      (∀ names target, files.kindAt (chain ++ names) ≠ some (.link target)) ∧
      (∀ other, ¬chain <+: other → files.kindAt other = t.kindAt other) ∧
      companions.Pairwise KeepApart := by
  have hpaths := pairwise_pathNames_ne hlegal hnodup
  have hapart : companions.Pairwise KeepApart :=
    hpaths.imp_of_mem fun hc hd => keepApart_of_pathNames_ne (hlegal _ hc) (hlegal _ hd)
  obtain ⟨hroot, hbelow⟩ := hempty.kindAt_cases
  obtain ⟨base, pre, rfl, hreaches, hopen⟩ := hempty.reaches
  have hnone : Holds t t base pre l [] := holds_nil t
  obtain ⟨files, hemit, hholds⟩ := hnone.emit hbelow hreaches hopen hlegal hpaths
  rw [List.nil_append] at hholds
  -- there was nothing but perhaps a directory from the end of the chain on
  have hold (names : List String) (k : Files.Kind)
      (hk : t.kindAt (base ++ (pre ++ names)) = some k) : k = .directory := by
    rw [← List.append_assoc] at hk
    by_cases hne : names = []
    · rw [hne, List.append_nil] at hk
      rcases hroot with hdir | hnone
      · exact Option.some_inj.mp (hk.symm.trans hdir)
      · cases hk.symm.trans hnone
    · cases hk.symm.trans (hbelow names hne)
  have hshelf : Shelf.putAll l [] companions = companions.map fun c => (c.path, c.render l) :=
    Shelf.putAll_of_pairwise l [] (by simp) (hapart.imp same_eq_false_of_keepApart)
  refine ⟨files, _, hemit, emit_shelf l companions [], hshelf, fun names bytes => ?_,
    fun names target htarget => ?_, fun other hother => ?_, hapart⟩
  · rw [hshelf, List.append_assoc, hholds.kindAt_eq_file_iff (hold names)]
    constructor
    · rintro ⟨c, hc, rfl, rfl⟩
      exact ⟨_, List.mem_map_of_mem hc, (hlegal c hc).components_path, rfl⟩
    · rintro ⟨entry, hentry, hcomponents, rfl⟩
      obtain ⟨c, hc, rfl⟩ := List.mem_map.mp hentry
      rw [(hlegal c hc).components_path] at hcomponents
      have hnames := List.map_injective_iff.mpr (fun _ _ => Component.name.inj) hcomponents
      exact ⟨c, hc, hnames.symm, rfl⟩
  · rw [List.append_assoc] at htarget
    exact hholds.kindAt_ne_link (hold names) target htarget
  · exact hholds.kindAt_outside (fun _ => hempty.kindAt_above) hother

/-- Two companions, one in a package inside that of the other, in a directory that is missing. -/
theorem emit_fills_emptyRoot_nested :
    let t : Tree := ⟨.directory "" [.file "notes" ByteArray.empty], []⟩
    let c (package name : String) : Companion := ⟨package, name, ⟨package, [], name⟩, [],
      ⟨"bind", ⟨name, "target"⟩, [⟨"target", "title", "TextView", 1⟩]⟩⟩
    let companions := [c "app.main" "Main", c "app" "Home"]
    t.IsEmptyRoot ⟨"out"⟩ ["out"] ∧ (∀ c ∈ companions, c.IsLegal) ∧
      (companions.map qualified).Nodup ∧
      ∃ files, emit (Tree.idealDisk.store ⟨"out"⟩) .default companions t =
          (.ok [⟨"out/app/main/Main.java"⟩, ⟨"out/app/Home.java"⟩], files) ∧
        files.kindAt ["notes"] = some (.file ByteArray.empty) ∧
        ∃ bytes, files.kindAt ["out", "app", "main", "Main.java"] = some (.file bytes) := by
  intro t c companions
  have hempty : t.IsEmptyRoot ⟨"out"⟩ ["out"] := by
    have hname : IsName "out" := (isProperName_of_isIdentifier (by decide +kernel)).toIsName
    have hpieces : (Files.Path.mk "out").allPieces = ["out"] := by decide +kernel
    have hnames : ∀ n ∈ ([] : List String), IsName n := by simp
    have hfind : t.find false ⟨"out"⟩ .unbounded = .ok (.free [] "out" false) := by
      rw [Tree.find_eq_walk rfl (by decide), hpieces]
      exact Tree.walk_free hnames hname rfl rfl
    exact .missing hfind
  have hlegal : ∀ c ∈ companions, c.IsLegal := by
    refine fun d hd => ⟨?_, ?_⟩ <;> revert d <;> decide +kernel
  have hnodup : (companions.map qualified).Nodup := by decide +kernel
  obtain ⟨files, shelf, hemit, -, hshelf, hfiles, -, hframe, -⟩ :=
    emit_fills_emptyRoot hempty hlegal hnodup .default
  have hpaths : companions.map (fun c => Path.push ⟨"out"⟩ c.path.text) =
      [⟨"out/app/main/Main.java"⟩, ⟨"out/app/Home.java"⟩] := by decide +kernel
  rw [hpaths] at hemit
  have hmain : ((c "app.main" "Main").path, (c "app.main" "Main").render .default) ∈ shelf :=
    hshelf ▸ List.mem_cons_self
  refine ⟨hempty, hlegal, hnodup, files, hemit, ?_, _,
    (hfiles ["app", "main", "Main.java"] _).mpr ⟨_, hmain, ?_, rfl⟩⟩
  · exact hframe ["notes"] (by decide)
  · decide +kernel

end Disk

end Companion

end ViewBinding
