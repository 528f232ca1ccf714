import ViewBinding.Inputs
import ViewBinding.Proofs.Files.JavaFiles

/-!
# Loading sources

What a path to Java stands for in a tree of files can be said without the program
(`ViewBinding.Inputs.Yields`), and so can why it cannot be loaded (`ViewBinding.Inputs.Fails`): it
is the standard input, a file, or a directory with all Java files below it. Paths are loaded one
after the other, behind a text that is given as it is, and the first one that fails is the only
thing that comes of them (`ViewBinding.Inputs.loadSources_reads`).
-/

namespace ViewBinding.Inputs

open Files

section Except

variable {ε α β γ : Type} {x : Except ε α} {y : Except ε β} {g : α → β → γ} {c : γ} {e : ε}

/-- Both have a value if what is made of both has one. -/
theorem bind_map_eq_ok_iff :
    (x.bind fun a => y.map (g a)) = .ok c ↔ ∃ a b, x = .ok a ∧ y = .ok b ∧ g a b = c := by
  cases x <;> cases y <;> simp [Except.bind, Except.map]

theorem map_eq_ok_iff {f : α → γ} : x.map f = .ok c ↔ ∃ a, x = .ok a ∧ f a = c := by
  cases x <;> simp [Except.map]

theorem map_eq_error_iff {f : α → γ} : x.map f = .error e ↔ x = .error e := by
  cases x <;> simp [Except.map]

/-- The one fails, or the other does after it. -/
theorem bind_map_eq_error_iff :
    (x.bind fun a => y.map (g a)) = .error e ↔ x = .error e ∨ (∃ a, x = .ok a) ∧ y = .error e := by
  cases x <;> cases y <;> simp [Except.bind, Except.map]

end Except

variable {s : Surroundings} {stdin : Except Fault String} {t : Tree} {limits : Limits} {p : Path}
  {paths : List Path} {files : List FoundFile} {sources : Sources} {e : LoadError}

deriving instance DecidableEq for FoundFile

/-! ### Files -/

/-- The source is what was read from the file. -/
def IsSourceOf (f : FoundFile) (source : Source) : Prop :=
  f.content = .ok source.content ∧ source.origin = .file f.path.text

theorem fileSource_eq_ok_iff {f : FoundFile} {source : Source} :
    fileSource f.path f.content = .ok source ↔ IsSourceOf f source := by
  obtain ⟨origin, content⟩ := source
  rw [IsSourceOf]
  cases f.content <;> simp [fileSource, eq_comm, and_comm]

theorem fileSource_eq_error_iff {content : Except Fault String} :
    fileSource p content = .error e ↔ ∃ fault, content = .error fault ∧ e = .file p fault := by
  cases content <;> simp [fileSource, eq_comm]

theorem fileSources_cons (f : FoundFile) (files : List FoundFile) :
    fileSources (f :: files) =
      (fileSource f.path f.content).bind fun source => (fileSources files).map (source :: ·) :=
  rfl

theorem fileSources_eq_ok_iff :
    fileSources files = .ok sources ↔ List.Forall₂ IsSourceOf files sources := by
  induction files generalizing sources with
  | nil => simp [fileSources, eq_comm]
  | cons f files ih =>
    rw [fileSources_cons, bind_map_eq_ok_iff, List.forall₂_cons_left_iff]
    simp only [fileSource_eq_ok_iff, ih, eq_comm (b := sources)]

/-- The first file that cannot be read is reported. -/
theorem fileSources_eq_error_iff :
    fileSources files = .error e ↔ ∃ before f after fault, files = before ++ f :: after ∧
      (∀ g ∈ before, ∃ content, g.content = .ok content) ∧ f.content = .error fault ∧
        e = .file f.path fault := by
  induction files with
  | nil => simp [fileSources]
  | cons f files ih =>
    rw [fileSources_cons, bind_map_eq_error_iff, fileSource_eq_error_iff, ih]
    constructor
    · rintro (⟨fault, hfault, rfl⟩ |
        ⟨⟨source, hsource⟩, before, g, after, fault, rfl, hread, hfault, rfl⟩)
      · exact ⟨[], f, files, fault, rfl, by simp, hfault, rfl⟩
      · exact ⟨f :: before, g, after, fault, rfl,
          List.forall_mem_cons.mpr ⟨⟨_, (fileSource_eq_ok_iff.mp hsource).1⟩, hread⟩, hfault, rfl⟩
    · rintro ⟨before, g, after, fault, hfiles, hread, hfault, rfl⟩
      cases before with
      | nil =>
        obtain ⟨rfl, -⟩ := List.cons.inj hfiles
        exact .inl ⟨fault, hfault, rfl⟩
      | cons first before =>
        obtain ⟨rfl, rfl⟩ := List.cons.inj hfiles
        obtain ⟨⟨content, hcontent⟩, hread⟩ := List.forall_mem_cons.mp hread
        refine .inr ⟨⟨⟨.file f.path.text, content⟩, fileSource_eq_ok_iff.mpr ⟨hcontent, rfl⟩⟩, ?_⟩
        exact ⟨before, g, after, fault, rfl, hread, hfault, rfl⟩

/-! ### One path -/

/-- **The sources that a path stands for** in a tree of files. -/
inductive Yields (t : Tree) (limits : Limits) (stdin : Except Fault String) (p : Path) :
    Sources → Prop
  /-- The standard input. -/
  | stdin {content : String} (named : isStdin p = true) (read : stdin = .ok content) :
      Yields t limits stdin p [⟨.stdin, content⟩]
  /-- A single file. -/
  | file {content : String} (named : isStdin p = false)
      (read : Tree.readGoal (t.find true p limits) = .ok content) :
      Yields t limits stdin p [⟨.file p.text, content⟩]
  /-- All Java files below a directory. -/
  | directory {files : List FoundFile} {sources : Sources} (named : isStdin p = false)
      (collected : t.javaFiles p limits = .ok files) (nonempty : files ≠ [])
      (read : List.Forall₂ IsSourceOf files sources) : Yields t limits stdin p sources

/-- **Why a path cannot be loaded.** -/
inductive Fails (t : Tree) (limits : Limits) (stdin : Except Fault String) (p : Path) :
    LoadError → Prop
  /-- The standard input cannot be read. -/
  | stdin {fault : Fault} (named : isStdin p = true) (unread : stdin = .error fault) :
      Fails t limits stdin p (.stdin fault)
  /-- A single file cannot be read. -/
  | file {fault : Fault} (named : isStdin p = false)
      (single : ∀ chain name entries,
        t.find true p limits ≠ .ok (.entry chain (.directory name entries)))
      (unread : Tree.readGoal (t.find true p limits) = .error fault) :
      Fails t limits stdin p (.file p fault)
  /-- A directory below one that is there cannot be read. -/
  | directory {s : Sealed} {chain : List String} {name : String} {entries : List Entry}
      (named : isStdin p = false)
      (find : t.find true p limits = .ok (.entry chain (.directory name entries)))
      (unread : t.javaFiles p limits = .error s) :
      Fails t limits stdin p (.directory s.path s.fault)
  /-- There are no Java files below a directory. -/
  | empty (named : isStdin p = false) (collected : t.javaFiles p limits = .ok []) :
      Fails t limits stdin p (.noJavaFiles p)
  /-- The first of the Java files below a directory that cannot be read. -/
  | unread {before after : List FoundFile} {f : FoundFile} {fault : Fault}
      (named : isStdin p = false)
      (collected : t.javaFiles p limits = .ok (before ++ f :: after))
      (read : ∀ g ∈ before, ∃ content, g.content = .ok content)
      (unread : f.content = .error fault) : Fails t limits stdin p (.file f.path fault)

section Single

variable {chain : List String} {name : String} {entries : List Entry}

theorem lookWithin_of_directory
    (h : t.find true p limits = .ok (.entry chain (.directory name entries))) :
    t.lookWithin limits p = .directory (t.listings limits p entries) := by
  unfold Tree.lookWithin
  rw [h]

theorem lookWithin_of_single
    (h : ∀ chain name entries,
      t.find true p limits ≠ .ok (.entry chain (.directory name entries))) :
    t.lookWithin limits p = .file (Tree.readGoal (t.find true p limits)) := by
  unfold Tree.lookWithin
  split
  · rename_i hfind
    exact absurd hfind (h _ _ _)
  · rfl

theorem javaSources_of_isStdin (h : isStdin p = true) :
    javaSources ⟨stdin, t.lookWithin limits⟩ p =
      (stdinSource ⟨stdin, t.lookWithin limits⟩).map fun source => [source] := by
  rw [javaSources, if_pos h]

theorem javaSources_of_directory (h : isStdin p = false)
    (hfind : t.find true p limits = .ok (.entry chain (.directory name entries))) :
    javaSources ⟨stdin, t.lookWithin limits⟩ p =
      match t.javaFiles p limits with
      | .error unread => .error (.directory unread.path unread.fault)
      | .ok [] => .error (.noJavaFiles p)
      | .ok files => fileSources files := by
  have hlook := lookWithin_of_directory hfind
  rw [javaSources, if_neg (by simp [h]), Tree.javaFiles, Tree.listWithin, hfind]
  dsimp only
  generalize t.lookWithin limits p = found at hlook ⊢
  subst hlook
  rfl

theorem javaSources_of_single (h : isStdin p = false)
    (hsingle : ∀ chain name entries,
      t.find true p limits ≠ .ok (.entry chain (.directory name entries))) :
    javaSources ⟨stdin, t.lookWithin limits⟩ p =
      (fileSource p (Tree.readGoal (t.find true p limits))).map fun source => [source] := by
  rw [javaSources, if_neg (by simp [h])]
  dsimp only
  rw [lookWithin_of_single hsingle]

end Single

/-- A path is that of the standard input, of a directory, or of something else. -/
theorem path_cases (t : Tree) (limits : Limits) (p : Path) :
    isStdin p = true ∨
      (isStdin p = false ∧ ∃ chain name entries,
        t.find true p limits = .ok (.entry chain (.directory name entries))) ∨
      (isStdin p = false ∧ ∀ chain name entries,
        t.find true p limits ≠ .ok (.entry chain (.directory name entries))) := by
  cases isStdin p with
  | true => exact .inl rfl
  | false =>
    by_cases hdir : ∃ chain name entries,
      t.find true p limits = .ok (.entry chain (.directory name entries))
    · exact .inr (.inl ⟨rfl, hdir⟩)
    · exact .inr (.inr ⟨rfl, fun chain name entries h => hdir ⟨chain, name, entries, h⟩⟩)

theorem yields_of_javaSources
    (h : javaSources ⟨stdin, t.lookWithin limits⟩ p = .ok sources) :
    Yields t limits stdin p sources := by
  rcases path_cases t limits p with hstdin | ⟨hnamed, chain, name, entries, hfind⟩ |
    ⟨hnamed, hsingle⟩
  · rw [javaSources_of_isStdin hstdin, stdinSource] at h
    cases stdin with
    | error fault => cases h
    | ok content =>
      cases h
      exact .stdin hstdin rfl
  · rw [javaSources_of_directory hnamed hfind] at h
    rcases hjava : t.javaFiles p limits with unread | _ | ⟨f, files⟩
    · rw [hjava] at h
      cases h
    · rw [hjava] at h
      cases h
    · rw [hjava] at h
      exact .directory hnamed hjava (List.cons_ne_nil f files) (fileSources_eq_ok_iff.mp h)
  · rw [javaSources_of_single hnamed hsingle] at h
    cases hread : Tree.readGoal (t.find true p limits) with
    | error fault =>
      rw [hread] at h
      cases h
    | ok content =>
      rw [hread] at h
      cases h
      exact .file hnamed hread

theorem Yields.javaSources_eq (h : Yields t limits stdin p sources) :
    javaSources ⟨stdin, t.lookWithin limits⟩ p = .ok sources := by
  cases h with
  | stdin hstdin hread =>
    subst hread
    rw [javaSources_of_isStdin hstdin]
    rfl
  | file hnamed hread =>
    rw [javaSources_of_single hnamed, hread]
    · rfl
    · intro chain name entries hfind
      rw [hfind] at hread
      cases hread
  | @directory files _ hnamed hjava hne hread =>
    obtain ⟨chain, name, entries, hfind⟩ := Tree.exists_find_of_javaFiles hjava
    rw [javaSources_of_directory hnamed hfind, hjava]
    obtain ⟨f, files, rfl⟩ := List.exists_cons_of_ne_nil hne
    exact fileSources_eq_ok_iff.mpr hread

theorem fails_of_javaSources (h : javaSources ⟨stdin, t.lookWithin limits⟩ p = .error e) :
    Fails t limits stdin p e := by
  rcases path_cases t limits p with hstdin | ⟨hnamed, chain, name, entries, hfind⟩ |
    ⟨hnamed, hsingle⟩
  · rw [javaSources_of_isStdin hstdin, stdinSource] at h
    cases stdin with
    | error fault =>
      cases h
      exact .stdin hstdin rfl
    | ok content => cases h
  · rw [javaSources_of_directory hnamed hfind] at h
    rcases hjava : t.javaFiles p limits with unread | _ | ⟨f, files⟩
    · rw [hjava] at h
      cases h
      exact .directory hnamed hfind hjava
    · rw [hjava] at h
      cases h
      exact .empty hnamed hjava
    · rw [hjava] at h
      obtain ⟨before, g, after, fault, hfiles, hread, hfault, rfl⟩ :=
        fileSources_eq_error_iff.mp h
      rw [hfiles] at hjava
      exact .unread hnamed hjava hread hfault
  · rw [javaSources_of_single hnamed hsingle] at h
    cases hread : Tree.readGoal (t.find true p limits) with
    | error fault =>
      rw [hread] at h
      cases h
      exact .file hnamed hsingle hread
    | ok content =>
      rw [hread] at h
      cases h

theorem Fails.javaSources_eq (h : Fails t limits stdin p e) :
    javaSources ⟨stdin, t.lookWithin limits⟩ p = .error e := by
  cases h with
  | stdin hstdin hread =>
    subst hread
    rw [javaSources_of_isStdin hstdin]
    rfl
  | file hnamed hsingle hread =>
    rw [javaSources_of_single hnamed hsingle, hread]
    rfl
  | directory hnamed hfind hjava => rw [javaSources_of_directory hnamed hfind, hjava]
  | empty hnamed hjava =>
    obtain ⟨chain, name, entries, hfind⟩ := Tree.exists_find_of_javaFiles hjava
    rw [javaSources_of_directory hnamed hfind, hjava]
  | @unread before after f fault hnamed hjava hread hfault =>
    obtain ⟨chain, name, entries, hfind⟩ := Tree.exists_find_of_javaFiles hjava
    rw [javaSources_of_directory hnamed hfind, hjava]
    have herror := fileSources_eq_error_iff.mpr ⟨before, f, after, fault, rfl, hread, hfault, rfl⟩
    cases before with
    | nil => exact herror
    | cons g before => exact herror

/-! ### All paths -/

/-- What is left of the standard input when paths have been read. -/
def leftOf (stdin : Except Fault String) (before : List Path) : Except Fault String :=
  if before.any isStdin then .ok "" else stdin

theorem after_eq (stdin : Except Fault String) (look : Path → Found) (p : Path) :
    after ⟨stdin, look⟩ p = ⟨leftOf stdin [p], look⟩ := by
  rw [after, leftOf]
  cases hp : isStdin p <;> simp [hp]

theorem leftOf_cons (stdin : Except Fault String) (p : Path) (paths : List Path) :
    leftOf stdin (p :: paths) = leftOf (leftOf stdin [p]) paths := by
  rw [leftOf, leftOf, leftOf]
  cases hp : isStdin p <;> simp [hp]

theorem allJavaSources_cons (s : Surroundings) (p : Path) (paths : List Path) :
    allJavaSources s (p :: paths) =
      (javaSources s p).bind fun first => (allJavaSources (after s p) paths).map (first ++ ·) :=
  rfl

/-- **Paths are loaded one after the other.** -/
theorem allJavaSources_eq_ok_iff :
    allJavaSources ⟨stdin, t.lookWithin limits⟩ paths = .ok sources ↔
      ∃ parts : List Sources, parts.length = paths.length ∧ sources = parts.flatten ∧
        ∀ k p part, paths[k]? = some p → parts[k]? = some part →
          Yields t limits (leftOf stdin (paths.take k)) p part := by
  induction paths generalizing stdin sources with
  | nil =>
    constructor
    · intro h
      cases h
      exact ⟨[], rfl, rfl, fun k p part hp => nomatch hp⟩
    · rintro ⟨parts, hlength, rfl, -⟩
      rw [List.length_eq_zero_iff.mp hlength]
      rfl
  | cons p paths ih =>
    rw [allJavaSources_cons, bind_map_eq_ok_iff, after_eq]
    constructor
    · rintro ⟨first, rest, hfirst, hrest, rfl⟩
      obtain ⟨parts, hlength, rfl, hparts⟩ := ih.mp hrest
      refine ⟨first :: parts, congrArg (· + 1) hlength, rfl, fun k q part hq hpart => ?_⟩
      cases k with
      | zero =>
        cases hq
        cases hpart
        exact yields_of_javaSources hfirst
      | succ k =>
        rw [List.take_succ_cons, leftOf_cons]
        exact hparts k q part hq hpart
    · rintro ⟨parts, hlength, rfl, hparts⟩
      obtain ⟨first, parts, rfl⟩ := List.exists_cons_of_length_eq_add_one hlength
      refine ⟨first, parts.flatten, (hparts 0 p first rfl rfl).javaSources_eq, ih.mpr ?_, rfl⟩
      refine ⟨parts, Nat.succ.inj hlength, rfl, fun k q part hq hpart => ?_⟩
      have hyields := hparts (k + 1) q part hq hpart
      rwa [List.take_succ_cons, leftOf_cons] at hyields

/-- **The first path that fails is reported.** -/
theorem allJavaSources_eq_error_iff :
    allJavaSources ⟨stdin, t.lookWithin limits⟩ paths = .error e ↔
      ∃ before p after, paths = before ++ p :: after ∧
        (∃ sources, allJavaSources ⟨stdin, t.lookWithin limits⟩ before = .ok sources) ∧
        Fails t limits (leftOf stdin before) p e := by
  induction paths generalizing stdin with
  | nil =>
    constructor
    · intro h
      cases h
    · rintro ⟨before, p, after, hpaths, -⟩
      cases List.append_ne_nil_of_right_ne_nil before (List.cons_ne_nil p after) hpaths.symm
  | cons p paths ih =>
    rw [allJavaSources_cons, bind_map_eq_error_iff, after_eq, ih]
    constructor
    · rintro (hfails | ⟨⟨first, hfirst⟩, before, q, later, rfl, ⟨sources, hbefore⟩, hfails⟩)
      · exact ⟨[], p, paths, rfl, ⟨[], rfl⟩, fails_of_javaSources hfails⟩
      · rw [← leftOf_cons] at hfails
        refine ⟨p :: before, q, later, rfl, ⟨first ++ sources, ?_⟩, hfails⟩
        rw [allJavaSources_cons, hfirst, after_eq, bind_map_eq_ok_iff]
        exact ⟨first, sources, rfl, hbefore, rfl⟩
    · rintro ⟨before, q, later, hpaths, ⟨sources, hbefore⟩, hfails⟩
      cases before with
      | nil =>
        obtain ⟨rfl, rfl⟩ := List.cons.inj hpaths
        exact .inl hfails.javaSources_eq
      | cons first before =>
        obtain ⟨rfl, rfl⟩ := List.cons.inj hpaths
        rw [allJavaSources_cons, after_eq, bind_map_eq_ok_iff] at hbefore
        obtain ⟨part, rest, hfirst, hrest, -⟩ := hbefore
        rw [leftOf_cons] at hfails
        exact .inr ⟨⟨part, hfirst⟩, before, q, later, rfl, ⟨rest, hrest⟩, hfails⟩

section Text

variable {text : Option String}

/-- A text that is given comes first. -/
theorem loadSources_eq_ok_iff : loadSources s text paths = .ok sources ↔
    ∃ rest, allJavaSources s paths = .ok rest ∧
      (text.toList.map fun content => ⟨.inline, content⟩) ++ rest = sources :=
  map_eq_ok_iff

theorem loadSources_eq_error_iff :
    loadSources s text paths = .error e ↔ allJavaSources s paths = .error e :=
  map_eq_error_iff

theorem exists_loadSources_iff : (∃ sources, loadSources s text paths = .ok sources) ↔
    ∃ sources, allJavaSources s paths = .ok sources := by
  simp only [loadSources_eq_ok_iff]
  constructor
  · rintro ⟨_, rest, hrest, -⟩
    exact ⟨rest, hrest⟩
  · rintro ⟨rest, hrest⟩
    exact ⟨_, rest, hrest, rfl⟩

end Text

/-- **All Java files below a directory are found once, in the order of their paths, whatever order
its entries are listed in; and the text, the standard input, files and directories are loaded in
the order of the arguments, up to the first that fails.** -/
theorem loadSources_reads (hwell : t.root.IsWellNamed) (limits : Limits)
    (stdin : Except Fault String) (text : Option String) (paths : List Path) :
    let load := loadSources ⟨stdin, t.lookWithin limits⟩ text
    (∀ dir chain name entries,
      t.find true dir limits = .ok (.entry chain (.directory name entries)) →
        ((∃ files, t.javaFiles dir limits = .ok files ∧ files.Pairwise FoundFile.Before ∧
            ∀ f, f ∈ files ↔ t.IsJavaFile limits dir chain f) ∨
          ∃ names, t.javaFiles dir limits = .error ⟨names.foldl Path.push dir, .nameTooLong⟩ ∧
            t.kindAt (chain ++ names) = some .directory ∧
            limits.Forbid (names.foldl Path.push dir) names) ∧
        ∀ t', t.Rearranges t' → t'.root.IsWellNamed →
          ∀ files, t.javaFiles dir limits = .ok files → t'.javaFiles dir limits = .ok files) ∧
    (∀ sources, load paths = .ok sources ↔ ∃ parts : List Sources,
      parts.length = paths.length ∧
      sources = (text.toList.map fun content => ⟨.inline, content⟩) ++ parts.flatten ∧
      ∀ k p part, paths[k]? = some p → parts[k]? = some part →
        Yields t limits (leftOf stdin (paths.take k)) p part) ∧
    ∀ e, load paths = .error e ↔ ∃ before p after, paths = before ++ p :: after ∧
      (∃ sources, load before = .ok sources) ∧ Fails t limits (leftOf stdin before) p e := by
  intro load
  refine ⟨fun dir chain name entries hfind => ⟨?_, fun t' h hwell' files hfiles => ?_⟩,
    fun sources => ?_, fun e => ?_⟩
  · rcases Tree.javaFiles_cases hwell hfind with ⟨files, hfiles, -, hordered, hmem⟩ | hunread
    · exact .inl ⟨files, hfiles, hordered, hmem⟩
    · exact .inr hunread
  · exact Tree.javaFiles_congr h hwell hwell' hfiles
  · refine loadSources_eq_ok_iff.trans ⟨?_, ?_⟩
    · rintro ⟨rest, hrest, rfl⟩
      obtain ⟨parts, hlength, rfl, hparts⟩ := allJavaSources_eq_ok_iff.mp hrest
      exact ⟨parts, hlength, rfl, hparts⟩
    · rintro ⟨parts, hlength, rfl, hparts⟩
      exact ⟨parts.flatten, allJavaSources_eq_ok_iff.mpr ⟨parts, hlength, rfl, hparts⟩, rfl⟩
  · refine loadSources_eq_error_iff.trans (allJavaSources_eq_error_iff.trans ?_)
    simp only [load, exists_loadSources_iff]

/-- A directory with a link to itself, a link to a file, a link to nothing and a directory whose
name ends like that of a Java file, behind a text and the standard input. -/
theorem loadSources_reads_linked :
    let t : Tree := ⟨.directory "" [.directory "src" [.link "loop" "/src",
      .file "B.java" "class B \x7b\x7d".toUTF8, .link "A.java" "B.java",
      .link "gone.java" "nowhere", .directory "X.java" [.file "C.java" "class C \x7b\x7d".toUTF8],
      .file ".java" ByteArray.empty]], []⟩
    t.root.IsWellNamed ∧
      loadSources ⟨.ok "class In \x7b\x7d", t.lookWithin .unbounded⟩ (some "class Text \x7b\x7d")
        [⟨"-"⟩, ⟨"/src"⟩] = .ok [⟨.inline, "class Text \x7b\x7d"⟩, ⟨.stdin, "class In \x7b\x7d"⟩,
          ⟨.file "/src/A.java", "class B \x7b\x7d"⟩, ⟨.file "/src/B.java", "class B \x7b\x7d"⟩,
          ⟨.file "/src/X.java/C.java", "class C \x7b\x7d"⟩] := by
  intro t
  have hwell : t.root.IsWellNamed := by
    refine .directory _ (by decide +kernel) (by decide) (List.forall_mem_singleton.mpr ?_)
    refine .directory _ (by decide +kernel) (by decide) ?_
    simp only [List.forall_mem_cons]
    exact ⟨.link .., .file .., .link .., .link .., .directory _ (by decide +kernel) (by decide)
      (List.forall_mem_singleton.mpr (.file ..)), .file .., by simp⟩
  let a : FoundFile := ⟨⟨"/src/A.java"⟩, .ok "class B \x7b\x7d"⟩
  let b : FoundFile := ⟨⟨"/src/B.java"⟩, .ok "class B \x7b\x7d"⟩
  let c : FoundFile := ⟨⟨"/src/X.java/C.java"⟩, .ok "class C \x7b\x7d"⟩
  have hlist : t.listWithin .unbounded ⟨"/src"⟩ = .ok [.other "loop",
      .file "B.java" (.ok "class B \x7b\x7d"), .file "A.java" (.ok "class B \x7b\x7d"),
      .other "gone.java", .directory "X.java" [.file "C.java" (.ok "class C \x7b\x7d")],
      .file ".java" (.ok "")] := by
    have hb : decode "class B \x7b\x7d".toByteArray = .ok "class B \x7b\x7d" := rfl
    have hc : decode "class C \x7b\x7d".toByteArray = .ok "class C \x7b\x7d" := rfl
    have hempty : decode ByteArray.empty = .ok "" := rfl
    simp [t, Tree.listWithin, Tree.find, Tree.walk, Tree.maxLinks, Tree.listings, Tree.listing,
      Tree.readGoal, Entry.at?, Entry.child?, Entry.entries, Entry.name, Entry.isDirectory,
      Limits.exceeds, Limits.unbounded, Path.isAbsolute, Path.hasNull, Path.push, Text.pieces,
      hb, hc, hempty]
  have hfiles : t.javaFiles ⟨"/src"⟩ .unbounded = .ok [a, b, c] := by
    have hgather : gather [] [⟨⟨"/src"⟩, .ok [.other "loop",
      .file "B.java" (.ok "class B \x7b\x7d"), .file "A.java" (.ok "class B \x7b\x7d"),
      .other "gone.java", .directory "X.java" [.file "C.java" (.ok "class C \x7b\x7d")],
      .file ".java" (.ok "")]⟩] = .ok [b, a, c] := by decide +kernel
    have hsort : sortFiles [b, a, c] = [a, b, c] :=
      eq_of_pairwise_before (pairwise_sortFiles (by decide +kernel))
        (by decide +kernel : [a, b, c].Pairwise fun f g => compare f.path g.path = .lt)
        fun f => by simp [(sortFiles_perm _).mem_iff, or_left_comm]
    rw [Tree.javaFiles, hlist]
    dsimp only
    rw [Files.javaFiles, hgather, Except.map, hsort]
  obtain ⟨-, hload, -⟩ := loadSources_reads hwell .unbounded (.ok "class In \x7b\x7d")
    (some "class Text \x7b\x7d") [⟨"-"⟩, ⟨"/src"⟩]
  refine ⟨hwell, (hload _).mpr ⟨[[⟨.stdin, "class In \x7b\x7d"⟩],
    [⟨.file "/src/A.java", "class B \x7b\x7d"⟩, ⟨.file "/src/B.java", "class B \x7b\x7d"⟩,
      ⟨.file "/src/X.java/C.java", "class C \x7b\x7d"⟩]], rfl, rfl, fun k p part hp hpart => ?_⟩⟩
  rcases k with _ | _ | k
  · cases hp
    cases hpart
    exact .stdin rfl rfl
  · cases hp
    cases hpart
    exact .directory rfl hfiles (List.cons_ne_nil _ _)
      (.cons ⟨rfl, rfl⟩ (.cons ⟨rfl, rfl⟩ (.cons ⟨rfl, rfl⟩ .nil)))
  · cases hp

end ViewBinding.Inputs
