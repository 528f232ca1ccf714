import ViewBinding.Proofs.Files.Descent
import ViewBinding.Proofs.Files.Gathering

/-!
# The Java files below a directory

The Java files below a directory of a tree are the paths that end in `java` and lead, by way of
directories only, to a file or to a link to one (`ViewBinding.Files.Tree.IsJavaFile`).
`ViewBinding.Files.Tree.javaFiles` finds each of them once and in the order of their components
(`ViewBinding.Files.Tree.javaFiles_cases`), whatever links there are. What it finds does not depend
on the order in which directories list their entries (`ViewBinding.Files.Tree.javaFiles_congr`).
A directory cannot be read only if its path is too long.
-/

namespace ViewBinding.Files

/-! ### The order of paths -/

instance : Std.TransOrd Component :=
  inferInstanceAs (Std.TransCmp
    (compareLex (compareOn Component.rank) (compareOn Component.word)))

instance : Std.LawfulEqOrd Component where
  eq_of_compare {a b} h := by
    obtain ⟨hrank, hword⟩ := Ordering.then_eq_eq.mp h
    have hrank := Std.LawfulEqOrd.eq_of_compare hrank
    have hword := Std.LawfulEqOrd.eq_of_compare hword
    cases a <;> cases b <;> simp_all [Component.rank, Component.word]

instance : Std.TransOrd Path :=
  inferInstanceAs (Std.TransCmp (compareOn Path.components))

/-- The path of the one file comes before that of the other. -/
def FoundFile.Before (a b : FoundFile) : Prop :=
  compare a.path b.path = .lt

theorem compare_swap (p q : Path) : (compare p q).swap = compare q p :=
  Std.OrientedOrd.eq_swap.symm

theorem FoundFile.Before.not_before {a b : FoundFile} (h : a.Before b) : ¬b.Before a := by
  intro h'
  have hswap := compare_swap a.path b.path
  rw [h, h'] at hswap
  cases hswap

variable {files files' : List FoundFile}

theorem sortFiles_perm (files : List FoundFile) : (sortFiles files).Perm files :=
  List.mergeSort_perm _ _

/-- Files whose paths have different components are sorted strictly. -/
theorem pairwise_sortFiles (h : (files.map fun f => f.path.components).Nodup) :
    (sortFiles files).Pairwise FoundFile.Before := by
  have hsorted : (sortFiles files).Pairwise fun a b => (compare a.path b.path).isLE = true :=
    List.pairwise_mergeSort (fun a b c => Std.TransCmp.isLE_trans)
      (fun a b => by
        rw [← compare_swap a.path b.path]
        cases compare a.path b.path <;> rfl) files
  have hnodup : ((sortFiles files).map fun f => f.path.components).Nodup :=
    (((sortFiles_perm files).map _).nodup_iff).mpr h
  refine hsorted.imp₂ (fun a b hle hne => ?_) (List.pairwise_map.mp hnodup)
  cases hcompare : compare a.path b.path with
  | lt => exact hcompare
  | eq =>
    have hsame : a.path.components = b.path.components := Std.LawfulEqOrd.eq_of_compare hcompare
    exact absurd hsame hne
  | gt =>
    rw [hcompare] at hle
    cases hle

/-- Files in order are known by what they are. -/
theorem eq_of_pairwise_before (h : files.Pairwise FoundFile.Before)
    (h' : files'.Pairwise FoundFile.Before) (hmem : ∀ f, f ∈ files ↔ f ∈ files') :
    files = files' := by
  have hnodup {files : List FoundFile} (h : files.Pairwise FoundFile.Before) : files.Nodup :=
    h.imp fun hbefore heq => by
      subst heq
      exact hbefore.not_before hbefore
  exact List.Perm.eq_of_pairwise (fun a b _ _ hab hba => absurd hba hab.not_before) h h'
    ((List.perm_ext_iff_of_nodup (hnodup h) (hnodup h')).mpr hmem)

namespace Tree

variable {t : Tree} {limits : Limits} {dir start : Path} {chain names : List String}
  {d e : Entry} {entries : List Entry} {below below' : List (List String × Entry)}
  {unread unread' : List Sealed}

/-! ### What is listed -/

/-- The Java file that an entry is at a path, if it is one. -/
def javaFileAt? (t : Tree) (limits : Limits) (p : Path) (e : Entry) : Option FoundFile :=
  if p.extension? = some "java" then
    match e with
    | .file _ _ => some ⟨p, readGoal (t.find true p limits)⟩
    | .directory _ _ => none
    | .link _ _ =>
      match t.find true p limits with
      | .ok (.entry _ (.file _ bytes)) => some ⟨p, decode bytes⟩
      | _ => none
  else none

theorem javaFile?_listing (t : Tree) (limits : Limits) (dir : Path) (e : Entry) :
    (t.listing limits dir e).javaFile? dir = t.javaFileAt? limits (dir.push e.name) e := by
  cases e with
  | file name bytes => rfl
  | directory name entries =>
    rw [listing, javaFileAt?]
    cases t.find true (dir.push name) limits <;> simp [Listing.javaFile?]
  | link name target =>
    rw [listing, javaFileAt?, Entry.name]
    rcases t.find true (dir.push name) limits with fault | ⟨chain, e⟩ | ⟨chain, own, slash⟩
    · simp [Listing.javaFile?]
    · cases e <;> simp [Listing.javaFile?]
    · simp [Listing.javaFile?]

/-- The files and the directories that cannot be read are those among entries whose names lead on
from `start`. -/
structure ListsBelow (t : Tree) (limits : Limits) (start : Path)
    (below : List (List String × Entry)) (files : List FoundFile) (unread : List Sealed) :
    Prop where
  files_eq : unread = [] →
    files = below.filterMap fun x => t.javaFileAt? limits (x.1.foldl Path.push start) x.2
  exists_find : unread = [] → ∀ x ∈ below, x.2.isDirectory = true →
    ∃ goal, t.find true (x.1.foldl Path.push start) limits = .ok goal
  exists_unread : ∀ s ∈ unread, ∃ x ∈ below, x.2.isDirectory = true ∧
    s.path = x.1.foldl Path.push start ∧ t.find true s.path limits = .error s.fault

theorem ListsBelow.append (h : t.ListsBelow limits start below files unread)
    (h' : t.ListsBelow limits start below' files' unread') :
    t.ListsBelow limits start (below ++ below') (files ++ files') (unread ++ unread') where
  files_eq hnone := by
    obtain ⟨hunread, hunread'⟩ := List.append_eq_nil_iff.mp hnone
    rw [List.filterMap_append, ← h.files_eq hunread, ← h'.files_eq hunread']
  exists_find hnone x hx := by
    obtain ⟨hunread, hunread'⟩ := List.append_eq_nil_iff.mp hnone
    rcases List.mem_append.mp hx with hx | hx
    · exact h.exists_find hunread x hx
    · exact h'.exists_find hunread' x hx
  exists_unread s hs := by
    rcases List.mem_append.mp hs with hs | hs
    · obtain ⟨x, hx, hs⟩ := h.exists_unread s hs
      exact ⟨x, List.mem_append_left _ hx, hs⟩
    · obtain ⟨x, hx, hs⟩ := h'.exists_unread s hs
      exact ⟨x, List.mem_append_right _ hx, hs⟩

/-- What is below an entry is below the directory of the entry. -/
theorem ListsBelow.of_push {name : String}
    (h : t.ListsBelow limits (start.push name) below files unread) :
    t.ListsBelow limits start (below.map fun x => (name :: x.1, x.2)) files unread where
  files_eq hnone := by
    rw [h.files_eq hnone, List.filterMap_map]
    rfl
  exists_find hnone x hx := by
    obtain ⟨y, hy, rfl⟩ := List.mem_map.mp hx
    exact h.exists_find hnone y hy
  exists_unread s hs := by
    obtain ⟨x, hx, hs⟩ := h.exists_unread s hs
    exact ⟨_, List.mem_map_of_mem hx, hs⟩

theorem listsBelow_listings (dir : Path)
    (h : ∀ e ∈ entries, t.ListsBelow limits (dir.push e.name) e.descendants
      ((t.listing limits dir e).filesBelow dir) ((t.listing limits dir e).sealedBelow dir)) :
    t.ListsBelow limits dir (Entry.descendantsAmong entries)
      (filesBelow dir (t.listings limits dir entries))
      (sealedBelow dir (t.listings limits dir entries)) := by
  induction entries with
  | nil => exact ⟨fun _ => rfl, fun _ _ hx => (List.not_mem_nil hx).elim,
      fun _ hs => (List.not_mem_nil hs).elim⟩
  | cons e entries ih =>
    obtain ⟨hfirst, hrest⟩ := List.forall_mem_cons.mp h
    exact hfirst.of_push.append (ih hrest)

theorem pending?_listing (h : e.isDirectory = false) :
    (t.listing limits dir e).pending? dir = none := by
  cases e with
  | file name bytes => rfl
  | directory name entries => cases h
  | link name target =>
    rw [listing]
    split <;> rfl

/-- Below an entry that is no directory there is nothing but itself. -/
theorem listsBelow_leaf (h : e.isDirectory = false) (hbelow : e.descendants = [([], e)]) :
    t.ListsBelow limits (dir.push e.name) e.descendants
      ((t.listing limits dir e).filesBelow dir) ((t.listing limits dir e).sealedBelow dir) := by
  rw [Listing.filesBelow_eq, Listing.sealedBelow_eq, pending?_listing h, javaFile?_listing, hbelow]
  refine ⟨fun _ => ?_, fun _ x hx hdir => ?_, fun _ hs => (List.not_mem_nil hs).elim⟩
  · cases hfile : t.javaFileAt? limits (dir.push e.name) e <;> simp [hfile]
  · obtain rfl := List.mem_singleton.mp hx
    rw [h] at hdir
    cases hdir

/-- **Everything below a directory is listed.** -/
theorem listsBelow_listing (h : e.IsWellNamed) (dir : Path) :
    t.ListsBelow limits (dir.push e.name) e.descendants
      ((t.listing limits dir e).filesBelow dir) ((t.listing limits dir e).sealedBelow dir) := by
  induction h generalizing dir with
  | file | link => exact listsBelow_leaf rfl rfl
  | @directory name entries hnames hnodup hbelow ih =>
    have hlist := listsBelow_listings (dir.push name) fun e he => ih e he (dir.push name)
    rw [listing]
    cases hfind : t.find true (dir.push name) limits with
    | error fault =>
      refine ⟨fun hnone => (nomatch hnone), fun hnone => (nomatch hnone), fun s hs => ?_⟩
      obtain rfl := List.mem_singleton.mp hs
      exact ⟨([], .directory name entries), List.mem_cons_self, rfl, rfl, hfind⟩
    | ok goal =>
      refine ⟨fun hnone => ?_, fun hnone x hx hdir => ?_, fun s hs => ?_⟩
      · -- the directory itself is no file
        refine (hlist.files_eq hnone).trans (List.filterMap_cons_none ?_).symm
        exact ite_self _
      · rcases List.mem_cons.mp hx with rfl | hx
        · exact ⟨goal, hfind⟩
        · exact hlist.exists_find hnone x hx hdir
      · obtain ⟨x, hx, hs⟩ := hlist.exists_unread s hs
        exact ⟨x, List.mem_cons_of_mem _ hx, hs⟩

/-! ### What is found -/

/-- What is of that kind at the path is a file, or a link whose path leads to a file. -/
def LeadsToFile (t : Tree) (limits : Limits) (p : Path) (k : Kind) : Prop :=
  (∃ bytes, k = .file bytes) ∨
    (∃ target, k = .link target) ∧
      ∃ base name bytes, t.find true p limits = .ok (.entry base (.file name bytes))

/-- **The file is a Java file below the directory** at the end of the chain: its path ends in
`java` and leads from there, through directories only, to a file or to a link to a file. -/
structure IsJavaFile (t : Tree) (limits : Limits) (dir : Path) (chain : List String)
    (f : FoundFile) : Prop where
  extension : f.path.extension? = some "java"
  content : f.content = readGoal (t.find true f.path limits)
  path : ∃ names k, f.path = names.foldl Path.push dir ∧ t.kindAt (chain ++ names) = some k ∧
    t.LeadsToFile limits f.path k

theorem javaFileAt?_eq_some_iff {p : Path} {f : FoundFile} :
    t.javaFileAt? limits p e = some f ↔
      f.path = p ∧ p.extension? = some "java" ∧ f.content = readGoal (t.find true p limits) ∧
        t.LeadsToFile limits p e.kind := by
  obtain ⟨path, content⟩ := f
  unfold javaFileAt? LeadsToFile
  split
  · rename_i hext
    cases e with
    | file name bytes => simp [Entry.kind, hext, eq_comm]
    | directory name entries => simp [Entry.kind]
    | link name target =>
      rcases hfind : t.find true p limits with fault | ⟨chain, e⟩ | ⟨chain, own, slash⟩
      · simp [Entry.kind]
      · cases e <;> simp [Entry.kind, hext, readGoal, eq_comm]
      · simp [Entry.kind]
  · rename_i hext
    simp [hext]

/-- Names that lead on from an entry of a file system are proper. -/
theorem isProperName_of_kindAt {k : Kind} (hnames : t.root.IsWellNamed)
    (hat : t.root.at? chain = some d) (hkind : t.kindAt (chain ++ names) = some k) :
    ∀ name ∈ names, IsProperName name := by
  obtain ⟨c, hc, -⟩ := exists_at?_of_kindAt hkind
  rw [Entry.at?_append, hat, Option.bind_some] at hc
  have hwell := hnames.of_at? hat
  exact Entry.isProperName_of_mem_descendants hwell ((Entry.mem_descendants_iff hwell).mpr hc)

/-- The entries below a directory are what the names lead to that lead on from it. -/
theorem mem_descendantsAmong_iff {name : String} {c : Entry}
    (hnames : t.root.IsWellNamed) (hat : t.root.at? chain = some (.directory name entries)) :
    (names, c) ∈ Entry.descendantsAmong entries ↔
      names ≠ [] ∧ t.root.at? (chain ++ names) = some c := by
  have hwell := hnames.of_at? hat
  rw [Entry.at?_append, hat, Option.bind_some, ← Entry.mem_descendants_iff hwell,
    Entry.mem_descendants_directory_iff]
  constructor
  · intro hmem
    refine ⟨?_, .inr hmem⟩
    obtain ⟨e, -, rest, rfl, -⟩ := Entry.mem_descendantsAmong_iff.mp hmem
    exact List.cons_ne_nil _ _
  · rintro ⟨hne, ⟨hnil, -⟩ | hmem⟩
    · exact absurd hnil hne
    · exact hmem

/-- Below a directory with proper names all paths have different components. -/
theorem nodup_components_filterMap {below : List (List String × Entry)} (hdir : dir.text ≠ "")
    (hnames : ∀ x ∈ below, ∀ name ∈ x.1, IsProperName name) (h : (below.map Prod.fst).Nodup) :
    ((below.filterMap fun x => t.javaFileAt? limits (x.1.foldl Path.push dir) x.2).map
      fun f => f.path.components).Nodup := by
  refine List.pairwise_map.mpr (List.pairwise_filterMap.mpr ?_)
  refine (List.pairwise_map.mp h).imp_of_mem fun {x x'} hx hx' hne f hf f' hf' hsame => hne ?_
  rw [(javaFileAt?_eq_some_iff.mp hf).1, (javaFileAt?_eq_some_iff.mp hf').1] at hsame
  exact Path.eq_of_components_foldl_push hdir (hnames x hx) (hnames x' hx') hsame

section Directory

variable (hwell : t.root.IsWellNamed) {name : String}

section At

variable (hat : t.root.at? chain = some (.directory name entries))

include hwell hat

theorem isProperName_of_mem_descendantsAmong :
    ∀ x ∈ Entry.descendantsAmong entries, ∀ name ∈ x.1, IsProperName name := by
  rintro ⟨names, c⟩ hx
  exact Entry.isProperName_of_mem_descendants (hwell.of_at? hat)
    (Entry.mem_descendants_directory_iff.mpr (.inr hx))

/-- The Java files among the entries below a directory are those that are to be found. -/
theorem mem_filterMap_iff_isJavaFile {f : FoundFile} :
    f ∈ (Entry.descendantsAmong entries).filterMap
        (fun x => t.javaFileAt? limits (x.1.foldl Path.push dir) x.2) ↔
      t.IsJavaFile limits dir chain f := by
  rw [List.mem_filterMap]
  constructor
  · rintro ⟨⟨names, c⟩, hx, hfile⟩
    obtain ⟨hpath, hext, hcontent, hleads⟩ := javaFileAt?_eq_some_iff.mp hfile
    rw [← hpath] at hext hcontent hleads
    have hkind := kindAt_of_at? ((mem_descendantsAmong_iff hwell hat).mp hx).2
    exact ⟨hext, hcontent, names, c.kind, hpath, hkind, hleads⟩
  · rintro ⟨hext, hcontent, names, k, hpath, hkind, hleads⟩
    obtain ⟨c, hc, rfl⟩ := exists_at?_of_kindAt hkind
    have hne : names ≠ [] := by
      rintro rfl
      -- the directory itself is neither a file nor a link
      rw [List.append_nil, hat, Option.some_inj] at hc
      subst hc
      rcases hleads with ⟨bytes, hfile⟩ | ⟨⟨target, hlink⟩, -⟩
      · cases hfile
      · cases hlink
    refine ⟨(names, c), (mem_descendantsAmong_iff hwell hat).mpr ⟨hne, hc⟩, ?_⟩
    rw [hpath] at hext hcontent hleads
    exact javaFileAt?_eq_some_iff.mpr ⟨hpath, hext, hcontent, hleads⟩

end At

variable (hfind : t.find true dir limits = .ok (.entry chain (.directory name entries)))

include hwell hfind

/-- A directory below one that is found is found itself unless its path is too long. -/
theorem find_directory_cases (hkind : t.kindAt (chain ++ names) = some .directory) :
    (¬limits.Forbid (names.foldl Path.push dir) names ∧
        ∃ goal, t.find true (names.foldl Path.push dir) limits = .ok goal) ∨
      (limits.Forbid (names.foldl Path.push dir) names ∧
        t.find true (names.foldl Path.push dir) limits = .error .nameTooLong) := by
  obtain ⟨-, -, hsize, hwalk⟩ := of_find_eq_ok_within hfind
  obtain ⟨-, -, hat⟩ := leads_of_walk hwalk
  by_cases hne : names = []
  · subst hne
    refine .inl ⟨?_, _, hfind⟩
    rintro (hlong | ⟨name, hname, -⟩)
    · rw [List.foldl_nil, hsize] at hlong
      cases hlong
    · cases hname
  · have hproper := isProperName_of_kindAt hwell hat hkind
    have hlink : ∀ target, Kind.directory ≠ .link target := fun target heq => by cases heq
    by_cases hforbid : limits.Forbid (names.foldl Path.push dir) names
    · exact .inr ⟨hforbid, find_below_of_forbid true hfind hproper hne hkind hlink hforbid⟩
    · obtain ⟨e, he, -⟩ := find_below true hfind hproper hne hkind hlink hforbid
      exact .inl ⟨hforbid, _, he⟩

/-- **The Java files below a directory are found**, each one once and in the order of their paths,
unless the path of a directory below it is too long. -/
theorem javaFiles_cases :
    (∃ files, t.javaFiles dir limits = .ok files ∧
      (∀ names, t.kindAt (chain ++ names) = some .directory →
        ¬limits.Forbid (names.foldl Path.push dir) names) ∧
      files.Pairwise FoundFile.Before ∧ ∀ f, f ∈ files ↔ t.IsJavaFile limits dir chain f) ∨
    ∃ names, t.javaFiles dir limits = .error ⟨names.foldl Path.push dir, .nameTooLong⟩ ∧
      t.kindAt (chain ++ names) = some .directory ∧
      limits.Forbid (names.foldl Path.push dir) names := by
  obtain ⟨-, htext, -, hwalk⟩ := of_find_eq_ok_within hfind
  obtain ⟨-, -, hat⟩ := leads_of_walk hwalk
  have hproper := isProperName_of_mem_descendantsAmong hwell hat
  have hlists : t.ListsBelow limits dir (Entry.descendantsAmong entries)
      (filesBelow dir (t.listings limits dir entries))
      (sealedBelow dir (t.listings limits dir entries)) :=
    listsBelow_listings dir fun e he => listsBelow_listing ((hwell.of_at? hat).of_mem he) dir
  have hjava : t.javaFiles dir limits =
      (gather [] [⟨dir, .ok (t.listings limits dir entries)⟩]).map sortFiles := by
    rw [Tree.javaFiles, listWithin, hfind]
    rfl
  rw [hjava]
  cases hgather : gather [] [⟨dir, .ok (t.listings limits dir entries)⟩] with
  | ok all =>
    -- every directory below has been read, so that none has too long a path
    obtain ⟨hperm, hsealed⟩ := gather_perm hgather
    rw [List.flatMap_singleton, List.nil_append] at hperm
    rw [List.flatMap_singleton] at hsealed
    change all.Perm (filesBelow dir (t.listings limits dir entries)) at hperm
    rw [hlists.files_eq hsealed] at hperm
    refine .inl ⟨sortFiles all, rfl, fun names hkind => ?_, ?_, fun f => ?_⟩
    · rcases find_directory_cases hwell hfind hkind with ⟨hallow, -⟩ | ⟨-, herror⟩
      · exact hallow
      · obtain ⟨c, hc, hdir⟩ := exists_at?_of_kindAt hkind
        have hne : names ≠ [] := by
          rintro rfl
          cases hfind.symm.trans herror
        obtain ⟨goal, hgoal⟩ := hlists.exists_find hsealed (names, c)
          ((mem_descendantsAmong_iff hwell hat).mpr ⟨hne, hc⟩)
          (Entry.kind_eq_directory_iff.mp hdir)
        cases hgoal.symm.trans herror
    · refine pairwise_sortFiles ((hperm.map _).nodup_iff.mpr ?_)
      exact nodup_components_filterMap htext hproper
        (Entry.nodup_descendants (hwell.of_at? hat)).of_cons
    · rw [(sortFiles_perm all).mem_iff, hperm.mem_iff, mem_filterMap_iff_isJavaFile hwell hat]
  | error s =>
    -- a directory below could not be read, for which its path is the only reason
    have hmem := gather_error hgather
    rw [List.flatMap_singleton] at hmem
    obtain ⟨⟨names, c⟩, hx, hdir, hpath, herror⟩ := hlists.exists_unread s hmem
    have hkind := kindAt_of_at? ((mem_descendantsAmong_iff hwell hat).mp hx).2
    rw [Entry.kind_eq_directory_iff.mpr hdir] at hkind
    rw [hpath] at herror
    rcases find_directory_cases hwell hfind hkind with ⟨-, goal, hgoal⟩ | ⟨hforbid, hlong⟩
    · cases hgoal.symm.trans herror
    · have hfault : s.fault = .nameTooLong := Except.error.inj (herror.symm.trans hlong)
      refine .inr ⟨names, ?_, hkind, hforbid⟩
      rw [← hpath, ← hfault]
      rfl

end Directory

/-! ### The order of entries -/

/-- **The trees differ at most in the order in which directories list their entries.** -/
structure Rearranges (t t' : Tree) : Prop where
  current : t'.current = t.current
  kindAt : ∀ chain, t'.kindAt chain = t.kindAt chain

variable {t' : Tree} {p : Path}

theorem Rearranges.symm (h : t.Rearranges t') : t'.Rearranges t :=
  ⟨h.current.symm, fun chain => (h.kindAt chain).symm⟩

theorem Rearranges.extends (h : t.Rearranges t') : t.Extends t' :=
  ⟨h.current, fun hk => (h.kindAt _).trans hk⟩

/-- What is found in a tree is found in one that has more. -/
theorem Extends.find (hx : t.Extends t') (h : t.find true p limits = .ok (.entry chain e)) :
    ∃ e', t'.find true p limits = .ok (.entry chain e') ∧ e'.kind = e.kind := by
  obtain ⟨hnull, hne, hsize, hwalk⟩ := of_find_eq_ok_within h
  obtain ⟨links, hleads, hat⟩ := leads_of_walk hwalk
  obtain ⟨e', hat', hkind⟩ := exists_at?_of_kindAt (hx.kindAt (kindAt_of_at? hat))
  refine ⟨e', ?_, hkind⟩
  rw [find_eq_walk_within hnull hne hsize, ← List.append_nil p.allPieces, hx.current,
    (hleads.extend hx).walk_append fun _ => rfl, walk_nil hat']

theorem exists_eq_file_of_kind {bytes : ByteArray} (h : e.kind = .file bytes) :
    ∃ name, e = .file name bytes := by
  cases e with
  | file name own =>
    cases h
    exact ⟨name, rfl⟩
  | directory | link => cases h

/-- What comes of reading a file below a directory hangs on its path and its bytes. -/
theorem readGoal_find_below {bytes : ByteArray}
    (hfind : t.find true dir limits = .ok (.entry chain d))
    (hnames : ∀ name ∈ names, IsProperName name) (hne : names ≠ [])
    (hkind : t.kindAt (chain ++ names) = some (.file bytes)) :
    (limits.Forbid (names.foldl Path.push dir) names →
        readGoal (t.find true (names.foldl Path.push dir) limits) = .error .nameTooLong) ∧
      (¬limits.Forbid (names.foldl Path.push dir) names →
        readGoal (t.find true (names.foldl Path.push dir) limits) = decode bytes) := by
  have hlink : ∀ target, Kind.file bytes ≠ .link target := fun target heq => by cases heq
  refine ⟨fun hforbid => ?_, fun hallow => ?_⟩
  · rw [find_below_of_forbid true hfind hnames hne hkind hlink hforbid]
    rfl
  · obtain ⟨e, he, hbytes⟩ := find_below true hfind hnames hne hkind hlink hallow
    obtain ⟨name, rfl⟩ := exists_eq_file_of_kind hbytes
    rw [he]
    rfl

theorem Rearranges.isJavaFile {f : FoundFile} {name : String} (h : t.Rearranges t')
    (hwell : t.root.IsWellNamed)
    (hfind : t.find true dir limits = .ok (.entry chain (.directory name entries)))
    (hf : t.IsJavaFile limits dir chain f) : t'.IsJavaFile limits dir chain f := by
  obtain ⟨hext, hcontent, names, k, hpath, hkind, hleads⟩ := hf
  have hkind' := (h.kindAt (chain ++ names)).trans hkind
  rcases hleads with ⟨bytes, rfl⟩ | ⟨hlink, base, own, bytes, hgoal⟩
  · refine ⟨hext, ?_, names, _, hpath, hkind', .inl ⟨bytes, rfl⟩⟩
    obtain ⟨-, -, -, hwalk⟩ := of_find_eq_ok_within hfind
    obtain ⟨-, -, hat⟩ := leads_of_walk hwalk
    obtain ⟨d', hfind', -⟩ := h.extends.find hfind
    have hproper := isProperName_of_kindAt hwell hat hkind
    have hne : names ≠ [] := by
      rintro rfl
      rw [List.append_nil, kindAt_of_at? hat] at hkind
      cases hkind
    have hread := readGoal_find_below hfind hproper hne hkind
    have hread' := readGoal_find_below hfind' hproper hne hkind'
    rw [hcontent, hpath]
    by_cases hforbid : limits.Forbid (names.foldl Path.push dir) names
    · rw [hread.1 hforbid, hread'.1 hforbid]
    · rw [hread.2 hforbid, hread'.2 hforbid]
  · obtain ⟨e', hgoal', hsame⟩ := h.extends.find hgoal
    obtain ⟨own', rfl⟩ := exists_eq_file_of_kind hsame
    refine ⟨hext, ?_, names, k, hpath, hkind', .inr ⟨hlink, base, own', bytes, hgoal'⟩⟩
    rw [hcontent, hgoal, hgoal']
    rfl

/-- Java files are found below directories only. -/
theorem exists_find_of_javaFiles {files : List FoundFile}
    (h : t.javaFiles dir limits = .ok files) :
    ∃ chain name entries,
      t.find true dir limits = .ok (.entry chain (.directory name entries)) := by
  rw [Tree.javaFiles, listWithin] at h
  rcases hfind : t.find true dir limits with fault | ⟨chain, e⟩ | ⟨chain, own, slash⟩
  · rw [hfind] at h
    cases h
  · rw [hfind] at h
    cases e with
    | directory name entries => exact ⟨chain, name, entries, rfl⟩
    | file | link => cases h
  · rw [hfind] at h
    cases h

/-- **The order in which directories list their entries does not count.** -/
theorem javaFiles_congr {files : List FoundFile} (h : t.Rearranges t') (hwell : t.root.IsWellNamed)
    (hwell' : t'.root.IsWellNamed) (hfiles : t.javaFiles dir limits = .ok files) :
    t'.javaFiles dir limits = .ok files := by
  obtain ⟨chain, name, entries, hfind⟩ := exists_find_of_javaFiles hfiles
  obtain ⟨e', hfind', hkind⟩ := h.extends.find hfind
  obtain ⟨name', entries', rfl⟩ : ∃ name entries, e' = .directory name entries := by
    cases e' with
    | directory name entries => exact ⟨name, entries, rfl⟩
    | file | link => cases hkind
  rcases javaFiles_cases hwell hfind with ⟨_, hsame, hallow, hordered, hmem⟩ | ⟨_, herror, -⟩
  · cases hsame.symm.trans hfiles
    rcases javaFiles_cases hwell' hfind' with ⟨files', hfiles', -, hordered', hmem'⟩ |
      ⟨names, -, hdir, hforbid⟩
    · rw [hfiles', eq_of_pairwise_before hordered' hordered fun f => ?_]
      rw [hmem', hmem]
      exact ⟨h.symm.isJavaFile hwell' hfind', h.isJavaFile hwell hfind⟩
    · rw [h.kindAt] at hdir
      exact absurd hforbid (hallow names hdir)
  · cases herror.symm.trans hfiles

end Tree

end ViewBinding.Files
