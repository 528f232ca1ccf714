import ViewBinding.Proofs.Files.Roots

/-!
# What writing changes

A file is written where the path leads, to a file that is there or to a name that is free
(`ViewBinding.Files.Tree.Opens`). Whatever bytes come to be there, in full or not, the tree keeps
its shape and no other file changes; this is `ViewBinding.Files.Tree.Changes`, which goes on from
one change to the next and says at which places files may have changed. Making directories changes
no file.

A path that leads to a file (`ViewBinding.Files.Tree.HasFile`) does so ever after, for it depends on
the shape of the tree alone.
-/

namespace ViewBinding.Files

namespace Tree

variable {t t' t'' : Tree} {limits : Limits} {follow slash : Bool} {links links' : Nat} {p : Path}
  {chain base pieces : List String} {name text : String} {bytes bytes' : ByteArray} {e : Entry}
  {places places' : List (List String)}

/-! ### Files that a path leads to -/

/-- **The path leads to a file** with these bytes at the end of the chain. -/
def HasFile (t : Tree) (limits : Limits) (p : Path) (chain : List String) (bytes : ByteArray) :
    Prop :=
  ∃ name, t.find true p limits = .ok (.entry chain (.file name bytes))

theorem walk_of_leads (h : t.Leads limits links chain pieces links' base)
    (hat : t.root.at? base = some e) :
    t.walk limits true links chain pieces = .ok (.entry base e) := by
  rw [← List.append_nil pieces, h.walk_append fun _ => rfl, walk_nil hat]

theorem allPieces_ne_nil (p : Path) : p.allPieces ≠ [] := by
  rw [Path.allPieces_eq]
  simp [p.body_ne_nil]

/-- The path is one that can be found: it holds no null character and is neither empty nor too
long. -/
structure IsAcceptable (limits : Limits) (p : Path) : Prop where
  null : p.hasNull = false
  ne_empty : p.text ≠ ""
  size : Limits.exceeds limits.path p.text = false

/-- A path that leads to a file is one along which the tree can be walked. -/
theorem hasFile_iff : t.HasFile limits p chain bytes ↔
    IsAcceptable limits p ∧ t.kindAt chain = some (.file bytes) ∧
      ∃ links, t.Leads limits maxLinks (p.startFrom t.current) p.allPieces links chain := by
  constructor
  · rintro ⟨name, hfind⟩
    obtain ⟨hnull, hne, hsize, hwalk⟩ := of_find_eq_ok_within hfind
    obtain ⟨links, hleads, hat⟩ := leads_of_walk hwalk
    exact ⟨⟨hnull, hne, hsize⟩, kindAt_of_at? hat, links, hleads⟩
  · rintro ⟨hp, hfile, links, hleads⟩
    obtain ⟨e, hat, hkind⟩ := exists_at?_of_kindAt hfile
    obtain ⟨name, rfl⟩ := Entry.kind_eq_file_iff.mp hkind
    exact ⟨name, (find_eq_walk_within hp.null hp.ne_empty hp.size).trans
      (walk_of_leads hleads hat)⟩

theorem HasFile.kindAt (h : t.HasFile limits p chain bytes) :
    t.kindAt chain = some (.file bytes) :=
  (hasFile_iff.mp h).2.1

/-- A path that is found along names leads to the file that stands at their end. -/
theorem FindsAlong.hasFile {names : List String} (h : t.FindsAlong p base (names ++ [name]))
    (hnames : ∀ n ∈ names, IsName n) (hname : IsName name)
    (hfile : t.kindAt (base ++ (names ++ [name])) = some (.file bytes)) :
    t.HasFile .unbounded p (base ++ (names ++ [name])) bytes := by
  obtain ⟨e, hfound, hkind⟩ := find_of_entry hnames hname h hfile (by simp) true
  obtain ⟨own, rfl⟩ := Entry.kind_eq_file_iff.mp hkind
  exact ⟨own, hfound⟩

/-- A path that leads to a file does so ever after. -/
theorem HasFile.keep (h : t.HasFile limits p chain bytes) (hx : t.KeepsShape t')
    (hfile : t'.kindAt chain = some (.file bytes')) : t'.HasFile limits p chain bytes' := by
  obtain ⟨hp, -, links, hleads⟩ := hasFile_iff.mp h
  refine hasFile_iff.mpr ⟨hp, hfile, links, ?_⟩
  rw [Path.startFrom, hx.current]
  exact hleads.keep hx

theorem HasFile.exists_keep (h : t.HasFile limits p chain bytes) (hx : t.KeepsShape t') :
    ∃ bytes', t'.HasFile limits p chain bytes' := by
  obtain ⟨bytes', hfile⟩ := hx.file h.kindAt
  exact ⟨bytes', h.keep hx hfile⟩

/-! ### Where a file is written -/

/-- **A file is written there**, in the directory at `chain`: the path leads to a file of that
name, or the name is free. -/
inductive Opens (t : Tree) (limits : Limits) (p : Path) (chain : List String) (name : String) : Prop
  | free (find : t.find true p limits = .ok (.free chain name false))
  | file {bytes : ByteArray}
    (find : t.find true p limits = .ok (.entry (chain ++ [name]) (.file name bytes)))

/-- Where a walk ends at a free name, there is a directory without it. -/
theorem directory_of_walk
    (h : t.walk limits follow links chain pieces = .ok (.free base name slash)) :
    t.kindAt base = some .directory ∧ t.kindAt (base ++ [name]) = none := by
  fun_induction t.walk limits follow links chain pieces with
  | case8 links chain piece rest e hat hdir hplain hup hsize hc hall =>
    obtain ⟨rfl, rfl, -⟩ := Goal.free.inj (Except.ok.inj h)
    exact ⟨kindAt_of_isDirectory hat hdir,
      Entry.kindAt_eq_none_iff.mpr ((at?_concat hat piece).trans hc)⟩
  | case5 links chain piece rest e hat hdir hpiece ih => exact ih h
  | case6 links chain rest e hat hdir _ ih => exact ih h
  | case12 chain piece rest e hat hdir hplain hup hsize own target hc _ links start all ih =>
    exact ih h
  | case13 links chain piece rest e hat hdir hplain hup hsize c hlink hc ih => exact ih h
  | _ => cases h

theorem directory_of_free (h : t.find follow p limits = .ok (.free base name slash)) :
    t.kindAt base = some .directory ∧ t.kindAt (base ++ [name]) = none :=
  directory_of_walk (of_find_eq_ok_within h).2.2.2

/-- The walk to a free name ends at the entry that comes to have the name. -/
theorem leads_of_free (h : t.walk limits true links chain pieces = .ok (.free base name false))
    (hx : t.KeepsShape t') (hfile : t'.kindAt (base ++ [name]) = some (.file bytes)) :
    ∃ links', t'.Leads limits links chain pieces links' (base ++ [name]) := by
  fun_induction t.walk limits true links chain pieces with
  | case5 links chain piece rest e hat hdir hpiece ih =>
    obtain ⟨links', hleads⟩ := ih h
    exact ⟨links', .stay (hx.directory (kindAt_of_isDirectory hat hdir)) (by simpa using hpiece)
      hleads⟩
  | case6 links chain rest e hat hdir _ ih =>
    obtain ⟨links', hleads⟩ := ih h
    exact ⟨links', .up (hx.directory (kindAt_of_isDirectory hat hdir)) hleads⟩
  | case8 links chain piece rest e hat hdir hplain hup hsize hc hall =>
    -- here the walk came to the name that was free, where the file is now
    simp only [Except.ok.injEq, Goal.free.injEq, Bool.not_eq_false', List.isEmpty_iff] at h
    obtain ⟨rfl, rfl, rfl⟩ := h
    exact ⟨links, .down (hx.directory (kindAt_of_isDirectory hat hdir)) (isName_of_not hplain hup)
      (by simpa using hsize) hfile (by simp) (.done (by simp [hfile]))⟩
  | case12 chain piece rest e hat hdir hplain hup hsize own target hc _ links start all ih =>
    obtain ⟨links', hleads⟩ := ih h
    have hentry := kindAt_of_at? ((at?_concat hat piece).trans hc)
    exact ⟨links', .follow (hx.directory (kindAt_of_isDirectory hat hdir))
      (isName_of_not hplain hup) (by simpa using hsize) (hx.link hentry) hleads⟩
  | case13 links chain piece rest e hat hdir hplain hup hsize c hlink hc ih =>
    obtain ⟨links', hleads⟩ := ih h
    obtain ⟨k, hk, hshape⟩ := hx.kindAt (kindAt_of_at? ((at?_concat hat piece).trans hc))
    refine ⟨links', .down (hx.directory (kindAt_of_isDirectory hat hdir))
      (isName_of_not hplain hup) (by simpa using hsize) hk
      (Kind.ne_link_of_shape hshape fun target heq => ?_) hleads⟩
    cases c with
    | link own target' => exact hlink own target' rfl
    | file own bytes => cases heq
    | directory own entries => cases heq
  | _ => cases h

/-- A path that has pieces starts below a root that is a directory. -/
theorem Leads.root_directory (h : t.Leads limits links chain pieces links' base)
    (hne : pieces ≠ []) : t.kindAt [] = some .directory := by
  have hdir := h.directory hne
  by_cases hnil : chain = []
  · exact hnil ▸ hdir
  · exact kindAt_of_append (show t.kindAt ([] ++ chain) = _ from hdir) hnil

/-- The file that a path leads to stands in a directory, under its own name. -/
theorem exists_directory_of_entry
    (h : t.find true p limits = .ok (.entry base (.file name bytes))) :
    base = base.dropLast ++ [name] ∧ t.kindAt base.dropLast = some .directory := by
  obtain ⟨-, -, -, hwalk⟩ := of_find_eq_ok_within h
  obtain ⟨links, hleads, hat⟩ := leads_of_walk hwalk
  obtain ⟨front, last, rfl⟩ := (List.eq_nil_or_concat base).resolve_left <| by
    rintro rfl
    cases (hleads.root_directory (allPieces_ne_nil p)).symm.trans (kindAt_of_at? hat)
  rw [List.concat_eq_append] at hat ⊢
  rw [List.dropLast_concat]
  have hdir := kindAt_of_append (kindAt_of_at? hat) (List.cons_ne_nil last [])
  obtain ⟨d, hd, -⟩ := exists_at?_of_kindAt hdir
  rw [at?_concat hd] at hat
  exact ⟨by rw [← Entry.name_of_child? hat]; rfl, hdir⟩

/-- Writing puts a file where the path opens. -/
theorem of_write (h : t.write p text limits = .ok t') : ∃ chain name,
    t.Opens limits p chain name ∧ t' = t.putAt (.file name text.toUTF8) chain := by
  unfold write at h
  split at h
  · cases h
  · rename_i chain name hfind
    cases h
    exact ⟨chain, name, .free hfind, rfl⟩
  · cases h
  · rename_i chain name bytes hfind
    cases h
    have hplace := (exists_directory_of_entry hfind).1
    rw [hplace] at hfind
    exact ⟨_, name, .file hfind, rfl⟩
  · cases h

/-! ### Changes -/

/-- **The tree changes at these places only**: it keeps its shape and has no link that is new, and
every file elsewhere is as it was. -/
structure Changes (t t' : Tree) (places : List (List String)) : Prop where
  shape : t.KeepsShape t'
  link : ∀ {chain target}, t'.kindAt chain = some (.link target) →
    t.kindAt chain = some (.link target)
  same : ∀ {chain bytes}, chain ∉ places →
    (t'.kindAt chain = some (.file bytes) ↔ t.kindAt chain = some (.file bytes))

theorem Changes.refl (t : Tree) : t.Changes t [] :=
  ⟨.refl t, id, fun _ => Iff.rfl⟩

theorem Changes.trans (h : t.Changes t' places) (h' : t'.Changes t'' places') :
    t.Changes t'' (places ++ places') := by
  refine ⟨h.shape.trans h'.shape, fun hlink => h.link (h'.link hlink), fun hchain => ?_⟩
  rw [List.mem_append, not_or] at hchain
  rw [h'.same hchain.2, h.same hchain.1]

section Opens

variable (h : t.Opens limits p chain name)

include h

theorem Opens.directory : t.kindAt chain = some .directory := by
  cases h with
  | free find => exact (directory_of_free find).1
  | file find =>
    have hdir := (exists_directory_of_entry find).2
    rwa [List.dropLast_concat] at hdir

/-- If anything stands there, it is a file. -/
theorem Opens.exists_file {k : Kind} (hk : t.kindAt (chain ++ [name]) = some k) :
    ∃ bytes, k = .file bytes := by
  cases h with
  | free find => cases (directory_of_free find).2.symm.trans hk
  | file find => exact ⟨_, Option.some_inj.mp (hk.symm.trans (HasFile.kindAt ⟨_, find⟩))⟩

theorem Opens.kindAt_putAt (bytes : ByteArray) (names : List String) :
    (t.putAt (.file name bytes) chain).kindAt names =
      if names = chain ++ [name] then some (.file bytes) else t.kindAt names := by
  refine Entry.kindAt_putAt h.directory rfl (fun hdir => ?_) names
  obtain ⟨old, hold⟩ := h.exists_file hdir
  cases hold

/-- **Whatever is put where a path opens, nothing else changes.** -/
theorem Opens.changes (bytes : ByteArray) :
    t.Changes (t.putAt (.file name bytes) chain) [chain ++ [name]] := by
  refine ⟨⟨rfl, fun {names k} hk => ?_⟩, fun {names target} hlink => ?_,
    fun {names old} hnames => ?_⟩
  · rw [h.kindAt_putAt bytes]
    split
    · rename_i heq
      subst heq
      obtain ⟨old, rfl⟩ := h.exists_file hk
      exact ⟨_, rfl, rfl⟩
    · exact ⟨k, hk, rfl⟩
  · rw [h.kindAt_putAt bytes] at hlink
    split at hlink
    · cases hlink
    · exact hlink
  · rw [h.kindAt_putAt bytes, if_neg fun heq => hnames (List.mem_singleton.mpr heq)]

/-- The path leads to what is put where it opens. -/
theorem Opens.hasFile (bytes : ByteArray) :
    (t.putAt (.file name bytes) chain).HasFile limits p (chain ++ [name]) bytes := by
  have hx := (h.changes bytes).shape
  have hfile := h.kindAt_putAt bytes (chain ++ [name])
  rw [if_pos rfl] at hfile
  cases h with
  | free find =>
    obtain ⟨hnull, hne, hsize, hwalk⟩ := of_find_eq_ok_within find
    obtain ⟨links, hleads⟩ := leads_of_free hwalk hx hfile
    exact hasFile_iff.mpr ⟨⟨hnull, hne, hsize⟩, hfile, links, hleads⟩
  | file find => exact HasFile.keep ⟨_, find⟩ hx hfile

end Opens

/-- Making a directory changes no file. -/
theorem changes_of_makeDirectory (h : t.makeDirectory p limits = .ok t') : t.Changes t' [] := by
  unfold makeDirectory at h
  split at h
  · cases h
  · rename_i chain name slash hfind
    cases h
    obtain ⟨hdir, hfree⟩ := directory_of_free hfind
    -- the new directory is all that is new
    have hput : ∀ names, (t.putAt (.directory name []) chain).kindAt names =
        if names = chain ++ [name] then some .directory else t.kindAt names :=
      kindAt_putAt_directory hdir hfree
    have hother {names : List String} {k : Kind} (hk : t.kindAt names = some k) :
        (t.putAt (.directory name []) chain).kindAt names = some k := by
      rw [hput, if_neg, hk]
      rintro rfl
      cases hfree.symm.trans hk
    have hnew {names : List String} {k : Kind} (hne : k ≠ .directory)
        (hk : (t.putAt (.directory name []) chain).kindAt names = some k) :
        t.kindAt names = some k := by
      rw [hput] at hk
      split at hk
      · exact absurd (Option.some_inj.mp hk).symm hne
      · exact hk
    exact ⟨⟨rfl, fun hk => ⟨_, hother hk, rfl⟩⟩, hnew nofun, fun _ => ⟨hnew nofun, hother⟩⟩
  · cases h

end Tree

end ViewBinding.Files
