import ViewBinding.Proofs.Files.Names
import ViewBinding.Proofs.Files.Roots

/-!
# Finding what is below a directory

The paths below a directory are its own path with names pushed to it one after the other. Such a
path is found where the names lead to from the directory (`ViewBinding.Files.Tree.find_below`),
if neither it nor one of the names is too long (`ViewBinding.Files.Limits.Forbid`), and two sets of
names give paths with different components (`ViewBinding.Files.Path.components_foldl_push`).
-/

namespace ViewBinding.Files

open Text

/-- The path or one of these names in it is longer than the limits allow. -/
def Limits.Forbid (limits : Limits) (p : Path) (names : List String) : Prop :=
  Limits.exceeds limits.path p.text = true ∨ ∃ name ∈ names, Limits.exceeds limits.name name = true

namespace Path

variable {p : Path} {names names' : List String} {name : String} {stem : List (List Char)}

/-! ### Names pushed to a path -/

theorem Stem.body_push_name (hstem : p.Stem stem) (hname : IsProperName name) :
    (p.push name).body = stem ++ [name.toList] := by
  rw [hstem.push (isAbsolute_of_not_mem hname.slash), pieces_of_not_mem hname.slash]

theorem Stem.push_name (hstem : p.Stem stem) (hname : IsProperName name) :
    (p.push name).Stem (stem ++ [name.toList]) := by
  have hbody := hstem.body_push_name hname
  obtain ⟨stem', hstem'⟩ := (p.push name).exists_stem
  rcases hstem'.body with hsame | hempty
  · rwa [← hbody, hsame]
  · -- the last piece is the name, which is not empty
    rw [hbody] at hempty
    have hlast := List.singleton_inj.mp (List.append_inj_right' hempty rfl)
    exact absurd (String.toList_eq_nil_iff.mp hlast) hname.ne_empty

theorem Stem.foldl_push (hstem : p.Stem stem) (hnames : ∀ name ∈ names, IsProperName name) :
    (names.foldl Path.push p).Stem (stem ++ names.map String.toList) := by
  induction names generalizing p stem with
  | nil => simpa using hstem
  | cons name names ih =>
    obtain ⟨hname, hnames⟩ := List.forall_mem_cons.mp hnames
    rw [List.foldl_cons, List.map_cons, List.append_cons]
    exact ih (hstem.push_name hname) hnames

theorem Stem.body_foldl_push (hstem : p.Stem stem) (hnames : ∀ name ∈ names, IsProperName name)
    (hne : names ≠ []) : (names.foldl Path.push p).body = stem ++ names.map String.toList := by
  obtain ⟨front, last, rfl⟩ := (List.eq_nil_or_concat names).resolve_left hne
  rw [List.concat_eq_append] at hnames ⊢
  obtain ⟨hfront, hlast⟩ := List.forall_mem_append.mp hnames
  rw [List.foldl_append, List.foldl_cons, List.foldl_nil,
    (hstem.foldl_push hfront).body_push_name (hlast last List.mem_cons_self), List.map_append,
    List.append_assoc]
  rfl

theorem isAbsolute_of_isProperName (h : IsProperName name) : (mk name).isAbsolute = false :=
  isAbsolute_of_not_mem h.slash

/-- The pieces of a path with names pushed to it. -/
theorem allPieces_foldl_push (hstem : p.Stem stem) (hnames : ∀ name ∈ names, IsProperName name)
    (hne : names ≠ []) :
    (names.foldl Path.push p).allPieces =
      (if p.isAbsolute then [""] else []) ++ stem.map String.ofList ++ names := by
  have hrelative : names.any (fun name => (mk name).isAbsolute) = false :=
    List.any_eq_false.mpr fun name hname => by
      simp [isAbsolute_of_isProperName (hnames name hname)]
  rw [allPieces_eq, isAbsolute_foldl_push, hrelative, Bool.or_false,
    hstem.body_foldl_push hnames hne, List.map_append, List.map_map, List.append_assoc]
  simp [Function.comp_def]

theorem spelled_singleton (name : String) : spelled [name] = name := by
  rw [spelled, List.map_singleton, joinPieces, String.ofList_toList]

theorem hasNull_foldl_push (hnull : p.hasNull = false)
    (hnames : ∀ name ∈ names, IsProperName name) : (names.foldl Path.push p).hasNull = false := by
  induction names generalizing p with
  | nil => exact hnull
  | cons name names ih =>
    obtain ⟨hname, hnames⟩ := List.forall_mem_cons.mp hnames
    have hpush := hasNull_push_spelled hnull (List.forall_mem_singleton.mpr hname)
      (List.cons_ne_nil name [])
    rw [spelled_singleton] at hpush
    exact ih hpush hnames

theorem inner_of_isProperName (h : IsProperName name) : (mk name).inner = [.name name] := by
  have hinner := inner_spelled (List.forall_mem_singleton.mpr h) (List.cons_ne_nil name [])
  rwa [spelled_singleton] at hinner

/-- **The components of a path below a directory** are those of the directory and the names. -/
theorem components_foldl_push (hp : p.text ≠ "") (hnames : ∀ name ∈ names, IsProperName name) :
    (names.foldl Path.push p).components = p.components ++ names.map Component.name := by
  have hrelative : ∀ name ∈ names, (mk name).isAbsolute = false := fun name hname =>
    isAbsolute_of_isProperName (hnames name hname)
  rw [components_eq, opening_foldl_push hp hrelative, inner_foldl_push p hrelative, components_eq,
    List.append_assoc,
    List.flatMap_congr fun name hname => inner_of_isProperName (hnames name hname),
    ← List.map_eq_flatMap]

/-- Paths below a directory with the same components lead there by the same names. -/
theorem eq_of_components_foldl_push (hp : p.text ≠ "")
    (hnames : ∀ name ∈ names, IsProperName name) (hnames' : ∀ name ∈ names', IsProperName name)
    (h : (names.foldl Path.push p).components = (names'.foldl Path.push p).components) :
    names = names' := by
  rw [components_foldl_push hp hnames, components_foldl_push hp hnames'] at h
  exact List.map_injective_iff.mpr (fun _ _ => Component.name.inj) (List.append_cancel_left h)

end Path

/-! ### Where such paths lead -/

namespace Tree

variable {t : Tree} {limits : Limits} {dir : Path} {chain names : List String} {d : Entry}
  {k : Kind}

/-- From where a path leads, names lead on. -/
theorem exists_find_eq_walk (h : t.find true dir limits = .ok (.entry chain d)) :
    ∃ links, ∀ names, (∀ name ∈ names, IsProperName name) → names ≠ [] →
      Limits.exceeds limits.path (names.foldl Path.push dir).text = false →
        ∀ follow, t.find follow (names.foldl Path.push dir) limits =
          t.walk limits follow links chain names := by
  obtain ⟨hnull, hne, -, hwalk⟩ := of_find_eq_ok_within h
  obtain ⟨links, hleads, -⟩ := leads_of_walk hwalk
  obtain ⟨stem, hstem⟩ := dir.exists_stem
  have hfront : t.Leads limits maxLinks (dir.startFrom t.current)
      ((if dir.isAbsolute then [""] else []) ++ stem.map String.ofList) links chain := by
    rcases hstem.body with hbody | hbody
    · exact leads_of_body_append hleads (hbody.trans (List.append_nil stem).symm) (by simp)
    · exact leads_of_body_append hleads hbody (by simp [Path.isNeutral])
  refine ⟨links, fun names hnames hnames' hsize follow => ?_⟩
  have hrelative : ∀ name ∈ names, (Path.mk name).isAbsolute = false := fun name hname =>
    Path.isAbsolute_of_isProperName (hnames name hname)
  have hstart : (names.foldl Path.push dir).startFrom t.current = dir.startFrom t.current := by
    rw [Path.startFrom, Path.startFrom, Path.isAbsolute_foldl_push,
      List.any_eq_false.mpr fun name hname => by simp [hrelative name hname], Bool.or_false]
  rw [find_eq_walk_within (Path.hasNull_foldl_push hnull hnames)
    (Path.text_foldl_push_ne_empty hne hrelative) hsize, hstart,
    Path.allPieces_foldl_push hstem hnames hnames']
  exact hfront.walk_append fun hnil => absurd hnil hnames'

/-- **What names lead to from a directory is found there**, unless something is too long. -/
theorem find_below (follow : Bool) (h : t.find true dir limits = .ok (.entry chain d))
    (hnames : ∀ name ∈ names, IsProperName name) (hne : names ≠ [])
    (hkind : t.kindAt (chain ++ names) = some k) (hlink : ∀ target, k ≠ .link target)
    (hallow : ¬limits.Forbid (names.foldl Path.push dir) names) :
    ∃ e, t.find follow (names.foldl Path.push dir) limits = .ok (.entry (chain ++ names) e) ∧
      e.kind = k := by
  obtain ⟨hpath, hsizes⟩ := not_or.mp hallow
  obtain ⟨links, hwalk⟩ := exists_find_eq_walk h
  rw [hwalk names hnames hne (by simpa using hpath)]
  exact walk_names_within (fun name hname => (hnames name hname).toIsName)
    (fun name hname => by simpa using fun hlong => hsizes ⟨name, hname, hlong⟩) hkind hlink

/-- A path that is too long is not found. -/
theorem find_below_of_forbid (follow : Bool) (h : t.find true dir limits = .ok (.entry chain d))
    (hnames : ∀ name ∈ names, IsProperName name) (hne : names ≠ [])
    (hkind : t.kindAt (chain ++ names) = some k) (hlink : ∀ target, k ≠ .link target)
    (hforbid : limits.Forbid (names.foldl Path.push dir) names) :
    t.find follow (names.foldl Path.push dir) limits = .error .nameTooLong := by
  obtain ⟨hnull, htext, -, -⟩ := of_find_eq_ok_within h
  by_cases hpath : Limits.exceeds limits.path (names.foldl Path.push dir).text = true
  · have htext' := Path.text_foldl_push_ne_empty htext fun name hname =>
      Path.isAbsolute_of_isProperName (hnames name hname)
    rw [find, if_neg (by simp [Path.hasNull_foldl_push hnull hnames]), if_neg htext', if_pos hpath]
  · obtain ⟨links, hwalk⟩ := exists_find_eq_walk h
    rw [hwalk names hnames hne (by simpa using hpath)]
    exact walk_names_of_exceeds (fun name hname => (hnames name hname).toIsName)
      (hforbid.resolve_left hpath) hkind hlink

end Tree

end ViewBinding.Files
