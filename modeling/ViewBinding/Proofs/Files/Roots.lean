import ViewBinding.Proofs.Files.Writing

/-!
# Empty directories

A directory is empty (`ViewBinding.Files.Tree.IsEmptyRoot`) if it is there and has no entries, or
if it is missing from a directory that is there. Its path may be spelled in any way, and it may lead
through links. In each case the directory can be written to
(`ViewBinding.Files.Tree.IsEmptyRoot.reaches`), and there is nothing below it
(`ViewBinding.Files.Tree.IsEmptyRoot.kindAt_eq_none`).
-/

namespace ViewBinding.Files

open Text

namespace Path

variable {p : Path} {names : List String} {stem : List (List Char)}

theorem text_push_spelled_ne_empty (hstem : p.Stem stem)
    (hnames : ∀ name ∈ names, IsProperName name) (hne : names ≠ []) :
    (p.push (spelled names)).text ≠ "" := by
  intro hempty
  have hbody := hstem.push (isAbsolute_spelled hnames hne)
  rw [pieces_spelled hnames hne, show p.push (spelled names) = ⟨""⟩ from congrArg mk hempty]
    at hbody
  -- the empty path has one empty piece, which is no name
  obtain ⟨first, rest, rfl⟩ := List.exists_cons_of_ne_nil hne
  have hmem : first.toList ∈ (Path.mk "").body := hbody ▸ by simp
  rw [show (Path.mk "").body = [[]] from rfl, List.mem_singleton] at hmem
  exact (hnames first List.mem_cons_self).ne_empty (String.toList_eq_nil_iff.mp hmem)

theorem hasNull_push_spelled (hnull : p.hasNull = false)
    (hnames : ∀ name ∈ names, IsProperName name) (hne : names ≠ []) :
    (p.push (spelled names)).hasNull = false := by
  have hspelled := null_not_mem_spelled hnames hne
  have hrelative := isAbsolute_spelled hnames hne
  rw [hasNull, List.contains_eq_mem, decide_eq_false_iff_not] at hnull ⊢
  by_cases hp : p.text = ""
  · rwa [show p = ⟨""⟩ from congrArg mk hp, push_empty]
  · obtain ⟨front, hfront, hpush⟩ := text_push hp hrelative
    rw [hpush]
    rcases hfront with hfront | hfront <;> rw [hfront] at hnull <;> simp_all

/-- The pieces of a path with names pushed to it. -/
theorem allPieces_push_spelled (hstem : p.Stem stem) (hnames : ∀ name ∈ names, IsProperName name)
    (hne : names ≠ []) :
    (p.push (spelled names)).allPieces =
      (if p.isAbsolute then [""] else []) ++ stem.map String.ofList ++ names := by
  have hrelative := isAbsolute_spelled hnames hne
  rw [allPieces_eq, isAbsolute_push, hrelative, Bool.or_false, hstem.push hrelative,
    pieces_spelled hnames hne, List.map_append, List.map_map, List.append_assoc]
  simp [Function.comp_def]

end Path

namespace Tree

variable {t s : Tree} {root p : Path} {base chain pieces names : List String} {name : String}
  {links links' : Nat} {e : Entry} {stem : List (List Char)} {follow : Bool} {limits : Limits}

theorem find_eq_walk_within (hnull : p.hasNull = false) (hne : p.text ≠ "")
    (hsize : Limits.exceeds limits.path p.text = false) :
    t.find follow p limits =
      t.walk limits follow maxLinks (p.startFrom t.current) p.allPieces := by
  rw [find, if_neg (by simp [hnull]), if_neg hne, if_neg (by simp [hsize])]
  rfl

theorem find_eq_walk (hnull : p.hasNull = false) (hne : p.text ≠ "") :
    t.find follow p .unbounded =
      t.walk .unbounded follow maxLinks (p.startFrom t.current) p.allPieces :=
  find_eq_walk_within hnull hne rfl

theorem of_find_eq_ok_within {goal : Goal} (h : t.find follow p limits = .ok goal) :
    p.hasNull = false ∧ p.text ≠ "" ∧ Limits.exceeds limits.path p.text = false ∧
      t.walk limits follow maxLinks (p.startFrom t.current) p.allPieces = .ok goal := by
  have hnull : p.hasNull = false := by
    by_contra hnull
    rw [find, if_pos (by simpa using hnull)] at h
    cases h
  have hne : p.text ≠ "" := by
    intro hempty
    rw [find, if_neg (by simp [hnull]), if_pos hempty] at h
    cases h
  have hsize : Limits.exceeds limits.path p.text = false := by
    by_contra hsize
    rw [find, if_neg (by simp [hnull]), if_neg hne, if_pos (by simpa using hsize)] at h
    cases h
  exact ⟨hnull, hne, hsize, (find_eq_walk_within hnull hne hsize).symm.trans h⟩

theorem of_find_eq_ok {goal : Goal} (h : t.find follow p .unbounded = .ok goal) :
    p.hasNull = false ∧ p.text ≠ "" ∧
      t.walk .unbounded follow maxLinks (p.startFrom t.current) p.allPieces = .ok goal := by
  obtain ⟨hnull, hne, -, hwalk⟩ := of_find_eq_ok_within h
  exact ⟨hnull, hne, hwalk⟩

/-- A path with names pushed to it is found along the names from where its own pieces lead. -/
theorem findsAlong_push {pre : List String} (hnull : root.hasNull = false) (hstem : root.Stem stem)
    (hleads : t.Leads .unbounded maxLinks (root.startFrom t.current) pieces links base)
    (hpieces : (if root.isAbsolute then [""] else []) ++ stem.map String.ofList = pieces ++ pre)
    (hnames : ∀ name ∈ names, IsProperName name) (hne : names ≠ []) :
    t.FindsAlong (root.push (Path.spelled names)) base (pre ++ names) := by
  refine ⟨fun {s} hx follow => ⟨links, ?_⟩⟩
  have hstart : (root.push (Path.spelled names)).startFrom s.current =
      root.startFrom t.current := by
    rw [Path.startFrom, Path.startFrom, Path.isAbsolute_push, Path.isAbsolute_spelled hnames hne,
      Bool.or_false, hx.current]
  rw [find_eq_walk (Path.hasNull_push_spelled hnull hnames hne)
    (Path.text_push_spelled_ne_empty hstem hnames hne), hstart,
    Path.allPieces_push_spelled hstem hnames hne, hpieces, List.append_assoc]
  exact (hleads.extend hx).walk_append fun hnil => absurd (List.append_eq_nil_iff.mp hnil).2 hne

/-! ### A directory that is there -/

theorem of_isNeutral {piece : List Char} (h : Path.isNeutral piece = true) :
    String.ofList piece = "" ∨ String.ofList piece = "." := by
  rw [Path.isNeutral, Bool.or_eq_true, beq_iff_eq, beq_iff_eq] at h
  rcases h with rfl | rfl
  · exact .inl rfl
  · exact .inr rfl

theorem leads_of_body_append {front trail : List (List Char)}
    (hleads : t.Leads limits links chain root.allPieces links' base)
    (hbody : root.body = front ++ trail)
    (htrail : ∀ piece ∈ trail, Path.isNeutral piece = true) :
    t.Leads limits links chain
      ((if root.isAbsolute then [""] else []) ++ front.map String.ofList) links' base := by
  rw [Path.allPieces_eq, hbody, List.map_append, ← List.append_assoc] at hleads
  refine hleads.of_append fun piece hpiece => ?_
  obtain ⟨piece, hmem, rfl⟩ := List.mem_map.mp hpiece
  exact of_isNeutral (htrail piece hmem)

/-- A directory that is there need not be made. -/
theorem makeUpward_of_leads (hnull : p.hasNull = false) (hne : p.text ≠ "")
    (hleads : t.Leads .unbounded maxLinks (p.startFrom t.current) p.allPieces links base)
    (hdir : t.kindAt base = some .directory) (fuel : Nat) :
    idealDisk.makeUpward (fuel + 1) p t = (.ok (), t) := by
  cases habove : p.parent? with
  | none => exact makeUpward_of_parent?_none habove
  | some above =>
    obtain ⟨e, hat, hkind⟩ := exists_at?_of_kindAt hdir
    have htrue : t.find true p .unbounded = .ok (.entry base e) := by
      rw [find_eq_walk hnull hne, ← List.append_nil p.allPieces, hleads.walk_append fun _ => rfl,
        walk_nil hat]
    obtain ⟨chain', e', hwalk⟩ := hleads.exists_walk
    have hfalse : t.find false p .unbounded = .ok (.entry chain' e') :=
      (find_eq_walk hnull hne).trans hwalk
    rw [makeUpward_of_there habove (makeDirectory_of_entry hfalse) htrue,
      Entry.kind_eq_directory_iff.mp hkind]
    rfl

theorem reaches_of_leads (hnull : root.hasNull = false)
    (hleads : t.Leads .unbounded maxLinks (root.startFrom t.current) root.allPieces links chain)
    (hdir : t.kindAt chain = some .directory) : t.Reaches root chain [] := by
  obtain ⟨stem, hstem⟩ := root.exists_stem
  refine ⟨hdir, by simp, fun hne hnames => ?_, fun {s name fuel} hx _ hname => ?_⟩
  · have hfront : t.Leads .unbounded maxLinks (root.startFrom t.current)
        ((if root.isAbsolute then [""] else []) ++ stem.map String.ofList) links chain := by
      rcases hstem.body with hbody | hbody
      · exact leads_of_body_append hleads (hbody.trans (List.append_nil stem).symm) (by simp)
      · exact leads_of_body_append hleads hbody (by simp [Path.isNeutral])
    exact findsAlong_push hnull hstem hfront (List.append_nil _).symm hnames hne
  · have hmakes : s.Makes s chain [] := makes_refl (by simpa using hx.kindAt hdir)
    refine ⟨_, s, hstem.parent?_push_single hname, ?_, hmakes⟩
    obtain ⟨trail, hbody, htrail⟩ := hstem.trimmed_stem_append
    by_cases htrim : Path.trimmed root.isAbsolute stem = []
    · rw [htrim]
      exact makeUpward_of_parent?_none (Path.parent?_ofPieces_nil _)
    · obtain ⟨habsolute, hfront, hne, hinitial⟩ :=
        Path.ofPieces_of_append hbody htrim (Path.getLast?_trimmed_ne _ _)
      have hnull' : (Path.ofPieces root.isAbsolute
          (Path.trimmed root.isAbsolute stem)).hasNull = false := by
        rw [Path.hasNull, List.contains_eq_mem, decide_eq_false_iff_not] at hnull ⊢
        exact fun hmem => hnull (hinitial.subset hmem)
      have hleads' := (leads_of_body_append hleads hbody htrail).extend hx
      have hpieces : (Path.ofPieces root.isAbsolute
          (Path.trimmed root.isAbsolute stem)).allPieces = (if root.isAbsolute then [""] else []) ++
            (Path.trimmed root.isAbsolute stem).map String.ofList := by
        rw [Path.allPieces_eq, habsolute, hfront]
      have hstart : (Path.ofPieces root.isAbsolute
          (Path.trimmed root.isAbsolute stem)).startFrom s.current = root.startFrom t.current := by
        rw [Path.startFrom, habsolute, hx.current, Path.startFrom]
      rw [← hpieces, ← hstart] at hleads'
      exact makeUpward_of_leads hnull' hne hleads' (hx.kindAt hdir) fuel

/-! ### A directory that is missing -/

/-- A directory that is missing is made in the one that it is missing from. -/
theorem reaches_of_free (h : t.find false root .unbounded = .ok (.free chain name false)) :
    t.Reaches root chain [name] ∧ t.kindAt (chain ++ [name]) = none := by
  obtain ⟨hnull, hne, hwalk⟩ := of_find_eq_ok h
  obtain ⟨front, links, hpieces, hname, hleads, hdir, hfree⟩ := exists_leads_of_free hwalk
  obtain ⟨stem, hstem⟩ := root.exists_stem
  have hfinds : t.FindsAlong root chain [name] := by
    refine ⟨fun {s} hx follow => ⟨links, ?_⟩⟩
    rw [find_eq_walk hnull hne, hpieces, Path.startFrom, hx.current]
    exact (hleads.extend hx).walk_append fun hnil => by cases hnil
  -- the name is the last piece of the path
  obtain ⟨body, last, hbody⟩ := (List.eq_nil_or_concat root.body).resolve_left root.body_ne_nil
  rw [List.concat_eq_append] at hbody
  have hlast : String.ofList last = name := by
    rw [Path.allPieces_eq, hbody, List.map_append, ← List.append_assoc] at hpieces
    exact List.singleton_inj.mp (List.append_inj_right' hpieces rfl)
  have hneutral : Path.isNeutral last = false := by
    have := Path.isNeutral_toList hname
    rwa [← hlast, String.toList_ofList] at this
  have hstem' : root.body = stem := by
    refine hstem.body.resolve_right fun hempty => ?_
    rw [hbody] at hempty
    rw [List.singleton_inj.mp (List.append_inj_right' hempty rfl)] at hneutral
    cases hneutral
  refine ⟨⟨hdir, by simpa using hname, fun hne hnames => ?_, fun {s n fuel} hx hopen hn => ?_⟩,
    hfree⟩
  · refine findsAlong_push hnull hstem hleads ?_ hnames hne
    rw [← hstem', ← Path.allPieces_eq, hpieces]
  · have habove := Path.parent?_of_body_concat hbody hneutral
    obtain ⟨s', hmake, hmakes⟩ : ∃ s', idealDisk.makeUpward (fuel + 1) root s = (.ok (), s') ∧
        s.Makes s' chain ([] ++ [name]) := by
      refine makeUpward_concat (by simp) hname (hfinds.extend hx) hopen habove fun hnone => ?_
      rw [List.append_nil, hx.kindAt hdir] at hnone
      cases hnone
    refine ⟨_, s', hstem.parent?_push_single hn, ?_, hmakes⟩
    rw [← hstem', hbody, Path.trimmed_concat _ _ hneutral, ← hbody, Path.ofPieces_body]
    exact hmake

/-! ### Empty directories -/

/-- **The path is that of an empty directory** at the end of the chain, or of one that can be
made. -/
inductive IsEmptyRoot (t : Tree) (root : Path) : List String → Prop
  /-- The directory is there. -/
  | there {chain : List String} {name : String}
      (find : t.find true root .unbounded = .ok (.entry chain (.directory name []))) :
      IsEmptyRoot t root chain
  /-- The empty path is that of the directory where relative paths start. -/
  | current {name : String} (text : root.text = "")
      (entry : t.root.at? t.current = some (.directory name [])) : IsEmptyRoot t root t.current
  /-- The directory is missing from one that is there. -/
  | missing {chain : List String} {name : String}
      (find : t.find false root .unbounded = .ok (.free chain name false)) :
      IsEmptyRoot t root (chain ++ [name])

/-- There is nothing below an entry without entries. -/
theorem kindAt_append_of_entries (h : t.root.at? chain = some e) (hentries : e.entries = [])
    (hne : names ≠ []) : t.kindAt (chain ++ names) = none := by
  obtain ⟨first, rest, rfl⟩ := List.exists_cons_of_ne_nil hne
  rw [kindAt, Entry.kindAt_append, h, Option.bind_some, Entry.kindAt_cons,
    Entry.child?_eq_none_of_entries hentries]
  rfl

/-- **An empty directory can be written to.** -/
theorem IsEmptyRoot.reaches (h : t.IsEmptyRoot root chain) :
    ∃ base pre, chain = base ++ pre ∧ t.Reaches root base pre ∧ t.IsOpen base pre := by
  have hopen {base : List String} (hdir : t.kindAt base = some .directory) : t.IsOpen base [] := by
    rintro front hfront
    rw [List.prefix_nil.mp hfront, List.append_nil]
    exact .inl hdir
  cases h with
  | there find =>
    obtain ⟨hnull, -, hwalk⟩ := of_find_eq_ok find
    obtain ⟨links, hleads, hat⟩ := leads_of_walk hwalk
    have hdir := kindAt_of_at? hat
    exact ⟨chain, [], (List.append_nil chain).symm, reaches_of_leads hnull hleads hdir, hopen hdir⟩
  | current text entry =>
    have hdir := kindAt_of_at? entry
    obtain rfl : root = ⟨""⟩ := congrArg Path.mk text
    have hhere : t.kindAt t.current ≠ none := fun hnone => by cases hdir.symm.trans hnone
    exact ⟨t.current, [], (List.append_nil t.current).symm,
      reaches_of_leads rfl (.stay hdir (.inl rfl) (.done hhere)) hdir, hopen hdir⟩
  | missing find =>
    obtain ⟨hreaches, hfree⟩ := reaches_of_free find
    refine ⟨_, _, rfl, hreaches, fun front hfront => ?_⟩
    rcases List.prefix_concat_iff.mp (show front <+: [] ++ [_] from hfront) with rfl | hnil
    · exact .inr hfree
    · exact hopen hreaches.directory front hnil

/-- Nothing is below an empty directory, and the directory itself is no file. -/
theorem IsEmptyRoot.kindAt_cases (h : t.IsEmptyRoot root chain) :
    (t.kindAt chain = some .directory ∨ t.kindAt chain = none) ∧
      ∀ names, names ≠ [] → t.kindAt (chain ++ names) = none := by
  cases h with
  | there find =>
    obtain ⟨links, hleads, hat⟩ := leads_of_walk (of_find_eq_ok find).2.2
    exact ⟨.inl (kindAt_of_at? hat), fun names => kindAt_append_of_entries hat rfl⟩
  | current text entry =>
    exact ⟨.inl (kindAt_of_at? entry), fun names => kindAt_append_of_entries entry rfl⟩
  | missing find =>
    have hfree := (reaches_of_free find).2
    exact ⟨.inr hfree, fun names _ => Entry.kindAt_append_of_none hfree names⟩

/-- Whatever an empty directory is in is there. -/
theorem IsEmptyRoot.kindAt_above (h : t.IsEmptyRoot root chain) (hinitial : names <+: chain)
    (hne : names ≠ chain) : t.kindAt names = some .directory := by
  have habove {base : List String} (hdir : t.kindAt base = some .directory)
      (hnames : names <+: base) : t.kindAt names = some .directory := by
    obtain ⟨rest, rfl⟩ := hnames
    by_cases hrest : rest = []
    · rwa [hrest, List.append_nil] at hdir
    · exact kindAt_of_append hdir hrest
  cases h with
  | there find =>
    obtain ⟨links, hleads, hat⟩ := leads_of_walk (of_find_eq_ok find).2.2
    exact habove (kindAt_of_at? hat) hinitial
  | current text entry => exact habove (kindAt_of_at? entry) hinitial
  | missing find =>
    have hnames := (List.prefix_concat_iff.mp hinitial).resolve_left hne
    exact habove (reaches_of_free find).1.directory hnames

end Tree

end ViewBinding.Files
