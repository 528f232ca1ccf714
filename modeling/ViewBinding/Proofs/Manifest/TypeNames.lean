import Mathlib.Data.List.TakeWhile
import ViewBinding.Proofs.Grouping.Survivors
import ViewBinding.Proofs.Scan.Owners

/-!
# How manifests name types

An entry of a manifest names the type of its field in one of two ways: by a name relative to the
package that it gives, or by one dotted text with the package in front. The second is read by the
convention on capitals. `ViewBinding.Java.TypeName.IsSplit` says which type such a text stands for:
the one whose qualified name it is, if no segment of the package is capital and all names of types
are. There is at most one such type, and `ViewBinding.Java.TypeName.guess?` finds it
(`ViewBinding.Java.TypeName.guess?_eq_some_iff`).

Either way a type is determined by its qualified name and its package. Two entries that agree on
both name one type, and their fields are in one group
(`ViewBinding.Manifest.owner_decodes`).
-/

namespace ViewBinding

open Java Text

/-! ### Names put together and taken apart -/

namespace Java

theorem noDot_of_isIdentifier {names : List String} (h : ∀ name ∈ names, isIdentifier name) :
    ∀ name ∈ names, '.' ∉ name.toList :=
  fun name hname => not_mem_of_isIdentifier (h name hname) (by decide)

theorem segments_dotted_of_isIdentifier {names : List String} (hne : names ≠ [])
    (h : ∀ name ∈ names, isIdentifier name) : segments (dotted names) = names :=
  segments_dotted hne (noDot_of_isIdentifier h)

/-- Two rows of names with a full stop between them. -/
theorem dotted_append {front back : List String} (hfront : front ≠ []) (hback : back ≠ []) :
    dotted (front ++ back) = dotted front ++ "." ++ dotted back := by
  apply String.toList_inj.mp
  simp [dotted, joinPieces_append, hfront, hback]

theorem dotted_ne_empty {names : List String} (hne : names ≠ [])
    (h : ∀ name ∈ names, isIdentifier name) : dotted names ≠ "" := by
  intro hempty
  -- the only segment would be empty, which is no identifier
  have hsegments := segments_dotted_of_isIdentifier hne h
  rw [hempty] at hsegments
  have hname := h "" (hsegments ▸ List.mem_singleton_self _)
  exact absurd hname (by decide)

namespace TypeName

variable {s : String} {t t' : TypeName} {names : List String}

theorem eq_of_nesting (hpackage : t.package = t'.package) (hnesting : t.nesting = t'.nesting) :
    t = t' := by
  have h := ofNesting?_nesting t
  rw [hpackage, hnesting, ofNesting?_nesting] at h
  exact (Option.some.inj h).symm

theorem IsWellNamed.segments_relative (h : t.IsWellNamed) : segments t.relative = t.nesting :=
  segments_dotted_of_isIdentifier t.nesting_ne_nil h.nesting

/-- A type is determined by its qualified name and its package. -/
theorem IsWellNamed.eq_of_qualified (h : t.IsWellNamed) (h' : t'.IsWellNamed)
    (hqualified : t.qualified = t'.qualified) (hpackage : t.package = t'.package) : t = t' := by
  have hrelative : t.relative = t'.relative := by
    unfold qualified at hqualified
    rw [hpackage] at hqualified
    split at hqualified
    · exact hqualified
    · exact String.toList_inj.mp (by simpa using congrArg String.toList hqualified)
  refine eq_of_nesting hpackage ?_
  rw [← h.segments_relative, hrelative, h'.segments_relative]

/-! ### The convention on capitals -/

/-- **The text is split into the type** by the convention on capitals: it is the qualified name, all
names are identifiers, no segment of the package starts with a capital, and all names of types
do. -/
structure IsSplit (s : String) (t : TypeName) : Prop extends t.IsWellNamed where
  qualified : t.qualified = s
  package_small : ∀ name ∈ segments t.package, ¬isCapital name
  nesting_capital : ∀ name ∈ t.nesting, isCapital name

/-- The names of the package, none for the default package. -/
def packageNames (t : TypeName) : List String :=
  if t.package = "" then [] else segments t.package

theorem dotted_packageNames (t : TypeName) : dotted t.packageNames = t.package := by
  unfold packageNames
  split
  · rename_i h
    exact h.symm
  · exact dotted_segments t.package

theorem IsWellNamed.isIdentifier_packageNames (h : t.IsWellNamed) :
    ∀ name ∈ t.packageNames, isIdentifier name := by
  unfold packageNames
  split
  · exact nofun
  · rename_i hne
    have hpackage := h.package
    simpa [isPackageName, hne] using hpackage

/-- The segments of a qualified name are the names of the package and those of the types. -/
theorem IsWellNamed.segments_qualified (h : t.IsWellNamed) :
    segments t.qualified = t.packageNames ++ t.nesting := by
  have hnames : ∀ name ∈ t.packageNames ++ t.nesting, isIdentifier name :=
    List.forall_mem_append.mpr ⟨h.isIdentifier_packageNames, h.nesting⟩
  have hqualified : t.qualified = dotted (t.packageNames ++ t.nesting) := by
    unfold qualified packageNames
    split
    · rfl
    · rw [dotted_append (segments_ne_nil _) t.nesting_ne_nil, dotted_segments]
      rfl
  rw [hqualified, segments_dotted_of_isIdentifier (by simp [t.nesting_ne_nil]) hnames]

/-- The segments of the text are the names of a package, none of which starts with a capital, and
then the names of types, which all do. -/
structure Splits (s : String) (package types : List String) : Prop where
  segments : segments s = package ++ types
  types_ne_nil : types ≠ []
  package : ∀ name ∈ package, isIdentifier name ∧ ¬isCapital name
  types : ∀ name ∈ types, isIdentifier name ∧ isCapital name

variable {types : List String}

/-- The type with these names is the one that is found. -/
theorem Splits.guess? (h : Splits s names types) :
    guess? s = ofNesting? (dotted names) types := by
  have hsmall : ∀ name ∈ names, (!isCapital name) = true := by
    simpa using fun name hname => (h.package name hname).2
  obtain ⟨first, rest, hfirst⟩ := List.exists_cons_of_ne_nil h.types_ne_nil
  have hcapital := (h.types first (hfirst ▸ List.mem_cons_self)).2
  have htake : (Text.segments s).takeWhile (fun name => !isCapital name) = names := by
    rw [h.segments, List.takeWhile_append_of_pos hsmall, hfirst,
      List.takeWhile_cons_of_neg (by simpa using hcapital), List.append_nil]
  have hdrop : (Text.segments s).dropWhile (fun name => !isCapital name) = types := by
    rw [h.segments, List.dropWhile_append_of_pos hsmall, hfirst,
      List.dropWhile_cons_of_neg (by simpa using hcapital)]
  have hidentifier : ∀ name ∈ Text.segments s, isIdentifier name := by
    rw [h.segments]
    exact List.forall_mem_append.mpr
      ⟨fun name hname => (h.package name hname).1, fun name hname => (h.types name hname).1⟩
  unfold TypeName.guess?
  dsimp only
  rw [htake, hdrop, List.all_eq_true.mpr hidentifier,
    List.all_eq_true.mpr fun name hname => (h.types name hname).2]
  rfl

/-- A type that is found has the names that the text is split into. -/
theorem exists_splits_of_guess? (h : guess? s = some t) :
    ∃ names, Splits s names t.nesting ∧ t.package = dotted names := by
  unfold guess? at h
  dsimp only at h
  split at h
  · rename_i hnames
    obtain ⟨hall, hcapital⟩ := (Bool.and_eq_true _ _).mp hnames
    obtain ⟨hpackage, hnesting⟩ := nesting_of_ofNesting? h
    refine ⟨_, ⟨?_, t.nesting_ne_nil, fun name hname => ?_, fun name hname => ?_⟩, hpackage⟩
    · rw [hnesting, List.takeWhile_append_dropWhile]
    · refine ⟨List.all_eq_true.mp hall name (List.takeWhile_subset _ hname), ?_⟩
      simpa using List.mem_takeWhile_imp hname
    · rw [hnesting] at hname
      exact ⟨List.all_eq_true.mp hall name (List.dropWhile_subset _ hname),
        List.all_eq_true.mp hcapital name hname⟩
  · cases h

theorem IsSplit.splits (h : t.IsSplit s) : Splits s t.packageNames t.nesting := by
  refine ⟨?_, t.nesting_ne_nil, fun name hname => ⟨h.isIdentifier_packageNames name hname, ?_⟩,
    fun name hname => ⟨h.nesting name hname, h.nesting_capital name hname⟩⟩
  · rw [← h.qualified, h.segments_qualified]
  · unfold packageNames at hname
    split at hname
    · cases hname
    · exact h.package_small name hname

theorem Splits.isSplit (h : Splits s names t.nesting) (hpackage : t.package = dotted names) :
    t.IsSplit s := by
  have hidentifier : ∀ name ∈ names, isIdentifier name := fun name hname => (h.package name hname).1
  have hwell : t.IsWellNamed :=
    ⟨hpackage ▸ isPackageName_dotted hidentifier, fun name hname => (h.types name hname).1⟩
  have hnames : t.packageNames = names := by
    unfold packageNames
    by_cases hnil : names = []
    · rw [hnil] at hpackage ⊢
      exact if_pos hpackage
    · rw [hpackage, if_neg (dotted_ne_empty hnil hidentifier),
        segments_dotted_of_isIdentifier hnil hidentifier]
  refine ⟨hwell, ?_, fun name hname => ?_, fun name hname => (h.types name hname).2⟩
  · rw [← dotted_segments t.qualified, hwell.segments_qualified, hnames, ← h.segments,
      dotted_segments]
  · by_cases hempty : t.package = ""
    · rw [hempty] at hname
      rw [List.mem_singleton.mp hname]
      decide
    · rw [packageNames, if_neg hempty] at hnames
      exact (h.package name (hnames ▸ hname)).2

/-- **The type that is found is the one that the text is split into.** -/
theorem guess?_eq_some_iff : guess? s = some t ↔ t.IsSplit s := by
  constructor
  · intro h
    obtain ⟨names, hsplits, hpackage⟩ := exists_splits_of_guess? h
    exact hsplits.isSplit hpackage
  · intro h
    rw [h.splits.guess?, dotted_packageNames, ofNesting?_nesting]

/-- A text is split in one way only. -/
theorem IsSplit.unique (h : t.IsSplit s) (h' : t'.IsSplit s) : t = t' :=
  Option.some.inj ((guess?_eq_some_iff.mpr h).symm.trans (guess?_eq_some_iff.mpr h'))

/-- **A text is split into a type exactly if its segments can be split.** -/
theorem exists_isSplit_iff :
    (∃ t : TypeName, t.IsSplit s) ↔ ∃ package types, Splits s package types := by
  constructor
  · rintro ⟨t, h⟩
    exact ⟨_, _, h.splits⟩
  · rintro ⟨package, types, h⟩
    obtain ⟨front, last, hlast⟩ :=
      (List.eq_nil_or_concat types).resolve_left h.types_ne_nil
    rw [List.concat_eq_append] at hlast
    subst hlast
    exact ⟨⟨dotted package, front, last⟩, h.isSplit rfl⟩

end TypeName

end Java

/-! ### The two ways to name a type -/

namespace Manifest

variable {e e' : Entry} {f f' : BoundField} {t : TypeName} {package : String}

/-- With a package of its own, an entry names the type with that package and that relative name. -/
theorem owner_eq_ok_iff_of_package (hpackage : e.package = some package) :
    e.owner = .ok t ↔
      t.IsWellNamed ∧ t.package = package ∧ t.relative = e.declaringType := by
  constructor
  · intro h
    refine ⟨isWellNamed_of_owner h, ?_⟩
    rw [Entry.owner, hpackage] at h
    dsimp only at h
    split at h
    · cases h
    · split at h
      · rename_i owner howner
        split at h
        · cases h
          obtain ⟨hown, hnesting⟩ := TypeName.nesting_of_ofNesting? howner
          exact ⟨hown, by rw [TypeName.relative, hnesting, dotted_segments]⟩
        · cases h
      · cases h
  · rintro ⟨hwell, rfl, hrelative⟩
    rw [Entry.owner, hpackage]
    dsimp only
    rw [← hrelative, hwell.segments_relative, TypeName.ofNesting?_nesting]
    simp [hwell.package, List.all_eq_true.mpr hwell.nesting]

/-- Without one, it names the type that the text is split into. -/
theorem owner_eq_ok_iff_of_no_package (hpackage : e.package = none) :
    e.owner = .ok t ↔ t.IsSplit e.declaringType := by
  rw [Entry.owner, hpackage, ← TypeName.guess?_eq_some_iff]
  dsimp only
  cases TypeName.guess? e.declaringType <;> simp

end Manifest

/-! ### Fields of one type -/

namespace Grouping

variable {fields : List BoundField} {f : BoundField}

/-- A field of a list belongs to the group of its type, in which its view id has a field. -/
theorem exists_mem_ofFields (h : f ∈ fields) :
    ∃ g ∈ (ofFields fields).1, g.owner = f.owner ∧ ∃ kept ∈ g.fields, kept.id = f.id := by
  have howner : f.owner ∈ (ofFields fields).1.map Group.owner := by
    rw [map_owner_ofFields, List.mem_eraseDups]
    exact List.mem_map_of_mem h
  obtain ⟨g, hg, hgowner⟩ := List.mem_map.mp howner
  obtain ⟨last, hlast⟩ := exists_lastOf h
  obtain ⟨_, _, _, _, hid, _⟩ := id hlast
  refine ⟨g, hg, hgowner, last, ?_, hid⟩
  rw [mem_fields_ofFields_iff hg, hid, hgowner]
  exact hlast

/-- No two groups of a list are of one type. -/
theorem eq_of_owner_eq {g g' : Group} (hg : g ∈ (ofFields fields).1)
    (hg' : g' ∈ (ofFields fields).1) (howner : g.owner = g'.owner) : g = g' := by
  have hnodup := nodup_owner_ofFields fields
  have hfound := find?_of_mem hnodup hg
  rw [howner, find?_of_mem hnodup hg'] at hfound
  exact (Option.some.inj hfound).symm

/-- **The two fields are put together**: one group is that of the type of either, and it has fields
for the view ids of both. -/
def Together (groups : Grouping) (f f' : BoundField) : Prop :=
  ∃ g ∈ groups, (∀ other ∈ groups, other.owner = f.owner ∨ other.owner = f'.owner → other = g) ∧
    (∃ kept ∈ g.fields, kept.id = f.id) ∧ ∃ kept ∈ g.fields, kept.id = f'.id

theorem together_ofFields {f' : BoundField} (hf : f ∈ fields) (hf' : f' ∈ fields)
    (howner : f.owner = f'.owner) : Together (ofFields fields).1 f f' := by
  obtain ⟨g, hg, hgowner, hkept⟩ := exists_mem_ofFields hf
  obtain ⟨g', hg', hgowner', hkept'⟩ := exists_mem_ofFields hf'
  obtain rfl := eq_of_owner_eq hg hg' (hgowner.trans (howner.trans hgowner'.symm))
  refine ⟨g, hg, fun other hother h => eq_of_owner_eq hother hg ?_, hkept, hkept'⟩
  rcases h with h | h
  · exact h.trans hgowner.symm
  · exact h.trans hgowner'.symm

end Grouping

/-! ### What entries name -/

namespace Manifest

/-- **The type that an entry names can be read off what it writes, either way.** Without a package
the text is the qualified name of the type, which is split by the convention on capitals: this
succeeds exactly for the texts that can be so split, and they can be in one way only. With a package
the text is the relative name, and every type with legal names is written so. Fields of entries that
agree on the qualified name and the package have one type and are put together. -/
theorem owner_decodes :
    (∀ s t, TypeName.guess? s = some t ↔ t.IsSplit s) ∧
    (∀ s, (∃ t : TypeName, t.IsSplit s) ↔ ∃ package types, TypeName.Splits s package types) ∧
    (∀ s (t t' : TypeName), t.IsSplit s → t'.IsSplit s → t = t') ∧
    (∀ (e : Entry) f, e.toField = .ok f → e.owner = .ok f.owner) ∧
    (∀ (e : Entry) t, e.package = none → (e.owner = .ok t ↔ t.IsSplit e.declaringType)) ∧
    (∀ (e : Entry) t package, e.package = some package → (e.owner = .ok t ↔
      t.IsWellNamed ∧ t.package = package ∧ t.relative = e.declaringType)) ∧
    ∀ (e e' : Entry) f f', e.toField = .ok f → e'.toField = .ok f' →
      (f.owner = f'.owner ↔
        f.owner.qualified = f'.owner.qualified ∧ f.owner.package = f'.owner.package) ∧
      (f.owner = f'.owner → ∀ fields, f ∈ fields → f' ∈ fields →
        (Grouping.ofFields fields).1.Together f f') := by
  refine ⟨fun s t => TypeName.guess?_eq_some_iff, fun s => TypeName.exists_isSplit_iff,
    fun s t t' => TypeName.IsSplit.unique, fun e f hf => (of_toField hf).1,
    fun e t => owner_eq_ok_iff_of_no_package, fun e t package => owner_eq_ok_iff_of_package,
    fun e e' f f' hf hf' => ⟨⟨?_, ?_⟩, ?_⟩⟩
  · intro howner
    rw [howner]
    exact ⟨rfl, rfl⟩
  · rintro ⟨hqualified, hpackage⟩
    exact (isWellNamed_of_toField hf).eq_of_qualified (isWellNamed_of_toField hf') hqualified
      hpackage
  · intro howner fields hmem hmem'
    exact Grouping.together_ofFields hmem hmem' howner

/-- Two entries that name one member type, each in its way. -/
theorem owner_decodes_member :
    let e : Entry := ⟨"Outer.Inner", some "app.ui", "x", "View", 1⟩
    let e' : Entry := ⟨"app.ui.Outer.Inner", none, "y", "View", 2⟩
    let t : TypeName := ⟨"app.ui", ["Outer"], "Inner"⟩
    t.IsSplit "app.ui.Outer.Inner" ∧ ∃ f f', e.toField = .ok f ∧ e'.toField = .ok f' ∧
      f.owner = t ∧ f'.owner = t ∧ (Grouping.ofFields [f, f']).1.Together f f' := by
  intro e e' t
  have hf : e.toField = .ok ⟨t, "x", ⟨"View", []⟩, 1, none⟩ := by decide +kernel
  have hf' : e'.toField = .ok ⟨t, "y", ⟨"View", []⟩, 2, none⟩ := by decide +kernel
  obtain ⟨hguess, -, -, -, -, -, hfields⟩ := owner_decodes
  have hsplit := (hguess "app.ui.Outer.Inner" t).mp (by decide +kernel)
  exact ⟨hsplit, _, _, hf, hf', rfl, rfl,
    (hfields e e' _ _ hf hf').2 rfl _ (.head _) (.tail _ (.head _))⟩

end Manifest

end ViewBinding
