import ViewBinding.Proofs.Scan.Origins

/-!
# The types that fields belong to

The type that a field belongs to shows where the field comes from. A type of a source is in the
package that the source declares, whatever text that is
(`ViewBinding.Java.package_of_mem_bindings`); the names in a type of a manifest have been checked
(`ViewBinding.Manifest.isWellNamed_of_toField`).
-/

namespace ViewBinding

open Java Text

variable {f : BoundField} {owner : TypeName}

/-! ### Sources -/

namespace Java

/-- The package that a text declares. -/
def packageOf (source : String) : String :=
  (Header.ofTree source (.ofText source)).package

/-- **A type of a source is in the package that the source declares.** -/
theorem package_of_mem_bindings {number : Nat} {source : String}
    (h : f ∈ (bindings number source).fields) : f.owner.package = packageOf source := by
  obtain ⟨s, -, hbrings⟩ := exists_site_of_mem_bindingsOfTree h
  exact (TypeName.nesting_of_ofNesting? hbrings.owner).1

end Java

/-! ### Manifests -/

namespace Java

/-- All names in the name of the type are identifiers. -/
structure TypeName.IsWellNamed (t : TypeName) : Prop where
  package : isPackageName t.package
  nesting : ∀ name ∈ t.nesting, isIdentifier name

theorem TypeName.IsWellNamed.isIdentifier_simple {t : TypeName} (h : t.IsWellNamed) :
    isIdentifier t.simple :=
  h.nesting _ (List.mem_append_right _ List.mem_cons_self)

theorem isNamePart_of_isIdentifier {s : String} (h : isIdentifier s) {c : Char}
    (hc : c ∈ s.toList) : isNamePart c := by
  obtain ⟨hspelled, -⟩ := (Bool.and_eq_true _ _).mp h
  cases hs : s.toList with
  | nil =>
    rw [hs] at hc
    cases hc
  | cons d ds =>
    rw [hs, isSpelledName, Bool.and_eq_true] at hspelled
    rw [hs] at hc
    rcases List.mem_cons.mp hc with rfl | hc
    · exact isNamePart_of_isNameStart hspelled.1
    · exact List.all_eq_true.mp hspelled.2 c hc

theorem not_mem_of_isIdentifier {s : String} (h : isIdentifier s) {c : Char}
    (hc : isNamePart c = false) : c ∉ s.toList := by
  intro hmem
  have hpart := isNamePart_of_isIdentifier h hmem
  rw [hc] at hpart
  cases hpart

theorem not_mem_of_segments {s : String} (h : ∀ name ∈ segments s, isIdentifier name) {c : Char}
    (hc : isNamePart c = false) (hdot : c ≠ '.') : c ∉ s.toList := by
  intro hmem
  obtain ⟨piece, hpiece, hin⟩ := exists_mem_pieces_iff.mpr ⟨hmem, hdot⟩
  refine not_mem_of_isIdentifier (h _ (List.mem_map_of_mem hpiece)) hc ?_
  rwa [String.toList_ofList]

theorem not_mem_of_isPackageName {s : String} (h : isPackageName s) {c : Char}
    (hc : isNamePart c = false) (hdot : c ≠ '.') : c ∉ s.toList := by
  rw [isPackageName, Bool.or_eq_true] at h
  rcases h with hempty | hall
  · rw [eq_of_beq hempty]
    exact List.not_mem_nil
  · exact not_mem_of_segments (List.all_eq_true.mp hall) hc hdot

theorem isPackageName_dotted {names : List String} (h : ∀ name ∈ names, isIdentifier name) :
    isPackageName (dotted names) := by
  by_cases hnil : names = []
  · rw [hnil]
    rfl
  · have hdot : ∀ name ∈ names, '.' ∉ name.toList := fun name hname hmem =>
      absurd (isNamePart_of_isIdentifier (h name hname) hmem) (by decide)
    rw [isPackageName, segments_dotted hnil hdot, Bool.or_eq_true]
    exact .inr (List.all_eq_true.mpr h)

theorem TypeName.isWellNamed_of_guess? {s : String} {t : TypeName} (h : guess? s = some t) :
    t.IsWellNamed := by
  unfold guess? at h
  dsimp only at h
  split at h
  · rename_i hnames
    have hall := List.all_eq_true.mp ((Bool.and_eq_true _ _).mp hnames).1
    obtain ⟨hpackage, hnesting⟩ := nesting_of_ofNesting? h
    refine ⟨hpackage ▸ isPackageName_dotted fun name hname => ?_, fun name hname => ?_⟩
    · exact hall name (List.takeWhile_subset _ hname)
    · rw [hnesting] at hname
      exact hall name (List.dropWhile_subset _ hname)
  · cases h

end Java

namespace Manifest

variable {e : Entry}

theorem isWellNamed_of_owner (h : e.owner = .ok owner) : owner.IsWellNamed := by
  unfold Entry.owner at h
  split at h
  · rename_i package hpackage
    split at h
    · cases h
    · rename_i hvalid
      dsimp only at h
      split at h
      · rename_i t ht
        split at h
        · rename_i hnames
          cases h
          obtain ⟨rfl, hnesting⟩ := TypeName.nesting_of_ofNesting? ht
          exact ⟨by simpa using hvalid, hnesting ▸ List.all_eq_true.mp hnames⟩
        · cases h
      · cases h
  · split at h
    · rename_i t ht
      cases h
      exact TypeName.isWellNamed_of_guess? ht
    · cases h

/-- **The names in a type of a manifest are identifiers.** -/
theorem isWellNamed_of_toField (h : e.toField = .ok f) : f.owner.IsWellNamed :=
  isWellNamed_of_owner (of_toField h).1

end Manifest

/-! ### Scans -/

/-- **A type of a scan is in the package of a source, or its names are identifiers.** -/
theorem package_of_mem_scan {sources manifests : Sources} {strict : Bool} {s : Scan}
    (h : scan sources manifests strict = .ok s) (hf : f ∈ s.fields) :
    (∃ source ∈ sources, f.owner.package = packageOf source.content) ∨ f.owner.IsWellNamed := by
  rcases Scan.exists_origin h hf with ⟨number, source, hsource, hf⟩ |
    ⟨manifest, -, entries, -, e, -, hfield⟩
  · exact .inl ⟨source, List.mem_of_getElem? hsource, package_of_mem_bindings hf⟩
  · exact .inr (Manifest.isWellNamed_of_toField hfield)

end ViewBinding
