import ViewBinding.Proofs.Cast.Words
import ViewBinding.Proofs.Companion.PerType
import ViewBinding.Proofs.Manifest.Checks
import ViewBinding.Proofs.Scan.Owners

/-!
# The names in a companion

A companion makes up two names of its own: that of the class and that of the parameter. Both are
made from the simple name of the type, and both are legal if that is one. A reserved word ends in no
`ViewBinding`, so the class never has one for a name
(`ViewBinding.Java.isIdentifier_companionName`). The parameter starts with an underscore, and of the
reserved words only the underscore alone does
(`ViewBinding.Java.isIdentifier_parameterName`); that is why a type `Class` or `I` has a companion
with a legal parameter.

All other names in a companion are those of the fields and their types. In a manifest they have been
checked, so a round over manifests alone makes companions without illegal names
(`ViewBinding.Scan.usesLegalNames_of_manifests`).
-/

namespace ViewBinding

open Java Text

/-! ### Names that are made up -/

namespace Java

variable {s simple : String}

theorem isIdentifier_iff {s : String} :
    isIdentifier s ↔ isSpelledName s.toList ∧ s ∉ reservedWords := by
  simp [isIdentifier, isReserved]

theorem exists_cons_of_isSpelledName {cs : List Char} (h : isSpelledName cs) :
    ∃ c rest, cs = c :: rest ∧ isNameStart c ∧ ∀ d ∈ rest, isNamePart d := by
  cases cs with
  | nil => cases h
  | cons c rest =>
    obtain ⟨hc, hrest⟩ := (Bool.and_eq_true _ _).mp h
    exact ⟨c, rest, rfl, hc, List.all_eq_true.mp hrest⟩

theorem isSpelledName_cons {c : Char} {cs : List Char} (hc : isNameStart c)
    (hcs : ∀ d ∈ cs, isNamePart d) : isSpelledName (c :: cs) :=
  (Bool.and_eq_true _ _).mpr ⟨hc, List.all_eq_true.mpr hcs⟩

/-- No reserved word ends like the name of a companion. -/
theorem not_mem_reservedWords_of_suffix (h : "ViewBinding".toList <:+ s.toList) :
    s ∉ reservedWords := by
  have hwords : ∀ word ∈ reservedWords, ¬"ViewBinding".toList <:+ word.toList := by
    decide +kernel
  exact fun hmem => hwords s hmem h

/-- The only reserved word with an underscore in front is the underscore. -/
theorem not_mem_reservedWords_of_underscore {c : Char} {cs : List Char}
    (h : s.toList = '_' :: c :: cs) : s ∉ reservedWords := by
  have hwords : ∀ word ∈ reservedWords,
      ['_'].isPrefixOf word.toList = true → word.toList = ['_'] := by
    decide +kernel
  intro hmem
  have hword := hwords s hmem (by rw [h]; rfl)
  rw [h] at hword
  cases hword

/-- **The name of a companion is legal.** -/
theorem isIdentifier_companionName (h : isIdentifier simple) :
    isIdentifier (Companion.companionName simple) := by
  obtain ⟨hspelled, -⟩ := isIdentifier_iff.mp h
  obtain ⟨c, rest, hcs, hc, hrest⟩ := exists_cons_of_isSpelledName hspelled
  have hword : "ViewBinding".toList.all isNamePart := by decide +kernel
  have hlist : (Companion.companionName simple).toList =
      c :: (rest ++ "ViewBinding".toList) := by
    rw [Companion.companionName, String.toList_append, hcs, List.cons_append]
  refine isIdentifier_iff.mpr ⟨?_, not_mem_reservedWords_of_suffix ?_⟩
  · rw [hlist]
    refine isSpelledName_cons hc fun d hd => ?_
    rcases List.mem_append.mp hd with hd | hd
    · exact hrest d hd
    · exact List.all_eq_true.mp hword d hd
  · exact ⟨c :: rest, hlist.symm⟩

/-- A letter of a name stays one in lower case. -/
theorem isNamePart_of_mem_lowercase {c d : Char} (hc : isNamePart c) (hd : d ∈ lowercase c) :
    isNamePart d := by
  have hascii : ∀ n ∈ List.range 0x80, isNamePart (Char.ofNat n) = true →
      (lowercase (Char.ofNat n)).all isNamePart = true := by
    decide +kernel
  have hlower := hascii c.toNat (List.mem_range.mpr (toNat_lt_of_isNamePart hc))
  rw [Char.ofNat_toNat] at hlower
  exact List.all_eq_true.mp (hlower hc) d hd

theorem lowercase_ne_nil (c : Char) : lowercase c ≠ [] := by
  unfold lowercase
  split
  · exact List.cons_ne_nil _ _
  · split <;> exact List.cons_ne_nil _ _

/-- **The name of a parameter is legal**, also if the simple name is a reserved word but for its
first letter. -/
theorem isIdentifier_parameterName (h : isIdentifier simple) :
    isIdentifier (Companion.parameterName simple) := by
  obtain ⟨hspelled, -⟩ := isIdentifier_iff.mp h
  obtain ⟨c, rest, hcs, hc, hrest⟩ := exists_cons_of_isSpelledName hspelled
  have hlist : (Companion.parameterName simple).toList = '_' :: (lowercase c ++ rest) := by
    simp [Companion.parameterName, Companion.lowerFirst, hcs, lowercaseFirst]
  refine isIdentifier_iff.mpr ⟨?_, ?_⟩
  · rw [hlist]
    refine isSpelledName_cons (by decide) fun x hx => ?_
    rcases List.mem_append.mp hx with hx | hx
    · exact isNamePart_of_mem_lowercase (isNamePart_of_isNameStart hc) hx
    · exact hrest x hx
  · obtain ⟨d, ds, hlower⟩ := List.exists_cons_of_ne_nil (lowercase_ne_nil c)
    rw [hlower, List.cons_append] at hlist
    exact not_mem_reservedWords_of_underscore hlist

end Java

/-! ### All names in a companion -/

/-- **All names in the companion are legal**: the package, the class, the method and its parameter,
every name in the type of the parameter, and what each statement assigns. -/
structure Companion.UsesLegalNames (c : Companion) : Prop where
  package : isPackageName c.package
  name : isIdentifier c.name
  method : isIdentifier c.method.name
  parameter : isIdentifier c.method.parameter.name
  type : ∃ names, names ≠ [] ∧ c.method.parameter.type = dotted names ∧
    ∀ name ∈ names, isIdentifier name
  statements : ∀ a ∈ c.method.statements, isIdentifier a.target ∧ isIdentifier a.field

/-- The companion of a type with legal names has legal names if the fields have. -/
theorem Companion.usesLegalNames_of_ofGroup? {g : Group} {c : Companion}
    (h : ofGroup? g = some c) (howner : g.owner.IsWellNamed)
    (hfields : ∀ f ∈ g.fields, isIdentifier f.name) : c.UsesLegalNames := by
  obtain ⟨-, rfl⟩ := ofGroup?_eq_some_iff.mp h
  have hsimple := howner.isIdentifier_simple
  have hmethod : isIdentifier methodName := by decide +kernel
  refine ⟨howner.package, isIdentifier_companionName hsimple, hmethod,
    isIdentifier_parameterName hsimple,
    ⟨g.owner.nesting, g.owner.nesting_ne_nil, rfl, howner.nesting⟩, fun a ha => ?_⟩
  obtain ⟨f, hf, rfl⟩ := List.mem_map.mp ha
  exact ⟨isIdentifier_parameterName hsimple, hfields f hf⟩

/-! ### Rounds over manifests -/

namespace Scan

variable {manifests : Sources} {strict : Bool} {s : Scan} {f : BoundField}

/-- The names of a field of a manifest have been checked. -/
theorem isWellNamed_of_manifests (h : scan [] manifests strict = .ok s) (hf : f ∈ s.fields) :
    f.owner.IsWellNamed ∧ isIdentifier f.name := by
  rcases exists_origin h hf with ⟨number, source, hsource, -⟩ |
    ⟨manifest, -, entries, -, e, -, hfield⟩
  · cases hsource
  · obtain ⟨owner, -, hname, -, -, rfl⟩ := Manifest.toField_eq_ok_iff.mp hfield
    exact ⟨Manifest.isWellNamed_of_toField hfield, hname⟩

/-- **Manifests alone make companions with legal names**, whatever is in them. Entries with illegal
names have been left out, and whatever simple name a type has that was let in, the names that its
companion makes up from it are legal. -/
theorem usesLegalNames_of_manifests (h : scan [] manifests strict = .ok s) :
    (∀ f ∈ s.fields, isIdentifier (Companion.companionName f.owner.simple) ∧
      isIdentifier (Companion.parameterName f.owner.simple)) ∧
    ∀ c ∈ s.synthesize.companions, c.UsesLegalNames := by
  constructor
  · intro f hf
    have hsimple := (isWellNamed_of_manifests h hf).1.isIdentifier_simple
    exact ⟨isIdentifier_companionName hsimple, isIdentifier_parameterName hsimple⟩
  · intro c hc
    obtain ⟨g, hg, hgc⟩ := Companion.exists_group_of_mem hc
    have hfields : ∀ f ∈ g.fields, f ∈ s.fields ∧ f.owner = g.owner := by
      intro f hf
      obtain ⟨before, after, hall, howner, -⟩ := (Grouping.mem_fields_ofFields_iff hg).mp hf
      exact ⟨by rw [hall]; simp, howner⟩
    obtain ⟨f, hf⟩ := List.exists_mem_of_ne_nil _ (Grouping.fields_ne_nil_of_mem_ofFields hg)
    obtain ⟨hmem, howner⟩ := hfields f hf
    refine Companion.usesLegalNames_of_ofGroup? hgc ?_ fun f hf => ?_
    · rw [← howner]
      exact (isWellNamed_of_manifests h hmem).1
    · exact (isWellNamed_of_manifests h (hfields f hf).1).2

/-- Types whose names are reserved words in lower case or have one letter only; the entry whose
field would be called `new` is left out. -/
theorem usesLegalNames_of_manifests_class :
    let manifests : Sources := [⟨.inline,
      "[[\"Class\", \"app.ui\", \"x\", \"View\", 1], [\"Outer.I\", \"\", \"y\", \"View\", 2]]"⟩,
      ⟨.inline, "[[\"a.New\", null, \"z\", \"View\", 3], [\"a.New\", null, \"new\", \"View\", 4]]"⟩]
    ∃ s, scan [] manifests false = .ok s ∧
      (s.synthesize.companions.map fun c => (c.name, c.method.parameter.name)) =
        [("ClassViewBinding", "_class"), ("IViewBinding", "_i"), ("NewViewBinding", "_new")] ∧
      (s.fields.map BoundField.name) = ["x", "y", "z"] ∧
      ∀ c ∈ s.synthesize.companions, c.UsesLegalNames := by
  intro manifests
  have hfound : (match scan [] manifests false with
      | .ok s => (s.synthesize.companions.map fun c => (c.name, c.method.parameter.name),
          s.fields.map BoundField.name)
      | .error _ => ([], [])) =
      ([("ClassViewBinding", "_class"), ("IViewBinding", "_i"), ("NewViewBinding", "_new")],
        ["x", "y", "z"]) := by decide +kernel
  split at hfound
  · rename_i s hs
    obtain ⟨hnames, hfields⟩ := Prod.mk.inj hfound
    exact ⟨s, hs, hnames, hfields, (usesLegalNames_of_manifests hs).2⟩
  · cases hfound

end Scan

end ViewBinding
