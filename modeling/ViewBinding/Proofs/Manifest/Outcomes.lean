import ViewBinding.Proofs.Cast.Words
import ViewBinding.Proofs.Manifest.TypeNames

/-!
# What becomes of the entries of manifests

Every entry of every manifest has one outcome, a field or a finding
(`ViewBinding.Manifest.Listed.Becomes`). Which of the two it is depends on the entry alone
(`ViewBinding.Manifest.Entry.IsUsable`); a finding says how the manifest is shown and which number
the entry has in it. The fields and the findings of all manifests are the outcomes of all entries in
their order, and there are none as soon as one manifest cannot be read
(`ViewBinding.Manifest.bindings_accounts`).
-/

namespace ViewBinding

open Java Text

/-! ### Blank types -/

namespace Java.TypeText

theorem tidyFrom_eq_nil {cs : List Char} (h : ∀ c ∈ cs, isBlank c) (owed : Bool)
    (last : Option Char) : tidyFrom owed last cs = [] := by
  induction cs generalizing owed with
  | nil => rfl
  | cons c cs ih =>
    obtain ⟨hc, hcs⟩ := List.forall_mem_cons.mp h
    rw [tidyFrom_blank hc, ih hcs]

/-- A type is blank when it is tidy exactly if it was before. -/
theorem tidy_ne_empty_iff {s : String} : tidy s ≠ "" ↔ ∃ c ∈ s.toList, ¬isBlank c := by
  constructor
  · intro h
    by_contra hblank
    push Not at hblank
    exact h (by rw [tidy, tidyFrom_eq_nil hblank])
  · rintro ⟨c, hc, hblank⟩ hempty
    have hcompact := compact_tidy s
    rw [hempty] at hcompact
    have hmem : c ∈ compact s.toList := List.mem_filter.mpr ⟨hc, by simpa using hblank⟩
    rw [← hcompact] at hmem
    cases hmem

end Java.TypeText

namespace Manifest

/-! ### Which entries can be used -/

/-- The number is an `int`. -/
def FitsInt (n : Int) : Prop :=
  -2147483648 ≤ n ∧ n ≤ 2147483647

instance (n : Int) : Decidable (FitsInt n) :=
  inferInstanceAs (Decidable (_ ∧ _))

namespace Entry

/-- The entry names a type: with a package of its own, which has to be one, by identifiers, and
else by a text that is split by the convention on capitals. -/
def NamesType (e : Entry) : Prop :=
  match e.package with
  | some package => isPackageName package ∧ ∀ name ∈ segments e.declaringType, isIdentifier name
  | none => ∃ owner, TypeName.guess? e.declaringType = some owner

/-- **The entry can be used**: it names a type and a field, the type to cast to is not blank, and
the view id is an `int`. -/
structure IsUsable (e : Entry) : Prop where
  owner : e.NamesType
  name : isIdentifier e.fieldName
  type : ∃ c ∈ e.fieldType.toList, ¬isBlank c
  id : FitsInt e.viewId

/-- **The field is the one that the entry describes.** It relies on no imports and has no place. -/
structure IsField (e : Entry) (f : BoundField) : Prop where
  owner : match e.package with
    | some package => f.owner.package = package ∧ f.owner.nesting = segments e.declaringType
    | none => TypeName.guess? e.declaringType = some f.owner
  name : f.name = e.fieldName
  type : f.type = ⟨TypeText.tidy e.fieldType, []⟩
  id : f.id.toInt = e.viewId
  place : f.place = none

variable {e : Entry} {f : BoundField} {owner : TypeName}

theorem exists_owner_iff : (∃ owner, e.owner = .ok owner) ↔ e.NamesType := by
  unfold NamesType
  split
  · rename_i package hpackage
    simp only [owner_eq_ok_iff_of_package hpackage]
    constructor
    · rintro ⟨owner, hwell, rfl, hrelative⟩
      rw [← hrelative, hwell.segments_relative]
      exact ⟨hwell.package, hwell.nesting⟩
    · rintro ⟨hvalid, hnames⟩
      obtain ⟨front, last, hlast⟩ :=
        (List.eq_nil_or_concat _).resolve_left (segments_ne_nil e.declaringType)
      rw [List.concat_eq_append] at hlast
      rw [hlast] at hnames
      refine ⟨⟨package, front, last⟩, ⟨hvalid, hnames⟩, rfl, ?_⟩
      rw [← dotted_segments e.declaringType, hlast]
      rfl
  · rename_i hpackage
    simp only [owner_eq_ok_iff_of_no_package hpackage, TypeName.guess?_eq_some_iff]

theorem owner_of_owner_eq_ok (h : e.owner = .ok owner) :
    match e.package with
    | some package => owner.package = package ∧ owner.nesting = segments e.declaringType
    | none => TypeName.guess? e.declaringType = some owner := by
  split
  · rename_i package hpackage
    obtain ⟨hwell, hown, hrelative⟩ := (owner_eq_ok_iff_of_package hpackage).mp h
    exact ⟨hown, by rw [← hrelative, hwell.segments_relative]⟩
  · rename_i hpackage
    exact TypeName.guess?_eq_some_iff.mpr ((owner_eq_ok_iff_of_no_package hpackage).mp h)

/-- **An entry becomes a field exactly if it can be used.** -/
theorem exists_toField_iff : (∃ f, e.toField = .ok f) ↔ e.IsUsable := by
  simp only [toField_eq_ok_iff]
  constructor
  · rintro ⟨f, owner, howner, hname, htype, hid, -⟩
    exact ⟨exists_owner_iff.mp ⟨owner, howner⟩, hname, TypeText.tidy_ne_empty_iff.mp htype, hid⟩
  · intro h
    obtain ⟨owner, howner⟩ := exists_owner_iff.mpr h.owner
    exact ⟨_, owner, howner, h.name, TypeText.tidy_ne_empty_iff.mpr h.type, h.id, rfl⟩

theorem isField_of_toField (h : e.toField = .ok f) : e.IsField f := by
  obtain ⟨owner, howner, -, -, ⟨hlow, hhigh⟩, rfl⟩ := toField_eq_ok_iff.mp h
  exact ⟨owner_of_owner_eq_ok howner, rfl, rfl, Int32.toInt_ofInt_of_le hlow (by omega), rfl⟩

end Entry

/-! ### Outcomes -/

/-- An entry with its place among the manifests. -/
structure Listed where
  /-- How the manifest is shown. -/
  display : String
  /-- The number of the entry in the manifest. -/
  number : Nat
  entry : Entry

/-- The entries of one manifest, the first of which has the number `number`. -/
def listedFrom (display : String) (number : Nat) (entries : List Entry) : List Listed :=
  (entries.zipIdx number).map fun p => ⟨display, p.2, p.1⟩

/-- The entries of all manifests, in order; those of each manifest are numbered from zero. -/
def listed (sources : Sources) (lists : List (List Entry)) : List Listed :=
  (List.zipWith (fun source entries => listedFrom source.origin.display 0 entries)
    sources lists).flatten

/-- **The finding is on the entry of that number** in a manifest shown as `display`. -/
structure IsOnEntry (x : Finding) (display : String) (number : Nat) : Prop where
  problem : x.problem = .invalidManifestEntry
  isError : x.isError
  place : x.place = none
  message : ∃ detail, x.message =
    "invalid manifest entry: " ++ display ++ " entry " ++ toString number ++ ": " ++ detail

/-- **What becomes of an entry**: a field if it can be used, and else an error. -/
inductive Listed.Becomes (l : Listed) : BoundField ⊕ Finding → Prop
  | field {f : BoundField} (husable : l.entry.IsUsable) (hfield : l.entry.IsField f) :
      Becomes l (.inl f)
  | finding {x : Finding} (hunusable : ¬l.entry.IsUsable) (hx : IsOnEntry x l.display l.number) :
      Becomes l (.inr x)

/-- The outcome of an entry. -/
def Listed.outcome (l : Listed) : BoundField ⊕ Finding :=
  match l.entry.toField with
  | .ok f => .inl f
  | .error flaw => .inr (finding l.display l.number flaw)

/-- The fields among outcomes, and the findings. -/
def collect (outcomes : List (BoundField ⊕ Finding)) : List BoundField × Report :=
  (outcomes.filterMap Sum.getLeft?, outcomes.filterMap Sum.getRight?)

variable {source : Source} {sources : Sources} {entries : List Entry} {lists : List (List Entry)}
  {out : List BoundField × Report}

theorem isOnEntry_finding (display : String) (number : Nat) (flaw : Flaw) :
    IsOnEntry (finding display number flaw) display number := by
  refine ⟨rfl, rfl, rfl, flaw.message, ?_⟩
  simp [finding, Finding.of, Problem.message, Problem.frame, Problem.plainMessage,
    String.append_assoc]

theorem Listed.becomes_outcome (l : Listed) : l.Becomes l.outcome := by
  unfold outcome
  split
  · rename_i f hfield
    exact .field (Entry.exists_toField_iff.mp ⟨f, hfield⟩) (Entry.isField_of_toField hfield)
  · rename_i flaw hflaw
    refine .finding (fun husable => ?_) (isOnEntry_finding _ _ _)
    obtain ⟨f, hfield⟩ := Entry.exists_toField_iff.mpr husable
    rw [hflaw] at hfield
    cases hfield

theorem collect_inl (f : BoundField) (outcomes : List (BoundField ⊕ Finding)) :
    collect (.inl f :: outcomes) = (f :: (collect outcomes).1, (collect outcomes).2) :=
  rfl

theorem collect_inr (x : Finding) (outcomes : List (BoundField ⊕ Finding)) :
    collect (.inr x :: outcomes) = ((collect outcomes).1, x :: (collect outcomes).2) :=
  rfl

theorem collect_append (before after : List (BoundField ⊕ Finding)) :
    collect (before ++ after) =
      ((collect before).1 ++ (collect after).1, (collect before).2 ++ (collect after).2) := by
  simp [collect]

theorem listedFrom_cons (display : String) (number : Nat) (e : Entry) (entries : List Entry) :
    listedFrom display number (e :: entries) =
      ⟨display, number, e⟩ :: listedFrom display (number + 1) entries :=
  rfl

theorem listed_cons (source : Source) (sources : Sources) (entries : List Entry)
    (lists : List (List Entry)) :
    listed (source :: sources) (entries :: lists) =
      listedFrom source.origin.display 0 entries ++ listed sources lists :=
  rfl

/-- The fields and findings of a manifest are the outcomes of its entries. -/
theorem entryBindings_eq (display : String) (number : Nat) (entries : List Entry) :
    entryBindings display number entries =
      collect ((listedFrom display number entries).map Listed.outcome) := by
  induction entries generalizing number with
  | nil => rfl
  | cons e entries ih =>
    rw [entryBindings, ih, listedFrom_cons, List.map_cons, Listed.outcome]
    dsimp only
    cases e.toField <;> rfl

/-- **The fields and findings of all manifests are the outcomes of their entries.** -/
theorem bindings_eq_ok
    (h : List.Forall₂ (fun source entries => parse source.content = .ok entries) sources lists) :
    bindings sources = .ok (collect ((listed sources lists).map Listed.outcome)) := by
  induction h with
  | nil => rfl
  | @cons source entries sources lists hparse _ ih =>
    rw [bindings, hparse, ih]
    dsimp only
    rw [entryBindings_eq, listed_cons, List.map_append, collect_append]

theorem exists_lists
    (h : ∀ source ∈ sources, ∃ entries, parse source.content = .ok entries) :
    ∃ lists, List.Forall₂ (fun source entries => parse source.content = .ok entries)
      sources lists := by
  induction sources with
  | nil => exact ⟨[], .nil⟩
  | cons source sources ih =>
    obtain ⟨⟨entries, hentries⟩, hrest⟩ := List.forall_mem_cons.mp h
    obtain ⟨lists, hlists⟩ := ih hrest
    exact ⟨entries :: lists, .cons hentries hlists⟩

theorem listedFrom_append (display : String) (number : Nat) (entries entries' : List Entry) :
    listedFrom display number (entries ++ entries') =
      listedFrom display number entries ++
        listedFrom display (number + entries.length) entries' := by
  rw [listedFrom, List.zipIdx_append, List.map_append]
  rfl

theorem listed_append {sources' : Sources} {lists' : List (List Entry)}
    (h : sources.length = lists.length) :
    listed (sources ++ sources') (lists ++ lists') =
      listed sources lists ++ listed sources' lists' := by
  rw [listed, List.zipWith_append h, List.flatten_append]
  rfl

/-- Every outcome is a field or a finding. -/
theorem length_collect (outcomes : List (BoundField ⊕ Finding)) :
    (collect outcomes).1.length + (collect outcomes).2.length = outcomes.length := by
  induction outcomes with
  | nil => rfl
  | cons outcome outcomes ih =>
    cases outcome with
    | inl f =>
      simp only [collect_inl, List.length_cons]
      omega
    | inr x =>
      simp only [collect_inr, List.length_cons]
      omega

theorem length_listed
    (h : List.Forall₂ (fun source entries => parse source.content = .ok entries) sources lists) :
    (listed sources lists).length = (lists.map List.length).sum := by
  induction h with
  | nil => rfl
  | @cons source entries sources lists _ _ ih =>
    rw [listed_cons, List.length_append, ih, List.map_cons, List.sum_cons, listedFrom,
      List.length_map, List.length_zipIdx]

/-- All findings on entries are errors. -/
theorem errorCount_collect (ls : List Listed) :
    (collect (ls.map Listed.outcome)).2.errorCount =
      (collect (ls.map Listed.outcome)).2.length := by
  refine List.countP_eq_length.mpr fun x hx => ?_
  obtain ⟨outcome, houtcome, hright⟩ := List.mem_filterMap.mp hx
  obtain ⟨l, -, rfl⟩ := List.mem_map.mp houtcome
  have hbecomes := l.becomes_outcome
  rw [Sum.getRight?_eq_some_iff.mp hright] at hbecomes
  cases hbecomes with
  | finding _ h => exact h.isError

/-- The scan is an error exactly if one of the manifests cannot be read. -/
theorem exists_bindings_error_iff : (∃ message, bindings sources = .error message) ↔
    ∃ source ∈ sources, ∃ error, parse source.content = .error error := by
  constructor
  · rintro ⟨message, hmessage⟩
    by_contra hnone
    have hparse : ∀ source ∈ sources, ∃ entries, parse source.content = .ok entries := by
      intro source hsource
      cases hparse : parse source.content with
      | ok entries => exact ⟨entries, rfl⟩
      | error error => exact absurd ⟨source, hsource, error, hparse⟩ hnone
    obtain ⟨out, hout⟩ := exists_bindings hparse
    rw [hmessage] at hout
    cases hout
  · rintro ⟨source, hsource, error, herror⟩
    cases hbindings : bindings sources with
    | error message => exact ⟨message, rfl⟩
    | ok out =>
      obtain ⟨entries, hentries⟩ := (of_bindings hbindings).1 source hsource
      rw [herror] at hentries
      cases hentries

/-- **Every entry has one outcome.** If all manifests can be read, the fields and the findings are
the outcomes of their entries, in order, and there are as many of both as there are entries. The
whole scan is an error exactly if one of them cannot be read. -/
theorem bindings_accounts (sources : Sources) :
    (∀ lists, List.Forall₂ (fun source entries => parse source.content = .ok entries)
        sources lists →
      ∃ outcomes, List.Forall₂ Listed.Becomes (listed sources lists) outcomes ∧
        bindings sources =
          .ok (outcomes.filterMap Sum.getLeft?, outcomes.filterMap Sum.getRight?) ∧
        (outcomes.filterMap Sum.getLeft?).length +
          Report.errorCount (outcomes.filterMap Sum.getRight?) = (lists.map List.length).sum) ∧
    ((∃ message, bindings sources = .error message) ↔
      ∃ source ∈ sources, ∃ error, parse source.content = .error error) := by
  refine ⟨fun lists hlists => ⟨(listed sources lists).map Listed.outcome, ?_,
    bindings_eq_ok hlists, ?_⟩, exists_bindings_error_iff⟩
  · exact List.forall₂_map_right_iff.mpr (List.forall₂_same.mpr fun l _ => l.becomes_outcome)
  · have hcount := errorCount_collect (listed sources lists)
    have hlength := length_collect ((listed sources lists).map Listed.outcome)
    rw [List.length_map, length_listed hlists, ← hcount] at hlength
    exact hlength

/-- Two manifests, each with an entry that can be used and one that cannot. -/
theorem bindings_accounts_two :
    let sources : Sources := [
      ⟨.inline, "[[\"A\", \"p\", \"x\", \"V\", 1], [\"b\", null, \"y\", \"V\", 2]]"⟩,
      ⟨.file "m.json", "[[\"C\", null, \"z\", \" \", 3], [\"q.C\", null, \"w\", \" V \", 4]]"⟩]
    let lists : List (List Entry) := [
      [⟨"A", some "p", "x", "V", 1⟩, ⟨"b", none, "y", "V", 2⟩],
      [⟨"C", none, "z", " ", 3⟩, ⟨"q.C", none, "w", " V ", 4⟩]]
    List.Forall₂ (fun source entries => parse source.content = .ok entries) sources lists ∧
    ∃ outcomes, List.Forall₂ Listed.Becomes (listed sources lists) outcomes ∧
      bindings sources =
        .ok (outcomes.filterMap Sum.getLeft?, outcomes.filterMap Sum.getRight?) ∧
      (outcomes.filterMap Sum.getLeft?).map BoundField.name = ["x", "w"] ∧
      (outcomes.filterMap Sum.getRight?).map Finding.message =
        ["invalid manifest entry: <source> entry 1: `b` is not a type name",
          "invalid manifest entry: m.json entry 0: field `z` has no type"] := by
  intro sources lists
  have hlists : List.Forall₂ (fun source entries => parse source.content = .ok entries)
      sources lists := .cons (by decide +kernel) (.cons (by decide +kernel) .nil)
  obtain ⟨outcomes, houtcomes, hbindings, -⟩ := (bindings_accounts sources).1 lists hlists
  have hfound : (bindings sources).map (fun out =>
      (out.1.map BoundField.name, out.2.map Finding.message)) =
      .ok (["x", "w"], ["invalid manifest entry: <source> entry 1: `b` is not a type name",
        "invalid manifest entry: m.json entry 0: field `z` has no type"]) := by decide +kernel
  rw [hbindings] at hfound
  obtain ⟨hnames, hmessages⟩ := Prod.mk.inj (Except.ok.inj hfound)
  exact ⟨hlists, outcomes, houtcomes, hbindings, hnames, hmessages⟩

end Manifest

end ViewBinding
