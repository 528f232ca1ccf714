import ViewBinding.Manifest
import ViewBinding.Proofs.Json.Values

/-!
# The format of manifests

Which texts `ViewBinding.Manifest.parse` reads, and as which entries.

In the documented format an entry is an object that gives each value under its key, and what else
it holds does not matter (`ViewBinding.Manifest.IsNamed`). The reader takes entries in another form
too, as arrays of their five values (`ViewBinding.Manifest.IsPositional`). It reads just the
manifests whose entries have one form or the other, in their order, and so just the documented ones
among those without an entry of the second form (`ViewBinding.Manifest.parse_reads_format`).
-/

namespace ViewBinding.Manifest

open Json (IsText Fits valuesOf)

/-! ### The format -/

/-- An integer of 64 bits with a sign. -/
def FitsLong (n : Int) : Prop :=
  Int64.minValue.toInt ≤ n ∧ n ≤ Int64.maxValue.toInt

/-- The members of an object describe an entry: each key is there once and has the value of the
entry, except that the package may be left out or null. Other members do not matter. -/
structure Describe (members : List (String × Json)) (e : Entry) : Prop where
  declaringType : valuesOf members "declaringType" = [.string e.declaringType]
  package : match e.package with
    | none => valuesOf members "package" = [] ∨ valuesOf members "package" = [.null]
    | some package => valuesOf members "package" = [.string package]
  fieldName : valuesOf members "fieldName" = [.string e.fieldName]
  fieldType : valuesOf members "fieldType" = [.string e.fieldType]
  viewId : valuesOf members "viewId" = [.int e.viewId]
  range : FitsLong e.viewId

/-- The value is an object that describes an entry. -/
def IsNamed (value : Json) (e : Entry) : Prop :=
  ∃ members, value = .object members ∧ Describe members e

/-- The value is an array of the five values of an entry. -/
def IsPositional (value : Json) (e : Entry) : Prop :=
  value = .array [.string e.declaringType, e.package.elim .null .string, .string e.fieldName,
    .string e.fieldType, .int e.viewId] ∧ FitsLong e.viewId

/-- The value is an entry in either form. -/
def IsEntry (value : Json) (e : Entry) : Prop :=
  IsNamed value e ∨ IsPositional value e

/-- The value is an array with these elements, or an object whose only member `fields` is one. -/
def Holds (value : Json) (elements : List Json) : Prop :=
  value = .array elements ∨
    ∃ members, value = .object members ∧ valuesOf members "fields" = [.array elements]

/-- The value holds the entries in their order, each in a form that is allowed. -/
def Lists (Allowed : Json → Entry → Prop) (value : Json) (entries : List Entry) : Prop :=
  ∃ elements, Holds value elements ∧ List.Forall₂ Allowed elements entries

/-! ### Reading entries -/

section Entries

variable {value v : Json} {members : List (String × Json)} {key : String} {elements : List Json}
  {e : Entry} {entries : List Entry} {s : String} {n : Int} {text : String}

theorem string?_eq_some_iff : v.string? = some s ↔ v = .string s := by
  cases v <;> simp [Json.string?]

theorem optionalString?_eq_some_iff {package : Option String} :
    optionalString? v = some package ↔ v = package.elim .null .string := by
  cases v <;> cases package <;> simp [optionalString?, eq_comm]

theorem integer?_eq_some_iff (h : Fits v) : integer? v = some n ↔ v = .int n ∧ FitsLong n := by
  cases h with
  | @int m lower upper =>
    have hlower : Int64.minValue.toInt ≤ m := lower
    simp only [integer?, Option.ite_none_right_eq_some, Option.some_inj, Json.int.injEq]
    constructor
    · rintro ⟨hupper, rfl⟩
      exact ⟨rfl, hlower, hupper⟩
    · rintro ⟨rfl, _, hupper⟩
      exact ⟨hupper, rfl⟩
  | _ => simp [integer?]

theorem only?_eq_some_iff : only? members key = some v ↔ valuesOf members key = [v] := by
  rw [only?]
  split
  · rename_i w hw
    rw [hw]
    simp
  · rename_i hne
    simp
    exact hne v

theorem fits_of_mem_valuesOf (h : Fits (.object members)) (hv : v ∈ valuesOf members key) :
    Fits v := by
  obtain ⟨m, hm, rfl⟩ := List.mem_map.mp hv
  cases h with
  | object h => exact h m (List.mem_filter.mp hm).1

theorem entry?_eq_some_iff {type package name fieldType id : Json} (h : Fits id) :
    entry? type package name fieldType id = some e ↔ type = .string e.declaringType ∧
      package = e.package.elim .null .string ∧ name = .string e.fieldName ∧
      fieldType = .string e.fieldType ∧ id = .int e.viewId ∧ FitsLong e.viewId := by
  simp only [ entry?, Option.bind_eq_bind, Option.bind_eq_some_iff, string?_eq_some_iff,
    optionalString?_eq_some_iff, integer?_eq_some_iff h, Option.some_inj]
  constructor
  · rintro ⟨_, htype, _, hpackage, _, hname, _, hfieldType, _, hid, rfl⟩
    exact ⟨htype, hpackage, hname, hfieldType, hid⟩
  · rintro ⟨htype, hpackage, hname, hfieldType, hid⟩
    exact ⟨_, htype, _, hpackage, _, hname, _, hfieldType, _, hid, rfl⟩

/-- The value under the key of the package, null if there is none. -/
def package? (members : List (String × Json)) : Option Json :=
  match valuesOf members "package" with
  | [] => some .null
  | [v] => some v
  | _ => none

theorem package?_eq_some_iff : package? members = some v ↔
    valuesOf members "package" = [] ∧ v = .null ∨ valuesOf members "package" = [v] := by
  rw [package?]
  split
  · rename_i hnil
    simp [hnil, eq_comm]
  · rename_i w hw
    simp [hw]
  · rename_i hnil hcons
    refine ⟨nofun, ?_⟩
    rintro (⟨hv, _⟩ | hv)
    · exact absurd hv hnil
    · exact absurd hv (hcons v)

theorem package?_eq_elim_iff : package? members = some (e.package.elim .null .string) ↔
    match e.package with
    | none => valuesOf members "package" = [] ∨ valuesOf members "package" = [.null]
    | some package => valuesOf members "package" = [.string package] := by
  rw [package?_eq_some_iff]
  cases e.package <;> simp

theorem entryOf?_object (members : List (String × Json)) : entryOf? (.object members) =
    ((package? members).bind fun package => do
      entry? (← only? members "declaringType") package (← only? members "fieldName")
        (← only? members "fieldType") (← only? members "viewId")) := by
  rw [entryOf?, package?]
  rcases valuesOf members "package" with _ | ⟨v, _ | ⟨w, vs⟩⟩ <;> rfl

theorem entryOf?_object_eq_some_iff (h : Fits (.object members)) :
    entryOf? (.object members) = some e ↔ Describe members e := by
  have hid {id : Json} (hv : valuesOf members "viewId" = [id]) : Fits id :=
    fits_of_mem_valuesOf h (hv.symm ▸ List.mem_singleton_self id)
  simp only [entryOf?_object, Option.bind_eq_bind, Option.bind_eq_some_iff, only?_eq_some_iff]
  constructor
  · rintro ⟨package, hpackage, type, htype, name, hname, fieldType, hfieldType, id, hv, hentry⟩
    obtain ⟨rfl, rfl, rfl, rfl, rfl, hrange⟩ := (entry?_eq_some_iff (hid hv)).mp hentry
    exact ⟨htype, package?_eq_elim_iff.mp hpackage, hname, hfieldType, hv, hrange⟩
  · intro ⟨htype, hpackage, hname, hfieldType, hv, hrange⟩
    exact ⟨_, package?_eq_elim_iff.mpr hpackage, _, htype, _, hname, _, hfieldType, _, hv,
      (entry?_eq_some_iff (hid hv)).mpr ⟨rfl, rfl, rfl, rfl, rfl, hrange⟩⟩

theorem entryOf?_array_eq_some_iff (h : Fits (.array elements)) :
    entryOf? (.array elements) = some e ↔ IsPositional (.array elements) e := by
  rw [entryOf?.eq_def, IsPositional]
  split
  · rename_i type package name fieldType id heq
    obtain rfl := Json.array.inj heq
    have hid : Fits id := by
      cases h with
      | array h => exact h id (by simp)
    rw [entry?_eq_some_iff hid]
    simp [and_assoc]
  · rename_i heq
    cases heq
  · rename_i harray _
    refine ⟨nofun, fun ⟨heq, _⟩ => ?_⟩
    exact absurd heq (harray _ _ _ _ _)

theorem entryOf?_eq_some_iff (h : Fits value) :
    entryOf? value = some e ↔ IsEntry value e := by
  rw [IsEntry]
  cases value with
  | array elements => simp [entryOf?_array_eq_some_iff h, IsNamed]
  | object members => simp [entryOf?_object_eq_some_iff h, IsNamed, IsPositional]
  | _ => simp [entryOf?, IsNamed, IsPositional]

theorem mapM_entryOf?_eq_some_iff (h : Fits (.array elements)) :
    elements.mapM entryOf? = some entries ↔ List.Forall₂ IsEntry elements entries := by
  have hfits : ∀ v ∈ elements, Fits v := by
    cases h with
    | array h => exact h
  rw [Json.mapM_eq_some_iff]
  constructor
  · intro hread
    exact ((List.forall₂_and_left _ _).mpr ⟨hfits, hread⟩).imp
      fun _ _ ⟨hv, hentry⟩ => (entryOf?_eq_some_iff hv).mp hentry
  · intro hentries
    exact ((List.forall₂_and_left _ _).mpr ⟨hfits, hentries⟩).imp
      fun _ _ ⟨hv, hentry⟩ => (entryOf?_eq_some_iff hv).mpr hentry

theorem entriesOf?_eq_some_iff (h : Fits value) :
    entriesOf? value = some entries ↔ Lists IsEntry value entries := by
  cases value with
  | array elements => simp [entriesOf?, Lists, Holds, mapM_entryOf?_eq_some_iff h]
  | object members =>
    have hfields {elements : List Json} (hv : valuesOf members "fields" = [.array elements]) :
        Fits (.array elements) :=
      fits_of_mem_valuesOf h (hv.symm ▸ List.mem_singleton_self _)
    rw [entriesOf?]
    constructor
    · intro hread
      split at hread
      · rename_i elements honly
        have hv := only?_eq_some_iff.mp honly
        exact ⟨elements, .inr ⟨members, rfl, hv⟩,
          (mapM_entryOf?_eq_some_iff (hfields hv)).mp hread⟩
      · cases hread
    · rintro ⟨elements, heq | ⟨_, heq, hv⟩, hentries⟩
      · cases heq
      · obtain rfl := Json.object.inj heq
        rw [only?_eq_some_iff.mpr hv]
        exact (mapM_entryOf?_eq_some_iff (hfields hv)).mpr hentries
  | _ => simp [entriesOf?, Lists, Holds]

end Entries

/-! ### Reading manifests -/

section Manifests

variable {value : Json} {entries : List Entry} {text : String}

theorem parse_eq_ok_iff : parse text = .ok entries ↔
    ∃ value, IsText value text ∧ Lists IsEntry value entries := by
  constructor
  · intro h
    rw [parse] at h
    split at h
    · cases h
    · rename_i value c hread
      split at h
      · cases h
      · rename_i read hentries
        split at h
        · cases h
        · rename_i hend
          obtain rfl := Except.ok.inj h
          have htext := Json.isText_iff.mpr ⟨c, hread, hend⟩
          exact ⟨value, htext, (entriesOf?_eq_some_iff htext.fits).mp hentries⟩
  · rintro ⟨value, htext, hentries⟩
    obtain ⟨c, hread, hend⟩ := Json.isText_iff.mp htext
    rw [parse, hread]
    simp only [(entriesOf?_eq_some_iff htext.fits).mpr hentries, hend]

/-- **A manifest is read as the entries that it holds.** A text can be read just if it is one JSON
value that holds entries in either form, and is read as these entries in their order. Where no
array stands for an entry, it can be read just if all entries are objects with the documented
members. -/
theorem parse_reads_format (text : String) (entries : List Entry) :
    (parse text = .ok entries ↔ ∃ value, IsText value text ∧ Lists IsEntry value entries) ∧
    ∀ value, IsText value text →
      (∀ elements, Holds value elements → ∀ v ∈ elements, ∀ e, ¬IsPositional v e) →
      (parse text = .ok entries ↔ Lists IsNamed value entries) := by
  refine ⟨parse_eq_ok_iff, fun value htext hnone => ?_⟩
  constructor
  · intro h
    obtain ⟨other, hother, elements, hholds, hentries⟩ := parse_eq_ok_iff.mp h
    -- the entries that are read come from this value, for the text has no other
    obtain rfl := htext.unique hother
    refine ⟨elements, hholds, ?_⟩
    exact ((List.forall₂_and_left _ _).mpr ⟨hnone elements hholds, hentries⟩).imp
      fun _ e ⟨hv, hentry⟩ => hentry.resolve_right (hv e)
  · rintro ⟨elements, hholds, hentries⟩
    exact parse_eq_ok_iff.mpr
      ⟨value, htext, elements, hholds, hentries.imp fun _ _ hentry => .inl hentry⟩

theorem parse_reads_format_named : ∃ text value, IsText value text ∧
    (∀ elements, Holds value elements → ∀ v ∈ elements, ∀ e, ¬IsPositional v e) ∧
    parse text = .ok [⟨"A", none, "x", "V", 7⟩] := by
  let members : List (String × Json) := [("declaringType", .string "A"),
    ("fieldName", .string "x"), ("fieldType", .string "V"), ("viewId", .int 7)]
  have hread : Json.readPrefix
      "[\x7b\"declaringType\":\"A\",\"fieldName\":\"x\",\"fieldType\":\"V\",\"viewId\":7\x7d]" =
      .ok (.array [.object [("declaringType", .string "A"), ("fieldName", .string "x"),
        ("fieldType", .string "V"), ("viewId", .int 7)]], ⟨[], 66⟩) := by
    rfl
  have htext := Json.isText_iff.mpr ⟨_, hread, rfl⟩
  have hnone : ∀ elements, Holds (.array [.object members]) elements →
      ∀ v ∈ elements, ∀ e, ¬IsPositional v e := by
    rintro elements (heq | ⟨_, heq, _⟩) v hv e ⟨hpositional, _⟩
    · obtain rfl := Json.array.inj heq
      obtain rfl := List.mem_singleton.mp hv
      cases hpositional
    · cases heq
  have hdescribe : Describe members ⟨"A", none, "x", "V", 7⟩ :=
    ⟨rfl, .inl rfl, rfl, rfl, rfl, by decide, by decide⟩
  exact ⟨_, _, htext, hnone, ((parse_reads_format _ _).2 _ htext hnone).mpr
    ⟨_, .inl rfl, .cons ⟨members, rfl, hdescribe⟩ .nil⟩⟩

/-- An array that stands for an entry is read, which the documented format does not allow. -/
theorem exists_positional_manifest :
    ∃ text value, IsText value text ∧ parse text = .ok [⟨"a.B", none, "x", "View", 1⟩] ∧
      ∀ entries, ¬Lists IsNamed value entries := by
  refine ⟨"[[\"a.B\", null, \"x\", \"View\", 1]]",
    .array [.array [.string "a.B", .null, .string "x", .string "View", .int 1]],
    Json.isText_iff.mpr ⟨⟨[], 31⟩, rfl, rfl⟩, rfl, ?_⟩
  rintro entries ⟨elements, heq | ⟨_, heq, _⟩, hentries⟩
  · obtain rfl := Json.array.inj heq
    obtain _ | ⟨⟨_, hnamed, _⟩, _⟩ := hentries
    cases hnamed
  · cases heq

end Manifests

end ViewBinding.Manifest
