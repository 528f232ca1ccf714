import ViewBinding.Manifest

/-!
# Which entries become fields

An entry of a manifest is checked part by part, and the first flaw ends the checks.
`ViewBinding.Manifest.toField_eq_ok_iff` says in one line which entries pass and what field an entry
becomes. The fields of several manifests are those of their entries, one manifest after the other
(`ViewBinding.Manifest.of_bindings`), so each of them has an entry it is made of
(`ViewBinding.Manifest.exists_entry_of_mem_bindings`).
-/

namespace ViewBinding.Manifest

open Java

variable {e : Entry} {f : BoundField}

/-- **An entry becomes a field exactly if all its parts pass**: the type has a name, the name of the
field is legal, the type to cast to is not blank, and the view id is an `int`. -/
theorem toField_eq_ok_iff :
    e.toField = .ok f ↔
      ∃ owner, e.owner = .ok owner ∧ isIdentifier e.fieldName ∧
        TypeText.tidy e.fieldType ≠ "" ∧ (-2147483648 ≤ e.viewId ∧ e.viewId ≤ 2147483647) ∧
        f = ⟨owner, e.fieldName, ⟨TypeText.tidy e.fieldType, []⟩, Int32.ofInt e.viewId, none⟩ := by
  constructor
  · intro h
    cases howner : e.owner with
    | error flaw =>
      rw [Entry.toField, howner] at h
      cases h
    | ok owner =>
      simp only [Entry.toField, howner, bind, Except.bind, pure, Except.pure] at h
      split at h
      · cases h
      · rename_i hname
        split at h
        · cases h
        · rename_i htype
          split at h
          · rename_i hid
            cases h
            exact ⟨owner, rfl, by simpa using hname, htype, by simpa using hid, rfl⟩
          · cases h
  · rintro ⟨owner, howner, hname, htype, ⟨hlow, hhigh⟩, rfl⟩
    simp [Entry.toField, howner, hname, htype, hlow, hhigh, bind, Except.bind, pure, Except.pure]

/-- An entry says of which type its field is and what the field is to be cast to. -/
theorem of_toField (h : e.toField = .ok f) :
    e.owner = .ok f.owner ∧ f.type.text = TypeText.tidy e.fieldType := by
  obtain ⟨owner, howner, -, -, -, rfl⟩ := toField_eq_ok_iff.mp h
  exact ⟨howner, rfl⟩

/-! ### All entries -/

/-- The fields of a manifest; one that cannot be read has none. -/
def fieldsOf (source : Source) : List BoundField :=
  match parse source.content with
  | .ok entries => entries.filterMap fun e => e.toField.toOption
  | .error _ => []

variable {source : Source} {sources : Sources} {out : List BoundField × Report}

theorem mem_fieldsOf_iff :
    f ∈ fieldsOf source ↔
      ∃ entries, parse source.content = .ok entries ∧ ∃ e ∈ entries, e.toField = .ok f := by
  have hfield (e : Entry) : e.toField.toOption = some f ↔ e.toField = .ok f := by
    cases e.toField <;> simp [Except.toOption]
  unfold fieldsOf
  split
  · rename_i entries hparse
    simp [hparse, hfield]
  · rename_i flaw hparse
    simp [hparse]

/-- The fields of entries do not depend on how a manifest is shown and where an entry stands. -/
theorem fields_entryBindings (display : String) (number : Nat) (entries : List Entry) :
    (entryBindings display number entries).1 =
      entries.filterMap fun e => e.toField.toOption := by
  induction entries generalizing number with
  | nil => rfl
  | cons e entries ih =>
    rw [entryBindings, List.filterMap_cons]
    cases e.toField with
    | ok f => exact congrArg (f :: ·) (ih (number + 1))
    | error flaw => exact ih (number + 1)

/-- **Manifests that could be read** can each be read, and have the fields of all of them. -/
theorem of_bindings (h : bindings sources = .ok out) :
    (∀ source ∈ sources, ∃ entries, parse source.content = .ok entries) ∧
      out.1 = sources.flatMap fieldsOf := by
  induction sources generalizing out with
  | nil =>
    cases h
    exact ⟨fun _ hmem => (List.not_mem_nil hmem).elim, rfl⟩
  | cons source sources ih =>
    unfold bindings at h
    split at h
    · cases h
    · rename_i entries hparse
      split at h
      · cases h
      · rename_i rest found hrest
        cases h
        obtain ⟨hall, hfields⟩ := ih hrest
        refine ⟨List.forall_mem_cons.mpr ⟨⟨entries, hparse⟩, hall⟩, ?_⟩
        rw [List.flatMap_cons, fieldsOf, hparse, ← hfields, fields_entryBindings]

/-- **A field of a manifest is made from one of its entries.** -/
theorem exists_entry_of_mem_bindings (h : bindings sources = .ok out) (hf : f ∈ out.1) :
    ∃ source ∈ sources, ∃ entries, parse source.content = .ok entries ∧
      ∃ e ∈ entries, e.toField = .ok f := by
  rw [(of_bindings h).2] at hf
  obtain ⟨source, hsource, hf⟩ := List.mem_flatMap.mp hf
  exact ⟨source, hsource, mem_fieldsOf_iff.mp hf⟩

/-- Manifests that can each be read can be read together. -/
theorem exists_bindings
    (h : ∀ source ∈ sources, ∃ entries, parse source.content = .ok entries) :
    ∃ out, bindings sources = .ok out := by
  induction sources with
  | nil => exact ⟨_, rfl⟩
  | cons source sources ih =>
    obtain ⟨⟨entries, hparse⟩, hrest⟩ := List.forall_mem_cons.mp h
    obtain ⟨out, hout⟩ := ih hrest
    exact ⟨_, by rw [bindings, hparse]; dsimp only; rw [hout]⟩

end ViewBinding.Manifest
