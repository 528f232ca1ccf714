import Mathlib.Data.List.Nodup
import ViewBinding.Grouping

/-!
# Which fields a grouping keeps

A grouping is read by type and view id: `ViewBinding.Grouping.lookup?` gives the field of a type
that has an id. Putting a field in changes what is read there to that field and nothing else, so
what is read after all fields have been put in is the last one of its type and id
(`ViewBinding.Grouping.mem_fields_ofFields_iff`).

The types of the groups are the distinct types of the fields, in the order in which they were first
met (`ViewBinding.Grouping.map_owner_ofFields`).
-/

namespace ViewBinding

open Java

/-! ### Reading a group -/

namespace Group

theorem find?_insertField (f : BoundField) (fields : List BoundField) (id : Int32) :
    (insertField f fields).find? (fun g => g.id == id) =
      if f.id = id then some f else fields.find? fun g => g.id == id := by
  induction fields with
  | nil => by_cases h : f.id = id <;> simp [insertField, h]
  | cons g gs ih =>
    unfold insertField
    split
    · by_cases h : f.id = id <;> simp [List.find?_cons, h]
    · split
      · rename_i _ heq
        by_cases h : f.id = id <;> simp [← heq, h]
      · rename_i _ hne
        by_cases h : f.id = id
        · have hg : g.id ≠ id := fun hg => hne (h.trans hg.symm)
          rw [List.find?_cons_of_neg (by simpa using hg), ih, if_pos h, if_pos h]
        · by_cases hg : g.id = id
          · simp [h, hg]
          · rw [List.find?_cons_of_neg (by simpa using hg), ih, if_neg h, if_neg h,
              List.find?_cons_of_neg (by simpa using hg)]

/-- **Putting a field in changes what is read under its id, and nothing else.** -/
theorem find?_insert (g : Group) (f : BoundField) (id : Int32) :
    (g.insert f).find? id = if f.id = id then some f else g.find? id :=
  find?_insertField f g.fields id

@[simp] theorem find?_empty (owner : TypeName) (id : Int32) : (empty owner).find? id = none :=
  rfl

/-- A field is in a group exactly if it is read under its id. -/
theorem mem_fields_iff {g : Group} {f : BoundField} :
    f ∈ g.fields ↔ g.find? f.id = some f := by
  obtain ⟨owner, fields, hasc⟩ := g
  refine ⟨fun h => ?_, List.mem_of_find?_eq_some⟩
  change fields.find? _ = some f
  induction fields with
  | nil => cases h
  | cons a as ih =>
    obtain ⟨ha, has⟩ := List.pairwise_cons.mp hasc
    rcases List.mem_cons.mp h with rfl | hf
    · simp
    · -- the ids ascend, so no field in front has the id of `f`
      have hne : a.id ≠ f.id := (Int32.ne_of_lt (ha f hf))
      rw [List.find?_cons, beq_false_of_ne hne]
      exact ih has hf

theorem fields_insert_ne_nil (g : Group) (f : BoundField) : (g.insert f).fields ≠ [] := by
  intro h
  have hf : f ∈ (g.insert f).fields := by rw [mem_fields_iff, find?_insert, if_pos rfl]
  rw [h] at hf
  cases hf

end Group

namespace Grouping

variable {groups : Grouping} {f : BoundField} {fields : List BoundField} {owner : TypeName}
  {id : Int32}

/-! ### Reading a grouping -/

/-- The field of a type that has a view id. -/
def lookup? (groups : Grouping) (owner : TypeName) (id : Int32) : Option BoundField :=
  (groups.find? owner).bind fun g => g.find? id

theorem find?_cons (g : Group) (groups : Grouping) (owner : TypeName) :
    Grouping.find? (g :: groups) owner =
      if g.owner = owner then some g else groups.find? owner := by
  by_cases h : g.owner = owner <;> simp [Grouping.find?, h]

/-- **Putting a field in changes what is read under its type and id, and nothing else.** -/
theorem lookup?_insert (f : BoundField) (groups : Grouping) (owner : TypeName) (id : Int32) :
    lookup? (insert f groups).1 owner id =
      if f.owner = owner ∧ f.id = id then some f else groups.lookup? owner id := by
  induction groups with
  | nil =>
    by_cases ho : f.owner = owner <;> by_cases hi : f.id = id <;>
      simp [insert, lookup?, Group.find?_insert, Grouping.find?, ho, hi]
  | cons g gs ih =>
    unfold insert
    split
    · rename_i hg
      by_cases ho : f.owner = owner <;> by_cases hi : f.id = id <;>
        simp [lookup?, find?_cons, Group.find?_insert, hg, ho, hi]
    · rename_i hg
      rw [lookup?] at ih ⊢
      by_cases ho : g.owner = owner
      · have hne : f.owner ≠ owner := fun h => hg (ho.trans h.symm)
        simp [lookup?, find?_cons, ho, hne]
      · simp only [find?_cons, ho, if_false, lookup?] at ih ⊢
        exact ih

/-! ### The types of a grouping -/

theorem map_owner_insert (f : BoundField) (groups : Grouping) :
    (insert f groups).1.map Group.owner =
      if f.owner ∈ groups.map Group.owner then groups.map Group.owner
      else groups.map Group.owner ++ [f.owner] := by
  induction groups with
  | nil => rfl
  | cons g gs ih =>
    unfold insert
    split
    · rename_i hg
      simp [hg]
    · rename_i hg
      simp only [List.map_cons, ih, List.mem_cons, Ne.symm hg, false_or]
      split <;> simp

theorem map_owner_insertAll (groups : Grouping) (fields : List BoundField) :
    (insertAll groups fields).1.map Group.owner = groups.map Group.owner ++
      ((fields.map BoundField.owner).removeAll (groups.map Group.owner)).eraseDups := by
  induction fields generalizing groups with
  | nil => simp [insertAll]
  | cons f fields ih =>
    rw [insertAll, ih, map_owner_insert, List.map_cons, List.cons_removeAll]
    by_cases h : f.owner ∈ groups.map Group.owner
    · simp [h]
    · -- a new type goes behind the others, and those fields of it that follow bring nothing more
      have hkeep : (fields.map BoundField.owner).removeAll (groups.map Group.owner ++ [f.owner]) =
          ((fields.map BoundField.owner).removeAll (groups.map Group.owner)).filter
            fun o => !o == f.owner := by
        rw [List.removeAll, List.removeAll, List.filter_filter]
        exact List.filter_congr fun a _ => by by_cases ha : a = f.owner <;> simp [ha]
      rw [if_neg h, hkeep]
      simp [h, List.eraseDups_cons]

/-- **The types of the groups are those of the fields, in the order in which they were first
met.** -/
theorem map_owner_ofFields (fields : List BoundField) :
    (ofFields fields).1.map Group.owner = (fields.map BoundField.owner).eraseDups := by
  rw [ofFields, map_owner_insertAll]
  simp

theorem nodup_owner_insert (f : BoundField) (h : (groups.map Group.owner).Nodup) :
    ((insert f groups).1.map Group.owner).Nodup := by
  rw [map_owner_insert]
  split
  · exact h
  · rename_i hnew
    exact List.nodup_append.mpr ⟨h, List.nodup_singleton _, fun a ha b hb hab =>
      hnew (List.mem_singleton.mp hb ▸ hab ▸ ha)⟩

theorem nodup_owner_insertAll (fields : List BoundField) (h : (groups.map Group.owner).Nodup) :
    ((insertAll groups fields).1.map Group.owner).Nodup := by
  induction fields generalizing groups with
  | nil => exact h
  | cons f fields ih => exact ih (nodup_owner_insert f h)

/-- No two groups are of one type. -/
theorem nodup_owner_ofFields (fields : List BoundField) :
    ((ofFields fields).1.map Group.owner).Nodup :=
  nodup_owner_insertAll fields List.nodup_nil

/-- A group is found under its type. -/
theorem find?_of_mem (h : (groups.map Group.owner).Nodup) {g : Group} (hg : g ∈ groups) :
    groups.find? g.owner = some g := by
  induction groups with
  | nil => cases hg
  | cons a as ih =>
    obtain ⟨hnot, hnodup⟩ := List.nodup_cons.mp h
    rw [find?_cons]
    rcases List.mem_cons.mp hg with rfl | hg
    · exact if_pos rfl
    · have hne : a.owner ≠ g.owner := fun heq => hnot (heq ▸ List.mem_map_of_mem hg)
      rw [if_neg hne]
      exact ih hnodup hg

/-! ### No empty groups -/

theorem fields_ne_nil_insert (h : ∀ g ∈ groups, g.fields ≠ []) :
    ∀ g ∈ (insert f groups).1, g.fields ≠ [] := by
  induction groups with
  | nil =>
    intro g hg
    rw [List.mem_singleton.mp hg]
    exact Group.fields_insert_ne_nil _ f
  | cons a as ih =>
    obtain ⟨ha, has⟩ := List.forall_mem_cons.mp h
    unfold insert
    split
    · exact List.forall_mem_cons.mpr ⟨Group.fields_insert_ne_nil a f, has⟩
    · exact List.forall_mem_cons.mpr ⟨ha, ih has⟩

theorem fields_ne_nil_insertAll (h : ∀ g ∈ groups, g.fields ≠ []) :
    ∀ g ∈ (insertAll groups fields).1, g.fields ≠ [] := by
  induction fields generalizing groups with
  | nil => exact h
  | cons f fields ih => exact ih (fields_ne_nil_insert h)

/-- A type has a group only if it has a field. -/
theorem fields_ne_nil_of_mem_ofFields {g : Group} (h : g ∈ (ofFields fields).1) :
    g.fields ≠ [] :=
  fields_ne_nil_insertAll (fun _ hg => by cases hg) g h

/-! ### What is read in the end -/

/-- The field is the last of the list that has the type and the view id. -/
def LastOf (fields : List BoundField) (owner : TypeName) (id : Int32) (f : BoundField) : Prop :=
  ∃ before after, fields = before ++ f :: after ∧ f.owner = owner ∧ f.id = id ∧
    ∀ g ∈ after, g.owner = owner → g.id ≠ id

/-- The last field of a type and a view id, found from the end of the list. -/
def last? (fields : List BoundField) (owner : TypeName) (id : Int32) : Option BoundField :=
  fields.reverse.find? fun f => f.owner == owner && f.id == id

theorem last?_eq_some_iff :
    last? fields owner id = some f ↔ LastOf fields owner id f := by
  rw [last?, List.find?_eq_some_iff_append]
  constructor
  · rintro ⟨hf, after, before, hfields, hafter⟩
    obtain ⟨ho, hi⟩ : f.owner = owner ∧ f.id = id := by simpa using hf
    refine ⟨before.reverse, after.reverse, by simpa using congrArg List.reverse hfields, ho, hi,
      fun g hg hgo hgi => ?_⟩
    have hpast := hafter g (List.mem_reverse.mp hg)
    simp [hgo, hgi] at hpast
  · rintro ⟨before, after, rfl, ho, hi, hafter⟩
    refine ⟨by simp [ho, hi], after.reverse, before.reverse, by simp, fun g hg => ?_⟩
    simpa [imp_iff_not_or] using hafter g (List.mem_reverse.mp hg)

theorem last?_cons (f : BoundField) (fields : List BoundField) (owner : TypeName) (id : Int32) :
    last? (f :: fields) owner id =
      (last? fields owner id).or (if f.owner = owner ∧ f.id = id then some f else none) := by
  rw [last?, List.reverse_cons, List.find?_append]
  congr 1
  by_cases h : f.owner = owner ∧ f.id = id <;> simp [h]

/-- **What is read in the end is the last field of the type and the id, or else what was read
before.** -/
theorem lookup?_insertAll (groups : Grouping) (fields : List BoundField) (owner : TypeName)
    (id : Int32) :
    lookup? (insertAll groups fields).1 owner id =
      (last? fields owner id).or (groups.lookup? owner id) := by
  induction fields generalizing groups with
  | nil => rfl
  | cons f fields ih =>
    rw [insertAll, ih, lookup?_insert, last?_cons, Option.or_assoc]
    split <;> simp

/-- **A group holds exactly the fields of its type that are the last of their id.** -/
theorem mem_fields_ofFields_iff {g : Group} (h : g ∈ (ofFields fields).1) :
    f ∈ g.fields ↔ LastOf fields g.owner f.id f := by
  have hread : lookup? (ofFields fields).1 g.owner f.id = g.find? f.id := by
    rw [lookup?, find?_of_mem (nodup_owner_ofFields fields) h, Option.bind_some]
  rw [Group.mem_fields_iff, ← hread, ofFields, lookup?_insertAll, ← last?_eq_some_iff]
  simp [lookup?, Grouping.find?]

/-- Every field of a list gives way to the last one of its type and id. -/
theorem exists_lastOf (h : f ∈ fields) : ∃ g, LastOf fields f.owner f.id g := by
  have hsome : (last? fields f.owner f.id).isSome := by
    rw [last?, List.find?_isSome]
    exact ⟨f, List.mem_reverse.mpr h, by simp⟩
  obtain ⟨g, hg⟩ := Option.isSome_iff_exists.mp hsome
  exact ⟨g, last?_eq_some_iff.mp hg⟩

end Grouping

end ViewBinding
