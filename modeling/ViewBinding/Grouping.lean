import ViewBinding.Field
import ViewBinding.Report

/-!
# Fields by declaring type and view id

The fields of a round are put together by the type that declares them. A `ViewBinding.Group`
holds the fields of one type, at most one for each view id, in ascending order of the ids; a
`ViewBinding.Grouping` holds the groups in the order in which their types were first met.

A field takes the place of an earlier one with the same type and id, and the loss is reported:
`ViewBinding.Grouping.insert` gives the finding along with the new grouping, and
`ViewBinding.Grouping.ofFields` puts in a whole list.
-/

namespace ViewBinding

open Java

/-- The fields of one type. -/
structure Group where
  /-- The declaring type. -/
  owner : TypeName
  /-- The fields, one for each view id. -/
  fields : List BoundField
  ascending : fields.Pairwise fun f g => f.id < g.id

namespace Group

/-- Puts a field where its id belongs in an ascending list, in the place of the one that has the
id already. -/
def insertField (f : BoundField) : List BoundField → List BoundField
  | [] => [f]
  | g :: gs =>
    if f.id < g.id then f :: g :: gs
    else if f.id = g.id then f :: gs
    else g :: insertField f gs

theorem mem_of_mem_insertField {f g : BoundField} {fields : List BoundField}
    (h : g ∈ insertField f fields) : g = f ∨ g ∈ fields := by
  induction fields with
  | nil => simpa [insertField] using h
  | cons a as ih =>
    unfold insertField at h
    split at h
    · simpa using h
    · split at h
      · rcases List.mem_cons.mp h with h | h
        · exact .inl h
        · exact .inr (List.mem_cons_of_mem _ h)
      · rcases List.mem_cons.mp h with rfl | h
        · exact .inr (by simp)
        · rcases ih h with h | h
          · exact .inl h
          · exact .inr (List.mem_cons_of_mem _ h)

theorem insertField_ascending {f : BoundField} {fields : List BoundField}
    (h : fields.Pairwise fun f g => f.id < g.id) :
    (insertField f fields).Pairwise fun f g => f.id < g.id := by
  induction fields with
  | nil => simp [insertField]
  | cons a as ih =>
    obtain ⟨ha, has⟩ := List.pairwise_cons.mp h
    unfold insertField
    split
    · rename_i hlt
      refine List.pairwise_cons.mpr ⟨fun g hg => ?_, h⟩
      rcases List.mem_cons.mp hg with rfl | hg
      · exact hlt
      · exact Int32.lt_trans hlt (ha g hg)
    · rename_i hnot
      split
      · rename_i heq
        exact List.pairwise_cons.mpr ⟨fun g hg => heq ▸ ha g hg, has⟩
      · rename_i hne
        refine List.pairwise_cons.mpr ⟨fun g hg => ?_, ih has⟩
        rcases mem_of_mem_insertField hg with rfl | hg
        · exact Int32.lt_of_le_of_ne (Int32.not_lt.mp hnot) (Ne.symm hne)
        · exact ha g hg

/-- The group of a type before any field is put in. -/
def empty (owner : TypeName) : Group :=
  ⟨owner, [], .nil⟩

/-- Puts a field in. -/
def insert (g : Group) (f : BoundField) : Group :=
  ⟨g.owner, insertField f g.fields, insertField_ascending g.ascending⟩

/-- The field of that view id. -/
def find? (g : Group) (id : Int32) : Option BoundField :=
  g.fields.find? fun f => f.id == id

/-- The place of the first field that has one. -/
def place? (g : Group) : Option Place :=
  g.fields.findSome? BoundField.place

@[simp] theorem owner_empty (owner : TypeName) : (empty owner).owner = owner := rfl

@[simp] theorem owner_insert (g : Group) (f : BoundField) : (g.insert f).owner = g.owner := rfl

/-- The finding on a field that takes the place of another. -/
def displacement (g : Group) (f displaced : BoundField) : Finding :=
  .of .duplicateViewId f.place
    (some ("view id " ++ toString f.id.toInt ++ " is bound to both `" ++ displaced.name
      ++ "` and `" ++ f.name ++ "` in `" ++ g.owner.relative ++ "`"))
    (displaced.place.map fun place => ⟨"`" ++ displaced.name ++ "` replaced", place⟩).toList

/-- What is to be reported when a field is put in. -/
def report (g : Group) (f : BoundField) : Report :=
  ((g.find? f.id).map (g.displacement f)).toList

end Group

/-- The groups of a round, in the order in which their types were first met. -/
abbrev Grouping := List Group

namespace Grouping

/-- Puts a field into the group of its type, a new one at the end if there is none. -/
def insert (f : BoundField) : Grouping → Grouping × Report
  | [] => ([(Group.empty f.owner).insert f], [])
  | g :: gs =>
    if g.owner = f.owner then (g.insert f :: gs, g.report f)
    else
      let (gs, report) := insert f gs
      (g :: gs, report)

/-- Puts fields in, one after the other. -/
def insertAll (groups : Grouping) : List BoundField → Grouping × Report
  | [] => (groups, [])
  | f :: fields =>
    let (groups, first) := insert f groups
    let (groups, rest) := insertAll groups fields
    (groups, first ++ rest)

/-- The groups of a list of fields. -/
def ofFields (fields : List BoundField) : Grouping × Report :=
  insertAll [] fields

/-- The group of a type. -/
def find? (groups : Grouping) (owner : TypeName) : Option Group :=
  List.find? (fun g => g.owner == owner) groups

end Grouping

end ViewBinding
