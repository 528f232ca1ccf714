import Mathlib
import ViewBinding.Proofs.Grouping.Survivors

/-!
# Which fields a grouping warns of

A field that has the type and the view id of an earlier one takes its place, and only that: of
several earlier ones, the last is the one that is still there. A `ViewBinding.Collision` is such a
field together with the one it displaces, read off the list alone
(`ViewBinding.Collision.IsIn`).

What a grouping reports when a field is put in is read off the groups
(`ViewBinding.Grouping.report_insert`). As long as the groups hold the last field of every type and
view id met so far, both say the same, and so a whole list is reported collision by collision
(`ViewBinding.Grouping.ofFields_warns_of_collisions`).
-/

namespace ViewBinding

open Java

/-- A field of a list that has the type and the view id of an earlier one. -/
structure Collision where
  /-- How many fields come before it. -/
  position : Nat
  field : BoundField
  /-- The field whose place it takes. -/
  displaced : BoundField

namespace Collision

/-- **The list has the collision**: the field stands at that position, and of the fields before it
the displaced one is the last with its type and view id. -/
def IsIn (c : Collision) (fields : List BoundField) : Prop :=
  ∃ before after, fields = before ++ c.field :: after ∧ before.length = c.position ∧
    Grouping.LastOf before c.field.owner c.field.id c.displaced

/-- **The finding warns of the collision**: it names both fields, stands where the new one does,
and refers to the place of the displaced one. A place that a field does not have is left out. -/
structure IsWarnedOf (c : Collision) (x : Finding) : Prop where
  problem : x.problem = .duplicateViewId
  severity : x.severity = .warning
  message : x.message = "view id " ++ toString c.field.id.toInt ++ " is bound to both `"
    ++ c.displaced.name ++ "` and `" ++ c.field.name ++ "` in `" ++ c.field.owner.relative ++ "`"
  place : x.place = c.field.place
  related : x.related =
    (c.displaced.place.map fun place => ⟨"`" ++ c.displaced.name ++ "` replaced", place⟩).toList

/-- The finding that a group reports. -/
def finding (c : Collision) : Finding :=
  (Group.empty c.field.owner).displacement c.field c.displaced

theorem isWarnedOf_finding (c : Collision) : c.IsWarnedOf c.finding where
  problem := rfl
  severity := rfl
  message := by simp [finding, Group.displacement, Finding.of, Problem.message, Problem.frame]
  place := rfl
  related := rfl

end Collision

/-! ### One group -/

namespace Group

/-- The finding of a group says no more about the group than which type it is of. -/
theorem displacement_eq_finding {g : Group} {f : BoundField} (h : g.owner = f.owner)
    (displaced : BoundField) (position : Nat) :
    g.displacement f displaced = (Collision.mk position f displaced).finding := by
  rw [displacement, Collision.finding, displacement, h, owner_empty]

/-- A field either takes a place that is free or displaces the field that is there. -/
theorem length_insertField {f : BoundField} {fields : List BoundField}
    (h : fields.Pairwise fun f g => f.id < g.id) :
    (insertField f fields).length + (fields.find? fun g => g.id == f.id).toList.length =
      fields.length + 1 := by
  induction fields with
  | nil => rfl
  | cons a as ih =>
    obtain ⟨ha, has⟩ := List.pairwise_cons.mp h
    unfold insertField
    split
    · rename_i hlt
      -- the ids ascend, so none of those behind is the id of `f` either
      have hnone : (a :: as).find? (fun g => g.id == f.id) = none := by
        rw [List.find?_eq_none]
        intro g hg
        have hfg : f.id < g.id := by
          rcases List.mem_cons.mp hg with rfl | hg
          · exact hlt
          · exact Int32.lt_trans hlt (ha g hg)
        simpa using (Int32.ne_of_lt hfg).symm
      rw [hnone]
      rfl
    · split
      · rename_i _ heq
        rw [List.find?_cons_of_pos (by simp [heq])]
        rfl
      · rename_i _ hne
        have hfind : (a :: as).find? (fun g => g.id == f.id) =
            as.find? fun g => g.id == f.id :=
          List.find?_cons_of_neg (by simpa using Ne.symm hne)
        have hrest := ih has
        rw [hfind, List.length_cons, List.length_cons]
        omega

theorem length_insert (g : Group) (f : BoundField) :
    (g.insert f).fields.length + (g.report f).length = g.fields.length + 1 := by
  have hlength : (g.report f).length = (g.find? f.id).toList.length := by
    rw [report]
    cases g.find? f.id <;> rfl
  rw [hlength]
  exact length_insertField g.ascending

end Group

namespace Grouping

variable {groups : Grouping} {f : BoundField} {fields before : List BoundField}

/-! ### Putting one field in -/

/-- **What is reported is what was read before** under the type and the view id of the field. -/
theorem report_insert (f : BoundField) (groups : Grouping) (position : Nat) :
    (insert f groups).2 = ((groups.lookup? f.owner f.id).map fun displaced =>
      (Collision.mk position f displaced).finding).toList := by
  induction groups with
  | nil => rfl
  | cons g gs ih =>
    unfold insert
    rw [lookup?, find?_cons]
    split
    · rename_i hg
      have hfinding : g.displacement f = fun displaced =>
          (Collision.mk position f displaced).finding :=
        funext fun displaced => Group.displacement_eq_finding hg displaced position
      rw [Option.bind_some, ← hfinding]
      rfl
    · exact ih

/-- The number of fields that the groups hold. -/
def size (groups : Grouping) : Nat :=
  (groups.map fun g => g.fields.length).sum

@[simp] theorem size_cons (g : Group) (groups : Grouping) :
    size (g :: groups) = g.fields.length + size groups := rfl

/-- A field that is put in is held or takes the place of one that is reported. -/
theorem size_insert (f : BoundField) (groups : Grouping) :
    (insert f groups).1.size + (insert f groups).2.length = groups.size + 1 := by
  induction groups with
  | nil => rfl
  | cons g gs ih =>
    unfold insert
    split
    · have hgroup := g.length_insert f
      simp only [size_cons]
      omega
    · simp only [size_cons]
      omega

/-! ### Putting all fields in -/

theorem insertAll_cons (groups : Grouping) (f : BoundField) (fields : List BoundField) :
    insertAll groups (f :: fields) =
      ((insertAll (insert f groups).1 fields).1,
        (insert f groups).2 ++ (insertAll (insert f groups).1 fields).2) := rfl

theorem last?_concat (before : List BoundField) (f : BoundField) (owner : TypeName) (id : Int32) :
    last? (before ++ [f]) owner id =
      if f.owner = owner ∧ f.id = id then some f else last? before owner id := by
  rw [last?, List.reverse_append, List.reverse_singleton, List.singleton_append]
  by_cases h : f.owner = owner ∧ f.id = id
  · rw [List.find?_cons_of_pos (by simpa using h), if_pos h]
  · rw [List.find?_cons_of_neg (by simpa using h), if_neg h, last?]

/-- The collisions of a list that follows the fields `before`. -/
def collisionsAfter (before : List BoundField) : List BoundField → List Collision
  | [] => []
  | f :: fields =>
    ((last? before f.owner f.id).map (Collision.mk before.length f)).toList
      ++ collisionsAfter (before ++ [f]) fields

/-- The collisions of a list. -/
def collisions (fields : List BoundField) : List Collision :=
  collisionsAfter [] fields

/-- Where the groups hold the last field of every type and view id, the collisions are what is
reported. -/
theorem report_insertAll
    (h : ∀ owner id, groups.lookup? owner id = last? before owner id) :
    (insertAll groups fields).2 = (collisionsAfter before fields).map Collision.finding := by
  -- the groups go on to hold what is last, with the field just put in as the last of all
  induction fields generalizing groups before with
  | nil => rfl
  | cons f fields ih =>
    have hnext : ∀ owner id,
        (insert f groups).1.lookup? owner id = last? (before ++ [f]) owner id := by
      intro owner id
      rw [lookup?_insert, last?_concat, h owner id]
    have hfirst : (insert f groups).2 =
        (((last? before f.owner f.id).map (Collision.mk before.length f)).toList).map
          Collision.finding := by
      rw [report_insert f groups before.length, h f.owner f.id]
      cases last? before f.owner f.id <;> rfl
    rw [insertAll_cons, collisionsAfter, List.map_append, ← hfirst, ← ih hnext]

theorem size_insertAll (groups : Grouping) (fields : List BoundField) :
    (insertAll groups fields).1.size + (insertAll groups fields).2.length =
      groups.size + fields.length := by
  induction fields generalizing groups with
  | nil => rfl
  | cons f fields ih =>
    have hstep := size_insert f groups
    have hrest := ih (insert f groups).1
    simp only [insertAll_cons, List.length_append, List.length_cons]
    omega

/-! ### The collisions of a list -/

theorem mem_collisionsAfter_iff {c : Collision} :
    c ∈ collisionsAfter before fields ↔
      ∃ front after, fields = front ++ c.field :: after ∧
        (before ++ front).length = c.position ∧
        LastOf (before ++ front) c.field.owner c.field.id c.displaced := by
  induction fields generalizing before with
  | nil => simp [collisionsAfter]
  | cons f fields ih =>
    rw [collisionsAfter, List.mem_append, ih]
    constructor
    · rintro (hfirst | ⟨front, after, rfl, hposition, hlast⟩)
      · obtain ⟨displaced, hlast, rfl⟩ := Option.map_eq_some_iff.mp (Option.mem_toList.mp hfirst)
        refine ⟨[], fields, rfl, by simp, ?_⟩
        rw [List.append_nil]
        exact last?_eq_some_iff.mp hlast
      · refine ⟨f :: front, after, rfl, ?_, ?_⟩
        · simpa using hposition
        · simpa using hlast
    · rintro ⟨front, after, hfields, hposition, hlast⟩
      cases front with
      | nil =>
        obtain ⟨rfl, rfl⟩ := List.cons.inj hfields
        rw [List.append_nil] at hposition hlast
        refine .inl (Option.mem_toList.mpr ?_)
        rw [last?_eq_some_iff.mpr hlast, hposition]
        rfl
      | cons g front =>
        obtain ⟨rfl, rfl⟩ := List.cons.inj hfields
        refine .inr ⟨front, after, rfl, ?_, ?_⟩
        · simpa using hposition
        · simpa using hlast

/-- The collisions are those that the list has. -/
theorem mem_collisions_iff {c : Collision} : c ∈ collisions fields ↔ c.IsIn fields := by
  rw [collisions, mem_collisionsAfter_iff]
  simp only [List.nil_append]
  rfl

theorem collisionsAfter_pairwise (before fields : List BoundField) :
    (collisionsAfter before fields).Pairwise fun c d => c.position < d.position := by
  induction fields generalizing before with
  | nil => exact .nil
  | cons f fields ih =>
    rw [collisionsAfter, List.pairwise_append]
    refine ⟨?_, ih (before ++ [f]), ?_⟩
    · cases last? before f.owner f.id with
      | none => exact .nil
      | some displaced => exact List.pairwise_singleton _ _
    · intro c hc d hd
      obtain ⟨displaced, -, rfl⟩ := Option.map_eq_some_iff.mp (Option.mem_toList.mp hc)
      obtain ⟨front, -, -, hposition, -⟩ := mem_collisionsAfter_iff.mp hd
      rw [← hposition]
      simp only [List.length_append, List.length_singleton]
      omega

/-- A field that has the type and the view id of an earlier one collides. -/
theorem exists_mem_collisions {after : List BoundField} {earlier : BoundField}
    (hearlier : earlier ∈ before) (howner : earlier.owner = f.owner) (hid : earlier.id = f.id) :
    ∃ displaced, ⟨before.length, f, displaced⟩ ∈ collisions (before ++ f :: after) := by
  obtain ⟨displaced, hlast⟩ := exists_lastOf hearlier
  refine ⟨displaced, mem_collisions_iff.mpr ⟨before, after, rfl, rfl, ?_⟩⟩
  rwa [howner, hid] at hlast

/-- **A grouping warns of every collision of the list, in order, and of nothing else.** A field
that has the type and the view id of an earlier one has exactly one collision, with the last such
field before it; and every field of the list is either held by a group or displaced by one that is
warned of. -/
theorem ofFields_warns_of_collisions (fields : List BoundField) :
    ∃ found : List Collision,
      found.Pairwise (fun c d => c.position < d.position) ∧
      (∀ c, c ∈ found ↔ c.IsIn fields) ∧
      (∀ before f after, fields = before ++ f :: after →
        ((∃ c ∈ found, c.position = before.length) ↔
          ∃ earlier ∈ before, earlier.owner = f.owner ∧ earlier.id = f.id)) ∧
      List.Forall₂ Collision.IsWarnedOf found (ofFields fields).2 ∧
      (ofFields fields).2.length + ((ofFields fields).1.map fun g => g.fields.length).sum =
        fields.length := by
  refine ⟨collisions fields, collisionsAfter_pairwise [] fields, fun c => mem_collisions_iff,
    ?_, ?_, ?_⟩
  · rintro before f after rfl
    constructor
    · -- both split the list at the same position
      rintro ⟨c, hc, hposition⟩
      obtain ⟨front, back, heq, hlength, hlast⟩ := mem_collisions_iff.mp hc
      obtain ⟨rfl, htail⟩ := List.append_inj heq (hposition ▸ hlength).symm
      obtain ⟨rfl, -⟩ := List.cons.inj htail
      obtain ⟨first, rest, rfl, howner, hid, -⟩ := hlast
      exact ⟨c.displaced, by simp, howner, hid⟩
    · rintro ⟨earlier, hearlier, howner, hid⟩
      obtain ⟨displaced, hmem⟩ := exists_mem_collisions hearlier howner hid
      exact ⟨_, hmem, rfl⟩
  · have hreport : (ofFields fields).2 = (collisions fields).map Collision.finding :=
      report_insertAll fun owner id => rfl
    rw [hreport, List.forall₂_map_right_iff, List.forall₂_same]
    exact fun c _ => c.isWarnedOf_finding
  · have hsize := size_insertAll [] fields
    rw [Nat.add_comm]
    simpa [size, ofFields] using hsize

end Grouping

end ViewBinding
