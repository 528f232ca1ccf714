import ViewBinding.Companion
import ViewBinding.Proofs.Grouping.Survivors

/-!
# One companion for each type

The companions of a list of fields are made in two passes: the fields are grouped by type
(`ViewBinding.Grouping.ofFields`), and the groups become companions
(`ViewBinding.Companion.ofGroups`). Here both are compared with the list itself. A companion
`ViewBinding.Companion.Binds` a list of fields if its statements are what one reads off the list:
for each view id of the type, the assignment of the last field that has it.

A type of the list has one companion, unless a companion of the same name has been made for a type
that was met before; that is reported
(`ViewBinding.Companion.ofGroups_ofFields_binds`).
-/

namespace ViewBinding.Companion

open Java

variable {g : Group} {c : Companion} {groups : Grouping} {used : List (String × Group)}
  {fields : List BoundField}

/-! ### The companion of one group -/

theorem ofGroup?_eq_some_iff :
    ofGroup? g = some c ↔ g.fields ≠ [] ∧
      c = ⟨g.owner.package, companionName g.owner.simple, g.owner,
        importsOf g.owner.package g.fields,
        ⟨methodName, ⟨g.owner.relative, parameterName g.owner.simple⟩,
          g.fields.map (Group.assignment (parameterName g.owner.simple))⟩⟩ := by
  rw [ofGroup?, Group.method?]
  split
  · rename_i hnil
    simp [hnil]
  · rename_i hne
    simp [eq_comm, show g.fields ≠ [] from hne]

theorem owner_of_ofGroup? (h : ofGroup? g = some c) : c.owner = g.owner := by
  rw [(ofGroup?_eq_some_iff.mp h).2]

/-- **The companion binds the list**: its statements are the assignments of the fields of its
type that are the last of their view id, in ascending order of the ids, and nothing else. -/
structure Binds (fields : List BoundField) (c : Companion) : Prop where
  owner_mem : c.owner ∈ fields.map BoundField.owner
  parameter : c.method.parameter = ⟨c.owner.relative, "_" ++ lowerFirst c.owner.simple⟩
  ascending : c.method.statements.Pairwise fun a b => a.id < b.id
  covered : ∀ f ∈ fields, f.owner = c.owner → ∃ a ∈ c.method.statements, a.id = f.id
  mem_statements_iff : ∀ a, a ∈ c.method.statements ↔
    ∃ f, Grouping.LastOf fields c.owner a.id f ∧
      a = ⟨c.method.parameter.name, f.name, f.type.text, a.id⟩

/-- The companion of a group of a list binds the list. -/
theorem binds_of_ofGroup? (hg : g ∈ (Grouping.ofFields fields).1) (h : ofGroup? g = some c) :
    c.Binds fields := by
  obtain ⟨-, rfl⟩ := ofGroup?_eq_some_iff.mp h
  refine ⟨?_, rfl, List.pairwise_map.mpr g.ascending, fun f hf howner => ?_, fun a => ?_⟩
  · have howner := List.mem_map_of_mem (f := Group.owner) hg
    rw [Grouping.map_owner_ofFields] at howner
    exact List.mem_eraseDups.mp howner
  · obtain ⟨last, hlast⟩ := Grouping.exists_lastOf hf
    obtain ⟨_, _, _, _, hid, _⟩ := id hlast
    have hmem : last ∈ g.fields := by
      rw [Grouping.mem_fields_ofFields_iff hg, hid, ← show f.owner = g.owner from howner]
      exact hlast
    exact ⟨_, List.mem_map_of_mem hmem, hid⟩
  · rw [List.mem_map]
    constructor
    · rintro ⟨f, hf, rfl⟩
      exact ⟨f, (Grouping.mem_fields_ofFields_iff hg).mp hf, rfl⟩
    · rintro ⟨f, hf, ha⟩
      obtain ⟨_, _, _, _, hid, _⟩ := id hf
      refine ⟨f, ?_, ?_⟩
      · rw [Grouping.mem_fields_ofFields_iff hg, hid]
        exact hf
      · rw [ha, Group.assignment, hid]

/-! ### The companions of all groups -/

/-- What becomes of the first group: it has no companion, the name of its companion is in use and
that is reported, or its companion is kept and uses its name from then on. -/
theorem ofGroupsAfter_cons (used : List (String × Group)) (g : Group) (groups : Grouping) :
    (ofGroup? g = none ∧ ofGroupsAfter used (g :: groups) = ofGroupsAfter used groups) ∨
    (∃ c claim, ofGroup? g = some c ∧ claim ∈ used ∧ claim.1 = c.qualified ∧
      ofGroupsAfter used (g :: groups) =
        ((ofGroupsAfter used groups).1,
          c.clash claim.2 g :: (ofGroupsAfter used groups).2)) ∨
    (∃ c, ofGroup? g = some c ∧ (∀ claim ∈ used, claim.1 ≠ c.qualified) ∧
      ofGroupsAfter used (g :: groups) =
        (c :: (ofGroupsAfter (used ++ [(c.qualified, g)]) groups).1,
          (ofGroupsAfter (used ++ [(c.qualified, g)]) groups).2)) := by
  cases hc : ofGroup? g with
  | none => exact .inl ⟨rfl, by rw [ofGroupsAfter, hc]⟩
  | some c =>
    cases hclaim : used.find? fun claim => claim.1 == c.qualified with
    | none =>
      refine .inr (.inr ⟨c, rfl, fun claim hmem => ?_, by rw [ofGroupsAfter, hc]; simp [hclaim]⟩)
      simpa using List.find?_eq_none.mp hclaim claim hmem
    | some claim =>
      refine .inr (.inl ⟨c, claim, rfl, List.mem_of_find?_eq_some hclaim, ?_,
        by rw [ofGroupsAfter, hc]; simp [hclaim]⟩)
      simpa using List.find?_some hclaim

/-- **The companions follow the groups**, each made from one of them. -/
theorem map_owner_ofGroupsAfter_sublist (used : List (String × Group)) (groups : Grouping) :
    ((ofGroupsAfter used groups).1.map Companion.owner).Sublist (groups.map Group.owner) := by
  induction groups generalizing used with
  | nil => exact .slnil
  | cons g groups ih =>
    obtain ⟨-, h⟩ | ⟨c, claim, -, -, -, h⟩ | ⟨c, hc, -, h⟩ := ofGroupsAfter_cons used g groups
    · rw [h]
      exact .cons _ (ih used)
    · rw [h]
      exact .cons _ (ih used)
    · rw [h, List.map_cons, List.map_cons, owner_of_ofGroup? hc]
      exact .cons_cons _ (ih _)

/-- A companion that is kept is the companion of a group. -/
theorem exists_group_of_mem (h : c ∈ (ofGroupsAfter used groups).1) :
    ∃ g ∈ groups, ofGroup? g = some c := by
  induction groups generalizing used with
  | nil => cases h
  | cons g groups ih =>
    have hlater (used) (h : c ∈ (ofGroupsAfter used groups).1) :
        ∃ a ∈ g :: groups, ofGroup? a = some c :=
      let ⟨a, ha, hac⟩ := ih h
      ⟨a, List.mem_cons_of_mem g ha, hac⟩
    obtain ⟨-, heq⟩ | ⟨d, claim, -, -, -, heq⟩ | ⟨d, hd, -, heq⟩ :=
      ofGroupsAfter_cons used g groups
    · exact hlater _ (heq ▸ h)
    · exact hlater _ (heq ▸ h :)
    · rw [heq] at h
      rcases List.mem_cons.mp h with rfl | h
      · exact ⟨g, List.mem_cons_self, hd⟩
      · exact hlater _ h

/-- What becomes of the companion `c` of the group `g`: it is kept, or it is reported because its
name is in use already or is that of a companion which is kept for one of the groups `before`. -/
def Accounted (used : List (String × Group)) (before : Grouping) (g : Group) (c : Companion)
    (out : List Companion × Report) : Prop :=
  c ∈ out.1 ∨
  ∃ earlier, c.clash earlier g ∈ out.2 ∧
    ((c.qualified, earlier) ∈ used ∨ earlier ∈ before ∧
      ∃ d ∈ out.1, ofGroup? earlier = some d ∧ d.qualified = c.qualified)

/-- More groups in front, companions and findings change nothing about it. -/
theorem Accounted.mono {before before' : Grouping} {out out' : List Companion × Report}
    (h : Accounted used before g c out) (hbefore : before ⊆ before') (hkept : out.1 ⊆ out'.1)
    (hreport : out.2 ⊆ out'.2) : Accounted used before' g c out' := by
  rcases h with hin | ⟨earlier, hclash, hused | ⟨hmem, d, hd, hearlier⟩⟩
  · exact .inl (hkept hin)
  · exact .inr ⟨earlier, hreport hclash, .inl hused⟩
  · exact .inr ⟨earlier, hreport hclash, .inr ⟨hbefore hmem, d, hkept hd, hearlier⟩⟩

/-- A name that came into use with a group whose companion is kept is accounted for by that
group. -/
theorem Accounted.of_claim {a : Group} {d : Companion} {before : Grouping}
    {out : List Companion × Report} (h : Accounted (used ++ [(d.qualified, a)]) before g c out)
    (hd : ofGroup? a = some d) : Accounted used (a :: before) g c (d :: out.1, out.2) := by
  rcases h with hin | ⟨earlier, hclash, hused | ⟨hmem, e, he, hearlier⟩⟩
  · exact .inl (List.mem_cons_of_mem d hin)
  · rcases List.mem_append.mp hused with hused | hnew
    · exact .inr ⟨earlier, hclash, .inl hused⟩
    · obtain ⟨hname, rfl⟩ := Prod.mk.inj (List.mem_singleton.mp hnew)
      exact .inr ⟨earlier, hclash,
        .inr ⟨List.mem_cons_self, d, List.mem_cons_self, hd, hname.symm⟩⟩
  · exact .inr ⟨earlier, hclash,
      .inr ⟨List.mem_cons_of_mem a hmem, e, List.mem_cons_of_mem d he, hearlier⟩⟩

/-- **A companion that is left out is reported.** -/
theorem accounted_ofGroupsAfter (hc : ofGroup? g = some c) (used : List (String × Group))
    (before after : Grouping) :
    Accounted used before g c (ofGroupsAfter used (before ++ g :: after)) := by
  -- by induction on the groups in front of `g`, each of which may bring a name into use
  induction before generalizing used with
  | nil =>
    rw [List.nil_append]
    obtain ⟨hnone, -⟩ | ⟨d, claim, hd, hmem, hname, h⟩ | ⟨d, hd, -, h⟩ :=
      ofGroupsAfter_cons used g after
    · rw [hc] at hnone
      cases hnone
    · obtain rfl : c = d := Option.some.inj (hc.symm.trans hd)
      rw [h]
      exact .inr ⟨claim.2, List.mem_cons_self, .inl (hname ▸ hmem)⟩
    · obtain rfl : c = d := Option.some.inj (hc.symm.trans hd)
      rw [h]
      exact .inl List.mem_cons_self
  | cons a before ih =>
    have hfront : before ⊆ a :: before := List.subset_cons_self a before
    rw [List.cons_append]
    obtain ⟨-, h⟩ | ⟨d, claim, -, -, -, h⟩ | ⟨d, hd, -, h⟩ :=
      ofGroupsAfter_cons used a (before ++ g :: after)
    · rw [h]
      exact (ih used).mono hfront (List.Subset.refl _) (List.Subset.refl _)
    · rw [h]
      exact (ih used).mono hfront (List.Subset.refl _) (List.subset_cons_self _ _)
    · rw [h]
      exact (ih (used ++ [(d.qualified, a)])).of_claim hd

/-! ### From the fields to the companions -/

/-- A companion that is kept binds the list. -/
theorem binds_of_mem (h : c ∈ (ofGroups (Grouping.ofFields fields).1).1) : c.Binds fields := by
  obtain ⟨g, hg, hgc⟩ := exists_group_of_mem h
  exact binds_of_ofGroup? hg hgc

/-- Among companions of different types, one is the only companion of its type. -/
theorem filter_owner_eq_singleton {companions : List Companion}
    (h : (companions.map Companion.owner).Nodup) (hc : c ∈ companions) :
    (companions.filter fun d => d.owner = c.owner) = [c] := by
  induction companions with
  | nil => cases hc
  | cons a as ih =>
    obtain ⟨hnot, hnodup⟩ := List.nodup_cons.mp h
    rcases List.mem_cons.mp hc with rfl | hc
    · -- no companion behind is of the same type
      rw [List.filter_cons_of_pos (by simp), List.filter_eq_nil_iff.mpr]
      intro d hd
      simpa using fun heq : d.owner = c.owner => hnot (heq ▸ List.mem_map_of_mem hd)
    · have hne : a.owner ≠ c.owner := fun heq => hnot (heq ▸ List.mem_map_of_mem hc)
      rw [List.filter_cons_of_neg (by simpa using hne), ih hnodup hc]

/-- A type of the list has one companion, or it comes after one whose companion has the same name
and that is reported. -/
theorem exists_unique_or_clash {type : TypeName} (h : type ∈ fields.map BoundField.owner) :
    let groups := (Grouping.ofFields fields).1
    let companions := (ofGroups groups).1
    (∃ c, companions.filter (fun c => c.owner = type) = [c]) ∨
    companions.filter (fun c => c.owner = type) = [] ∧
      ∃ before later after, groups = before ++ later :: after ∧ later.owner = type ∧
        ∃ earlier ∈ before, ∃ d ∈ companions, ofGroup? earlier = some d ∧
          ∃ c, ofGroup? later = some c ∧ d.qualified = c.qualified ∧
            c.clash earlier later ∈ (ofGroups groups).2 := by
  intro groups companions
  have hnodup : (companions.map Companion.owner).Nodup :=
    (Grouping.nodup_owner_ofFields fields).sublist (map_owner_ofGroupsAfter_sublist [] groups)
  by_cases hkept : ∃ c ∈ companions, c.owner = type
  · obtain ⟨c, hc, rfl⟩ := hkept
    exact .inl ⟨c, filter_owner_eq_singleton hnodup hc⟩
  · have hnone : companions.filter (fun c => c.owner = type) = [] :=
      List.filter_eq_nil_iff.mpr fun c hc => by simpa using fun heq => hkept ⟨c, hc, heq⟩
    obtain ⟨later, hlater, rfl⟩ : ∃ g ∈ groups, g.owner = type := by
      rw [← List.mem_eraseDups, ← Grouping.map_owner_ofFields] at h
      exact List.mem_map.mp h
    obtain ⟨before, after, heq⟩ := List.append_of_mem hlater
    obtain ⟨c, hc⟩ : ∃ c, ofGroup? later = some c :=
      ⟨_, ofGroup?_eq_some_iff.mpr ⟨Grouping.fields_ne_nil_of_mem_ofFields hlater, rfl⟩⟩
    have hmet := accounted_ofGroupsAfter hc [] before after
    rw [← heq] at hmet
    rcases hmet with hin | ⟨earlier, hclash, hused | ⟨hbefore, d, hd, hearlier, hname⟩⟩
    · exact absurd ⟨c, hin, owner_of_ofGroup? hc⟩ hkept
    · cases hused
    · exact .inr ⟨hnone, before, later, after, heq, rfl, earlier, hbefore, d, hd, hearlier, c, hc,
        hname, hclash⟩

/-- **Every type has one companion that binds what the list says, or is reported.** The groups
are the types of the list in the order in which they are met, none of them empty. A companion binds
its type to the last field of each view id. A type without a companion comes after one whose
companion has the same name, and the report says so. -/
theorem ofGroups_ofFields_binds (fields : List BoundField) :
    let groups := (Grouping.ofFields fields).1
    let companions := (ofGroups groups).1
    groups.map Group.owner = (fields.map BoundField.owner).eraseDups ∧
    (∀ g ∈ groups, g.fields ≠ []) ∧
    (∀ c ∈ companions, c.Binds fields) ∧
    ∀ type ∈ fields.map BoundField.owner,
      (∃ c, companions.filter (fun c => c.owner = type) = [c]) ∨
      companions.filter (fun c => c.owner = type) = [] ∧
        ∃ before later after, groups = before ++ later :: after ∧ later.owner = type ∧
          ∃ earlier ∈ before, ∃ d ∈ companions, ofGroup? earlier = some d ∧
            ∃ c, ofGroup? later = some c ∧ d.qualified = c.qualified ∧
              c.clash earlier later ∈ (ofGroups groups).2 := by
  intro groups companions
  exact ⟨Grouping.map_owner_ofFields fields,
    fun g hg => Grouping.fields_ne_nil_of_mem_ofFields hg, fun c hc => binds_of_mem hc,
    fun type htype => exists_unique_or_clash htype⟩

end ViewBinding.Companion
