import ViewBinding.Proofs.Emission.Filling
import ViewBinding.Proofs.Grouping.Collisions
import ViewBinding.Proofs.Scan.Renumbering

/-!
# Fields in another order

The groups of a list of fields come in the order in which their types are met, a later field takes
the place of an earlier one, and of the companions with one name the first is kept. So in general
the companions depend on the order of the fields. They do not if no field has a rival
(`ViewBinding.HasNoRivals`): no two fields have one type and one view id, and no two types share a
companion. Then a group holds the fields of its type and no group is left out, and a list in another
order has the same companions in another order (`ViewBinding.Scan.synthesize_of_sameFields`).

Fields of one type may stand in many sources, between fields of other types. What is compared is
therefore read off a group by membership (`ViewBinding.mem_fields_iff_of_hasNoRivals`); that the
fields of a group ascend makes them a list again.
-/

namespace ViewBinding

open Java Files

variable {fields fields' : List BoundField} {f : BoundField} {g : Group}

/-! ### Rivals -/

/-- **No field has a rival**: simple names have no full stop, two fields of one type have different
view ids, and different types do not share a companion. -/
structure HasNoRivals (fields : List BoundField) : Prop where
  undotted : ∀ f ∈ fields, '.' ∉ f.owner.simple.toList
  ids : fields.Pairwise fun f g => f.owner = g.owner → f.id ≠ g.id
  types : ∀ f ∈ fields, ∀ g ∈ fields, f.owner.SharesCompanion g.owner → f.owner = g.owner

namespace SameFields

theorem symm (h : SameFields fields fields') : SameFields fields' fields :=
  List.Perm.symm h

theorem exists_owner (h : SameFields fields fields') (hf : f ∈ fields) :
    ∃ f' ∈ fields', f'.owner = f.owner := by
  obtain ⟨f', hf', hsame⟩ :=
    List.mem_map.mp ((List.Perm.mem_iff h).mp (List.mem_map_of_mem hf))
  exact ⟨f', hf', by rw [← f'.owner_unplaced, hsame, f.owner_unplaced]⟩

/-- **Rivals do not depend on the order** of the fields, nor on their places. -/
theorem hasNoRivals (h : SameFields fields fields') (hno : HasNoRivals fields) :
    HasNoRivals fields' where
  undotted f' hf' := by
    obtain ⟨f, hf, howner⟩ := h.symm.exists_owner hf'
    exact howner ▸ hno.undotted f hf
  ids := by
    let R (f g : BoundField) : Prop := f.owner = g.owner → f.id ≠ g.id
    have hsymm {f g : BoundField} (hfg : R f g) : R g f := fun howner => (hfg howner.symm).symm
    have hunplaced (fields : List BoundField) :
        (fields.map BoundField.unplaced).Pairwise R ↔ fields.Pairwise R := List.pairwise_map
    have hids : (fields.map BoundField.unplaced).Pairwise R := (hunplaced fields).mpr hno.ids
    exact (hunplaced fields').mp ((List.Perm.pairwise_iff hsymm h).mp hids)
  types f' hf' g' hg' hshares := by
    obtain ⟨f, hf, hfowner⟩ := h.symm.exists_owner hf'
    obtain ⟨g, hg, hgowner⟩ := h.symm.exists_owner hg'
    rw [← hfowner, ← hgowner] at hshares ⊢
    exact hno.types f hf g hg hshares

end SameFields

/-! ### Groups -/

/-- Without rivals a field is the last of its type and view id wherever it stands. -/
theorem Grouping.lastOf_iff_of_hasNoRivals (hno : HasNoRivals fields) {owner : TypeName} :
    LastOf fields owner f.id f ↔ f ∈ fields ∧ f.owner = owner := by
  constructor
  · rintro ⟨before, after, rfl, howner, -, -⟩
    exact ⟨by simp, howner⟩
  · rintro ⟨hf, rfl⟩
    obtain ⟨before, after, rfl⟩ := List.append_of_mem hf
    have hafter := (List.pairwise_cons.mp (List.pairwise_append.mp hno.ids).2.1).1
    exact ⟨before, after, rfl, rfl, rfl, fun g hg howner => (hafter g hg howner.symm).symm⟩

/-- **Without rivals a group holds the fields of its type.** -/
theorem mem_fields_iff_of_hasNoRivals (hno : HasNoRivals fields)
    (hg : g ∈ (Grouping.ofFields fields).1) : f ∈ g.fields ↔ f ∈ fields ∧ f.owner = g.owner := by
  rw [Grouping.mem_fields_ofFields_iff hg, Grouping.lastOf_iff_of_hasNoRivals hno]

theorem mem_owners_ofFields {owner : TypeName} :
    (∃ g ∈ (Grouping.ofFields fields).1, g.owner = owner) ↔ ∃ f ∈ fields, f.owner = owner := by
  rw [← List.mem_map, ← List.mem_map, Grouping.map_owner_ofFields, List.mem_eraseDups]

/-- **Without rivals no field takes the place of another.** -/
theorem report_ofFields_of_hasNoRivals (hno : HasNoRivals fields) :
    (Grouping.ofFields fields).2 = [] := by
  have hnone : Grouping.collisions fields = [] := by
    refine List.eq_nil_iff_forall_not_mem.mpr fun c hc => ?_
    obtain ⟨before, after, hall, -, first, rest, rfl, howner, hid, -⟩ :=
      Grouping.mem_collisions_iff.mp hc
    have hids := hno.ids
    rw [hall] at hids
    exact (List.pairwise_append.mp hids).2.2 c.displaced (by simp) c.field (by simp) howner hid
  have hreport : (Grouping.ofFields fields).2 =
      (Grouping.collisions fields).map Collision.finding :=
    Grouping.report_insertAll fun owner id => rfl
  rw [hreport, hnone, List.map_nil]

/-- The fields of a type are in one order, that of their view ids. -/
theorem map_unplaced_eq_of_sameFields (h : SameFields fields fields') (hno : HasNoRivals fields)
    {g' : Group} (hg : g ∈ (Grouping.ofFields fields).1)
    (hg' : g' ∈ (Grouping.ofFields fields').1) (howner : g'.owner = g.owner) :
    g'.fields.map BoundField.unplaced = g.fields.map BoundField.unplaced := by
  have hmem {fields : List BoundField} {g : Group} (hno : HasNoRivals fields)
      (hg : g ∈ (Grouping.ofFields fields).1) (u : BoundField) :
      u ∈ g.fields.map BoundField.unplaced ↔
        u ∈ fields.map BoundField.unplaced ∧ u.owner = g.owner := by
    constructor
    · intro hu
      obtain ⟨f, hf, rfl⟩ := List.mem_map.mp hu
      obtain ⟨hf, howner⟩ := (mem_fields_iff_of_hasNoRivals hno hg).mp hf
      exact ⟨List.mem_map_of_mem hf, howner⟩
    · rintro ⟨hu, howner⟩
      obtain ⟨f, hf, rfl⟩ := List.mem_map.mp hu
      exact List.mem_map_of_mem ((mem_fields_iff_of_hasNoRivals hno hg).mpr ⟨hf, howner⟩)
  have hascending (g : Group) :
      (g.fields.map BoundField.unplaced).Pairwise fun f g => f.id < g.id :=
    List.pairwise_map.mpr g.ascending
  have hnodup (g : Group) : (g.fields.map BoundField.unplaced).Nodup :=
    (hascending g).imp fun hlt heq => Int32.ne_of_lt hlt (congrArg BoundField.id heq)
  have hperm : (g'.fields.map BoundField.unplaced).Perm (g.fields.map BoundField.unplaced) := by
    refine (List.perm_ext_iff_of_nodup (hnodup g') (hnodup g)).mpr fun u => ?_
    rw [hmem (h.hasNoRivals hno) hg', hmem hno hg, howner, List.Perm.mem_iff h]
  refine hperm.eq_of_pairwise (fun a b _ _ hab hba => ?_) (hascending g') (hascending g)
  exact (Int32.lt_irrefl (Int32.lt_trans hab hba)).elim

/-! ### Companions -/

namespace Companion

variable {c : Companion}

theorem importsOf_unplaced (package : String) (fields : List BoundField) :
    importsOf package (fields.map BoundField.unplaced) = importsOf package fields := by
  rw [importsOf, importsOf, List.flatMap_map]
  rfl

/-- **The companion of a group has nothing of the places of the fields.** -/
theorem ofGroup?_congr {g g' : Group} (howner : g'.owner = g.owner)
    (hfields : g'.fields.map BoundField.unplaced = g.fields.map BoundField.unplaced) :
    ofGroup? g' = ofGroup? g := by
  have hstatements (g : Group) (target : String) : g.fields.map (Group.assignment target) =
      (g.fields.map BoundField.unplaced).map (Group.assignment target) := by
    rw [List.map_map]
    rfl
  have hnil (g : Group) : g.fields ≠ [] ↔ g.fields.map BoundField.unplaced ≠ [] := by simp
  ext c
  rw [ofGroup?_eq_some_iff, ofGroup?_eq_some_iff, hnil g', hnil g, hstatements g',
    hstatements g, ← importsOf_unplaced _ g'.fields, ← importsOf_unplaced _ g.fields, hfields,
    howner]

/-- Groups of types that do not share a companion report nothing. -/
theorem report_ofGroups_eq_nil {groups : Grouping} (hfields : ∀ g ∈ groups, g.fields ≠ [])
    (hdots : ∀ g ∈ groups, '.' ∉ g.owner.simple.toList)
    (hnodup : (groups.map Group.owner).Nodup)
    (htypes : ∀ g ∈ groups, ∀ h ∈ groups, g.owner.SharesCompanion h.owner → g.owner = h.owner) :
    (ofGroups groups).2 = [] := by
  obtain ⟨kept, left, hsettled⟩ := ofGroupsAfter_settled inUse_nil hfields hdots
  have hleft : left = [] := by
    refine List.eq_nil_iff_forall_not_mem.mpr fun g hg => ?_
    obtain ⟨front, back, hall, h, hh, hshares⟩ := hsettled.later g hg
    rw [List.nil_append] at hall
    have heq := htypes h (by simp [hall, hh]) g (by simp [hall]) hshares
    rw [hall, List.map_append, List.map_cons] at hnodup
    exact (List.nodup_append.mp hnodup).2.2 _ (List.mem_map_of_mem hh) _ List.mem_cons_self heq
  have hclashes := hsettled.clashes
  rw [hleft] at hclashes
  exact List.forall₂_nil_left_iff.mp hclashes

/-- Where nothing is reported every group has its companion. -/
theorem mem_ofGroups_iff {groups : Grouping} (hreport : (ofGroups groups).2 = []) :
    c ∈ (ofGroups groups).1 ↔ ∃ g ∈ groups, ofGroup? g = some c := by
  refine ⟨exists_group_of_mem, ?_⟩
  rintro ⟨g, hg, hc⟩
  obtain ⟨before, after, rfl⟩ := List.append_of_mem hg
  rcases accounted_ofGroupsAfter hc [] before after with hin | ⟨earlier, hclash, -⟩
  · exact hin
  · rw [← ofGroups, hreport] at hclash
    cases hclash

/-- The companions of groups of different types are different. -/
theorem nodup_ofGroups {groups : Grouping} (h : (groups.map Group.owner).Nodup) :
    (ofGroups groups).1.Nodup :=
  (h.sublist (map_owner_ofGroupsAfter_sublist [] groups)).of_map

end Companion

/-! ### Emission -/

/-- Writes down which text is to be stored at which path. -/
def record : Store (StateM (List (Path × String))) := fun c text => do
  modify (· ++ [(c.path, text)])
  return .ok c.path

theorem emit_record (l : Layout) (companions : List Companion) (written : List (Path × String)) :
    emit record l companions written =
      (.ok (companions.map Companion.path),
        written ++ companions.map fun c => (c.path, c.render l)) := by
  induction companions generalizing written with
  | nil => simp [emit, pure, StateT.pure]
  | cons c companions ih =>
    have hstore : record c (c.render l) written =
        (.ok c.path, written ++ [(c.path, c.render l)]) := rfl
    rw [emit_cons_of_ok hstore, ih]
    simp [Except.map]

/-! ### Rounds -/

namespace Scan

open Companion

variable {s t : Scan}

/-- **Without rivals nothing is reported** of the fields. -/
theorem report_synthesize_of_hasNoRivals (hno : HasNoRivals s.fields) :
    s.synthesize.report = s.report ∧ (ofGroups (Grouping.ofFields s.fields).1).2 = [] := by
  have howner {g : Group} (hg : g ∈ (Grouping.ofFields s.fields).1) :
      ∃ f ∈ s.fields, f.owner = g.owner := mem_owners_ofFields.mp ⟨g, hg, rfl⟩
  have hclashes : (ofGroups (Grouping.ofFields s.fields).1).2 = [] := by
    refine report_ofGroups_eq_nil (fun g hg => Grouping.fields_ne_nil_of_mem_ofFields hg)
      (fun g hg => ?_) (Grouping.nodup_owner_ofFields _) fun g hg h hh hshares => ?_
    · obtain ⟨f, hf, hfg⟩ := howner hg
      exact hfg ▸ hno.undotted f hf
    · obtain ⟨f, hf, hfg⟩ := howner hg
      obtain ⟨e, he, heh⟩ := howner hh
      rw [← hfg, ← heh] at hshares ⊢
      exact hno.types f hf e he hshares
  refine ⟨?_, hclashes⟩
  change s.report ++ (Grouping.ofFields s.fields).2 ++ _ = s.report
  rw [report_ofFields_of_hasNoRivals hno, List.append_nil]
  exact (congrArg (s.report ++ ·) hclashes).trans (List.append_nil _)

/-- A companion of the one round is one of the other. -/
theorem mem_companions_of_sameFields (hsame : SameFields s.fields t.fields)
    (hno : HasNoRivals s.fields) {c : Companion} (hc : c ∈ s.synthesize.companions) :
    c ∈ t.synthesize.companions := by
  have hreport := (report_synthesize_of_hasNoRivals (hsame.hasNoRivals hno)).2
  obtain ⟨g, hg, hgc⟩ := exists_group_of_mem hc
  obtain ⟨f, hf, hfg⟩ := mem_owners_ofFields.mp ⟨g, hg, rfl⟩
  obtain ⟨f', hf', hff'⟩ := hsame.exists_owner hf
  obtain ⟨g', hg', hgg'⟩ := mem_owners_ofFields.mpr ⟨f', hf', hff'.trans hfg⟩
  refine (mem_ofGroups_iff hreport).mpr ⟨g', hg', ?_⟩
  rw [ofGroup?_congr hgg' (map_unplaced_eq_of_sameFields hsame hno hg hg' hgg'), hgc]

/-- **Without rivals the order of the fields does not matter.** Nothing is reported of them, and a
scan with the same fields in another order, at whatever places, has the same companions in another
order. So the same texts are emitted to the same paths; in memory too, if the names of the
companions are legal. The same sources and manifests in another order have the same fields. -/
theorem synthesize_of_sameFields (hno : HasNoRivals s.fields) :
    s.synthesize.report = s.report ∧
    (∀ t : Scan, SameFields s.fields t.fields →
      t.synthesize.report = t.report ∧
      s.synthesize.companions.Perm t.synthesize.companions ∧
      ∀ l : Layout,
        (emit record l s.synthesize.companions []).2.Perm
          (emit record l t.synthesize.companions []).2 ∧
        ((∀ c ∈ s.synthesize.companions, c.IsLegal) →
          (emit Shelf.store l s.synthesize.companions []).2.Perm
            (emit Shelf.store l t.synthesize.companions []).2)) ∧
    ∀ sources sources' manifests manifests' : Sources, ∀ strict strict' : Bool,
      scan sources manifests strict = .ok s → sources.Perm sources' →
        manifests.Perm manifests' →
          ∃ t, scan sources' manifests' strict' = .ok t ∧ SameFields s.fields t.fields := by
  refine ⟨(report_synthesize_of_hasNoRivals hno).1, fun t hsame => ?_, ?_⟩
  · have hno' := hsame.hasNoRivals hno
    have hnodup (s : Scan) : s.synthesize.companions.Nodup :=
      nodup_ofGroups (Grouping.nodup_owner_ofFields s.fields)
    have hperm : s.synthesize.companions.Perm t.synthesize.companions :=
      (List.perm_ext_iff_of_nodup (hnodup s) (hnodup t)).mpr fun c =>
        ⟨mem_companions_of_sameFields hsame hno, mem_companions_of_sameFields hsame.symm hno'⟩
    refine ⟨(report_synthesize_of_hasNoRivals hno').1, hperm, fun l => ⟨?_, fun hlegal => ?_⟩⟩
    · rw [emit_record, emit_record]
      exact hperm.map _
    · -- no companion takes the place of another one, so that memory holds what is recorded
      have hshelf (s : Scan) (hlegal : ∀ c ∈ s.synthesize.companions, c.IsLegal) :
          (emit Shelf.store l s.synthesize.companions []).2 =
            s.synthesize.companions.map fun c => (c.path, c.render l) := by
        have hapart : s.synthesize.companions.Pairwise KeepApart :=
          (pairwise_pathNames_ne hlegal (nodup_qualified_ofGroupsAfter [] _).2).imp_of_mem
            fun hc hd => keepApart_of_pathNames_ne (hlegal _ hc) (hlegal _ hd)
        rw [emit_shelf, Shelf.putAll_of_pairwise l [] (by simp)
          (hapart.imp same_eq_false_of_keepApart), List.nil_append]
      rw [hshelf s hlegal, hshelf t fun c hc => hlegal c (hperm.mem_iff.mpr hc)]
      exact hperm.map _
  · intro sources sources' manifests manifests' strict strict' h hsources hmanifests
    exact sameFields_of_perm h hsources hmanifests strict'

/-- Two types whose fields stand in two sources each, in either order of the sources. -/
theorem synthesize_of_sameFields_two :
    let first : Source := ⟨.inline,
      "class A \x7b @BindView(2) View b; \x7d class B \x7b @BindView(1) View c; \x7d"⟩
    let second : Source := ⟨.inline,
      "class B \x7b @BindView(2) View d; \x7d class A \x7b @BindView(1) View a; \x7d"⟩
    ∃ s t, scan [first, second] [] false = .ok s ∧ scan [second, first] [] true = .ok t ∧
      HasNoRivals s.fields ∧ s.fields.map BoundField.name = ["b", "c", "d", "a"] ∧
      s.synthesize.companions.map (fun c => c.method.statements.map Assignment.field) =
        [["a", "b"], ["c", "d"]] ∧
      s.synthesize.companions.Perm t.synthesize.companions := by
  intro first second
  let s : Scan := ⟨[first, second], (allBindings [first, second]).fields ++ [],
    (allBindings [first, second]).report ++ [], false⟩
  obtain ⟨hundotted, hids, htypes, hnames, hstatements⟩ :
      (∀ f ∈ s.fields, '.' ∉ f.owner.simple.toList) ∧
      s.fields.Pairwise (fun f g => f.owner = g.owner → f.id ≠ g.id) ∧
      (∀ f ∈ s.fields, ∀ g ∈ s.fields,
        f.owner.package = g.owner.package ∧ f.owner.simple = g.owner.simple →
          f.owner = g.owner) ∧
      s.fields.map BoundField.name = ["b", "c", "d", "a"] ∧
      s.synthesize.companions.map (fun c => c.method.statements.map Assignment.field) =
        [["a", "b"], ["c", "d"]] := by
    decide +kernel
  have hno : HasNoRivals s.fields := ⟨hundotted, hids, htypes⟩
  obtain ⟨-, hsame, hscan⟩ := synthesize_of_sameFields hno
  obtain ⟨t, ht, hfields⟩ :=
    hscan [first, second] [second, first] [] [] false true rfl (.swap _ _ _) (.refl _)
  exact ⟨s, t, rfl, ht, hno, hnames, hstatements, (hsame t hfields).2.1⟩

end Scan

end ViewBinding
