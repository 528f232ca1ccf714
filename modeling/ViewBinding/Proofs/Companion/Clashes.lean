import ViewBinding.Proofs.Companion.PerType
import ViewBinding.Proofs.Round.Verdict

/-!
# Which companions are left out

The companion of a type is named after its package and its simple name alone, so types that are
nested in different ways may have companions of one name
(`ViewBinding.Java.TypeName.SharesCompanion`). The names in use are kept as joined texts. As long as
simple names have no full stop, such a text can be taken apart again
(`ViewBinding.Companion.qualified_eq_iff`), and a name is in use exactly if an earlier group has the
package and the simple name.

Each group is settled in turn: either it is the first with its package and simple name and its
companion is kept, or it is left out and reported, together with the first one
(`ViewBinding.Companion.ofGroupsAfter_settled`). Nothing else becomes of a group
(`ViewBinding.Scan.synthesize_keeps_first`).
-/

namespace ViewBinding

open Java Text

/-! ### Types that share a companion -/

/-- **Two types share a companion** if they stand in one package and have one simple name. -/
def Java.TypeName.SharesCompanion (s t : TypeName) : Prop :=
  s.package = t.package ∧ s.simple = t.simple

theorem Java.TypeName.SharesCompanion.trans {s t u : TypeName} (h : s.SharesCompanion t)
    (h' : t.SharesCompanion u) : s.SharesCompanion u :=
  ⟨h.1.trans h'.1, h.2.trans h'.2⟩

namespace Companion

variable {c d : Companion} {g earlier : Group} {before rest : Grouping}
  {used : List (String × Group)}

/-! ### Qualified names -/

/-- The last segment of a qualified name is the name of the class, and the others are the
package. -/
theorem segments_qualified (h : '.' ∉ c.name.toList) :
    segments c.qualified = (if c.package = "" then [] else segments c.package) ++ [c.name] := by
  have hname : pieces '.' c.name.toList = [c.name.toList] := pieces_of_not_mem h
  rw [qualified]
  split
  · simp [segments, hname]
  · have hjoined : (c.package ++ "." ++ c.name).toList =
        c.package.toList ++ '.' :: c.name.toList := by simp
    rw [segments, hjoined, pieces_append, hname, List.map_append]
    simp [segments]

/-- **A qualified name can be taken apart**: it belongs to one package and one name without full
stops. -/
theorem qualified_eq_iff (hc : '.' ∉ c.name.toList) (hd : '.' ∉ d.name.toList) :
    c.qualified = d.qualified ↔ c.package = d.package ∧ c.name = d.name := by
  constructor
  · intro h
    have hsegments := congrArg segments h
    rw [segments_qualified hc, segments_qualified hd] at hsegments
    obtain ⟨hfront, hlast⟩ := List.append_inj' hsegments rfl
    refine ⟨?_, List.cons.inj hlast |>.1⟩
    -- only the default package has no segments
    split at hfront <;> split at hfront
    · rename_i hcp hdp
      rw [hcp, hdp]
    · exact absurd hfront.symm (segments_ne_nil _)
    · exact absurd hfront (segments_ne_nil _)
    · rw [← dotted_segments c.package, hfront, dotted_segments]
  · rintro ⟨hpackage, hname⟩
    rw [qualified, qualified, hpackage, hname]

/-- The companions of two types have one name exactly if the types share a companion. -/
theorem qualified_eq_iff_sharesCompanion {h : Group} (hc : ofGroup? g = some c)
    (hd : ofGroup? h = some d) (hg : '.' ∉ g.owner.simple.toList)
    (hh : '.' ∉ h.owner.simple.toList) :
    c.qualified = d.qualified ↔ g.owner.SharesCompanion h.owner := by
  have hdot {simple : String} (h : '.' ∉ simple.toList) :
      '.' ∉ (companionName simple).toList := by
    simpa [companionName] using h
  obtain ⟨-, rfl⟩ := ofGroup?_eq_some_iff.mp hc
  obtain ⟨-, rfl⟩ := ofGroup?_eq_some_iff.mp hd
  rw [qualified_eq_iff (hdot hg) (hdot hh)]
  exact and_congr_right fun _ => ⟨fun h => companionName_injective h, fun h => by rw [h]⟩

/-! ### The finding on a companion that is left out -/

/-- **The finding reports a clash**: it is an error that names the companion and both types, stands
where the later one is bound, and refers to the place where the earlier one is. -/
structure IsClash (c : Companion) (earlier later : Group) (x : Finding) : Prop where
  problem : x.problem = .duplicateGeneratedType
  severity : x.severity = .error
  message : x.message = "`" ++ c.qualified ++ "` would be generated for both `"
    ++ earlier.owner.relative ++ "` and `" ++ later.owner.relative ++ "`"
  place : x.place = later.place?
  related : x.related = (earlier.place?.map fun place =>
    ⟨"`" ++ earlier.owner.relative ++ "` is bound here", place⟩).toList

theorem isClash_clash (c : Companion) (earlier later : Group) :
    c.IsClash earlier later (c.clash earlier later) where
  problem := rfl
  severity := rfl
  message := by simp [clash, Finding.of, Problem.message, Problem.frame]
  place := rfl
  related := rfl

end Companion

/-! ### First groups -/

/-- **The group is the first** with its package and simple name: no group before it shares its
companion. -/
def Grouping.IsFirst (groups : Grouping) (g : Group) : Prop :=
  ∃ before after, groups = before ++ g :: after ∧
    ∀ h ∈ before, ¬h.owner.SharesCompanion g.owner

namespace Grouping.IsFirst

variable {groups : Grouping} {g : Group}

theorem mem (h : IsFirst groups g) : g ∈ groups := by
  obtain ⟨before, after, rfl, -⟩ := h
  simp

/-- A group stays the first when others follow. -/
theorem append (h : IsFirst groups g) (more : Grouping) : IsFirst (groups ++ more) g := by
  obtain ⟨before, after, rfl, hbefore⟩ := h
  exact ⟨before, after ++ more, by simp, hbefore⟩

/-- Among different groups it does not matter how a group is found. -/
theorem iff_of_nodup {before after : Grouping} (hnodup : (before ++ g :: after).Nodup) :
    IsFirst (before ++ g :: after) g ↔ ∀ h ∈ before, ¬h.owner.SharesCompanion g.owner := by
  refine ⟨?_, fun h => ⟨before, after, rfl, h⟩⟩
  rintro ⟨front, back, heq, hfront⟩
  have hsplit := List.nodup_middle.mp hnodup
  obtain ⟨hbefore, hafter⟩ : g ∉ before ∧ g ∉ after := by
    simpa using (List.nodup_cons.mp hsplit).1
  -- a group that stands only once stands where it was found
  obtain ⟨hsame, -, -⟩ := (List.append_cons_inj_of_notMem hbefore hafter).mp heq
  rw [hsame]
  exact hfront

end Grouping.IsFirst

namespace Companion

variable {c : Companion} {g : Group} {before rest kept left : Grouping}
  {used : List (String × Group)} {out : List Companion × Report}

/-! ### Names in use -/

/-- **The names in use are those of the first groups**, and every group met before shares its
companion with one that has its name in use. -/
structure InUse (before : Grouping) (used : List (String × Group)) : Prop where
  first : ∀ claim ∈ used, Grouping.IsFirst before claim.2 ∧
    ∃ c, ofGroup? claim.2 = some c ∧ claim.1 = c.qualified
  covers : ∀ h ∈ before, ∃ claim ∈ used, claim.2.owner.SharesCompanion h.owner

theorem inUse_nil : InUse [] [] :=
  ⟨fun _ h => (List.not_mem_nil h).elim, fun _ h => (List.not_mem_nil h).elim⟩

/-- A group that is left out brings no name into use. -/
theorem InUse.leave (h : InUse before used) {claim : String × Group} (hclaim : claim ∈ used)
    (hshares : claim.2.owner.SharesCompanion g.owner) : InUse (before ++ [g]) used := by
  refine ⟨fun a ha => ⟨(h.first a ha).1.append [g], (h.first a ha).2⟩, fun b hb => ?_⟩
  rcases List.mem_append.mp hb with hb | hb
  · exact h.covers b hb
  · rw [List.mem_singleton.mp hb]
    exact ⟨claim, hclaim, hshares⟩

/-- A group that is kept brings the name of its companion into use. -/
theorem InUse.keep (h : InUse before used) (hc : ofGroup? g = some c)
    (hnew : ∀ b ∈ before, ¬b.owner.SharesCompanion g.owner) :
    InUse (before ++ [g]) (used ++ [(c.qualified, g)]) := by
  constructor
  · intro a ha
    rcases List.mem_append.mp ha with ha | ha
    · exact ⟨(h.first a ha).1.append [g], (h.first a ha).2⟩
    · rw [List.mem_singleton.mp ha]
      exact ⟨⟨before, [], rfl, hnew⟩, c, hc, rfl⟩
  · intro b hb
    rcases List.mem_append.mp hb with hb | hb
    · obtain ⟨claim, hclaim, hshares⟩ := h.covers b hb
      exact ⟨claim, List.mem_append_left _ hclaim, hshares⟩
    · rw [List.mem_singleton.mp hb]
      exact ⟨(c.qualified, g), by simp, rfl, rfl⟩

/-! ### Group by group -/

/-- What becomes of the groups `rest` that follow the groups `before`: each is either the first with
its package and simple name, and its companion is kept, or it comes after such a group, and the
clash of the two is reported. -/
structure Settled (before rest kept left : Grouping) (out : List Companion × Report) : Prop where
  kept_sublist : kept.Sublist rest
  left_sublist : left.Sublist rest
  perm : (kept ++ left).Perm rest
  first : ∀ g ∈ kept, Grouping.IsFirst (before ++ rest) g
  later : ∀ g ∈ left, ∃ front back, before ++ rest = front ++ g :: back ∧
    ∃ h ∈ front, h.owner.SharesCompanion g.owner
  companions : List.Forall₂ (fun g c => ofGroup? g = some c) kept out.1
  clashes : List.Forall₂ (fun g x => ∃ earlier c, Grouping.IsFirst (before ++ rest) earlier ∧
    earlier.owner.SharesCompanion g.owner ∧ ofGroup? g = some c ∧ c.IsClash earlier g x)
    left out.2

theorem settled_nil (before : Grouping) : Settled before [] [] [] ([], []) :=
  ⟨.slnil, .slnil, .refl _, fun _ h => (List.not_mem_nil h).elim,
    fun _ h => (List.not_mem_nil h).elim, .nil, .nil⟩

theorem Settled.keep (h : Settled (before ++ [g]) rest kept left out) (hc : ofGroup? g = some c)
    (hnew : ∀ b ∈ before, ¬b.owner.SharesCompanion g.owner) :
    Settled before (g :: rest) (g :: kept) left (c :: out.1, out.2) := by
  have hall : before ++ g :: rest = before ++ [g] ++ rest := by simp
  refine ⟨h.kept_sublist.cons_cons g, h.left_sublist.cons g, h.perm.cons g, ?_, ?_,
    .cons hc h.companions, ?_⟩
  · intro a ha
    rcases List.mem_cons.mp ha with rfl | ha
    · exact ⟨before, rest, rfl, hnew⟩
    · rw [hall]
      exact h.first a ha
  · rw [hall]
    exact h.later
  · rw [hall]
    exact h.clashes

theorem Settled.leave (h : Settled (before ++ [g]) rest kept left out) (hc : ofGroup? g = some c)
    (hfirst : Grouping.IsFirst before earlier)
    (hshares : earlier.owner.SharesCompanion g.owner) :
    Settled before (g :: rest) kept (g :: left) (out.1, c.clash earlier g :: out.2) := by
  have hall : before ++ g :: rest = before ++ [g] ++ rest := by simp
  refine ⟨h.kept_sublist.cons g, h.left_sublist.cons_cons g,
    List.perm_middle.trans (h.perm.cons g), ?_, ?_, h.companions, .cons ?_ ?_⟩
  · rw [hall]
    exact h.first
  · intro a ha
    rcases List.mem_cons.mp ha with rfl | ha
    · exact ⟨before, rest, rfl, earlier, hfirst.mem, hshares⟩
    · rw [hall]
      exact h.later a ha
  · exact ⟨earlier, c, hfirst.append (g :: rest), hshares, hc, isClash_clash c earlier g⟩
  · rw [hall]
    exact h.clashes

/-- **Every group is settled.** -/
theorem ofGroupsAfter_settled (hused : InUse before used) (hfields : ∀ g ∈ rest, g.fields ≠ [])
    (hdots : ∀ g ∈ before ++ rest, '.' ∉ g.owner.simple.toList) :
    ∃ kept left, Settled before rest kept left (ofGroupsAfter used rest) := by
  -- by induction on the groups to come; the names in use are settled by those before
  induction rest generalizing before used with
  | nil => exact ⟨[], [], settled_nil before⟩
  | cons g rest ih =>
    obtain ⟨hg, hrest⟩ := List.forall_mem_cons.mp hfields
    have hdots' : ∀ a ∈ before ++ [g] ++ rest, '.' ∉ a.owner.simple.toList := by
      simpa using hdots
    have hgdot : '.' ∉ g.owner.simple.toList := hdots g (by simp)
    have hshares_iff {claim : String × Group} {c : Companion} (hclaim : claim ∈ used)
        (hc : ofGroup? g = some c) :
        claim.1 = c.qualified ↔ claim.2.owner.SharesCompanion g.owner := by
      obtain ⟨hfirst, d, hd, hname⟩ := hused.first claim hclaim
      have hdot := hdots claim.2 (List.mem_append_left _ hfirst.mem)
      rw [hname, qualified_eq_iff_sharesCompanion hd hc hdot hgdot]
    obtain ⟨hnone, -⟩ | ⟨c, claim, hc, hclaim, hname, h⟩ | ⟨c, hc, hfree, h⟩ :=
      ofGroupsAfter_cons used g rest
    · have hsome := ofGroup?_eq_some_iff.mpr ⟨hg, rfl⟩
      rw [hnone] at hsome
      cases hsome
    · have hshares := (hshares_iff hclaim hc).mp hname
      obtain ⟨kept, left, hsettled⟩ := ih (hused.leave hclaim hshares) hrest hdots'
      rw [h]
      exact ⟨kept, g :: left, hsettled.leave hc (hused.first claim hclaim).1 hshares⟩
    · have hnew : ∀ b ∈ before, ¬b.owner.SharesCompanion g.owner := by
        intro b hb hbg
        obtain ⟨claim, hclaim, hshares⟩ := hused.covers b hb
        exact hfree claim hclaim ((hshares_iff hclaim hc).mpr (hshares.trans hbg))
      obtain ⟨kept, left, hsettled⟩ := ih (hused.keep hc hnew) hrest hdots'
      rw [h]
      exact ⟨g :: kept, left, hsettled.keep hc hnew⟩

/-- No companion that is kept has a name that is in use or that of another one. -/
theorem nodup_qualified_ofGroupsAfter (used : List (String × Group)) (groups : Grouping) :
    (∀ c ∈ (ofGroupsAfter used groups).1, ∀ claim ∈ used, claim.1 ≠ c.qualified) ∧
      ((ofGroupsAfter used groups).1.map qualified).Nodup := by
  induction groups generalizing used with
  | nil => exact ⟨fun _ h => (List.not_mem_nil h).elim, List.nodup_nil⟩
  | cons g groups ih =>
    obtain ⟨-, h⟩ | ⟨c, claim, -, -, -, h⟩ | ⟨c, -, hfree, h⟩ := ofGroupsAfter_cons used g groups
    · rw [h]
      exact ih used
    · rw [h]
      exact ih used
    · obtain ⟨hnames, hnodup⟩ := ih (used ++ [(c.qualified, g)])
      rw [h]
      constructor
      · intro d hd claim hclaim
        rcases List.mem_cons.mp hd with rfl | hd
        · exact hfree claim hclaim
        · exact hnames d hd claim (List.mem_append_left _ hclaim)
      · rw [List.map_cons, List.nodup_cons]
        refine ⟨fun hmem => ?_, hnodup⟩
        obtain ⟨d, hd, hname⟩ := List.mem_map.mp hmem
        exact hnames d hd (c.qualified, g) (by simp) hname.symm

end Companion

/-! ### All groups of a round -/

namespace Scan

open Companion

variable {s : Scan}

/-- A round without errors reports no clash. -/
theorem clashes_eq_nil {left : Grouping} {R : Group → Finding → Prop}
    (hreport : s.synthesize.report.hasErrors = false)
    (hleft : List.Forall₂ R left (ofGroups s.synthesize.groups).2)
    (hR : ∀ g x, R g x → x.severity = .error) : left = [] := by
  have hclashes : (ofGroups s.synthesize.groups).2.hasErrors = false := by
    rw [report_synthesize, added, Report.hasErrors_append, Report.hasErrors_append] at hreport
    exact (Bool.or_eq_false_iff.mp (Bool.or_eq_false_iff.mp hreport).2).2
  generalize (ofGroups s.synthesize.groups).2 = clashes at hleft hclashes
  cases hleft with
  | nil => rfl
  | cons hx _ =>
    have herror := hR _ _ hx
    simp [Report.hasErrors, Finding.isError, herror] at hclashes

/-- **Of the groups with one package and simple name the first is kept, and every other one is
reported together with it.** The companions are those of the groups that come first, in the order
of the groups, and have different qualified names. The groups that are left out are reported one by
one and in order, each by one error on itself and the one that is kept. Nothing else is reported,
so there are as many companions and errors as groups; and a round without errors has a companion
for every type. -/
theorem synthesize_keeps_first (s : Scan)
    (hdots : ∀ g ∈ s.synthesize.groups, '.' ∉ g.owner.simple.toList) :
    let groups := s.synthesize.groups
    let companions := s.synthesize.companions
    let clashes := (ofGroups groups).2
    ∃ kept left : Grouping,
      kept.Sublist groups ∧ left.Sublist groups ∧ (kept ++ left).Perm groups ∧
      (∀ before g after, groups = before ++ g :: after →
        (g ∈ kept ↔ ∀ h ∈ before, ¬h.owner.SharesCompanion g.owner)) ∧
      List.Forall₂ (fun g c => ofGroup? g = some c) kept companions ∧
      (companions.map qualified).Nodup ∧
      List.Forall₂ (fun g x => ∃ earlier ∈ kept, ∃ c, earlier.owner.SharesCompanion g.owner ∧
        ofGroup? g = some c ∧ c.IsClash earlier g x) left clashes ∧
      companions.length + clashes.length = groups.length ∧
      (s.synthesize.report.hasErrors = false →
        companions.map Companion.owner = groups.map Group.owner) := by
  intro groups companions clashes
  have hnodup : groups.Nodup := List.Nodup.of_map _ (Grouping.nodup_owner_ofFields s.fields)
  have hfields : ∀ g ∈ groups, g.fields ≠ [] :=
    fun g hg => Grouping.fields_ne_nil_of_mem_ofFields hg
  obtain ⟨kept, left, hsettled⟩ :
      ∃ kept left, Settled [] groups kept left (ofGroups groups) :=
    ofGroupsAfter_settled inUse_nil hfields hdots
  -- a group that is left has an earlier one that shares its companion, so it is not the first
  have hkept : ∀ g, g ∈ kept ↔ Grouping.IsFirst groups g := by
    intro g
    refine ⟨hsettled.first g, fun hfirst => ?_⟩
    rcases List.mem_append.mp (hsettled.perm.mem_iff.mpr hfirst.mem) with hg | hg
    · exact hg
    · obtain ⟨front, back, heq, h, hh, hshares⟩ := hsettled.later g hg
      have heq : groups = front ++ g :: back := heq
      rw [heq] at hnodup hfirst
      exact absurd hshares ((Grouping.IsFirst.iff_of_nodup hnodup).mp hfirst h hh)
  have howners (h : List.Forall₂ (fun g c => ofGroup? g = some c) kept companions) :
      companions.map Companion.owner = kept.map Group.owner := by
    rw [← List.forall₂_eq_eq_eq, List.forall₂_map_left_iff, List.forall₂_map_right_iff]
    exact (h.imp fun g c hc => owner_of_ofGroup? hc).flip
  refine ⟨kept, left, hsettled.kept_sublist, hsettled.left_sublist, hsettled.perm, ?_,
    hsettled.companions, (nodup_qualified_ofGroupsAfter [] groups).2, ?_, ?_, ?_⟩
  · intro before g after heq
    rw [hkept, heq]
    exact Grouping.IsFirst.iff_of_nodup (heq ▸ hnodup)
  · refine hsettled.clashes.imp fun g x => ?_
    rintro ⟨earlier, c, hfirst, hshares, hc, hclash⟩
    exact ⟨earlier, (hkept earlier).mpr hfirst, c, hshares, hc, hclash⟩
  · have hcompanions := hsettled.companions.length_eq
    have hclashes := hsettled.clashes.length_eq
    have hlength := hsettled.perm.length_eq
    rw [List.length_append] at hlength
    exact hcompanions ▸ hclashes ▸ hlength
  · intro hreport
    have hleft : left = [] := clashes_eq_nil hreport hsettled.clashes
      fun g x ⟨_, _, _, _, _, hclash⟩ => hclash.severity
    have hsame : kept = groups := by
      refine hsettled.kept_sublist.eq_of_length ?_
      simpa [hleft] using hsettled.perm.length_eq
    rw [howners hsettled.companions, hsame]

/-- Three types that share a companion: the first has it, and both others are reported together
with the first. -/
theorem synthesize_keeps_first_of_three :
    let field (outer : String) (id : Int32) : BoundField :=
      ⟨⟨"app", [outer], "Holder"⟩, "v", ⟨"View", []⟩, id, none⟩
    let s : Scan := ⟨[], [field "A" 1, field "B" 1, field "C" 2, field "A" 3], [], false⟩
    (∀ g ∈ s.synthesize.groups, '.' ∉ g.owner.simple.toList) ∧
      s.synthesize.companions.map qualified = ["app.HolderViewBinding"] ∧
      s.synthesize.companions.map Companion.owner = [⟨"app", ["A"], "Holder"⟩] ∧
      (ofGroups s.synthesize.groups).2.map Finding.message =
        ["`app.HolderViewBinding` would be generated for both `A.Holder` and `B.Holder`",
          "`app.HolderViewBinding` would be generated for both `A.Holder` and `C.Holder`"] ∧
      s.synthesize.companions.length + (ofGroups s.synthesize.groups).2.length =
        s.synthesize.groups.length ∧
      s.synthesize.report.hasErrors = true := by
  intro field s
  have hdots : ∀ g ∈ s.synthesize.groups, '.' ∉ g.owner.simple.toList := by decide +kernel
  obtain ⟨kept, left, -, -, -, -, -, -, -, hlength, hclean⟩ := synthesize_keeps_first s hdots
  obtain ⟨hnames, howners, hmessages⟩ :
      s.synthesize.companions.map qualified = ["app.HolderViewBinding"] ∧
        s.synthesize.companions.map Companion.owner = [⟨"app", ["A"], "Holder"⟩] ∧
        (ofGroups s.synthesize.groups).2.map Finding.message =
          ["`app.HolderViewBinding` would be generated for both `A.Holder` and `B.Holder`",
            "`app.HolderViewBinding` would be generated for both `A.Holder` and `C.Holder`"] := by
    decide +kernel
  refine ⟨hdots, hnames, howners, hmessages, hlength, ?_⟩
  -- without an error all three types would have a companion
  rw [← Bool.not_eq_false]
  intro hreport
  have hall := congrArg List.length (hclean hreport)
  rw [howners] at hall
  revert hall
  decide +kernel

end Scan

end ViewBinding
