import ViewBinding.Proofs.Constants.Histories
import ViewBinding.Proofs.Constants.Selection
import ViewBinding.Proofs.Outline.Fields

/-!
# Simple names and shadowing

A simple name in a view id stands for the field of the innermost type around it that declares one of
that name (`ViewBinding.Java.IsInnermost`), whatever kind of field this is: one that is no `int`
constant hides a constant further out. The scan knows the constants only, so it goes on to the
innermost type with a *constant* of that name
(`ViewBinding.Java.Constants.resolve?_eq_some_iff`). The two differ exactly if a field is passed
over on the way (`ViewBinding.Java.PassesOver`,
`ViewBinding.Java.Constants.followsShadowing_iff`).
-/

namespace ViewBinding.Java

open Text

variable {number : Nat} {source : String} {root : Node} {scope type around : List String}
  {name : String}

/-! ### The constants of a text -/

namespace Constants

/-- The constants of a member are those of its declarators. -/
theorem mem_ofMember_iff {holder : Kind} {member : Node} {c : ConstantName} {e : IdExpr} :
    (c, e) ∈ ofMember source type holder member ↔
      member.DeclaresConstants source holder ∧ ∃ declarator ∈ member.childrenIn .declarator,
        declarator.child? .dimensions = none ∧ ∃ own initializer,
          declarator.child? .name = some own ∧ declarator.child? .value = some initializer ∧
            c = ⟨type, own.textIn source⟩ ∧ e = IdExpr.ofNode source initializer := by
  have hcondition : ((member.kind == .fieldDeclaration || member.kind == .constantDeclaration) &&
      (holder.holdsConstants ||
        ((member.modifier? "static").isSome && (member.modifier? "final").isSome)) &&
      (member.child? .type).any fun type => type.textIn source == "int") = true ↔
        member.DeclaresConstants source holder := by
    simp only [Bool.and_eq_true, Bool.or_eq_true, beq_iff_eq, Option.any_eq_true]
    constructor
    · rintro ⟨⟨hfields, hconstant⟩, hint⟩
      exact ⟨hfields, hconstant, hint⟩
    · rintro ⟨hfields, hconstant, hint⟩
      exact ⟨⟨hfields, hconstant⟩, hint⟩
  unfold ofMember
  dsimp only
  split
  · rename_i h
    rw [hcondition] at h
    rw [List.mem_filterMap, and_iff_right h]
    refine exists_congr fun declarator => and_congr_right fun _ => ?_
    cases declarator.child? .dimensions with
    | some dimensions => simp
    | none =>
      cases declarator.child? .name <;> cases declarator.child? .value <;>
        simp [eq_comm]
  · rename_i h
    rw [hcondition] at h
    simp [h]

theorem mem_initializers_iff {c : ConstantName} {e : IdExpr} :
    (c, e) ∈ (Reading.ofTree number source root).constants.initializers ↔
      ∃ initializer, root.InitializesConstant source c.owner c.name initializer ∧
        e = IdExpr.ofNode source initializer := by
  dsimp only [Reading.ofTree, ofEntries]
  rw [List.mem_reverse, List.mem_flatMap]
  constructor
  · rintro ⟨entry, hentry, hmem⟩
    cases entry with
    | type => cases hmem
    | member nesting holder member =>
      obtain ⟨hconstants, declarator, hdeclarator, hdimensions, own, initializer, hname, hvalue,
        rfl, rfl⟩ := mem_ofMember_iff.mp hmem
      obtain ⟨-, -, declaration, hdeclares, rfl, hencloses⟩ := member_mem_outline_iff.mp hentry
      exact ⟨initializer, ⟨declaration, hdeclares,
        .intro hencloses hconstants hdeclarator hdimensions hname hvalue⟩, rfl⟩
  · obtain ⟨owner, own⟩ := c
    rintro ⟨initializer, ⟨declaration, hdeclares, hconstant⟩, rfl⟩
    obtain ⟨hencloses, hconstants, hdeclarator, hdimensions, hname, hvalue⟩ := hconstant
    have hlisted := member_mem_outline_iff.mpr ⟨hconstants.isFields.isNamed,
      hconstants.isFields.declaresType_eq_false, declaration, hdeclares, rfl, hencloses⟩
    exact ⟨_, hlisted,
      mem_ofMember_iff.mpr ⟨hconstants, _, hdeclarator, hdimensions, _, _, hname, hvalue, rfl, rfl⟩⟩

/-- The names that the constants of a text know are those of the constants that it declares. -/
theorem declares_iff :
    (Reading.ofTree number source root).constants.declares ⟨type, name⟩ = true ↔
      root.DeclaresConstant source type name := by
  rw [declares, initializer?, Option.isSome_map, List.find?_isSome]
  constructor
  · rintro ⟨⟨c, e⟩, hmem, hc⟩
    obtain rfl : c = ⟨type, name⟩ := by simpa using hc
    obtain ⟨initializer, h, -⟩ := mem_initializers_iff.mp hmem
    exact ⟨initializer, h⟩
  · rintro ⟨initializer, h⟩
    exact ⟨(⟨type, name⟩, _), mem_initializers_iff.mpr ⟨initializer, h, rfl⟩, by simp⟩

end Constants

/-! ### Shadowing -/

/-- **The type whose field a simple name stands for** by the rules of shadowing: of the types around
the place, it is the innermost one that declares a field of that name. -/
structure IsInnermost (source : String) (root : Node) (scope : List String) (name : String)
    (type : List String) : Prop where
  around : type <+: scope
  declares : root.DeclaresField source type name
  innermost : ∀ inner, inner <+: scope → root.DeclaresField source inner name →
    inner.length ≤ type.length

/-- **The name follows shadowing**, whatever view ids have been folded before: it has the value of
the constant that the innermost type with a field of that name declares. If this field is no
constant, or there is none, the name is not constant, and no expression in which it stands has a
value. -/
structure Constants.FollowsShadowing (table : Constants) (source : String) (root : Node)
    (scope : List String) (name : String) : Prop where
  constant : ∀ {type}, IsInnermost source root scope name type →
    root.DeclaresConstant source type name → ∀ history place v,
      table.foldAfter history scope (.name name place) = .ok v ↔ table.Defines ⟨type, name⟩ v
  other : (∀ type, IsInnermost source root scope name type →
      ¬root.DeclaresConstant source type name) → ∀ history place,
    table.foldAfter history scope (.name name place) = .error (.notConstant place) ∧
      ∀ e, .name name place ∈ e.parts → ∃ err, table.foldAfter history scope e = .error err

/-- **A field is passed over**: it is the innermost one of its name, but no constant, and a type
further out declares a constant of that name. -/
def PassesOver (source : String) (root : Node) (scope : List String) (name : String) : Prop :=
  ∃ inner outer, IsInnermost source root scope name inner ∧
    ¬root.DeclaresConstant source inner name ∧ outer <+: inner ∧
      root.DeclaresConstant source outer name

theorem IsInnermost.unique {type' : List String} (h : IsInnermost source root scope name type)
    (h' : IsInnermost source root scope name type') : type = type' := by
  have hlength : type.length = type'.length :=
    Nat.le_antisymm (h'.innermost type h.around h.declares)
      (h.innermost type' h'.around h'.declares)
  exact (List.prefix_of_prefix_length_le h.around h'.around hlength.le).eq_of_length hlength

namespace Constants

/-- Going outward, the longest chain with a property is found first. -/
theorem find?_outward_append_eq_some_iff {p : List String → Bool} :
    (outward scope ++ [[]]).find? p = some type ↔
      type <+: scope ∧ p type = true ∧
        ∀ inner, inner <+: scope → p inner = true → inner.length ≤ type.length := by
  have hsound {type : List String} (h : (outward scope ++ [[]]).find? p = some type) :
      type <+: scope ∧ p type = true ∧
        ∀ inner, inner <+: scope → p inner = true → inner.length ≤ type.length :=
    ⟨mem_outward_iff.mp (List.mem_of_find?_eq_some h), List.find?_some h,
      fun inner hinner hp => length_le_of_find?_outward h hinner hp⟩
  refine ⟨hsound, fun ⟨haround, hp, hlongest⟩ => ?_⟩
  obtain ⟨found, hfound⟩ : ∃ found, (outward scope ++ [[]]).find? p = some found :=
    Option.isSome_iff_exists.mp
      (List.find?_isSome.mpr ⟨type, mem_outward_iff.mpr haround, hp⟩)
  obtain ⟨haround', hp', hlongest'⟩ := hsound hfound
  have hlength : found.length = type.length :=
    Nat.le_antisymm (hlongest found haround' hp') (hlongest' type haround hp)
  rw [hfound, (List.prefix_of_prefix_length_le haround' haround hlength.le).eq_of_length hlength]

theorem find?_outward_eq_some_iff {p : List String → Bool} (hnil : p [] = false) :
    (outward scope).find? p = some type ↔
      type <+: scope ∧ p type = true ∧
        ∀ inner, inner <+: scope → p inner = true → inner.length ≤ type.length := by
  rw [← find?_outward_append_eq_some_iff, List.find?_append, List.find?_cons, hnil,
    List.find?_nil, Option.or_none]

/-- **What a simple name stands for**: the constant of the innermost type that declares a constant
of that name. -/
theorem resolve?_eq_some_iff {c : ConstantName} :
    (Reading.ofTree number source root).constants.resolve? scope name = some c ↔
      c.name = name ∧ c.owner <+: scope ∧
        root.DeclaresConstant source c.owner name ∧
          ∀ inner, inner <+: scope → root.DeclaresConstant source inner name →
            inner.length ≤ c.owner.length := by
  have hnil : (Reading.ofTree number source root).constants.declares ⟨[], name⟩ = false := by
    rw [Bool.eq_false_iff, ne_eq, declares_iff]
    rintro ⟨initializer, declaration, hdeclares, -⟩
    exact hdeclares.elim fun _ h => h.2.ne_nil rfl
  obtain ⟨owner, own⟩ := c
  rw [resolve?, List.find?_map, Option.map_eq_some_iff]
  constructor
  · rintro ⟨type, htype, heq⟩
    obtain ⟨rfl, rfl⟩ := ConstantName.mk.inj heq
    obtain ⟨haround, hdeclares, hlongest⟩ := (find?_outward_eq_some_iff hnil).mp htype
    exact ⟨rfl, haround, declares_iff.mp hdeclares,
      fun inner hinner h => hlongest inner hinner (declares_iff.mpr h)⟩
  · rintro ⟨rfl, haround, hdeclares, hlongest⟩
    exact ⟨owner, (find?_outward_eq_some_iff hnil).mpr ⟨haround, declares_iff.mpr hdeclares,
      fun inner hinner h => hlongest inner hinner (declares_iff.mp h)⟩, rfl⟩

end Constants

/-! ### The innermost type and the innermost constant -/

/-- Of the types around a place, one with a property is innermost. -/
theorem exists_longest (P : List String → Prop) (haround : around <+: scope) (h : P around) :
    ∃ type, type <+: scope ∧ P type ∧
      ∀ inner, inner <+: scope → P inner → inner.length ≤ type.length := by
  classical
  have hsome : ((Constants.outward scope ++ [[]]).find? fun t => decide (P t)).isSome :=
    List.find?_isSome.mpr ⟨around, Constants.mem_outward_iff.mpr haround, decide_eq_true h⟩
  obtain ⟨type, htype⟩ := Option.isSome_iff_exists.mp hsome
  obtain ⟨htypescope, hP, hlongest⟩ := Constants.find?_outward_append_eq_some_iff.mp htype
  exact ⟨type, htypescope, of_decide_eq_true hP,
    fun inner hinner hP' => hlongest inner hinner (decide_eq_true hP')⟩

/-- If the innermost field of a name is a constant, the name stands for it. -/
theorem IsInnermost.resolve?_eq (h : IsInnermost source root scope name type)
    (hconstant : root.DeclaresConstant source type name)
    (number : Nat) :
    (Reading.ofTree number source root).constants.resolve? scope name = some ⟨type, name⟩ :=
  Constants.resolve?_eq_some_iff.mpr ⟨rfl, h.around, hconstant, fun inner hinner hconstant' =>
    h.innermost inner hinner hconstant'.declaresField⟩

/-- If the innermost field of a name is no constant, but the name stands for one, the field is
passed over. -/
theorem passesOver_of_resolve? {c : ConstantName}
    (hc : (Reading.ofTree number source root).constants.resolve? scope name = some c)
    (h : ∀ type, IsInnermost source root scope name type →
      ¬root.DeclaresConstant source type name) :
    PassesOver source root scope name := by
  obtain ⟨-, haround, hconstant, -⟩ := Constants.resolve?_eq_some_iff.mp hc
  have hfield : root.DeclaresField source c.owner name :=
    hconstant.declaresField
  obtain ⟨type, htype, hdeclares, hinnermost⟩ :=
    exists_longest (root.DeclaresField source · name) haround hfield
  refine ⟨type, c.owner, ⟨htype, hdeclares, hinnermost⟩, h type ⟨htype, hdeclares, hinnermost⟩,
    ?_, hconstant⟩
  exact List.prefix_of_prefix_length_le haround htype (hinnermost c.owner haround hfield)

/-- If a field is passed over, the name stands for a constant. -/
theorem PassesOver.exists_resolve? (h : PassesOver source root scope name) (number : Nat) :
    ∃ c, (Reading.ofTree number source root).constants.resolve? scope name = some c := by
  obtain ⟨inner, outer, hinner, -, houter, hconstant⟩ := h
  obtain ⟨type, htype, hdeclares, hlongest⟩ :=
    exists_longest (root.DeclaresConstant source · name) (houter.trans hinner.around) hconstant
  exact ⟨⟨type, name⟩, Constants.resolve?_eq_some_iff.mpr ⟨rfl, htype, hdeclares, hlongest⟩⟩

namespace Constants

variable {table : Constants}

/-- What a name of a constant comes to first does not depend on where it stands. -/
theorem foldAfter_nil_name_eq {c : ConstantName} (hc : table.resolve? scope name = some c)
    (place place' : Extent) :
    table.foldAfter [] scope (.name name place) = table.foldAfter [] scope (.name name place') := by
  obtain ⟨e, he⟩ := Option.isSome_iff_exists.mp (declares_of_resolve? hc)
  simp only [foldAfter, after, List.foldl_nil, fold, foldWith, hc, foldReference, foldConstant,
    noteOn?_nil, he]

/-- **A name follows shadowing exactly if no field is passed over.** Then it has the value of the
constant in the innermost type that declares a field of the name, and is not constant if that field
is no constant. Otherwise it stands for a constant of a type further out, as if the field were not
there. -/
theorem followsShadowing_iff (number : Nat) (source : String) (root : Node) (scope : List String)
    (name : String) :
    (Reading.ofTree number source root).constants.FollowsShadowing source root scope name ↔
      ¬PassesOver source root scope name := by
  set table := (Reading.ofTree number source root).constants
  constructor
  · intro hfollows hpasses
    obtain ⟨c, hc⟩ := hpasses.exists_resolve? number
    obtain ⟨inner, -, hinner, hnot, -⟩ := hpasses
    have hother := hfollows.other (fun type htype => hinner.unique htype ▸ hnot) []
    -- what the name comes to does not depend on its place, and so it is not the error there
    have hsame := foldAfter_nil_name_eq hc ⟨0, 0⟩ ⟨0, 1⟩
    rw [(hother _).1, (hother _).1] at hsame
    cases hsame
  · intro hno
    refine ⟨fun htype hconstant history place v => ?_, fun hother history place => ?_⟩
    · rw [foldAfter_eq_ok_iff, denotes_name_iff, htype.resolve?_eq hconstant number]
      simp
    · cases hc : table.resolve? scope name with
      | some c => exact absurd (passesOver_of_resolve? hc hother) hno
      | none =>
        refine ⟨by simp only [foldAfter, fold, foldWith, hc, foldReference], fun e he => ?_⟩
        cases hout : table.foldAfter history scope e with
        | error err => exact ⟨err, rfl⟩
        | ok v =>
          obtain ⟨w, hw⟩ := (foldAfter_eq_ok_iff.mp hout).exists_denotes_name he
          rw [denotes_name_iff, hc] at hw
          cases hw.choose_spec.1

/-- The constant of an inner type hides one of the same name further out. -/
theorem followsShadowing_inner :
    let source := "class A \x7b static final int X = 1;\n"
      ++ "static class B \x7b static final int X = 2; @BindView(X) View v; \x7d \x7d\n"
    let root := Node.ofText source
    (bindings 0 source).fields.map BoundField.id = [2] ∧
      (Reading.ofTree 0 source root).constants.FollowsShadowing source root ["A", "B"] "X" := by
  intro source root
  obtain ⟨hids, hdeclares⟩ :
      (bindings 0 source).fields.map BoundField.id = [2] ∧
        (Reading.ofTree 0 source root).constants.declares ⟨["A", "B"], "X"⟩ = true := by
    decide +kernel
  refine ⟨hids, (followsShadowing_iff 0 source root ["A", "B"] "X").mpr ?_⟩
  rintro ⟨inner, -, hinner, hnot, -⟩
  have hconstant := declares_iff.mp hdeclares
  have hlength := hinner.innermost ["A", "B"] (List.prefix_refl _)
    hconstant.declaresField
  rw [hinner.around.eq_of_length_le hlength] at hnot
  exact hnot hconstant

/-- **A field that is no constant is passed over**, and the constant of the type further out becomes
the view id. -/
theorem exists_not_followsShadowing :
    let source := "class A \x7b static final int X = 1; static class B \x7b int X;\n"
      ++ "@BindView(X) View v; \x7d \x7d\n"
    let root := Node.ofText source
    (bindings 0 source).fields.map BoundField.id = [1] ∧
      ¬(Reading.ofTree 0 source root).constants.FollowsShadowing source root ["A", "B"] "X" := by
  intro source root
  obtain ⟨hids, hlisted, hdeclares, hvalue⟩ :
      (bindings 0 source).fields.map BoundField.id = [1] ∧
        ((sites source root).any fun site =>
          site.nesting = ["A", "B"] && (site.member.fieldNames source).contains "X") ∧
        (Reading.ofTree 0 source root).constants.declares ⟨["A", "B"], "X"⟩ = false ∧
        ((Reading.ofTree 0 source root).constants.foldAfter [] ["A", "B"]
          (.name "X" ⟨68, 69⟩)).toOption = some 1 := by
    decide +kernel
  have hfield : root.DeclaresField source ["A", "B"] "X" := by
    obtain ⟨site, hsite, h⟩ := List.any_eq_true.mp hlisted
    obtain ⟨htype, hname⟩ := (Bool.and_eq_true _ _).mp h
    rw [← of_decide_eq_true htype]
    exact declaresField_of_mem_sites hsite (List.contains_iff_mem.mp hname)
  have hinnermost : IsInnermost source root ["A", "B"] "X" ["A", "B"] :=
    ⟨List.prefix_refl _, hfield, fun inner hinner _ => hinner.length_le⟩
  have hother (type : List String) (h : IsInnermost source root ["A", "B"] "X" type) :
      ¬root.DeclaresConstant source type "X" := by
    rw [h.unique hinnermost]
    intro hconstant
    rw [declares_iff.mpr hconstant] at hdeclares
    cases hdeclares
  refine ⟨hids, fun h => ?_⟩
  rw [(h.other hother [] ⟨68, 69⟩).1] at hvalue
  cases hvalue

end Constants

end ViewBinding.Java
