import ViewBinding.Java.Bindings

/-!
# Which type a selection names

A simple name in front of a full stop stands for a declared type in two places: in the type of a
field (`ViewBinding.Java.TypeScope.declaredType?`) and in a view id
(`ViewBinding.Java.Constants.select?`). The first goes through the types around the place where
the name stands, the innermost first, and so finds the type that
`ViewBinding.Java.NamesInside` describes. The second ignores that place and takes the first type of
the text whose nesting ends in the name. The two agree on a constant exactly if, of the types that
declare it, the same one is found both ways
(`ViewBinding.Java.Reading.selectsInScope_iff`).
-/

namespace ViewBinding.Java

open Text

/-! ### The innermost type -/

/-- **A simple name names a type** of the text inside the type of that nesting: the type is
declared inside one of the types around the place, or at the top level, and no type of that name is
declared further in. -/
def NamesInside (types : List (List String)) (nesting : List String) (simple : String)
    (type : List String) : Prop :=
  ∃ around, around <+: nesting ∧ type = around ++ [simple] ∧ type ∈ types ∧
    ∀ inner, inner <+: nesting → inner ++ [simple] ∈ types → inner.length ≤ around.length

/-- A name does not name two types. -/
theorem NamesInside.unique {types : List (List String)} {nesting : List String} {simple : String}
    {s t : List String} (hs : NamesInside types nesting simple s)
    (ht : NamesInside types nesting simple t) : s = t := by
  obtain ⟨a, ha, rfl, hamem, hamax⟩ := hs
  obtain ⟨b, hb, rfl, hbmem, hbmax⟩ := ht
  have hlength : a.length = b.length :=
    Nat.le_antisymm (hbmax a ha hamem) (hamax b hb hbmem)
  rw [(List.prefix_of_prefix_length_le ha hb (Nat.le_of_eq hlength)).eq_of_length hlength]

namespace Constants

theorem outward_cons (name : String) (names : List String) :
    outward (name :: names) ++ [[]] = (outward names ++ [[]]).map (name :: ·) ++ [[]] := by
  simp [outward]

/-- Going outward from a place leads through the chains that it starts with. -/
theorem mem_outward_iff {nesting around : List String} :
    around ∈ outward nesting ++ [[]] ↔ around <+: nesting := by
  induction nesting generalizing around with
  | nil => simp [outward]
  | cons name names ih =>
    rw [outward_cons, List.mem_append, List.mem_map, List.mem_singleton, List.prefix_cons_iff,
      or_comm]
    refine or_congr Iff.rfl ⟨?_, ?_⟩
    · rintro ⟨inner, hinner, rfl⟩
      exact ⟨inner, rfl, ih.mp hinner⟩
    · rintro ⟨inner, rfl, hinner⟩
      exact ⟨inner, ih.mpr hinner, rfl⟩

/-- The chains get shorter on the way outward. -/
theorem outward_pairwise (nesting : List String) :
    (outward nesting ++ [[]]).Pairwise fun (inner outer : List String) =>
      outer.length < inner.length := by
  induction nesting with
  | nil => exact List.pairwise_singleton _ _
  | cons name names ih =>
    rw [outward_cons, List.pairwise_append]
    refine ⟨List.pairwise_map.mpr (ih.imp Nat.succ_lt_succ), List.pairwise_singleton _ _,
      fun inner hinner outer houter => ?_⟩
    obtain ⟨chain, -, rfl⟩ := List.mem_map.mp hinner
    rw [List.mem_singleton.mp houter]
    exact Nat.succ_pos _

/-- What is found first on the way outward is the longest chain with the property. -/
theorem length_le_of_find?_outward {p : List String → Bool} {nesting around inner : List String}
    (h : (outward nesting ++ [[]]).find? p = some around) (hinner : inner <+: nesting)
    (hp : p inner = true) : inner.length ≤ around.length := by
  obtain ⟨-, before, after, heq, hbefore⟩ := List.find?_eq_some_iff_append.mp h
  have hmem := mem_outward_iff.mpr hinner
  have hpairwise := outward_pairwise nesting
  rw [heq] at hmem hpairwise
  -- whatever comes before what is found does not have the property, and the rest is shorter
  rcases List.mem_append.mp hmem with hmem | hmem
  · have := hbefore inner hmem
    rw [hp] at this
    cases this
  · rcases List.mem_cons.mp hmem with rfl | hmem
    · exact Nat.le_refl _
    · have hafter := (List.pairwise_append.mp hpairwise).2.1
      exact Nat.le_of_lt ((List.pairwise_cons.mp hafter).1 inner hmem)

end Constants

/-- **The type of a field is named inside out**: the type found is the innermost that the name
names. -/
theorem TypeScope.declaredType?_eq_some_iff (scope : TypeScope) (nesting : List String)
    (simple : String) (type : List String) :
    scope.declaredType? nesting simple = some type ↔
      NamesInside scope.types nesting simple type := by
  have hsound {type : List String} (h : scope.declaredType? nesting simple = some type) :
      NamesInside scope.types nesting simple type := by
    rw [declaredType?, List.find?_map, Option.map_eq_some_iff] at h
    obtain ⟨around, haround, rfl⟩ := h
    refine ⟨around, Constants.mem_outward_iff.mp (List.mem_of_find?_eq_some haround), rfl, ?_,
      fun inner hinner hmem => Constants.length_le_of_find?_outward haround hinner ?_⟩
    · simpa using List.find?_some haround
    · simpa using hmem
  refine ⟨hsound, fun h => ?_⟩
  obtain ⟨around, haround, rfl, hmem, -⟩ := id h
  have hsome : (scope.declaredType? nesting simple).isSome := by
    rw [declaredType?, List.find?_isSome]
    exact ⟨_, List.mem_map_of_mem (Constants.mem_outward_iff.mpr haround), by simpa using hmem⟩
  obtain ⟨found, hfound⟩ := Option.isSome_iff_exists.mp hsome
  rw [hfound, (hsound hfound).unique h]

/-! ### The first type of the text -/

namespace Constants

variable {table : Constants} {object name : String} {type : List String}

/-- The first declared type whose nesting ends in a dotted text. -/
def firstEndingIn? (table : Constants) (relative : String) : Option (List String) :=
  table.types.find? fun nesting => endsIn nesting relative

theorem withoutPackage_of_not_mem (package : String) (h : '.' ∉ object.toList) :
    withoutPackage package object = object := by
  rw [withoutPackage, if_neg]
  intro hfront
  -- the front would end in a full stop
  have hstart := List.isPrefixOf_iff_prefix.mp ((Bool.and_eq_true _ _).mp hfront).2
  exact h (hstart.subset (by simp))

theorem select?_eq_some_iff (h : '.' ∉ object.toList) {constant : ConstantName} :
    table.select? object name = some constant ↔
      table.firstEndingIn? object = some constant.owner ∧ constant.name = name ∧
        table.declares constant = true := by
  rw [select?, withoutPackage_of_not_mem table.package h, ← firstEndingIn?]
  cases hfirst : table.firstEndingIn? object with
  | none => simp
  | some type =>
    obtain ⟨owner, own⟩ := constant
    simp only [Option.filter_eq_some_iff, Option.some.injEq, ConstantName.mk.injEq]
    constructor
    · rintro ⟨⟨rfl, rfl⟩, hdeclares⟩
      exact ⟨rfl, rfl, hdeclares⟩
    · rintro ⟨rfl, rfl, hdeclares⟩
      exact ⟨⟨rfl, rfl⟩, hdeclares⟩

end Constants

/-! ### The two ways compared -/

namespace Reading

/-- **The selection follows the scope**: if it stands for a constant, the constant is one of the
type that the name in front names inside the type of that nesting; and if that type declares the
constant, the selection stands for one. -/
structure SelectsInScope (r : Reading) (nesting : List String) (object name : String) : Prop where
  sound : ∀ constant, r.constants.select? object name = some constant →
    r.scope.declaredType? nesting object = some constant.owner
  complete : ∀ type, r.scope.declaredType? nesting object = some type →
    r.constants.declares ⟨type, name⟩ = true →
      (r.constants.select? object name).isSome = true

/-- **A selection follows the scope exactly if the first type of the text is the innermost one**,
as far as types count that declare the constant: such a type is the first whose nesting ends in the
simple name if and only if it is the one that the name names inside out. -/
theorem selectsInScope_iff (number : Nat) (source : String) (root : Node) (nesting : List String)
    {object : String} (name : String) (h : '.' ∉ object.toList) :
    let r := ofTree number source root
    r.SelectsInScope nesting object name ↔
      ∀ type, r.constants.declares ⟨type, name⟩ = true →
        (r.constants.firstEndingIn? object = some type ↔
          NamesInside r.constants.types nesting object type) := by
  intro r
  have hnames (type : List String) : r.scope.declaredType? nesting object = some type ↔
      NamesInside r.constants.types nesting object type :=
    r.scope.declaredType?_eq_some_iff nesting object type
  constructor
  · rintro ⟨hsound, hcomplete⟩ type hdeclares
    refine ⟨fun hfirst => ?_, fun hinside => ?_⟩
    · exact (hnames type).mp (hsound ⟨type, name⟩
        ((Constants.select?_eq_some_iff h).mpr ⟨hfirst, rfl, hdeclares⟩))
    · obtain ⟨constant, hconstant⟩ :=
        Option.isSome_iff_exists.mp (hcomplete type ((hnames type).mpr hinside) hdeclares)
      have howner := (hnames constant.owner).mp (hsound constant hconstant)
      rw [hinside.unique howner]
      exact ((Constants.select?_eq_some_iff h).mp hconstant).1
  · intro hsame
    refine ⟨fun constant hconstant => ?_, fun type htype hdeclares => ?_⟩
    · obtain ⟨hfirst, rfl, hdeclares⟩ := (Constants.select?_eq_some_iff h).mp hconstant
      exact (hnames _).mpr ((hsame constant.owner hdeclares).mp hfirst)
    · have hfirst := (hsame type hdeclares).mpr ((hnames type).mp htype)
      exact Option.isSome_iff_exists.mpr
        ⟨⟨type, name⟩, (Constants.select?_eq_some_iff h).mpr ⟨hfirst, rfl, hdeclares⟩⟩

/-- A name that is selected where its type is declared. -/
theorem selectsInScope_nested :
    let source := "class A \x7b static class Ids \x7b static final int X = 7; \x7d\n"
      ++ "@BindView(Ids.X) View v; \x7d\n"
    let r := ofTree 0 source (.ofText source)
    '.' ∉ "Ids".toList ∧ r.constants.select? "Ids" "X" = some ⟨["A", "Ids"], "X"⟩ ∧
      r.SelectsInScope ["A"] "Ids" "X" := by
  intro source r
  have hdot : '.' ∉ "Ids".toList := by decide
  obtain ⟨hselect, hfirst, hinside⟩ :
      r.constants.select? "Ids" "X" = some ⟨["A", "Ids"], "X"⟩ ∧
        r.constants.firstEndingIn? "Ids" = some ["A", "Ids"] ∧
        r.scope.declaredType? ["A"] "Ids" = some ["A", "Ids"] := by decide +kernel
  refine ⟨hdot, hselect, ?_⟩
  refine (selectsInScope_iff 0 source (.ofText source) ["A"] "X" hdot).mpr fun type _ => ?_
  rw [hfirst, ← hinside]
  exact r.scope.declaredType?_eq_some_iff ["A"] "Ids" type

/-- **A type nested elsewhere is selected** for a name that names a type at the top level, and its
constant becomes the view id. -/
theorem exists_not_selectsInScope :
    let source := "class A \x7b static class Ids \x7b static final int X = 1; \x7d \x7d\n"
      ++ "class Ids \x7b static final int X = 2; \x7d\nclass B \x7b @BindView(Ids.X) View v; \x7d\n"
    let r := ofTree 0 source (.ofText source)
    r.constants.select? "Ids" "X" = some ⟨["A", "Ids"], "X"⟩ ∧
      r.scope.declaredType? ["B"] "Ids" = some ["Ids"] ∧
      (bindings 0 source).fields.map BoundField.id = [1] ∧
      ¬r.SelectsInScope ["B"] "Ids" "X" := by
  intro source r
  obtain ⟨hselect, hinside, hids⟩ :
      r.constants.select? "Ids" "X" = some ⟨["A", "Ids"], "X"⟩ ∧
        r.scope.declaredType? ["B"] "Ids" = some ["Ids"] ∧
        (bindings 0 source).fields.map BoundField.id = [1] := by decide +kernel
  refine ⟨hselect, hinside, hids, fun h => ?_⟩
  have hsame := (h.sound _ hselect).symm.trans hinside
  revert hsame
  decide

end Reading

end ViewBinding.Java
