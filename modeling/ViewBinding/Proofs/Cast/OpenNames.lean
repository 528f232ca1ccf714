import ViewBinding.Proofs.Cast.Names
import ViewBinding.Proofs.Outline.OnDemand

/-!
# Which types rely on the imports on demand

A dotted name in a type is left open if it looks like a type, by its capital, and the text neither
imports nor declares what its first identifier stands for (`ViewBinding.Java.Node.IsOpen`). Then it
may be brought in on demand, so a cast takes all imports on demand along as soon as one name is left
open, and else none (`ViewBinding.Java.Reading.cast_imports`).

The cast goes by runs; these are the dotted names of a type that has no letters but those of ASCII
(`ViewBinding.Java.TypeScope.cutBy_isRunPart_eq_words`).
-/

namespace ViewBinding.Java

open Text TypeText

/-! ### Open names -/

namespace Node

/-- **The name is left open** inside the type of that nesting: its first identifier starts with an
upper-case letter of ASCII and is the simple name neither of an imported type nor of a type declared
in the text that is visible there, as a member of a type around or at the top level. -/
structure IsOpen (source : String) (root : Node) (nesting : List String) (name : List Char) :
    Prop where
  capital : ∃ c ∈ (TypeScope.splitRun name).1.head?, c.isUpper
  notImported : ∀ qualified,
    ¬root.Imports source (String.ofList (TypeScope.splitRun name).1) qualified
  notDeclared : ∀ around, around <+: nesting →
    ¬root.DeclaresType source (around ++ [String.ofList (TypeScope.splitRun name).1])

/-- One of the names is left open. -/
def LeavesOpen (source : String) (root : Node) (nesting : List String)
    (names : List (List Char)) : Prop :=
  ∃ name ∈ names, root.IsOpen source nesting name

/-- The imports are those on demand, all of them, if something is left open, and else none. -/
structure AllOrNone (source : String) (root : Node) (isOpen : Prop) (imports : List String) :
    Prop where
  all : isOpen → imports = root.onDemandImports source
  none : ¬isOpen → imports = []

variable {source : String} {root : Node} {p q : Prop} {imports : List String}

theorem AllOrNone.congr (h : root.AllOrNone source p imports) (hpq : p ↔ q) :
    root.AllOrNone source q imports :=
  ⟨fun hq => h.all (hpq.mpr hq), fun hq => h.none fun hp => hq (hpq.mp hp)⟩

/-- Two things decide the same unless there are imports on demand and just one of the things is left
open. -/
theorem AllOrNone.or_iff (h : root.AllOrNone source p imports) :
    root.AllOrNone source (p ∨ q) imports ↔ ¬(root.onDemandImports source ≠ [] ∧ q ∧ ¬p) := by
  constructor
  · rintro hor ⟨hne, hq, hp⟩
    exact hne ((hor.all (.inr hq)).symm.trans (h.none hp))
  · intro hnot
    refine ⟨fun hor => ?_, fun hor => h.none fun hp => hor (.inl hp)⟩
    by_cases hp : p
    · exact h.all hp
    · -- then there is nothing to take along
      have hnil : root.onDemandImports source = [] := by
        by_contra hne
        exact hnot ⟨hne, hor.resolve_left hp, hp⟩
      rw [hnil, h.none hp]

end Node

/-! ### What the cast sees of a name -/

namespace TypeScope

theorem exists_isUpper_splitRun_iff {run : List Char} :
    (∃ c ∈ (splitRun run).1.head?, c.isUpper) ↔ run.head?.any Char.isUpper := by
  cases run with
  | nil => simp [splitRun]
  | cons c cs =>
    by_cases hdot : c = '.'
    · subst hdot
      simp [splitRun]
    · simp [splitRun, hdot]

theorem any_isRunPart_of_isUpper {run : List Char} (h : run.head?.any Char.isUpper) :
    run.any isRunPart := by
  cases run with
  | nil => cases h
  | cons c cs =>
    have hupper : c.isUpper := by simpa using h
    simp [isRunPart, isNamePart, Char.isAlphanum, Char.isAlpha, hupper]

/-- In a text of ASCII letters the runs are the words. -/
theorem cutBy_isRunPart_eq_words {cs : List Char} (h : isAscii cs) :
    cutBy isRunPart cs = words cs := by
  have hwhole : ∀ word ∈ words cs, runs word = [word] := by
    intro word hword
    refine runs_of_mem_words hword (List.all_eq_true.mpr fun c hc => ?_)
    have hmem : c ∈ (words cs).flatten := List.mem_flatten.mpr ⟨word, hword, hc⟩
    rw [words, flatten_cutBy] at hmem
    exact List.all_eq_true.mp h c hmem
  calc cutBy isRunPart cs = (words cs).flatMap runs := by
        rw [← runs_eq_cutBy, runs_eq_flatMap_words]
    _ = (words cs).flatMap fun word => [word] := List.flatMap_congr hwhole
    _ = words cs := List.flatMap_singleton' _

end TypeScope

namespace Reading

variable {number : Nat} {source : String} {root : Node} {nesting : List String}

/-- Nothing replaces a simple name exactly if it is neither imported nor declared. -/
theorem replacement?_eq_none_iff {simple : String}
    (hspelled : ∀ statement ∈ root.children, statement.SpellsImport source) :
    (ofTree number source root).scope.replacement? nesting simple = none ↔
      (∀ qualified, ¬root.Imports source simple qualified) ∧
        ∀ around, around <+: nesting → ¬root.DeclaresType source (around ++ [simple]) := by
  constructor
  · intro hnone
    have himport (qualified : String) : ¬root.Imports source simple qualified := by
      intro h
      rw [replacement?_of_imports hspelled h] at hnone
      cases hnone
    refine ⟨himport, fun around haround hdeclares => ?_⟩
    rw [replacement?_of_not_imports hspelled himport, Option.map_eq_none_iff,
      TypeScope.declaredType?, List.find?_eq_none] at hnone
    refine hnone _ (List.mem_map_of_mem (Constants.mem_outward_iff.mpr haround)) ?_
    simpa using mem_types_iff.mpr hdeclares
  · rintro ⟨himport, hdeclares⟩
    rw [replacement?_of_not_imports hspelled himport, Option.map_eq_none_iff]
    refine Option.eq_none_iff_forall_ne_some.mpr fun type htype => ?_
    rw [TypeScope.declaredType?_eq_some_iff] at htype
    obtain ⟨around, haround, rfl, hmem, -⟩ := htype
    exact hdeclares around haround (mem_types_iff.mp hmem)

/-- A run may be a type for the cast exactly if it is left open. -/
theorem isUnresolved_iff (number : Nat) {run : List Char}
    (hspelled : ∀ statement ∈ root.children, statement.SpellsImport source) :
    (ofTree number source root).scope.isUnresolved nesting run ↔
      root.IsOpen source nesting run := by
  rw [TypeScope.isUnresolved, Bool.and_eq_true, Bool.and_eq_true, Option.isNone_iff_eq_none,
    replacement?_eq_none_iff hspelled]
  constructor
  · rintro ⟨⟨-, hupper⟩, himport, hdeclares⟩
    exact ⟨TypeScope.exists_isUpper_splitRun_iff.mpr hupper, himport, hdeclares⟩
  · rintro ⟨hcapital, himport, hdeclares⟩
    have hupper := TypeScope.exists_isUpper_splitRun_iff.mp hcapital
    exact ⟨⟨TypeScope.any_isRunPart_of_isUpper hupper, hupper⟩, himport, hdeclares⟩

/-- **A cast takes the imports on demand along**, all of them, exactly if it leaves a name open. -/
theorem cast_imports (number : Nat) (source : String) (root : Node) (nesting : List String)
    (raw : String) (hspelled : ∀ statement ∈ root.children,
      statement.SpellsImport source ∧ statement.SpellsOnDemand source) :
    root.AllOrNone source
      (root.LeavesOpen source nesting (cutBy TypeScope.isRunPart (tidy raw).toList))
      ((ofTree number source root).scope.cast nesting raw).imports := by
  have hany : (TypeScope.runs (tidy raw).toList).any
        ((ofTree number source root).scope.isUnresolved nesting) ↔
      root.LeavesOpen source nesting (cutBy TypeScope.isRunPart (tidy raw).toList) := by
    rw [List.any_eq_true, TypeScope.runs_eq_cutBy]
    exact exists_congr fun run => and_congr_right fun _ =>
      isUnresolved_iff number fun statement hstatement => (hspelled statement hstatement).1
  have honDemand : (ofTree number source root).scope.header.onDemand =
      root.onDemandImports source :=
    Header.onDemand_ofTree fun statement hstatement => (hspelled statement hstatement).2
  have himports : ((ofTree number source root).scope.cast nesting raw).imports =
      if (TypeScope.runs (tidy raw).toList).any
        ((ofTree number source root).scope.isUnresolved nesting)
      then root.onDemandImports source else [] := by rw [← honDemand, TypeScope.cast]
  rw [himports]
  exact Node.AllOrNone.congr ⟨fun h => if_pos h, fun h => if_neg h⟩ hany

end Reading

end ViewBinding.Java
