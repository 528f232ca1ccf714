import ViewBinding.Proofs.Cast.Words
import ViewBinding.Proofs.Constants.Selection
import ViewBinding.Proofs.Outline.Imports
import ViewBinding.Proofs.Outline.Types

/-!
# What the names in a type stand for

A simple name in the type of a field stands for a type that is found by the rules of scope
(`ViewBinding.Java.Node.Denotes`): a member type of the types around the field, the innermost one
first; otherwise an imported type; otherwise a type at the top level of the text. The cast asks for
an imported type first. It writes the name that the rules give, unless a member type and an imported
type contend for the name (`ViewBinding.Java.Node.IsContended`), and then it does not.

The headline is `ViewBinding.Java.Reading.cast_writes`. It needs that the names of the imports are
spelled out, and it speaks of the names that have no letters but those of ASCII: otherwise the cast
does not see a name for what it is.
-/

namespace ViewBinding.Java

open Text

/-! ### The rules of scope -/

namespace Node

/-- The type of the nesting `around` is the type of that nesting or one around it, and it declares
a member type of that simple name. -/
structure HasMemberType (source : String) (root : Node) (nesting : List String) (simple : String)
    (around : List String) : Prop where
  ne_nil : around ≠ []
  encloses : around <+: nesting
  declares : root.DeclaresType source (around ++ [simple])

/-- Of the types that declare a member type of that simple name, the one of the nesting `around` is
the innermost. -/
structure HasInnermost (source : String) (root : Node) (nesting : List String) (simple : String)
    (around : List String) : Prop extends HasMemberType source root nesting simple around where
  innermost : ∀ other, root.HasMemberType source nesting simple other →
    other.length ≤ around.length

/-- **What a simple name denotes** inside the type of that nesting, as a text in the same package
without imports has to write it. -/
inductive Denotes (source : String) (root : Node) (nesting : List String) (simple : String) :
    (name : String) → Prop
  /-- The innermost member type, by its name relative to the package. -/
  | member {around : List String} (h : root.HasInnermost source nesting simple around) :
      Denotes source root nesting simple (dotted (around ++ [simple]))
  /-- An imported type, by its qualified name. -/
  | imported {qualified : String}
      (hmember : ∀ around, ¬root.HasMemberType source nesting simple around)
      (h : root.Imports source simple qualified) : Denotes source root nesting simple qualified
  /-- A type at the top level, by its simple name. -/
  | topLevel (hmember : ∀ around, ¬root.HasMemberType source nesting simple around)
      (himport : ∀ qualified, ¬root.Imports source simple qualified)
      (h : root.DeclaresType source [simple]) : Denotes source root nesting simple simple

/-- **A name is contended for**: it denotes a member type, and an import brings in the simple name
for a type that is named otherwise. -/
def IsContended (source : String) (root : Node) (nesting : List String) (simple : String) : Prop :=
  ∃ around qualified, root.HasInnermost source nesting simple around ∧
    root.Imports source simple qualified ∧ qualified ≠ dotted (around ++ [simple])

end Node

/-! ### The name that replaces a simple name -/

namespace Reading

variable {number : Nat} {source : String} {root : Node} {nesting around : List String}
  {simple name qualified : String}

theorem mem_types_iff {type : List String} :
    type ∈ (ofTree number source root).scope.types ↔ root.DeclaresType source type :=
  mem_declaredTypes_outline_iff

/-- The declared type that is found is the innermost member type, or a type at the top level if
there is no member type. -/
theorem declaredType?_ofTree_iff (number : Nat) {type : List String} :
    (ofTree number source root).scope.declaredType? nesting simple = some type ↔
      (∃ around, root.HasInnermost source nesting simple around ∧ type = around ++ [simple]) ∨
        (∀ around, ¬root.HasMemberType source nesting simple around) ∧
          root.DeclaresType source [simple] ∧ type = [simple] := by
  have hcases {inner : List String} (hinner : inner <+: nesting)
      (hmem : inner ++ [simple] ∈ (ofTree number source root).scope.types) :
      inner = [] ∨ root.HasMemberType source nesting simple inner := by
    by_cases hnil : inner = []
    · exact .inl hnil
    · exact .inr ⟨hnil, hinner, mem_types_iff.mp hmem⟩
  rw [TypeScope.declaredType?_eq_some_iff]
  constructor
  · rintro ⟨around, haround, rfl, hmem, hlongest⟩
    have hinner {inner : List String} (h : root.HasMemberType source nesting simple inner) :
        inner.length ≤ around.length :=
      hlongest inner h.encloses (mem_types_iff.mpr h.declares)
    rcases hcases haround hmem with rfl | h
    · refine .inr ⟨fun inner h => h.ne_nil ?_, mem_types_iff.mp hmem, rfl⟩
      exact List.length_eq_zero_iff.mp (Nat.le_zero.mp (hinner h))
    · exact .inl ⟨around, ⟨h, fun _ => hinner⟩, rfl⟩
  · rintro (⟨around, h, rfl⟩ | ⟨hmember, hdeclares, rfl⟩)
    · refine ⟨around, h.encloses, rfl, mem_types_iff.mpr h.declares, fun inner hinner hmem => ?_⟩
      rcases hcases hinner hmem with rfl | h'
      · exact Nat.zero_le _
      · exact h.innermost inner h'
    · refine ⟨[], List.nil_prefix, rfl, mem_types_iff.mpr hdeclares, fun inner hinner hmem => ?_⟩
      rcases hcases hinner hmem with rfl | h'
      · exact Nat.le_refl _
      · exact absurd h' (hmember inner)

/-- Where there is a member type, there is an innermost one. -/
theorem exists_hasInnermost (h : root.HasMemberType source nesting simple around) :
    ∃ inner, root.HasInnermost source nesting simple inner := by
  have hsome : ((ofTree 0 source root).scope.declaredType? nesting simple).isSome := by
    rw [TypeScope.declaredType?, List.find?_isSome]
    exact ⟨_, List.mem_map_of_mem (Constants.mem_outward_iff.mpr h.encloses),
      by simpa using mem_types_iff.mpr h.declares⟩
  obtain ⟨type, htype⟩ := Option.isSome_iff_exists.mp hsome
  rcases (declaredType?_ofTree_iff 0).mp htype with ⟨inner, hinner, -⟩ | ⟨hmember, -⟩
  · exact ⟨inner, hinner⟩
  · exact absurd h (hmember around)

theorem hasInnermost_of_declaredType? (hne : around ≠ [])
    (h : (ofTree number source root).scope.declaredType? nesting simple =
      some (around ++ [simple])) : root.HasInnermost source nesting simple around := by
  rcases (declaredType?_ofTree_iff number).mp h with ⟨inner, hinner, heq⟩ | ⟨-, -, heq⟩
  · rw [List.append_cancel_right heq]
    exact hinner
  · exact absurd (List.append_left_eq_self.mp heq) hne

theorem hasInnermost_unique {around' : List String}
    (h : root.HasInnermost source nesting simple around)
    (h' : root.HasInnermost source nesting simple around') : around = around' := by
  have hfound := (declaredType?_ofTree_iff 0).mpr (.inl ⟨around, h, rfl⟩)
  have hfound' := (declaredType?_ofTree_iff 0).mpr (.inl ⟨around', h', rfl⟩)
  exact List.append_cancel_right (Option.some.inj (hfound.symm.trans hfound'))

variable (hspelled : ∀ statement ∈ root.children, statement.SpellsImport source)

include hspelled

/-- An imported type is taken first. -/
theorem replacement?_of_imports (h : root.Imports source simple qualified) :
    (ofTree number source root).scope.replacement? nesting simple = some qualified := by
  have himported : (ofTree number source root).scope.header.imported? simple = some qualified :=
    (Header.imported?_ofTree_iff hspelled).mpr h
  rw [TypeScope.replacement?, himported, Option.some_or]

theorem replacement?_of_not_imports (h : ∀ qualified, ¬root.Imports source simple qualified) :
    (ofTree number source root).scope.replacement? nesting simple =
      ((ofTree number source root).scope.declaredType? nesting simple).map dotted := by
  have himported : (ofTree number source root).scope.header.imported? simple = none := by
    refine Option.eq_none_iff_forall_ne_some.mpr fun qualified hqualified => ?_
    exact h qualified ((Header.imported?_ofTree_iff hspelled).mp hqualified)
  rw [TypeScope.replacement?, himported, Option.none_or, TypeScope.declared?]

/-- A simple name that denotes something is replaced, and what it denotes replaces it exactly if
the name is not contended for. -/
theorem exists_replacement?_of_denotes (number : Nat)
    (h : root.Denotes source nesting simple name) :
    ∃ other, (ofTree number source root).scope.replacement? nesting simple = some other ∧
      (other = name ↔ ¬root.IsContended source nesting simple) := by
  cases h with
  | @member around hinner =>
    by_cases himport : ∃ qualified, root.Imports source simple qualified
    · obtain ⟨qualified, hqualified⟩ := himport
      refine ⟨qualified, replacement?_of_imports hspelled hqualified, ?_, fun hnot => ?_⟩
      · rintro rfl ⟨around', qualified', hinner', hqualified', hne⟩
        rw [hasInnermost_unique hinner' hinner] at hne
        exact hne (hqualified'.unique hqualified)
      · by_contra hne
        exact hnot ⟨around, qualified, hinner, hqualified, hne⟩
    · have hnot := not_exists.mp himport
      refine ⟨_, ?_, iff_of_true rfl fun ⟨_, qualified, _, hqualified, _⟩ => hnot _ hqualified⟩
      rw [replacement?_of_not_imports hspelled hnot,
        (declaredType?_ofTree_iff number).mpr (.inl ⟨around, hinner, rfl⟩)]
      rfl
  | imported hmember hqualified =>
    exact ⟨name, replacement?_of_imports hspelled hqualified,
      iff_of_true rfl fun ⟨_, _, hinner, _⟩ => hmember _ hinner.toHasMemberType⟩
  | topLevel hmember himport hdeclares =>
    refine ⟨simple, ?_, iff_of_true rfl fun ⟨_, _, hinner, _⟩ => hmember _ hinner.toHasMemberType⟩
    rw [replacement?_of_not_imports hspelled himport,
      (declaredType?_ofTree_iff number).mpr (.inr ⟨hmember, hdeclares, rfl⟩)]
    simp [dotted, joinPieces]

/-- A simple name that denotes nothing is not replaced. -/
theorem replacement?_of_not_denotes (h : ∀ name, ¬root.Denotes source nesting simple name) :
    (ofTree number source root).scope.replacement? nesting simple = none := by
  have himport (qualified : String) : ¬root.Imports source simple qualified := by
    intro hqualified
    by_cases hmember : ∃ around, root.HasMemberType source nesting simple around
    · obtain ⟨around, haround⟩ := hmember
      obtain ⟨inner, hinner⟩ := exists_hasInnermost haround
      exact h _ (.member hinner)
    · exact h qualified (.imported (not_exists.mp hmember) hqualified)
  rw [replacement?_of_not_imports hspelled himport, Option.map_eq_none_iff]
  refine Option.eq_none_iff_forall_ne_some.mpr fun type htype => ?_
  rcases (declaredType?_ofTree_iff number).mp htype with
    ⟨around, hinner, -⟩ | ⟨hmember, hdeclares, -⟩
  · exact h _ (.member hinner)
  · exact h simple (.topLevel hmember himport hdeclares)

end Reading

/-! ### What the cast writes -/

/-- **A word of a type is written by the rules of scope** as far as they are kept. If the simple
name in front denotes something, this is written in its place, exactly if the name is not contended
for; an imported type is written in any case. If the name denotes nothing, the word is kept, and so
is whatever is no name. -/
structure Node.Writes (source : String) (root : Node) (nesting : List String)
    (word out : List Char) : Prop where
  sign : word.any TypeText.isWordPart = false → out = word
  denoted : word.any TypeText.isWordPart → ∀ name,
    root.Denotes source nesting (String.ofList (TypeScope.splitRun word).1) name →
      (out = name.toList ++ (TypeScope.splitRun word).2 ↔
        ¬root.IsContended source nesting (String.ofList (TypeScope.splitRun word).1))
  imported : word.any TypeText.isWordPart → ∀ qualified,
    root.Imports source (String.ofList (TypeScope.splitRun word).1) qualified →
      out = qualified.toList ++ (TypeScope.splitRun word).2
  kept : word.any TypeText.isWordPart →
    (∀ name, ¬root.Denotes source nesting (String.ofList (TypeScope.splitRun word).1) name) →
      out = word

namespace Reading

variable {number : Nat} {source : String} {root : Node} {nesting : List String}

/-- What is written for a word, run by run. -/
def written (r : Reading) (nesting : List String) (word : List Char) : List Char :=
  (TypeScope.runs word).flatMap (r.scope.rewriteRun nesting)

theorem writes_written (hspelled : ∀ statement ∈ root.children, statement.SpellsImport source)
    {cs word : List Char} (hword : word ∈ TypeText.words cs) (hascii : TypeText.isAscii word) :
    root.Writes source nesting word ((ofTree number source root).written nesting word) := by
  rw [written, TypeScope.runs_of_mem_words hword hascii, List.flatMap_singleton,
    TypeScope.rewriteRun, TypeScope.any_isRunPart_eq hascii]
  refine ⟨fun hsign => ?_, fun hname name hdenotes => ?_, fun hname qualified himports => ?_,
    fun hname hnone => ?_⟩
  · rw [hsign, if_neg Bool.false_ne_true]
  · obtain ⟨other, hother, hiff⟩ := exists_replacement?_of_denotes hspelled number hdenotes
    rw [if_pos hname, hother, ← hiff, List.append_cancel_right_eq, String.toList_inj]
  · rw [if_pos hname, replacement?_of_imports hspelled himports]
  · rw [if_pos hname, replacement?_of_not_denotes hspelled hnone]

/-- **The names in the type of a field are written by the rules of scope**, whatever the text and
the types around the field are. The type is cut into words after its white space has been tidied
up, and what is written for each of them makes up the cast. -/
theorem cast_writes (number : Nat) (source : String) (root : Node) (nesting : List String)
    (raw : String) (hspelled : ∀ statement ∈ root.children, statement.SpellsImport source) :
    let words := TypeText.words (TypeText.tidy raw).toList
    compact words.flatten = compact raw.toList ∧ ∃ out : List Char → List Char,
      ((ofTree number source root).scope.cast nesting raw).text =
        String.ofList (words.flatMap out) ∧
      ∀ word ∈ words, TypeText.isAscii word →
        root.Writes source nesting word (out word) := by
  intro words
  refine ⟨?_, (ofTree number source root).written nesting, ?_,
    fun word hword hascii => writes_written hspelled hword hascii⟩
  · rw [← TypeText.compact_tidy]
    exact congrArg compact (TypeText.flatten_cutBy _ _)
  · rw [TypeScope.cast, TypeScope.runs_eq_flatMap_words, List.flatMap_assoc]
    rfl

/-- A member type of a type around the field, which hides a type at the top level, and an imported
type. -/
theorem cast_writes_nested :
    let source := "import a.B;\nclass A \x7b static class C \x7b \x7d\n"
      ++ "class D \x7b @BindView(1) Map< C ,B.E > v; \x7d \x7d\nclass C \x7b \x7d\n"
    let root := Node.ofText source
    let words := TypeText.words (TypeText.tidy "Map< C ,B.E >").toList
    (bindings 0 source).fields.map (fun f => (f.owner.nesting, f.type.text)) =
        [(["A", "D"], "Map<A.C, a.B.E>")] ∧
      words = ["Map".toList, ['<'], ['C'], [','], [' '], "B.E".toList, ['>']] ∧
      root.Denotes source ["A", "D"] "C" "A.C" ∧
      ∃ out : List Char → List Char,
        ((ofTree 0 source root).scope.cast ["A", "D"] "Map< C ,B.E >").text =
          String.ofList (words.flatMap out) ∧
        ∀ word ∈ words, root.Writes source ["A", "D"] word (out word) := by
  intro source root words
  obtain ⟨hfields, hwords, hspelled, hascii, hfound⟩ :
      (bindings 0 source).fields.map (fun f => (f.owner.nesting, f.type.text)) =
          [(["A", "D"], "Map<A.C, a.B.E>")] ∧
        words = ["Map".toList, ['<'], ['C'], [','], [' '], "B.E".toList, ['>']] ∧
        (∀ statement ∈ root.children, statement.SpellsImport source) ∧
        (∀ word ∈ words, TypeText.isAscii word) ∧
        (ofTree 0 source root).scope.declaredType? ["A", "D"] "C" = some (["A"] ++ ["C"]) := by
    decide +kernel
  obtain ⟨-, out, htext, hout⟩ := cast_writes 0 source root ["A", "D"] "Map< C ,B.E >" hspelled
  have hmember := hasInnermost_of_declaredType? (List.cons_ne_nil "A" []) hfound
  exact ⟨hfields, hwords, .member hmember, out, htext,
    fun word hword => hout word hword (hascii word hword)⟩

/-- **An import takes a member type's name away**: the name denotes the member type, and what is
written is the imported type. -/
theorem exists_contended_name :
    let source := "import x.Foo;\nclass A \x7b static class Foo \x7b\x7d @BindView(1) Foo v; \x7d\n"
    let root := Node.ofText source
    faultsOf root = [] ∧ root.Denotes source ["A"] "Foo" "A.Foo" ∧
      root.Imports source "Foo" "x.Foo" ∧ root.IsContended source ["A"] "Foo" ∧
      (bindings 0 source).fields.map (fun f => (f.owner.nesting, f.type.text)) =
        [(["A"], "x.Foo")] ∧
      (bindings 0 source).report = [] := by
  intro source root
  obtain ⟨hclean, hfound, hspelled, himported, hfields, hreport⟩ : faultsOf root = [] ∧
      (ofTree 0 source root).scope.declaredType? ["A"] "Foo" = some (["A"] ++ ["Foo"]) ∧
      (∀ statement ∈ root.children, statement.SpellsImport source) ∧
      (Header.ofTree source root).imported? "Foo" = some "x.Foo" ∧
      (bindings 0 source).fields.map (fun f => (f.owner.nesting, f.type.text)) =
        [(["A"], "x.Foo")] ∧
      (bindings 0 source).report = [] := by decide +kernel
  have hmember := hasInnermost_of_declaredType? (List.cons_ne_nil "A" []) hfound
  have himports := (Header.imported?_ofTree_iff hspelled).mp himported
  exact ⟨hclean, .member hmember, himports, ⟨_, _, hmember, himports, by decide⟩, hfields, hreport⟩

end Reading

end ViewBinding.Java
