import ViewBinding.Proofs.Cast.OpenNames
import ViewBinding.Proofs.Companion.PerType
import ViewBinding.Proofs.Scan.Origins

/-!
# Imports of companions

A companion is a text of its own and has no imports but those on demand that its fields carry. They
stand in it in ascending order, each once, and its own package is not among them; a field that has
been displaced by a later one adds nothing (`ViewBinding.Companion.ImportsFor`).

A field of Java carries all imports on demand of its text or none, by the names in its type that are
left open (`ViewBinding.Java.ReliesOn`). The brackets behind the name of the field belong to its
type too, and an annotation may stand in them, but they are not looked at: if nothing else is left
open, the imports that they need are missing. The headline is
`ViewBinding.Scan.synthesize_imports`.
-/

namespace ViewBinding

open Java Text

/-! ### From fields to companions -/

namespace Companion

variable {s t name package : String} {imports : List String} {fields : List BoundField}
  {c : Companion} {g : Group}

theorem mem_insertImport_iff : t ∈ insertImport s imports ↔ t = s ∨ t ∈ imports := by
  induction imports with
  | nil => simp [insertImport]
  | cons a imports ih =>
    unfold insertImport
    split
    · exact List.mem_cons
    · split
      · rename_i heq
        subst heq
        simp
      · rw [List.mem_cons, ih, List.mem_cons, or_left_comm]

/-- An ascending list is still ascending with another name in it. -/
theorem pairwise_insertImport (h : imports.Pairwise (· < ·)) :
    (insertImport s imports).Pairwise (· < ·) := by
  induction imports with
  | nil => exact List.pairwise_singleton _ s
  | cons a imports ih =>
    obtain ⟨ha, himports⟩ := List.pairwise_cons.mp h
    unfold insertImport
    split
    · rename_i hlt
      exact List.pairwise_cons.mpr
        ⟨List.forall_mem_cons.mpr ⟨hlt, fun b hb => hlt.trans (ha b hb)⟩, h⟩
    · split
      · exact h
      · rename_i hnot hne
        have hlt : a < s := lt_of_le_of_ne (not_lt.mp hnot) (Ne.symm hne)
        refine List.pairwise_cons.mpr ⟨fun b hb => ?_, ih himports⟩
        rcases mem_insertImport_iff.mp hb with rfl | hb
        · exact hlt
        · exact ha b hb

theorem mem_foldr_insertImport_iff {names : List String} :
    name ∈ names.foldr insertImport [] ↔ name ∈ names := by
  induction names with
  | nil => rfl
  | cons a names ih => rw [List.foldr_cons, mem_insertImport_iff, ih, List.mem_cons]

theorem pairwise_foldr_insertImport (names : List String) :
    (names.foldr insertImport []).Pairwise (· < ·) := by
  induction names with
  | nil => exact .nil
  | cons a names ih => exact pairwise_insertImport ih

theorem mem_importsOf_iff : name ∈ importsOf package fields ↔
    name ≠ package ∧ ∃ f ∈ fields, name ∈ f.type.imports := by
  rw [importsOf, mem_foldr_insertImport_iff, List.mem_filter, List.mem_flatMap, and_comm,
    decide_eq_true_iff]

/-- **The companion imports what its fields carry**: in ascending order, without its own package,
what the fields carry that are the last ones of the type with their view id. -/
structure ImportsFor (fields : List BoundField) (c : Companion) : Prop where
  package : c.package = c.owner.package
  ascending : c.imports.Pairwise (· < ·)
  nodup : c.imports.Nodup
  foreign : c.package ∉ c.imports
  mem_iff : ∀ name, name ∈ c.imports ↔ name ≠ c.package ∧
    ∃ f, Grouping.LastOf fields c.owner f.id f ∧ name ∈ f.type.imports

/-- The companion of a group of a list imports what the fields of the list carry. -/
theorem importsFor_of_ofGroup? (hg : g ∈ (Grouping.ofFields fields).1) (h : ofGroup? g = some c) :
    c.ImportsFor fields := by
  obtain ⟨-, rfl⟩ := ofGroup?_eq_some_iff.mp h
  have hascending : (importsOf g.owner.package g.fields).Pairwise (· < ·) :=
    pairwise_foldr_insertImport _
  refine ⟨rfl, hascending, hascending.imp ne_of_lt, fun hown => ?_, fun name => ?_⟩
  · exact (mem_importsOf_iff.mp hown).1 rfl
  · rw [mem_importsOf_iff]
    exact and_congr_right fun _ => exists_congr fun f =>
      and_congr_left fun _ => Grouping.mem_fields_ofFields_iff hg

theorem importsFor_of_mem (h : c ∈ (ofGroups (Grouping.ofFields fields).1).1) :
    c.ImportsFor fields := by
  obtain ⟨g, hg, hgc⟩ := exists_group_of_mem h
  exact importsFor_of_ofGroup? hg hgc

end Companion

/-! ### From texts to fields -/

namespace Java

/-- The field is declared in the tree with that type and with those brackets behind its name. -/
def DeclaresWith (number : Nat) (source : String) (root : Node) (f : BoundField)
    (type brackets : String) : Prop :=
  ∃ s ∈ sites source root, (Reading.ofTree number source root).Brings s.nesting s.member f ∧
    ∃ typeNode ∈ s.member.child? .type, ∃ declarator ∈ s.member.childrenIn .declarator,
      (Reading.ofTree number source root).Declares typeNode declarator f ∧
        type = typeNode.textIn source ∧ brackets = declarator.brackets source

/-- The dotted names of a type, and the single characters between them. -/
def namesIn (type : String) : List (List Char) :=
  TypeText.words (TypeText.tidy type).toList

/-- The type leaves no name open, but the brackets do, and there are imports on demand. -/
structure Node.PassesOver (source : String) (root : Node) (nesting : List String)
    (type brackets : String) : Prop where
  onDemand : root.onDemandImports source ≠ []
  brackets : root.LeavesOpen source nesting (namesIn brackets)
  type : ¬root.LeavesOpen source nesting (namesIn type)

/-- **The imports on demand that a field carries** that is declared with that type and those
brackets. If a run of the type is left open, they are all of the text, and else none. As far as all
letters are of ASCII, they are those that the names in the type and the brackets need, unless the
brackets are passed over. -/
structure ReliesOn (source : String) (root : Node) (f : BoundField) (type brackets : String) :
    Prop where
  runs : root.AllOrNone source
    (root.LeavesOpen source f.owner.nesting
      (TypeText.cutBy TypeScope.isRunPart (TypeText.tidy type).toList)) f.type.imports
  names : TypeText.isAscii (TypeText.tidy type).toList →
    TypeText.isAscii (TypeText.tidy brackets).toList →
      (root.AllOrNone source (root.LeavesOpen source f.owner.nesting (namesIn type) ∨
          root.LeavesOpen source f.owner.nesting (namesIn brackets)) f.type.imports ↔
        ¬root.PassesOver source f.owner.nesting type brackets)

variable {f : BoundField} {number : Nat} {source : String} {root : Node}

/-- **What a field of a tree carries depends on the type that it is declared with.** -/
theorem exists_reliesOn_of_mem_bindingsOfTree (hspelled : ∀ statement ∈ root.children,
      statement.SpellsImport source ∧ statement.SpellsOnDemand source)
    (h : f ∈ (bindingsOfTree number source root).fields) :
    ∃ type brackets, DeclaresWith number source root f type brackets ∧
      ReliesOn source root f type brackets := by
  obtain ⟨s, hs, notes, hf⟩ := exists_memberBindings_of_mem_bindingsOfTree h
  obtain ⟨hbrings, type, htype, declarator, hdeclarator, hcast⟩ := Reading.of_mem_memberBindings hf
  refine ⟨_, _, ⟨s, hs, hbrings, type, htype, declarator, hdeclarator, hcast.toDeclares, rfl,
    rfl⟩, ?_⟩
  have hruns := Reading.cast_imports number source root f.owner.nesting (type.textIn source)
    hspelled
  rw [show ((Reading.ofTree number source root).scope.cast f.owner.nesting
    (type.textIn source)).imports = f.type.imports from hcast.imports.symm] at hruns
  refine ⟨hruns, fun htype _ => ?_⟩
  rw [TypeScope.cutBy_isRunPart_eq_words htype] at hruns
  exact hruns.or_iff.trans (not_congr
    ⟨fun ⟨onDemand, brackets, type⟩ => ⟨onDemand, brackets, type⟩,
      fun ⟨onDemand, brackets, type⟩ => ⟨onDemand, brackets, type⟩⟩)

end Java

/-- The field of an entry carries no imports. -/
theorem Manifest.imports_of_toField {e : Entry} {f : BoundField} (h : e.toField = .ok f) :
    f.type.imports = [] := by
  obtain ⟨owner, -, -, -, -, rfl⟩ := toField_eq_ok_iff.mp h
  rfl

/-! ### Rounds -/

/-- **The imports of a round.** A companion imports what the fields carry that are assigned in it. A
field of a source carries the imports on demand by what its type leaves open, and a field of a
manifest carries none. -/
theorem Scan.synthesize_imports {sources manifests : Sources} {strict : Bool} {s : Scan}
    (hscan : scan sources manifests strict = .ok s)
    (hspelled : ∀ source ∈ sources, ∀ statement ∈ (Node.ofText source.content).children,
      statement.SpellsImport source.content ∧ statement.SpellsOnDemand source.content) :
    (∀ c ∈ s.synthesize.companions, c.ImportsFor s.fields) ∧
    ∀ f ∈ s.fields,
      (∃ number source, sources[number]? = some source ∧ ∃ type brackets,
        DeclaresWith number source.content (.ofText source.content) f type brackets ∧
          ReliesOn source.content (.ofText source.content) f type brackets) ∨
      (∃ manifest ∈ manifests, ∃ entries, Manifest.parse manifest.content = .ok entries ∧
        ∃ e ∈ entries, e.toField = .ok f) ∧ f.type.imports = [] := by
  refine ⟨fun c hc => Companion.importsFor_of_mem hc, fun f hf => ?_⟩
  rcases exists_origin hscan hf with ⟨number, source, hsource, hf⟩ |
    ⟨manifest, hmanifest, entries, hparse, e, he, hfield⟩
  · exact .inl ⟨number, source, hsource, exists_reliesOn_of_mem_bindingsOfTree
      (hspelled source (List.mem_of_getElem? hsource)) hf⟩
  · exact .inr ⟨⟨manifest, hmanifest, entries, hparse, e, he, hfield⟩,
      Manifest.imports_of_toField hfield⟩

/-- The package of the companions is imported on demand, and of the second type the only field that
leaves a name open is displaced. -/
theorem Scan.synthesize_imports_displaced :
    let sources : Sources := [⟨.inline, "package p;\nimport b.*;\nimport p.*;\nimport a.*;\n"
      ++ "class A \x7b @BindView(1) C v; \x7d\n"
      ++ "class E \x7b @BindView(1) C u; @BindView(1) int w; \x7d\n"⟩]
    let all := ["b", "p", "a"]
    ∃ s, scan sources [] false = .ok s ∧
      s.fields.map (fun f => (f.name, f.type.imports)) = [("v", all), ("u", all), ("w", [])] ∧
      s.synthesize.companions.map Companion.imports = [["a", "b"], []] ∧
      (∀ c ∈ s.synthesize.companions, c.ImportsFor s.fields) ∧
      ∀ f ∈ s.fields, ∃ number source, sources[number]? = some source ∧ ∃ type brackets,
        DeclaresWith number source.content (.ofText source.content) f type brackets ∧
          ReliesOn source.content (.ofText source.content) f type brackets := by
  intro sources all
  obtain ⟨hfields, hspelled⟩ : (allBindings sources).fields = [
        ⟨.topLevel "p" "A", "v", ⟨"C", all⟩, 1, some ⟨0, 72, 73⟩⟩,
        ⟨.topLevel "p" "E", "u", ⟨"C", all⟩, 1, some ⟨0, 102, 103⟩⟩,
        ⟨.topLevel "p" "E", "w", ⟨"int", []⟩, 1, some ⟨0, 122, 123⟩⟩] ∧
      ∀ source ∈ sources, ∀ statement ∈ (Node.ofText source.content).children,
        statement.SpellsImport source.content ∧ statement.SpellsOnDemand source.content := by
    decide +kernel
  have hscan : scan sources [] false = .ok ⟨sources, (allBindings sources).fields ++ [],
      (allBindings sources).report ++ [], false⟩ := rfl
  rw [List.append_nil, hfields] at hscan
  obtain ⟨himports, hrelies⟩ := Scan.synthesize_imports hscan hspelled
  refine ⟨_, hscan, rfl, by decide +kernel, himports, fun f hf => ?_⟩
  exact (hrelies f hf).resolve_right fun ⟨⟨_, hmanifest, _⟩, _⟩ => by cases hmanifest

/-- **Imports can be missing**: the type of the field, brackets included, names an annotation that
only the import on demand can bring in, and the field does not carry that import. The tree is the
one of the text (`ViewBinding.Java.Node.ofText`). It is written out because brackets with an
annotation in them are no part of plain texts (`ViewBinding.Java.Plain`), and the reader of all
other texts evaluates when it is run, but not by `decide`. -/
theorem Java.exists_brackets_passed_over :
    let source := "import x.*;\nclass A \x7b @BindView(1) int v @B []; \x7d\n"
    let node (kind : Kind) (role : Option Role) (start stop : Nat) (children : List Node) : Node :=
      .mk kind role ⟨start, stop⟩ false children
    let root := node .program none 0 50 [
      node .importDeclaration none 0 11 [node (.sign "import") none 0 6 [],
        node .identifier none 7 8 [], node (.sign ".") none 8 9 [],
        node .asterisk none 9 10 [node (.sign "*") none 9 10 []], node (.sign ";") none 10 11 []],
      node .classDeclaration none 12 49 [node (.sign "class") none 12 17 [],
        node .identifier (some .name) 18 19 [],
        node .typeBody (some .body) 20 49 [node (.sign "\x7b") none 20 21 [],
          node .fieldDeclaration none 22 47 [
            node .modifiers none 22 34 [node .annotationUse none 22 34 [
              node (.sign "@") none 22 23 [], node .identifier (some .name) 23 31 [],
              node .annotationArguments (some .arguments) 31 34 [node (.sign "(") none 31 32 [],
                node (.literal .decimal) none 32 33 [], node (.sign ")") none 33 34 []]]],
            node .construct (some .type) 35 38 [node (.sign "int") none 35 38 []],
            node .declarator (some .declarator) 39 46 [node .identifier (some .name) 39 40 [],
              node .dimensions (some .dimensions) 41 46 [
                node .annotationMarker none 41 43 [node (.sign "@") none 41 42 [],
                  node .identifier (some .name) 42 43 []],
                node (.sign "[") none 44 45 [], node (.sign "]") none 45 46 []]],
            node (.sign ";") none 46 47 []],
          node (.sign "\x7d") none 48 49 []]]]
    faultsOf root = [] ∧ root.onDemandImports source = ["x"] ∧
      ∃ f, (bindingsOfTree 0 source root).fields = [f] ∧ f.type = ⟨"int@B[]", []⟩ ∧
        DeclaresWith 0 source root f "int" "@B []" ∧
        root.LeavesOpen source f.owner.nesting (namesIn "@B []") ∧
        ¬root.AllOrNone source (root.LeavesOpen source f.owner.nesting (namesIn "int") ∨
          root.LeavesOpen source f.owner.nesting (namesIn "@B []")) f.type.imports := by
  intro source node root
  obtain ⟨hclean, honDemand, hfields, hspelled, hdeclared, hrun⟩ :
      faultsOf root = [] ∧ root.onDemandImports source = ["x"] ∧
        (bindingsOfTree 0 source root).fields =
          [⟨.topLevel "" "A", "v", ⟨"int@B[]", []⟩, 1, some ⟨0, 39, 40⟩⟩] ∧
        (∀ statement ∈ root.children,
          statement.SpellsImport source ∧ statement.SpellsOnDemand source) ∧
        (∀ s ∈ sites source root, ∀ type ∈ s.member.child? .type,
          ∀ declarator ∈ s.member.childrenIn .declarator,
            type.textIn source = "int" ∧ declarator.brackets source = "@B []") ∧
        (Reading.ofTree 0 source root).scope.isUnresolved ["A"] ['B'] := by decide +kernel
  obtain ⟨type, brackets, hwith, -⟩ := exists_reliesOn_of_mem_bindingsOfTree hspelled
    (hfields ▸ List.mem_singleton_self _)
  obtain ⟨s, hs, -, typeNode, htype, declarator, hdeclarator, -, rfl, rfl⟩ := id hwith
  obtain ⟨hint, hbrackets⟩ := hdeclared s hs typeNode htype declarator hdeclarator
  rw [hint, hbrackets] at hwith
  have hopen : root.LeavesOpen source ["A"] (namesIn "@B []") :=
    ⟨['B'], by decide +kernel, (Reading.isUnresolved_iff 0 fun statement hstatement =>
      (hspelled statement hstatement).1).mp hrun⟩
  refine ⟨hclean, honDemand, _, hfields, rfl, hwith, hopen, fun hall => ?_⟩
  -- all imports on demand are called for, and there are none
  have himports := hall.all (.inr hopen)
  rw [honDemand] at himports
  cases himports

end ViewBinding
