import ViewBinding.Companion.Layout
import ViewBinding.Proofs.Cast.TypeText
import ViewBinding.Proofs.Companion.PerType
import ViewBinding.Proofs.Scan.Origins

/-!
# Casts in companions

The type in a cast is a text that has been copied from a source or a manifest. If it can stand
between two parentheses, the statement reads as it is meant to: what follows the cast is the call
that finds the widget (`ViewBinding.Assignment.HoldsTogether`).

A round passes such texts on as they are: a statement holds together exactly if the type that the
field is declared with can stand between two parentheses
(`ViewBinding.Scan.statements_hold_together_iff`). Tidying up and replacing names neither make a
text whole nor break one (`ViewBinding.Java.isWhole_tidy_iff`,
`ViewBinding.Java.TypeScope.isWhole_cast_iff`). But types are not checked: a comment in a type of
Java, whose line is joined with the next, makes a statement without a call
(`ViewBinding.Scan.exists_cast_with_comment`).
-/

namespace ViewBinding

open Java Text

/-! ### Statements -/

/-- A text between the parentheses of a cast: on one line, and whole. -/
structure IsCast (text : String) : Prop where
  whole : IsWhole text.toList
  line : ∀ c ∈ text.toList, isBlank c → c = ' '

/-- The text is on one line, and it is whole exactly if the text that it was made of is. -/
structure IsCastOf (text origin : String) : Prop where
  line : ∀ c ∈ text.toList, isBlank c → c = ' '
  whole_iff : IsWhole text.toList ↔ IsWhole origin.toList

theorem IsCastOf.isCast_iff {text origin : String} (h : IsCastOf text origin) :
    IsCast text ↔ IsWhole origin.toList :=
  ⟨fun hcast => h.whole_iff.mp hcast.whole, fun hwhole => ⟨h.whole_iff.mpr hwhole, h.line⟩⟩

namespace Assignment

/-- What stands in front of the type, with the parenthesis that it is put into. -/
def front (a : Assignment) : String :=
  a.target ++ "." ++ a.field ++ " = ("

/-- The call that finds the widget, with the end of the statement. -/
def call (a : Assignment) : String :=
  "(" ++ a.target ++ ".findViewById(" ++ toString a.id.toInt ++ "));"

/-- A statement is its front, the type, a parenthesis and the call. -/
theorem render_plain (a : Assignment) :
    a.render .plain = a.front ++ a.type ++ ")" ++ a.call := by
  apply String.toList_inj.mp
  simp [render, pieces, Piece.allPainted, Piece.painted, Piece.plain, Piece.type, String.join,
    front, call]

/-- **The statement is one assignment**: its type is a cast, and what follows the parenthesis that
closes the cast is the call. -/
structure HoldsTogether (a : Assignment) : Prop where
  cast : IsCast a.type
  call : LineState.start.afterClosing (a.type ++ ")" ++ a.call).toList = some a.call.toList

/-- The statement assigns the field: it has its name, its id and its type. -/
structure Assigns (a : Assignment) (f : BoundField) : Prop where
  name : a.field = f.name
  id : a.id = f.id
  type : a.type = f.type.text

theorem holdsTogether_iff {a : Assignment} : a.HoldsTogether ↔ IsCast a.type := by
  refine ⟨HoldsTogether.cast, fun h => ⟨h, ?_⟩⟩
  rw [String.toList_append, String.toList_append, List.append_assoc]
  exact isWhole_iff_afterClosing.mp h.whole a.call.toList

end Assignment

/-! ### Types of manifests -/

namespace Manifest

variable {e : Entry} {f : BoundField}

/-- The type of a field is on one line, and it is whole exactly if the entry has a whole text for
it. -/
theorem isCastOf_of_toField (h : e.toField = .ok f) : IsCastOf f.type.text e.fieldType := by
  rw [(of_toField h).2]
  exact ⟨fun c hc => eq_space_of_mem_tidy hc, isWhole_tidy_iff _⟩

end Manifest

/-! ### Types of sources -/

namespace Java

/-- What stands in a type can be replaced without changing how it is read: names by plain names, and
brackets by tidy ones. -/
structure IsReplaceable (source : String) (root : Node) : Prop where
  scope : (Reading.ofTree 0 source root).scope.IsPlain
  brackets : ∀ s ∈ sites source root, s.member.kind = .fieldDeclaration →
    ∀ declarator ∈ s.member.childrenIn .declarator,
      declarator.brackets source = "" ∨ startsPlain (declarator.brackets source)

instance (source : String) (root : Node) : Decidable (IsReplaceable source root) :=
  decidable_of_iff ((Reading.ofTree 0 source root).scope.IsPlain ∧
      ∀ s ∈ sites source root, s.member.kind = .fieldDeclaration →
        ∀ declarator ∈ s.member.childrenIn .declarator,
          declarator.brackets source = "" ∨ startsPlain (declarator.brackets source))
    ⟨fun ⟨scope, brackets⟩ => ⟨scope, brackets⟩, fun ⟨scope, brackets⟩ => ⟨scope, brackets⟩⟩

/-- The text is the type that the field is declared with: the one of an annotated member, with the
brackets behind the name of the field. -/
def DeclaresType (number : Nat) (source : String) (root : Node) (f : BoundField) (text : String) :
    Prop :=
  ∃ s ∈ sites source root, s.member.kind = .fieldDeclaration ∧
    ((Reading.ofTree number source root).binding? s.member).isSome ∧
      TypeName.ofNesting? (Header.ofTree source root).package s.nesting = some f.owner ∧
        ∃ type ∈ s.member.child? .type, ∃ declarator ∈ s.member.childrenIn .declarator,
          ∃ name ∈ declarator.child? .name,
            f.name = name.textIn source ∧ f.place = some ⟨number, name.extent⟩ ∧
              text = type.textIn source ++ declarator.brackets source

/-- The type to cast to, with tidy brackets behind it, is made of the declared one. -/
theorem isCastOf_append {scope : TypeScope} (hplain : scope.IsPlain) (nesting : List String)
    (raw : String) {brackets : String} (hbrackets : brackets = "" ∨ startsPlain brackets) :
    IsCastOf ((scope.cast nesting raw).text ++ TypeText.tidy brackets) (raw ++ brackets) := by
  have hline : ∀ c ∈ (scope.cast nesting raw).text.toList, isBlank c → c = ' ' :=
    fun c => TypeScope.eq_space_of_mem_cast hplain
  -- the two texts are tidied up apart, so the brackets must not go on with what the type ends in
  rcases hbrackets with rfl | hstarts
  · rw [show TypeText.tidy "" = "" from rfl, String.append_empty, String.append_empty]
    exact ⟨hline, TypeScope.isWhole_cast_iff hplain nesting raw⟩
  · refine ⟨fun c hc => ?_, TypeScope.isWhole_cast_append_iff hplain nesting raw hstarts⟩
    rw [String.toList_append] at hc
    rcases List.mem_append.mp hc with hc | hc
    · exact hline c hc
    · exact eq_space_of_mem_tidy hc

/-- **The type of a field that is bound is made of a declared type.** -/
theorem IsReplaceable.isCastOf {number : Nat} {source : String} {root : Node}
    (h : IsReplaceable source root) {f : BoundField}
    (hf : f ∈ (bindingsOfTree number source root).fields) :
    ∃ text, DeclaresType number source root f text ∧ IsCastOf f.type.text text := by
  obtain ⟨s, hs, hbrings⟩ := exists_site_of_mem_bindingsOfTree hf
  obtain ⟨type, htype, declarator, hdeclarator, ⟨name, hname, hspelled, hplace⟩, htext⟩ :=
    hbrings.declared
  refine ⟨type.textIn source ++ declarator.brackets source, ⟨s, hs, hbrings.kind,
    hbrings.annotated, hbrings.owner, type, htype, declarator, hdeclarator, name, hname, hspelled,
    hplace, rfl⟩, ?_⟩
  rw [htext]
  exact isCastOf_append h.scope _ _ (h.brackets s hs hbrings.kind declarator hdeclarator)

end Java

/-! ### Rounds -/

namespace Scan

/-- A statement of a round assigns a field of the type that the companion is for. -/
theorem exists_field_of_mem_statements {s : Scan} {c : Companion} {a : Assignment}
    (hc : c ∈ s.synthesize.companions) (ha : a ∈ c.method.statements) :
    ∃ f ∈ s.fields, f.owner = c.owner ∧ a.Assigns f := by
  have hbinds : c.Binds s.fields := Companion.binds_of_mem hc
  obtain ⟨f, ⟨before, after, hfields, howner, hid, -⟩, hassigned⟩ :=
    (hbinds.mem_statements_iff a).mp ha
  exact ⟨f, by rw [hfields]; simp, howner, congrArg Assignment.field hassigned, hid.symm,
    congrArg Assignment.type hassigned⟩

/-- The text is the type that the field is declared with, in a source or in a manifest. -/
def DeclaresType (sources manifests : Sources) (f : BoundField) (text : String) : Prop :=
  (∃ number source, sources[number]? = some source ∧
      Java.DeclaresType number source.content (.ofText source.content) f text) ∨
    ∃ manifest ∈ manifests, ∃ entries, Manifest.parse manifest.content = .ok entries ∧
      ∃ e ∈ entries, e.toField = .ok f ∧ text = e.fieldType

/-- **A statement holds together exactly if the type that its field is declared with can stand
between two parentheses.** Whatever the type is, the line is the assignment to the field, the cast
and the call, and the cast is on one line. So all statements of a round hold together if all types
do. -/
theorem statements_hold_together_iff {sources manifests : Sources} {strict : Bool} {s : Scan}
    (hscan : scan sources manifests strict = .ok s)
    (hsources : ∀ source ∈ sources, IsReplaceable source.content (.ofText source.content)) :
    (∀ c ∈ s.synthesize.companions, ∀ a ∈ c.method.statements,
      a.render .plain = a.front ++ a.type ++ ")" ++ a.call ∧
      (∀ x ∈ a.type.toList, isBlank x → x = ' ') ∧
      ∃ f ∈ s.fields, f.owner = c.owner ∧ a.Assigns f ∧
        ∃ text, DeclaresType sources manifests f text ∧
          (a.HoldsTogether ↔ IsWhole text.toList)) ∧
    ((∀ f ∈ s.fields, ∀ text, DeclaresType sources manifests f text → IsWhole text.toList) →
      ∀ c ∈ s.synthesize.companions, ∀ a ∈ c.method.statements, a.HoldsTogether) := by
  have hmade : ∀ f ∈ s.fields,
      ∃ text, DeclaresType sources manifests f text ∧ IsCastOf f.type.text text := by
    intro f hf
    rcases exists_origin hscan hf with ⟨number, source, hsource, hf⟩ |
      ⟨manifest, hmanifest, entries, hparse, e, he, hfield⟩
    · obtain ⟨text, htext, hcast⟩ := (hsources source (List.mem_of_getElem? hsource)).isCastOf hf
      exact ⟨text, .inl ⟨number, source, hsource, htext⟩, hcast⟩
    · exact ⟨e.fieldType, .inr ⟨manifest, hmanifest, entries, hparse, e, he, hfield, rfl⟩,
        Manifest.isCastOf_of_toField hfield⟩
  refine ⟨fun c hc a ha => ?_, fun hwhole c hc a ha => ?_⟩ <;>
    obtain ⟨f, hf, howner, hassigns⟩ := exists_field_of_mem_statements hc ha <;>
    obtain ⟨text, htext, hcast⟩ := hmade f hf <;>
    rw [← hassigns.type] at hcast
  · exact ⟨a.render_plain, hcast.line, f, hf, howner, hassigns, text, htext,
      Assignment.holdsTogether_iff.trans hcast.isCast_iff⟩
  · exact Assignment.holdsTogether_iff.mpr (hcast.isCast_iff.mpr (hwhole f hf text htext))

/-- A type of Java on two lines, with brackets behind the name, and one of a manifest with two
slashes in a literal. -/
theorem statements_hold_together_brackets :
    let sources : Sources :=
      [⟨.inline, "import a.B;\nclass A \x7b @BindView(1) B< String,\n View> v[]; \x7d\n"⟩]
    let manifests : Sources := [⟨.inline, "[[\"C\", null, \"f\", \"@T(\\\"//\\\") View\", 2]]"⟩]
    ∃ s, scan sources manifests false = .ok s ∧
      (s.synthesize.companions.flatMap fun c => c.method.statements.map Assignment.type) =
        ["a.B<String, View>[]", "@T(\"//\") View"] ∧
      ∀ c ∈ s.synthesize.companions, ∀ a ∈ c.method.statements,
        ∃ f ∈ s.fields, f.owner = c.owner ∧ a.Assigns f ∧
          ∃ text, DeclaresType sources manifests f text ∧
            (a.HoldsTogether ↔ IsWhole text.toList) := by
  intro sources manifests
  have hsources : ∀ source ∈ sources, IsReplaceable source.content (.ofText source.content) := by
    decide +kernel
  have htypes : (match scan sources manifests false with
      | .ok s => s.synthesize.companions.flatMap fun c => c.method.statements.map Assignment.type
      | .error _ => []) = ["a.B<String, View>[]", "@T(\"//\") View"] := by decide +kernel
  split at htypes
  · rename_i s hs
    exact ⟨s, hs, htypes, fun c hc a ha =>
      ((statements_hold_together_iff hs hsources).1 c hc a ha).2.2⟩
  · cases htypes

/-- **A comment in a type swallows the call.** The text is Java and the round finds nothing, but
with the lines of the type joined the rest of the statement is part of the comment. -/
theorem exists_cast_with_comment :
    ∃ s c a, scan [⟨.inline, "class A \x7b @BindView(1) List<//c\nView> v; \x7d\n"⟩] [] false =
        .ok s ∧
      s.synthesize.report = [] ∧ s.synthesize.isValid = true ∧
      c ∈ s.synthesize.companions ∧ a ∈ c.method.statements ∧
      a.render .plain = "_a.v = (List<//c View>)(_a.findViewById(1));" ∧ ¬a.HoldsTogether := by
  obtain ⟨s, hs⟩ : ∃ s, scan
      [⟨.inline, "class A \x7b @BindView(1) List<//c\nView> v; \x7d\n"⟩] [] false = .ok s :=
    ⟨_, rfl⟩
  obtain ⟨hreport, hvalid, c, hc, a, ha, hrender, htype⟩ :
      s.synthesize.report = [] ∧ s.synthesize.isValid = true ∧
        ∃ c ∈ s.synthesize.companions, ∃ a ∈ c.method.statements,
          a.render .plain = "_a.v = (List<//c View>)(_a.findViewById(1));" ∧
            ¬IsWhole a.type.toList := by
    cases hs
    decide +kernel
  exact ⟨s, c, a, hs, hreport, hvalid, hc, ha, hrender, fun h => htype h.cast.whole⟩

end Scan

end ViewBinding
