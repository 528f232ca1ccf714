import Mathlib.Data.List.Induction
import ViewBinding.Java.Header
import ViewBinding.Proofs.Tree.Nodes

/-!
# Imported types

An import of one type brings in its simple name: `import a.b.C;` makes `C` stand for `a.b.C`. Which
imports a text has is a matter of its tree (`ViewBinding.Java.Node.Imports`); of two that bring in
the same simple name the later one counts. The header of a text goes by the text of the imported
name instead, white space removed and cut at its full stops. The two agree as long as there is
nothing but white space between the names
(`ViewBinding.Java.Node.SpellsImport`, `ViewBinding.Java.Header.imported?_ofTree_iff`).
-/

namespace ViewBinding.Java

open Text

/-! ### Which imports a tree has -/

namespace Node

/-- The names that a dotted name is made of, in order. -/
def identifiers (source : String) (n : Node) : List String :=
  (n.nodes.filter fun m => m.kind == .identifier).map fun m => m.textIn source

/-- The dotted name in a declaration. -/
def dottedName? (declaration : Node) : Option Node :=
  declaration.namedChildren.find? fun c => c.kind == .identifier || c.kind == .scopedName

/-- The statement is an import of one type, and not of static members or on demand. -/
structure IsTypeImport (statement : Node) : Prop where
  kind : statement.kind = .importDeclaration
  notStatic : statement.childOf? (.sign "static") = none
  notOnDemand : statement.childOf? .asterisk = none

instance (statement : Node) : Decidable statement.IsTypeImport :=
  decidable_of_iff (statement.kind = .importDeclaration ∧
      statement.childOf? (.sign "static") = none ∧ statement.childOf? .asterisk = none)
    ⟨fun ⟨kind, notStatic, notOnDemand⟩ => ⟨kind, notStatic, notOnDemand⟩,
      fun ⟨kind, notStatic, notOnDemand⟩ => ⟨kind, notStatic, notOnDemand⟩⟩

/-- If the statement is an import of one type, the text of the dotted name is, white space aside,
made of the names and of full stops between them. -/
def SpellsImport (source : String) (statement : Node) : Prop :=
  statement.IsTypeImport → ∀ name ∈ statement.dottedName?,
    segments (String.ofList (compact (name.textIn source).toList)) = name.identifiers source

instance (source : String) (statement : Node) : Decidable (statement.SpellsImport source) :=
  inferInstanceAs (Decidable (_ → ∀ name ∈ statement.dottedName?, _))

/-- The statement imports the type of that qualified name, which has the simple name. -/
structure ImportsType (source : String) (statement : Node) (simple qualified : String) : Prop
    extends IsTypeImport statement where
  name : ∃ name outer, statement.dottedName? = some name ∧ outer ≠ [] ∧
    name.identifiers source = outer ++ [simple] ∧ qualified = dotted (outer ++ [simple])

/-- Of the statements that import a type of that simple name, the last one imports the type of that
qualified name. -/
def LastImports (source : String) (statements : List Node) (simple qualified : String) : Prop :=
  ∃ before statement after, statements = before ++ statement :: after ∧
    statement.ImportsType source simple qualified ∧
    ∀ later ∈ after, ∀ other, ¬later.ImportsType source simple other

/-- **The text imports the type** of that qualified name. -/
def Imports (source : String) (root : Node) (simple qualified : String) : Prop :=
  LastImports source root.children simple qualified

variable {source simple simple' qualified qualified' : String} {statement : Node}

/-- A statement imports one type at most. -/
theorem ImportsType.unique (h : statement.ImportsType source simple qualified)
    (h' : statement.ImportsType source simple' qualified') :
    simple = simple' ∧ qualified = qualified' := by
  obtain ⟨name, outer, hname, -, hnames, rfl⟩ := h.name
  obtain ⟨name', outer', hname', -, hnames', rfl⟩ := h'.name
  obtain rfl := Option.some.inj (hname.symm.trans hname')
  have heq : outer ++ [simple] = outer' ++ [simple'] := hnames.symm.trans hnames'
  rw [heq]
  exact ⟨(List.append_singleton_inj.mp heq).2, rfl⟩

theorem not_lastImports_nil : ¬LastImports source [] simple qualified := by
  rintro ⟨before, statement, after, heq, -⟩
  exact List.append_ne_nil_of_right_ne_nil before (List.cons_ne_nil statement after) heq.symm

/-- The last statement counts, and if it does not import a type of that name, those before it do. -/
theorem lastImports_concat_iff {statements : List Node} :
    LastImports source (statements ++ [statement]) simple qualified ↔
      statement.ImportsType source simple qualified ∨
        (∀ other, ¬statement.ImportsType source simple other) ∧
          LastImports source statements simple qualified := by
  constructor
  · rintro ⟨before, found, after, heq, hfound, hafter⟩
    rcases List.eq_nil_or_concat after with rfl | ⟨between, last, rfl⟩
    · obtain ⟨-, rfl⟩ := List.append_singleton_inj.mp heq
      exact .inl hfound
    · rw [List.concat_eq_append, ← List.cons_append, ← List.append_assoc] at heq
      obtain ⟨rfl, rfl⟩ := List.append_singleton_inj.mp heq
      exact .inr ⟨hafter statement (by simp),
        before, found, between, rfl, hfound, fun later hlater => hafter later (by simp [hlater])⟩
  · rintro (h | ⟨hnot, before, found, after, rfl, hfound, hafter⟩)
    · exact ⟨statements, statement, [], rfl, h, nofun⟩
    · refine ⟨before, found, after ++ [statement], by simp, hfound, fun later hlater => ?_⟩
      rcases List.mem_append.mp hlater with hlater | hlater
      · exact hafter later hlater
      · exact List.mem_singleton.mp hlater ▸ hnot

theorem LastImports.unique {statements : List Node}
    (h : LastImports source statements simple qualified)
    (h' : LastImports source statements simple qualified') : qualified = qualified' := by
  induction statements using List.reverseRecOn with
  | nil => exact absurd h not_lastImports_nil
  | append_singleton statements statement ih =>
    rcases lastImports_concat_iff.mp h with h | ⟨hnot, h⟩
    · rcases lastImports_concat_iff.mp h' with h' | ⟨hnot, -⟩
      · exact (h.unique h').2
      · exact absurd h (hnot qualified)
    · rcases lastImports_concat_iff.mp h' with h' | ⟨-, h'⟩
      · exact absurd h' (hnot qualified')
      · exact ih h h'

end Node

/-! ### What one statement adds to a header -/

namespace Header

variable {source simple qualified : String} {header : Header} {statement : Node}

theorem nameIn?_eq_some_iff {name : String} :
    nameIn? source statement = some name ↔ ∃ n, statement.dottedName? = some n ∧
      String.ofList (compact (n.textIn source).toList) = name :=
  Option.map_eq_some_iff

/-- A statement that imports a type puts it in front of those imported before. -/
theorem imports_add_of_importsType (h : statement.ImportsType source simple qualified)
    (hspelled : statement.SpellsImport source) :
    (add source header statement).imports = (simple, qualified) :: header.imports := by
  obtain ⟨name, outer, hname, houter, hnames, rfl⟩ := h.name
  have hsegments := (hspelled h.toIsTypeImport name hname).trans hnames
  -- the qualified name is the text of the name, and its last segment the simple name
  have hqualified := congrArg dotted hsegments
  rw [dotted_segments] at hqualified
  have hreverse := congrArg List.reverse hsegments
  rw [List.reverse_concat] at hreverse
  unfold add
  rw [h.kind, nameIn?_eq_some_iff.mpr ⟨name, hname, rfl⟩, h.notStatic, h.notOnDemand]
  dsimp only [Option.isSome_none]
  rw [if_neg Bool.false_ne_true, if_neg Bool.false_ne_true, hreverse, hqualified]
  cases hinner : outer.reverse with
  | nil => exact absurd (List.reverse_eq_nil_iff.mp hinner) houter
  | cons inner rest => rfl

/-- Any other statement leaves the imported types as they are. -/
theorem imports_add_of_not_importsType
    (h : ∀ simple qualified, ¬statement.ImportsType source simple qualified)
    (hspelled : statement.SpellsImport source) :
    (add source header statement).imports = header.imports := by
  unfold add
  split
  · rfl
  · rename_i hkind hname
    split
    · rfl
    · rename_i hstatic
      split
      · rfl
      · rename_i hasterisk
        have himport : statement.IsTypeImport :=
          ⟨hkind, by simpa using hstatic, by simpa using hasterisk⟩
        split
        · rename_i name _ simple inner rest hreverse
          obtain ⟨n, hn, rfl⟩ := nameIn?_eq_some_iff.mp hname
          have hnames := (congrArg List.reverse hreverse).symm
          rw [List.reverse_reverse, hspelled himport n hn, List.reverse_cons] at hnames
          exact absurd ⟨himport, n, (inner :: rest).reverse, hn, by simp, hnames.symm, rfl⟩
            (h simple (dotted ((inner :: rest).reverse ++ [simple])))
        · rfl
  · rfl

theorem imported?_add (hspelled : statement.SpellsImport source) :
    (add source header statement).imported? simple = some qualified ↔
      statement.ImportsType source simple qualified ∨
        (∀ other, ¬statement.ImportsType source simple other) ∧
          header.imported? simple = some qualified := by
  by_cases himport : ∃ own type, statement.ImportsType source own type
  · obtain ⟨own, type, hown⟩ := himport
    rw [imported?, imports_add_of_importsType hown hspelled]
    by_cases heq : own = simple
    · subst heq
      have htype (other : String) : statement.ImportsType source own other ↔ type = other :=
        ⟨fun h => (hown.unique h).2, fun h => h ▸ hown⟩
      simp [htype]
    · have hnot (other : String) : ¬statement.ImportsType source simple other :=
        fun h => heq (hown.unique h).1
      rw [List.find?_cons_of_neg (by simpa using heq)]
      simp [hnot, imported?]
  · have hnot : ∀ own type, ¬statement.ImportsType source own type :=
      fun own type h => himport ⟨own, type, h⟩
    rw [imported?, imports_add_of_not_importsType hnot hspelled]
    simp [hnot, imported?]

/-! ### The header of a text -/

theorem imported?_foldl {statements : List Node}
    (hspelled : ∀ statement ∈ statements, statement.SpellsImport source) :
    (statements.foldl (add source) ⟨"", [], []⟩).imported? simple = some qualified ↔
      Node.LastImports source statements simple qualified := by
  induction statements using List.reverseRecOn with
  | nil => exact ⟨nofun, fun h => absurd h Node.not_lastImports_nil⟩
  | append_singleton statements statement ih =>
    rw [List.foldl_append, List.foldl_cons, List.foldl_nil,
      imported?_add (hspelled statement (by simp)), ih fun s hs => hspelled s (by simp [hs]),
      Node.lastImports_concat_iff]

/-- **The header knows the imported types** where their names are spelled out. -/
theorem imported?_ofTree_iff {root : Node}
    (hspelled : ∀ statement ∈ root.children, statement.SpellsImport source) :
    (ofTree source root).imported? simple = some qualified ↔
      root.Imports source simple qualified :=
  imported?_foldl hspelled

end Header

end ViewBinding.Java
