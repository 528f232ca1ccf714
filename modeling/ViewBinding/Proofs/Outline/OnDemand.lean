import ViewBinding.Proofs.Outline.Imports

/-!
# Imports on demand

An import on demand brings in all types of a package or all member types of a type: `import a.b.*;`
names `a.b`. Which of them a text has is a matter of its tree
(`ViewBinding.Java.Node.onDemandImports`): static imports are none of them, and neither are imports
of one type. The header of a text has the same names in the same order, as long as there is nothing
but white space between the parts of a name (`ViewBinding.Java.Header.onDemand_ofTree`).
-/

namespace ViewBinding.Java

open Text

namespace Node

/-- The statement is an import on demand, and not of static members. -/
structure IsOnDemandImport (statement : Node) : Prop where
  kind : statement.kind = .importDeclaration
  notStatic : statement.childOf? (.sign "static") = none
  onDemand : (statement.childOf? .asterisk).isSome

instance (statement : Node) : Decidable statement.IsOnDemandImport :=
  decidable_of_iff (statement.kind = .importDeclaration ∧
      statement.childOf? (.sign "static") = none ∧ (statement.childOf? .asterisk).isSome)
    ⟨fun ⟨kind, notStatic, onDemand⟩ => ⟨kind, notStatic, onDemand⟩,
      fun ⟨kind, notStatic, onDemand⟩ => ⟨kind, notStatic, onDemand⟩⟩

/-- If the statement is an import on demand, the text of the dotted name is, white space aside,
made of the names and of full stops between them. -/
def SpellsOnDemand (source : String) (statement : Node) : Prop :=
  statement.IsOnDemandImport → ∀ name ∈ statement.dottedName?,
    segments (String.ofList (compact (name.textIn source).toList)) = name.identifiers source

instance (source : String) (statement : Node) : Decidable (statement.SpellsOnDemand source) :=
  inferInstanceAs (Decidable (_ → ∀ name ∈ statement.dottedName?, _))

/-- What the statement names, if it is an import on demand. -/
def onDemandName? (source : String) (statement : Node) : Option String :=
  if statement.IsOnDemandImport then
    statement.dottedName?.map fun name => dotted (name.identifiers source)
  else none

/-- **What the text imports on demand**, in order. -/
def onDemandImports (source : String) (root : Node) : List String :=
  root.children.filterMap (onDemandName? source)

end Node

namespace Header

variable {source : String} {header : Header} {statement : Node}

/-- A statement that is an import on demand puts its name behind those before it. -/
theorem onDemand_add_of_isOnDemandImport (h : statement.IsOnDemandImport)
    (hspelled : statement.SpellsOnDemand source) :
    (add source header statement).onDemand =
      header.onDemand ++ (statement.onDemandName? source).toList := by
  rw [Node.onDemandName?, if_pos h]
  unfold add
  rw [h.kind]
  cases hname : statement.dottedName? with
  | none =>
    rw [show nameIn? source statement = none from congrArg (Option.map _) hname]
    exact (List.append_nil _).symm
  | some name =>
    -- the name is spelled out, so its text is the one of the identifiers with full stops
    have hsegments := congrArg dotted (hspelled h name hname)
    rw [dotted_segments] at hsegments
    rw [nameIn?_eq_some_iff.mpr ⟨name, hname, hsegments⟩, h.notStatic]
    dsimp only [Option.isSome_none]
    rw [if_neg Bool.false_ne_true, if_pos h.onDemand]
    rfl

/-- Any other statement leaves them as they are. -/
theorem onDemand_add_of_not_isOnDemandImport (h : ¬statement.IsOnDemandImport) :
    (add source header statement).onDemand = header.onDemand := by
  unfold add
  split
  · rfl
  · rename_i hkind _
    split
    · rfl
    · rename_i hstatic
      split
      · rename_i hasterisk
        exact absurd ⟨hkind, by simpa using hstatic, hasterisk⟩ h
      · split <;> rfl
  · rfl

theorem onDemand_add (hspelled : statement.SpellsOnDemand source) :
    (add source header statement).onDemand =
      header.onDemand ++ (statement.onDemandName? source).toList := by
  by_cases h : statement.IsOnDemandImport
  · exact onDemand_add_of_isOnDemandImport h hspelled
  · rw [onDemand_add_of_not_isOnDemandImport h, Node.onDemandName?, if_neg h]
    exact (List.append_nil _).symm

theorem onDemand_foldl {statements : List Node}
    (hspelled : ∀ statement ∈ statements, statement.SpellsOnDemand source) (header : Header) :
    (statements.foldl (add source) header).onDemand =
      header.onDemand ++ statements.filterMap (Node.onDemandName? source) := by
  induction statements generalizing header with
  | nil => exact (List.append_nil _).symm
  | cons statement statements ih =>
    obtain ⟨hfirst, hrest⟩ := List.forall_mem_cons.mp hspelled
    rw [List.foldl_cons, ih hrest, onDemand_add hfirst, List.append_assoc]
    cases hname : statement.onDemandName? source with
    | none => rw [List.filterMap_cons_none hname, Option.toList_none, List.nil_append]
    | some name => rw [List.filterMap_cons_some hname, Option.toList_some, List.singleton_append]

/-- **The header knows the imports on demand** where their names are spelled out. -/
theorem onDemand_ofTree {root : Node}
    (hspelled : ∀ statement ∈ root.children, statement.SpellsOnDemand source) :
    (ofTree source root).onDemand = root.onDemandImports source :=
  onDemand_foldl hspelled _

end Header

end ViewBinding.Java
