import ViewBinding.Proofs.Outline.Types

/-!
# The fields of the declared types

Which fields a type has is a matter of its declaration alone: those that its body declares, the
constants of an enum, and the components of a record (`ViewBinding.Java.Node.HasField`). Some of
them are constants (`ViewBinding.Java.Node.HasConstant`). The outline leads from a type to its
declaration and to the members in the body of it
(`ViewBinding.Java.member_mem_outline_iff`), and so to the constants.
-/

namespace ViewBinding.Java

/-! ### The declaration of a type -/

/-- The node, which stands in the types of the nesting `outer`, declares the type by that
declaration: by itself, or by one in its body. -/
inductive Node.HasDeclaration (source : String) :
    (outer : List String) → Node → (type : List String) → (declaration : Node) → Prop
  | itself {outer : List String} {n name : Node} (hkind : n.kind.declaresType)
      (hname : n.child? .name = some name) :
      HasDeclaration source outer n (outer ++ [name.textIn source]) n
  | inside {outer type : List String} {n name body m declaration : Node} {path : List Nat}
      (hkind : n.kind.declaresType) (hname : n.child? .name = some name)
      (hbody : n.child? .body = some body) (hm : body.InBody path m)
      (h : HasDeclaration source (outer ++ [name.textIn source]) m type declaration) :
      HasDeclaration source outer n type declaration

/-- The text declares the type of that nesting by that declaration. -/
def Node.Declares (source : String) (root : Node) (type : List String) (declaration : Node) :
    Prop :=
  ∃ statement ∈ root.children, statement.HasDeclaration source [] type declaration

/-- A declared type has a name. -/
theorem Node.HasDeclaration.ne_nil {source : String} {outer type : List String}
    {n declaration : Node} (h : n.HasDeclaration source outer type declaration) : type ≠ [] := by
  induction h with
  | itself _ _ => simp
  | inside _ _ _ _ _ ih => exact ih

/-- The member stands in the body of the declaration. -/
def Node.Encloses (declaration member : Node) : Prop :=
  ∃ body path, declaration.child? .body = some body ∧ body.InBody path member

variable {source : String} {outer type : List String} {holder : Kind} {s : Site}
  {n body declaration member root : Node}

theorem Node.HasBody.child?_eq {i : Nat} (h : n.HasBody i body) : n.child? .body = some body := by
  obtain ⟨hi, hbody⟩ := h
  rw [child?, List.find?_eq_bind_findIdx?_getElem?, hi]
  exact hbody

theorem Node.exists_hasBody (h : n.child? .body = some body) : ∃ i, n.HasBody i body := by
  rw [child?, List.find?_eq_bind_findIdx?_getElem?] at h
  obtain ⟨i, hi, hbody⟩ := Option.bind_eq_some_iff.mp h
  exact ⟨i, hi, hbody⟩

/-- A member is the node itself, or it stands in the body of a declaration. -/
theorem Node.HasMember.exists_encloses (h : n.HasMember source outer holder s) :
    s.member.kind.isNamed ∧ s.member.kind.declaresType = false ∧
      (s = ⟨[], outer, holder, n⟩ ∨ ∃ declaration,
        n.HasDeclaration source outer s.nesting declaration ∧ declaration.kind = s.holder ∧
          declaration.Encloses s.member) := by
  induction h with
  | member hnamed hkind => exact ⟨hnamed, hkind, .inl rfl⟩
  | type hkind hname hbody hm _ ih =>
    obtain ⟨hnamed, hnot, h⟩ := ih
    refine ⟨hnamed, hnot, .inr ?_⟩
    rcases h with rfl | ⟨declaration, hdeclaration, hholder, hencloses⟩
    · exact ⟨_, .itself hkind hname, rfl, _, _, hbody.child?_eq, hm⟩
    · exact ⟨declaration, .inside hkind hname hbody.child?_eq hm hdeclaration, hholder, hencloses⟩

/-- What stands in the body of a declaration is a member. -/
theorem Node.HasDeclaration.exists_hasMember
    (h : n.HasDeclaration source outer type declaration) (hencloses : declaration.Encloses member)
    (hnamed : member.kind.isNamed) (hkind : member.kind.declaresType = false) (holder : Kind) :
    ∃ path, n.HasMember source outer holder ⟨path, type, declaration.kind, member⟩ := by
  induction h generalizing holder with
  | itself htype hname =>
    obtain ⟨body, path, hbody, hm⟩ := hencloses
    obtain ⟨i, hi⟩ := exists_hasBody hbody
    exact ⟨_, .type htype hname hi hm (.member hnamed hkind)⟩
  | @inside outer type n name body m declaration path htype hname hbody hm _ ih =>
    obtain ⟨path', h⟩ := ih hencloses n.kind
    obtain ⟨i, hi⟩ := exists_hasBody hbody
    exact ⟨_, .type htype hname hi hm h⟩

/-- The members of the declared types are what stands in the bodies of the declarations. -/
theorem Site.IsMember.exists_encloses (h : s.IsMember source root) :
    s.member.kind.isNamed ∧ s.member.kind.declaresType = false ∧ ∃ declaration,
      root.Declares source s.nesting declaration ∧ declaration.kind = s.holder ∧
        declaration.Encloses s.member := by
  obtain ⟨hstatement, hkind, hs⟩ := h
  obtain ⟨hnamed, hnot, h⟩ := hs.exists_encloses
  refine ⟨hnamed, hnot, ?_⟩
  rcases h with rfl | ⟨declaration, hdeclaration, h⟩
  · -- a statement that declares a type is no member
    rw [hkind] at hnot
    cases hnot
  · exact ⟨declaration, ⟨_, List.mem_of_getElem? hstatement, hdeclaration⟩, h⟩

theorem Node.HasDeclaration.kind (h : n.HasDeclaration source outer type declaration) :
    n.kind.declaresType := by
  cases h with
  | itself hkind _ => exact hkind
  | inside hkind _ _ _ _ => exact hkind

/-- **The members that the outline lists are those in the bodies of the declarations.** -/
theorem member_mem_outline_iff :
    .member type holder member ∈ outline source root ↔
      member.kind.isNamed ∧ member.kind.declaresType = false ∧ ∃ declaration,
        root.Declares source type declaration ∧ declaration.kind = holder ∧
          declaration.Encloses member := by
  constructor
  · intro h
    obtain ⟨path, hs⟩ := exists_site_of_mem_outline h
    exact (mem_sites_iff.mp hs).exists_encloses
  · rintro ⟨hnamed, hnot, declaration, ⟨statement, hstatement, hdeclaration⟩, rfl, hencloses⟩
    obtain ⟨i, hi⟩ := List.getElem?_of_mem hstatement
    obtain ⟨path, hs⟩ := hdeclaration.exists_hasMember hencloses hnamed hnot .program
    have hmem := mem_sites_iff.mpr (.intro hi hdeclaration.kind hs)
    have hentry := List.mem_map_of_mem hmem (f := Site.entry)
    rw [← members_outline] at hentry
    exact (List.mem_filter.mp hentry).1

/-! ### Fields -/

/-- Whether the member declares fields. -/
def Node.IsFields (member : Node) : Prop :=
  member.kind = .fieldDeclaration ∨ member.kind = .constantDeclaration

instance (member : Node) : Decidable member.IsFields :=
  inferInstanceAs (Decidable (_ ∨ _))

theorem Node.IsFields.isNamed (h : member.IsFields) : member.kind.isNamed := by
  rcases h with h | h <;> rw [h] <;> rfl

theorem Node.IsFields.declaresType_eq_false (h : member.IsFields) :
    member.kind.declaresType = false := by
  rcases h with h | h <;> rw [h] <;> rfl

/-- The names of the fields that a member declares. -/
def Node.fieldNames (source : String) (member : Node) : List String :=
  if member.IsFields then
    (member.childrenIn .declarator).filterMap fun declarator =>
      (declarator.child? .name).map fun name => name.textIn source
  else []

/-- **The fields of a type**, by its declaration. -/
inductive Node.HasField (source : String) (declaration : Node) : (name : String) → Prop
  /-- A field that the body declares. -/
  | declared {member : Node} {name : String} (hm : declaration.Encloses member)
    (hname : name ∈ member.fieldNames source) : HasField source declaration name
  /-- A constant of an enum. It stands in the body itself, in front of the members. -/
  | enumConstant {body constant name : Node} (hkind : declaration.kind = .enumDeclaration)
    (hbody : declaration.child? .body = some body) (hconstant : constant ∈ body.children)
    (hconstruct : constant.kind = .construct) (hname : constant.child? .name = some name) :
    HasField source declaration (name.textIn source)
  /-- A component of a record, named in the list behind the name of the record. -/
  | component {components component name : Node} (hkind : declaration.kind = .recordDeclaration)
    (hcomponents : components ∈ declaration.children) (hconstruct : components.kind = .construct)
    (hcomponent : component ∈ components.children)
    (hname : component.child? .name = some name) :
    HasField source declaration (name.textIn source)
  /-- The last component of a record, with any number of values. -/
  | spread {components component declarator name : Node}
    (hkind : declaration.kind = .recordDeclaration)
    (hcomponents : components ∈ declaration.children) (hconstruct : components.kind = .construct)
    (hcomponent : component ∈ components.children) (hdeclarator : declarator ∈ component.children)
    (hdeclares : declarator.kind = .declarator) (hname : declarator.child? .name = some name) :
    HasField source declaration (name.textIn source)

/-- **What declares `int` constants**: fields that are `static` and `final`, or stand in an
interface or an annotation type, and have the type `int`. -/
structure Node.DeclaresConstants (source : String) (holder : Kind) (member : Node) : Prop where
  isFields : member.IsFields
  isConstant : holder.holdsConstants ∨
    (member.modifier? "static").isSome ∧ (member.modifier? "final").isSome
  isInt : ∃ type, member.child? .type = some type ∧ type.textIn source = "int"

/-- **The constants of a type** with what initializes them, by its declaration. They are no
arrays. -/
inductive Node.HasConstant (source : String) (declaration : Node) :
    (name : String) → (initializer : Node) → Prop
  | intro {member declarator name initializer : Node} (hm : declaration.Encloses member)
    (hconstants : member.DeclaresConstants source declaration.kind)
    (hdeclarator : declarator ∈ member.childrenIn .declarator)
    (hdimensions : declarator.child? .dimensions = none)
    (hname : declarator.child? .name = some name)
    (hvalue : declarator.child? .value = some initializer) :
    HasConstant source declaration (name.textIn source) initializer

/-- A constant is a field. -/
theorem Node.HasConstant.hasField {name : String} {initializer : Node}
    (h : declaration.HasConstant source name initializer) : declaration.HasField source name := by
  obtain ⟨hm, hconstants, hdeclarator, -, hname, -⟩ := h
  refine .declared hm ?_
  rw [fieldNames, if_pos hconstants.isFields]
  exact List.mem_filterMap.mpr ⟨_, hdeclarator, by rw [hname]; rfl⟩

/-- The text declares a field of that name in the type. -/
def Node.DeclaresField (source : String) (root : Node) (type : List String) (name : String) :
    Prop :=
  ∃ declaration, root.Declares source type declaration ∧ declaration.HasField source name

/-- The text declares an `int` constant of that name in the type, with that initializer. -/
def Node.InitializesConstant (source : String) (root : Node) (type : List String) (name : String)
    (initializer : Node) : Prop :=
  ∃ declaration, root.Declares source type declaration ∧
    declaration.HasConstant source name initializer

/-- The text declares an `int` constant of that name in the type. -/
def Node.DeclaresConstant (source : String) (root : Node) (type : List String) (name : String) :
    Prop :=
  ∃ initializer, root.InitializesConstant source type name initializer

/-- What a numbered member declares is a field of the type. -/
theorem declaresField_of_mem_sites {site : Site} {name : String}
    (h : site ∈ sites source root) (hname : name ∈ site.member.fieldNames source) :
    root.DeclaresField source site.nesting name := by
  have hlisted : site.entry ∈ (outline source root).filter Entry.isMember :=
    members_outline source root ▸ List.mem_map_of_mem h
  obtain ⟨-, -, declaration, hdeclares, -, hencloses⟩ :=
    member_mem_outline_iff.mp (List.mem_filter.mp hlisted).1
  exact ⟨declaration, hdeclares, .declared hencloses hname⟩

theorem Node.DeclaresConstant.declaresField {name : String}
    (h : root.DeclaresConstant source type name) : root.DeclaresField source type name := by
  obtain ⟨initializer, declaration, hdeclares, hconstant⟩ := h
  exact ⟨declaration, hdeclares, hconstant.hasField⟩

end ViewBinding.Java
