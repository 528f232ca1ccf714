import ViewBinding.Proofs.Outline.Members

/-!
# The declared types

The types of a text are listed by its outline (`ViewBinding.Java.declaredTypes`). What is to be
listed is said here without the recursion: `ViewBinding.Java.Node.DeclaresType` goes from a
statement that declares a type into its body, into the body of a type declared there, and so on.
The types listed are those that are declared (`ViewBinding.Java.mem_declaredTypes_outline_iff`).
-/

namespace ViewBinding.Java

/-! ### Which types a tree declares -/

/-- The node, which stands in the types of the nesting `outer`, declares the type: it is the type
itself, or the type is declared in its body. -/
inductive Node.HasType (source : String) :
    (outer : List String) → Node → (type : List String) → Prop
  | itself {outer : List String} {n name : Node} (hkind : n.kind.declaresType)
      (hname : n.child? .name = some name) :
      HasType source outer n (outer ++ [name.textIn source])
  | inside {outer type : List String} {n name body m : Node} {path : List Nat}
      (hkind : n.kind.declaresType) (hname : n.child? .name = some name)
      (hbody : n.child? .body = some body) (hm : body.InBody path m)
      (h : HasType source (outer ++ [name.textIn source]) m type) : HasType source outer n type

/-- **The text declares the type** of that nesting, in one of its statements. -/
def Node.DeclaresType (source : String) (root : Node) (type : List String) : Prop :=
  ∃ statement ∈ root.children, statement.HasType source [] type

variable {source : String} {outer nesting type : List String} {holder : Kind} {n : Node}

theorem Node.HasType.kind (h : n.HasType source outer type) : n.kind.declaresType := by
  cases h with
  | itself hkind _ => exact hkind
  | inside hkind _ _ _ _ => exact hkind

/-! ### Which types the outline lists -/

theorem declaredTypes_append (entries entries' : List Entry) :
    declaredTypes (entries ++ entries') = declaredTypes entries ++ declaredTypes entries' :=
  List.filterMap_append

theorem entriesOfBody_eq (cs : List Node) :
    entriesOfBody source nesting holder cs =
      ((cs.find? fun c => c.role == some Role.body).map
        (entriesIn source nesting holder)).getD [] := by
  induction cs with
  | nil => rfl
  | cons c cs ih =>
    rw [entriesOfBody, List.find?_cons]
    cases c.role == some Role.body with
    | true => rfl
    | false => exact ih

theorem mem_declaredTypes_entriesIn :
    type ∈ declaredTypes (entriesIn source nesting holder n) ↔
      ∃ c ∈ n.children, type ∈ declaredTypes
        (if c.kind = .enumMembers then entriesIn source nesting holder c
          else entriesOf source nesting holder c) := by
  obtain ⟨kind, role, extent, isAbsent, children⟩ := n
  rw [entriesIn, Node.children_mk]
  induction children with
  | nil => simp [entriesAmong, declaredTypes]
  | cons c cs ih =>
    rw [entriesAmong, declaredTypes_append, List.mem_append, ih]
    simp only [beq_iff_eq, List.mem_cons, exists_eq_or_imp]

theorem mem_declaredTypes_entriesOf_of_type (hkind : n.kind.declaresType) :
    type ∈ declaredTypes (entriesOf source outer holder n) ↔
      ∃ name, n.child? .name = some name ∧
        (type = outer ++ [name.textIn source] ∨
          ∃ body, n.child? .body = some body ∧
            type ∈
              declaredTypes (entriesIn source (outer ++ [name.textIn source]) n.kind body)) := by
  obtain ⟨kind, role, extent, isAbsent, children⟩ := n
  rw [entriesOf, if_pos (show kind.declaresType = true from hkind)]
  split
  · rename_i hname
    simp [Node.child?, hname, declaredTypes]
  · rename_i name hname
    have hlisted (entries : List Entry) :
        type ∈ declaredTypes (.type (outer ++ [name.textIn source]) :: entries) ↔
          type = outer ++ [name.textIn source] ∨ type ∈ declaredTypes entries := by
      simp [declaredTypes]
    rw [hlisted, entriesOfBody_eq]
    simp only [Node.child?, Node.children_mk, hname, Option.some.injEq, exists_eq_left']
    refine or_congr Iff.rfl ?_
    cases children.find? fun c => c.role == some Role.body with
    | none => simp [declaredTypes]
    | some body => simp

theorem declaredTypes_entriesOf_of_not_type (hkind : n.kind.declaresType = false) :
    declaredTypes (entriesOf source outer holder n) = [] := by
  obtain ⟨kind, role, extent, isAbsent, children⟩ := n
  rw [entriesOf, if_neg (show ¬kind.declaresType = true by simpa using hkind)]
  split <;> rfl

/-! ### The types listed are those declared -/

/-- The types that the recursion lists below a node are those that are declared there. -/
structure Node.ListsTypes (source : String) (n : Node) : Prop where
  here : ∀ outer holder type, type ∈ declaredTypes (entriesOf source outer holder n) ↔
    n.HasType source outer type
  inside : ∀ nesting holder type, type ∈ declaredTypes (entriesIn source nesting holder n) ↔
    ∃ path m, n.InBody path m ∧ m.HasType source nesting type

theorem Node.listsTypes (source : String) (n : Node) : n.ListsTypes source := by
  induction n using Node.induction with
  | mk kind role extent isAbsent children ih =>
    refine ⟨fun outer holder type => ?_, fun nesting holder type => ?_⟩
    · cases hkind : (Node.mk kind role extent isAbsent children).kind.declaresType with
      | false =>
        rw [declaredTypes_entriesOf_of_not_type hkind]
        refine ⟨nofun, fun h => ?_⟩
        have htype := h.kind
        rw [hkind] at htype
        cases htype
      | true =>
        rw [mem_declaredTypes_entriesOf_of_type hkind]
        constructor
        · rintro ⟨name, hname, rfl | ⟨body, hbody, htype⟩⟩
          · exact .itself hkind hname
          · have hlists := ih body (mem_children_of_child? hbody)
            obtain ⟨path, m, hm, h⟩ := (hlists.inside _ _ _).mp htype
            exact .inside hkind hname hbody hm h
        · rintro (⟨-, hname⟩ | ⟨-, hname, hbody, hm, h⟩)
          · exact ⟨_, hname, .inl rfl⟩
          · have hlists := ih _ (mem_children_of_child? hbody)
            exact ⟨_, hname, .inr ⟨_, hbody, (hlists.inside _ _ _).mpr ⟨_, _, hm, h⟩⟩⟩
    · -- the members of an enum are in a list of their own, which the induction looks into
      rw [mem_declaredTypes_entriesIn]
      constructor
      · rintro ⟨c, hc, htype⟩
        obtain ⟨i, hi⟩ := List.getElem?_of_mem hc
        split at htype
        · rename_i hkind
          obtain ⟨path, m, hm, h⟩ := ((ih c hc).inside _ _ _).mp htype
          exact ⟨i :: path, m, .enumMember hi hkind hm, h⟩
        · rename_i hkind
          exact ⟨[i], c, .member hi hkind, ((ih c hc).here _ _ _).mp htype⟩
      · rintro ⟨path, m, hm, h⟩
        obtain ⟨i, c, hi, hc⟩ := Node.inBody_iff.mp hm
        have hmem : c ∈ children := List.mem_of_getElem? hi
        refine ⟨c, hmem, ?_⟩
        split at hc
        · rename_i hkind
          obtain ⟨rest, -, hrest⟩ := hc
          rw [if_pos hkind]
          exact ((ih c hmem).inside _ _ _).mpr ⟨rest, m, hrest, h⟩
        · rename_i hkind
          obtain ⟨-, rfl⟩ := hc
          rw [if_neg hkind]
          exact ((ih m hmem).here _ _ _).mpr h

/-- **The types of the outline are those that the text declares.** -/
theorem mem_declaredTypes_outline_iff {root : Node} :
    type ∈ declaredTypes (outline source root) ↔ root.DeclaresType source type := by
  unfold outline Node.DeclaresType
  induction root.children with
  | nil => simp [entriesAtTop, declaredTypes]
  | cons c cs ih =>
    rw [entriesAtTop, declaredTypes_append, List.mem_append, ih]
    simp only [List.mem_cons, exists_eq_or_imp]
    refine or_congr ?_ Iff.rfl
    split
    · exact (c.listsTypes source).here _ _ _
    · rename_i hkind
      exact ⟨fun hnil => absurd hnil List.not_mem_nil, fun h => absurd h.kind hkind⟩

end ViewBinding.Java
