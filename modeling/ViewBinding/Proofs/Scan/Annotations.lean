import ViewBinding.Java.Bindings
import ViewBinding.Proofs.Tree.Nodes

/-!
# Annotations

Whether a declaration carries the annotation `@BindView` is a matter of the tree: the last name of
an annotation is the one that counts (`ViewBinding.Java.Node.Carries`). The scan goes by the text of
the whole name instead, white space removed and cut at its full stops. The two agree as long as
nothing but white space stands between the last full stop and the last name
(`ViewBinding.Java.Node.EndsInLastName`, `ViewBinding.Java.Reading.isSome_binding?_iff`).

The view id stands in the first argument, by itself or behind the name `value`
(`ViewBinding.Java.Reading.idNode_cases`).
-/

namespace ViewBinding.Java

open Text

/-! ### The annotation that binds -/

namespace Node

/-- The last name of a dotted name; any other name is its own. -/
def lastName (n : Node) : Node :=
  if n.kind = .scopedName then (n.child? .name).getD n else n

/-- The names of the annotations on a declaration. -/
def markNames (member : Node) : List Node :=
  match member.modifiers? with
  | none => []
  | some modifiers =>
    (modifiers.namedChildren.filter fun n =>
      n.kind == .annotationUse || n.kind == .annotationMarker).filterMap fun n => n.child? .name

/-- The declaration carries the annotation that binds, by its simple name or after a qualifier. -/
def Carries (source : String) (member : Node) : Prop :=
  ∃ name ∈ member.markNames, name.lastName.textIn source = annotationName

/-- The text of a dotted name, without white space, ends in its last name after the last full
stop. -/
def EndsInLastName (source : String) (name : Node) : Prop :=
  (segments (String.ofList (compact (name.textIn source).toList))).getLast? =
    some (name.lastName.textIn source)

instance (source : String) (name : Node) : Decidable (name.EndsInLastName source) :=
  inferInstanceAs (Decidable (_ = _))

instance (source : String) (member : Node) : Decidable (member.Carries source) :=
  inferInstanceAs (Decidable (∃ name ∈ member.markNames, _))

theorem mem_markNames_iff {member name : Node} :
    name ∈ member.markNames ↔ ∃ modifiers mark, member.modifiers? = some modifiers ∧
      mark ∈ modifiers.namedChildren ∧
        (mark.kind == .annotationUse || mark.kind == .annotationMarker) = true ∧
          mark.child? .name = some name := by
  unfold markNames
  cases hmodifiers : member.modifiers? with
  | none => simp
  | some modifiers => simp [and_assoc]

end Node

namespace Reading

variable {r : Reading} {member mark : Node}

theorem binds_iff {name : Node} (h : name.EndsInLastName r.source) :
    r.binds name = true ↔ name.lastName.textIn r.source = annotationName := by
  rw [binds, show _ = _ from h]
  simp

theorem mem_nodes_of_binding? (h : r.binding? member = some mark) : mark ∈ member.nodes := by
  obtain ⟨modifiers, hmodifiers, hmark⟩ := Option.bind_eq_some_iff.mp h
  have hchild := Node.mem_children_of_namedChildren (List.mem_of_find?_eq_some hmark)
  exact Node.mem_nodes_trans (Node.mem_nodes_of_mem_children hchild)
    (Node.mem_nodes_of_mem_children (Node.mem_children_of_childOf? hmodifiers))

/-- **The scan sees the annotation that a declaration carries**, and sees none where there is
none. -/
theorem isSome_binding?_iff (h : ∀ name ∈ member.markNames, name.EndsInLastName r.source) :
    (r.binding? member).isSome ↔ member.Carries r.source := by
  constructor
  · intro hsome
    obtain ⟨mark, hmark⟩ := Option.isSome_iff_exists.mp hsome
    obtain ⟨modifiers, hmodifiers, hfind⟩ := Option.bind_eq_some_iff.mp hmark
    have hbinding := List.find?_some hfind
    obtain ⟨hkind, hany⟩ := (Bool.and_eq_true _ _).mp hbinding
    obtain ⟨name, hname, hbinds⟩ := (Option.any_eq_true _ _).mp hany
    have hmem : name ∈ member.markNames := Node.mem_markNames_iff.mpr
      ⟨modifiers, mark, hmodifiers, List.mem_of_find?_eq_some hfind, hkind, hname⟩
    exact ⟨name, hmem, (binds_iff (h name hmem)).mp hbinds⟩
  · rintro ⟨name, hmem, htext⟩
    obtain ⟨modifiers, mark, hmodifiers, hmark, hkind, hname⟩ := Node.mem_markNames_iff.mp hmem
    rw [binding?, hmodifiers, Option.bind_some, List.find?_isSome]
    refine ⟨mark, hmark, (Bool.and_eq_true _ _).mpr ⟨hkind, (Option.any_eq_true _ _).mpr ?_⟩⟩
    exact ⟨name, hname, (binds_iff (h name hmem)).mpr htext⟩

/-! ### The argument with the view id -/

/-- Where the view id is looked for: it is the first argument, or the value of the element called
`value`; otherwise the finding is an error. -/
theorem idNode_cases (r : Reading) (mark : Node) :
    (∃ finding, r.idNode mark = .error finding ∧ finding.isError) ∨
      ∃ first ∈ mark.nodes, r.idNode mark = .ok (some first) ∨
        (first.kind = .elementPair ∧ r.idNode mark = .ok (first.child? .value)) ∨
        (first.kind = .assignment ∧ r.idNode mark = .ok (first.child? .right)) := by
  unfold idNode
  split
  · exact .inl ⟨_, rfl, rfl⟩
  · rename_i first hfirst
    obtain ⟨arguments, harguments, hhead⟩ := Option.bind_eq_some_iff.mp hfirst
    have hmem : first ∈ mark.nodes :=
      Node.mem_nodes_trans
        (Node.mem_nodes_of_mem_children
          (Node.mem_children_of_namedChildren (List.mem_of_head? hhead)))
        (Node.mem_nodes_of_mem_children (Node.mem_children_of_child? harguments))
    dsimp only
    -- the first argument is a pair, an assignment or an expression by itself
    split
    · exact .inr ⟨first, hmem, .inl rfl⟩
    · rename_i keyRole valueRole hroles
      split
      · split at hroles
        · rename_i hkind
          cases hroles
          exact .inr ⟨first, hmem, .inr (.inl ⟨hkind, rfl⟩)⟩
        · rename_i hkind
          cases hroles
          exact .inr ⟨first, hmem, .inr (.inr ⟨hkind, rfl⟩)⟩
        · cases hroles
      · exact .inl ⟨_, rfl, rfl⟩

theorem isError_of_idNode_error {finding : Finding} (h : r.idNode mark = .error finding) :
    finding.isError := by
  rcases r.idNode_cases mark with ⟨found, hfound, herror⟩ | ⟨first, -, hok⟩
  · rw [hfound] at h
    cases h
    exact herror
  · rcases hok with hok | ⟨-, hok⟩ | ⟨-, hok⟩ <;> rw [hok] at h <;> cases h

theorem mem_nodes_of_idNode {n : Node} (h : r.idNode mark = .ok (some n)) : n ∈ mark.nodes := by
  rcases r.idNode_cases mark with ⟨found, hfound, -⟩ | ⟨first, hmem, hok⟩
  · rw [hfound] at h
    cases h
  · rcases hok with hok | ⟨-, hok⟩ | ⟨-, hok⟩ <;> rw [hok] at h
    · obtain rfl := Option.some.inj (Except.ok.inj h)
      exact hmem
    · have hvalue := Node.mem_children_of_child? (Except.ok.inj h)
      exact Node.mem_nodes_trans (Node.mem_nodes_of_mem_children hvalue) hmem
    · have hvalue := Node.mem_children_of_child? (Except.ok.inj h)
      exact Node.mem_nodes_trans (Node.mem_nodes_of_mem_children hvalue) hmem

end Reading

end ViewBinding.Java
