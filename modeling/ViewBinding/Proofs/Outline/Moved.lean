import Mathlib.Data.List.Find
import ViewBinding.Java.Header
import ViewBinding.Proofs.Constants.Moved
import ViewBinding.Proofs.Outline.Members

/-!
# Declarations and places

What a text declares does not depend on where its nodes stand, as long as what is looked at is
spelled alike: its package and imports are the same (`ViewBinding.Java.Header.ofTree_moved`), its
types and members are the same at other places (`ViewBinding.Java.outline_moved`), and so are its
constants (`ViewBinding.Java.Constants.ofEntries_moved`).
-/

namespace ViewBinding.Java

open Text

variable {move : Extent → Extent} {source source' : String} {n : Node}

/-! ### The header -/

namespace Header

theorem nameIn?_moved (h : n.SpelledAlike move source source')
    (hkind : n.kind = .packageDeclaration ∨ n.kind = .importDeclaration) :
    nameIn? source' (n.moved move) = nameIn? source n := by
  unfold nameIn?
  simp only [Node.namedChildren_moved, List.find?_map, Function.comp_def, Node.kind_moved,
    Option.map_map]
  refine Option.map_congr fun name hname => ?_
  have hfound := List.find?_some hname
  have hchild := Node.mem_children_of_namedChildren (List.mem_of_find?_eq_some hname)
  have hreads : n.kind.reads name := by
    rcases hkind with hkind | hkind <;> simpa [Kind.reads, hkind] using hfound
  rw [h.textIn_child hchild (Node.reads_of_kind hreads)]

theorem add_moved (header : Header) (h : n.SpelledAlike move source source') :
    add source' header (n.moved move) = add source header n := by
  unfold add
  by_cases hkind : n.kind = .packageDeclaration ∨ n.kind = .importDeclaration
  · rw [nameIn?_moved h hkind]
    simp
  · -- all other declarations leave the header as it is
    obtain ⟨hpackage, himport⟩ := not_or.mp hkind
    simp only [Node.kind_moved]
    split <;> simp_all

/-- **The header does not depend on places.** -/
theorem ofTree_moved {root : Node} (h : root.SpelledAlike move source source') :
    ofTree source' (root.moved move) = ofTree source root := by
  unfold ofTree
  rw [Node.children_moved, List.foldl_map]
  refine List.foldl_ext _ _ _ fun header c hc => ?_
  exact add_moved header (h.of_mem_children hc)

end Header

/-! ### The outline -/

/-- The entry at its place in the moved text. -/
def Entry.moved (move : Extent → Extent) : Entry → Entry
  | .type nesting => .type nesting
  | .member nesting holder node => .member nesting holder (node.moved move)

theorem declaredTypes_moved (entries : List Entry) :
    declaredTypes (entries.map (Entry.moved move)) = declaredTypes entries := by
  rw [declaredTypes, List.filterMap_map]
  refine List.filterMap_congr fun entry _ => ?_
  cases entry <;> rfl

/-- What the outline lists below a node is listed below the moved node, at other places. -/
structure Node.ListsAlike (move : Extent → Extent) (source source' : String) (n : Node) :
    Prop where
  here : ∀ outer holder, entriesOf source' outer holder (n.moved move) =
    (entriesOf source outer holder n).map (Entry.moved move)
  inside : ∀ nesting holder, entriesIn source' nesting holder (n.moved move) =
    (entriesIn source nesting holder n).map (Entry.moved move)

variable {nesting outer : List String} {holder : Kind}

theorem entriesAmong_moved {cs : List Node} (h : ∀ c ∈ cs, c.ListsAlike move source source') :
    entriesAmong source' nesting holder (cs.map (Node.moved move)) =
      (entriesAmong source nesting holder cs).map (Entry.moved move) := by
  induction cs with
  | nil => rfl
  | cons c cs ih =>
    have hc := h c List.mem_cons_self
    rw [List.map_cons, entriesAmong, entriesAmong, List.map_append,
      ih fun d hd => h d (List.mem_cons_of_mem c hd), Node.kind_moved, hc.here, hc.inside]
    split <;> rfl

theorem entriesOfBody_moved {cs : List Node} (h : ∀ c ∈ cs, c.ListsAlike move source source') :
    entriesOfBody source' nesting holder (cs.map (Node.moved move)) =
      (entriesOfBody source nesting holder cs).map (Entry.moved move) := by
  induction cs with
  | nil => rfl
  | cons c cs ih =>
    rw [List.map_cons, entriesOfBody, entriesOfBody, Node.role_moved,
      (h c List.mem_cons_self).inside, ih fun d hd => h d (List.mem_cons_of_mem c hd)]
    split <;> rfl

theorem Node.listsAlike (h : n.SpelledAlike move source source') :
    n.ListsAlike move source source' := by
  induction n using Node.induction with
  | mk kind role extent isAbsent children ih =>
    have hchildren : ∀ c ∈ children, c.ListsAlike move source source' :=
      fun c hc => ih c hc (h.of_mem_children hc)
    refine ⟨fun outer holder => ?_, fun nesting holder => ?_⟩
    · rw [moved, entriesOf, entriesOf, movedAll_eq]
      split
      · rename_i hkind
        simp only [List.find?_map, Function.comp_def, role_moved]
        cases hname : children.find? fun c => c.role == some Role.name with
        | none => rfl
        | some name =>
          have hrole := List.find?_some hname
          have hreads : kind.reads name := by
            cases kind <;> first | exact hrole | cases hkind
          have htext := h.textIn_child (List.mem_of_find?_eq_some hname) (reads_of_kind hreads)
          simp only [Option.map_some, List.map_cons, htext, entriesOfBody_moved hchildren]
          rfl
      · split
        · simp [Entry.moved, moved]
        · rfl
    · rw [moved, entriesIn, entriesIn, movedAll_eq]
      exact entriesAmong_moved hchildren

/-- **The same types and members are declared**, at other places. -/
theorem outline_moved {root : Node} (h : root.SpelledAlike move source source') :
    outline source' (root.moved move) = (outline source root).map (Entry.moved move) := by
  have htop (cs : List Node) (hcs : cs ⊆ root.children) :
      entriesAtTop source' (cs.map (Node.moved move)) =
        (entriesAtTop source cs).map (Entry.moved move) := by
    induction cs with
    | nil => rfl
    | cons c cs ih =>
      obtain ⟨hc, hcs⟩ := List.cons_subset.mp hcs
      rw [List.map_cons, entriesAtTop, entriesAtTop, List.map_append, ih hcs, Node.kind_moved,
        (Node.listsAlike (h.of_mem_children hc)).here]
      split <;> rfl
  rw [outline, Node.children_moved]
  exact htop root.children (List.Subset.refl _)

/-- The members of the outline are nodes of the tree. -/
theorem mem_nodes_of_mem_outline {root member : Node}
    (h : .member nesting holder member ∈ outline source root) : member ∈ root.nodes := by
  obtain ⟨path, hsite⟩ := exists_site_of_mem_outline h
  exact (mem_sites_iff.mp hsite).mem_nodes

/-! ### Constants -/

theorem textIn_child?_moved {role : Role} (h : n.SpelledAlike move source source')
    (hreads : ∀ c : Node, c.role = some role → n.reads c) :
    ((n.moved move).child? role).map (fun c => c.textIn source') =
      (n.child? role).map fun c => c.textIn source := by
  rw [Node.child?_moved, Option.map_map]
  exact Option.map_congr fun c hc => h.textIn_child? hc hreads

@[simp] theorem Node.modifiers?_moved (n : Node) :
    (n.moved move).modifiers? = n.modifiers?.map (Node.moved move) :=
  n.childOf?_moved _

@[simp] theorem Node.modifier?_moved (n : Node) (keyword : String) :
    (n.moved move).modifier? keyword = (n.modifier? keyword).map (Node.moved move) := by
  unfold modifier?
  cases hmodifiers : n.modifiers? <;> simp [hmodifiers]

theorem Node.reads_type (hkind : n.kind = .fieldDeclaration ∨ n.kind = .constantDeclaration)
    {c : Node} (hrole : c.role = some .type) : n.reads c := by
  rcases hkind with hkind | hkind <;> simp [reads, Kind.reads, hkind, hrole]

theorem Node.reads_of_declarator {member declarator c : Node}
    (hmem : declarator ∈ member.childrenIn .declarator)
    (hrole : c.role = some .name ∨ c.role = some .dimensions) : declarator.reads c := by
  have hdeclarator := role_of_childrenIn hmem
  rcases hrole with hrole | hrole <;> simp [reads, hdeclarator, hrole]

namespace Constants

theorem ofMember_moved (nesting : List String) (holder : Kind)
    (h : n.SpelledAlike move source source') :
    ofMember source' nesting holder (n.moved move) =
      (ofMember source nesting holder n).map fun entry => (entry.1, entry.2.moved move) := by
  unfold ofMember
  by_cases hkind : n.kind = .fieldDeclaration ∨ n.kind = .constantDeclaration
  · have hint : ((n.moved move).child? .type).any (fun type => type.textIn source' == "int") =
        (n.child? .type).any fun type => type.textIn source == "int" := by
      have htype := textIn_child?_moved h fun c => Node.reads_type hkind
      simpa [Option.any_map, Function.comp_def] using
        congrArg (Option.any fun text => text == "int") htype
    simp only [hint, Node.kind_moved, Node.modifier?_moved, Option.isSome_map]
    split
    · rw [Node.childrenIn_moved, List.filterMap_map, List.map_filterMap]
      refine List.filterMap_congr fun declarator hmem => ?_
      have hdeclarator := h.of_mem_children (Node.mem_children_of_childrenIn hmem)
      simp only [Function.comp_apply, Node.child?_moved, Option.isSome_map]
      split
      · rfl
      · cases hname : declarator.child? .name with
        | none => rfl
        | some name =>
          have htext := hdeclarator.textIn_child? hname fun c hrole =>
            Node.reads_of_declarator hmem (.inl hrole)
          cases hvalue : declarator.child? .value with
          | none => rfl
          | some value =>
            have hexpr := IdExpr.ofNode_moved
              (hdeclarator.of_mem_children (Node.mem_children_of_child? hvalue))
            simp only [Option.map_some, htext, hexpr]
    · rfl
  · obtain ⟨hfield, hconstant⟩ := not_or.mp hkind
    simp [hfield, hconstant]

/-- **The same constants are collected**, with their initializers at other places. -/
theorem ofEntries_moved (package : String) {entries : List Entry}
    (h : ∀ nesting holder member, .member nesting holder member ∈ entries →
      member.SpelledAlike move source source') :
    ofEntries source' package (entries.map (Entry.moved move)) =
      (ofEntries source package entries).moved move := by
  refine Constants.mk.injEq .. |>.mpr ⟨rfl, ?_, declaredTypes_moved entries⟩
  dsimp only [ofEntries]
  rw [List.map_reverse, List.flatMap_map, List.map_flatMap]
  refine congrArg List.reverse (List.flatMap_congr fun entry hentry => ?_)
  cases entry with
  | type nesting => rfl
  | member nesting holder member => exact ofMember_moved nesting holder (h _ _ _ hentry)

end Constants

end ViewBinding.Java
