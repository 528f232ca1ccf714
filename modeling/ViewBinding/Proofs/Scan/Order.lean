import ViewBinding.Java.Bindings
import ViewBinding.Proofs.Outline.Types

/-!
# The order of the fields

What becomes of fields depends on their order: of two that give one view id to a type the last one
counts, and the other one is what it is said to displace. This order is the one of the sources and,
in each of them, the one of the text (`ViewBinding.Java.places_allBindings`), though the scan goes
down into the types declared between fields and into the lists of the members of enums.

Trees are taken to be in the order of their text: `ViewBinding.Java.Node.IsLaidOut` is what that
says of a node. It does not keep two names that the text lacks from standing at one place. What
stands between them does, the comma that `ViewBinding.Java.Node.DeclaresInTurn` is about.

The places of the names below a node are behind its start and inside of it
(`ViewBinding.Text.Extent.Holds`), and so what stands one after the other in the tree can be put
together to a list of places that do (`ViewBinding.Java.holds_flatMap`).
-/

namespace ViewBinding

open Java Text

/-! ### Places one after the other -/

namespace Place

/-- **The place comes before the other**, by the numbers of their sources first and by where they
start in their source second. -/
def IsBefore (p q : Place) : Prop :=
  p.source < q.source ∨ p.source = q.source ∧ p.extent.start < q.extent.start

/-- **The places have nothing in common.** -/
def IsApart (p q : Place) : Prop :=
  p.source = q.source → p.extent.stop ≤ q.extent.start ∨ q.extent.stop ≤ p.extent.start

end Place

/-- The extents are behind the start of `e`, inside of it and one after the other. -/
structure Text.Extent.Holds (e : Extent) (es : List Extent) : Prop where
  inside : ∀ x ∈ es, e.start < x.start ∧ x.start ≤ x.stop ∧ x.stop ≤ e.stop
  ordered : es.Pairwise fun x y => x.start < y.start ∧ x.stop ≤ y.start

namespace Text.Extent.Holds

variable {e f : Extent} {es : List Extent}

theorem nil (e : Extent) : e.Holds [] :=
  ⟨fun _ h => (List.not_mem_nil h).elim, .nil⟩

theorem mono (h : e.Holds es) (hstart : f.start ≤ e.start) (hstop : e.stop ≤ f.stop) :
    f.Holds es := by
  refine ⟨fun x hx => ?_, h.ordered⟩
  obtain ⟨hbehind, hordered, hinside⟩ := h.inside x hx
  exact ⟨by omega, hordered, by omega⟩

end Text.Extent.Holds

namespace Java

/-! ### Trees in the order of the text -/

/-- **The children of the node are in the order of the text**, one after the other and inside of
the node. -/
structure Node.IsLaidOut (n : Node) : Prop where
  ordered : n.children.Pairwise fun c d => c.extent.stop ≤ d.extent.start
  inside : ∀ c ∈ n.children, n.extent.start ≤ c.extent.start ∧
    c.extent.start ≤ c.extent.stop ∧ c.extent.stop ≤ n.extent.stop

/-- **The declarators of a declaration are set apart**: the type stands in front of the first one,
and a comma between two of them. A text may lack a name, but not what is in front of it. -/
structure Node.DeclaresInTurn (n : Node) : Prop where
  behind : ∀ d ∈ n.childrenIn .declarator, n.extent.start < d.extent.start
  apart : (n.childrenIn .declarator).Pairwise fun c d => c.extent.stop < d.extent.start

instance (n : Node) : Decidable n.IsLaidOut :=
  decidable_of_iff ((n.children.Pairwise fun c d => c.extent.stop ≤ d.extent.start) ∧
      ∀ c ∈ n.children, n.extent.start ≤ c.extent.start ∧
        c.extent.start ≤ c.extent.stop ∧ c.extent.stop ≤ n.extent.stop)
    ⟨fun ⟨h, h'⟩ => ⟨h, h'⟩, fun h => ⟨h.1, h.2⟩⟩

instance (n : Node) : Decidable n.DeclaresInTurn :=
  decidable_of_iff ((∀ d ∈ n.childrenIn .declarator, n.extent.start < d.extent.start) ∧
      (n.childrenIn .declarator).Pairwise fun c d => c.extent.stop < d.extent.start)
    ⟨fun ⟨h, h'⟩ => ⟨h, h'⟩, fun h => ⟨h.1, h.2⟩⟩

/-- The places of the names that a declaration of fields declares. -/
def Node.namePlaces (member : Node) : List Extent :=
  if member.kind = .fieldDeclaration then
    (member.childrenIn .declarator).filterMap fun declarator =>
      (declarator.child? .name).map Node.extent
  else []

/-- The places of the names that an entry of the outline declares. -/
def Entry.namePlaces : Entry → List Extent
  | .type _ => []
  | .member _ _ m => m.namePlaces

variable {source : String} {nesting outer : List String} {holder : Kind}
  {n member : Node}

/-- **What stands in turn below the children stands in turn below the node.** -/
theorem holds_flatMap {bring : Node → List Extent} (hlaid : n.IsLaidOut)
    (h : ∀ c ∈ n.children, c.extent.Holds (bring c)) :
    n.extent.Holds (n.children.flatMap bring) := by
  refine ⟨fun x hx => ?_, List.pairwise_flatMap.mpr ⟨fun c hc => (h c hc).ordered, ?_⟩⟩
  · obtain ⟨c, hc, hx⟩ := List.mem_flatMap.mp hx
    obtain ⟨hstart, -, hstop⟩ := hlaid.inside c hc
    exact ((h c hc).mono hstart hstop).inside x hx
  · refine hlaid.ordered.imp_of_mem fun {c d} hc hd hcd x hx y hy => ?_
    obtain ⟨-, hordered, hstop⟩ := (h c hc).inside x hx
    obtain ⟨hbehind, -, -⟩ := (h d hd).inside y hy
    exact ⟨by omega, by omega⟩

/-- **The names of a declaration stand in turn.** -/
theorem holds_namePlaces (hlaid : ∀ m ∈ member.nodes, m.IsLaidOut)
    (hturn : member.kind = .fieldDeclaration → member.DeclaresInTurn) :
    member.extent.Holds member.namePlaces := by
  unfold Node.namePlaces
  split
  · rename_i hkind
    -- a name is inside of its declarator
    have hname : ∀ d ∈ member.childrenIn .declarator, ∀ name ∈ d.child? .name,
        d.extent.start ≤ name.extent.start ∧ name.extent.start ≤ name.extent.stop ∧
          name.extent.stop ≤ d.extent.stop := fun d hd name hname =>
      (hlaid d (Node.mem_nodes_of_mem_children (Node.mem_children_of_childrenIn hd))).inside name
        (Node.mem_children_of_child? hname)
    constructor
    · intro x hx
      obtain ⟨d, hd, hx⟩ := List.mem_filterMap.mp hx
      obtain ⟨name, hmem, rfl⟩ := Option.map_eq_some_iff.mp hx
      have hbehind := (hturn hkind).behind d hd
      obtain ⟨hstart, hordered, hstop⟩ := hname d hd name hmem
      obtain ⟨-, -, hinside⟩ := (hlaid member member.mem_nodes_self).inside d
        (Node.mem_children_of_childrenIn hd)
      exact ⟨by omega, hordered, by omega⟩
    · refine List.pairwise_filterMap.mpr ((hturn hkind).apart.imp_of_mem ?_)
      intro c d hc hd hcd x hx y hy
      obtain ⟨name, hmem, rfl⟩ := Option.map_eq_some_iff.mp hx
      obtain ⟨name', hmem', rfl⟩ := Option.map_eq_some_iff.mp hy
      obtain ⟨-, hordered, hstop⟩ := hname c hc name hmem
      obtain ⟨hstart, -, -⟩ := hname d hd name' hmem'
      exact ⟨by omega, by omega⟩
  · exact .nil _

/-! ### The outline -/

theorem entriesAmong_eq_flatMap (cs : List Node) :
    entriesAmong source nesting holder cs = cs.flatMap fun c =>
      if c.kind == .enumMembers then entriesIn source nesting holder c
      else entriesOf source nesting holder c := by
  induction cs with
  | nil => rfl
  | cons c cs ih => rw [entriesAmong, List.flatMap_cons, ih]

theorem entriesAtTop_eq_flatMap (cs : List Node) :
    entriesAtTop source cs = cs.flatMap fun c =>
      if c.kind.declaresType then entriesOf source [] .program c else [] := by
  induction cs with
  | nil => rfl
  | cons c cs ih => rw [entriesAtTop, List.flatMap_cons, ih]

/-- The names that are declared below a node stand in turn. -/
structure Node.ListsInTurn (source : String) (n : Node) : Prop where
  here : ∀ outer holder,
    n.extent.Holds ((entriesOf source outer holder n).flatMap Entry.namePlaces)
  inside : ∀ nesting holder,
    n.extent.Holds ((entriesIn source nesting holder n).flatMap Entry.namePlaces)

theorem Node.listsInTurn (source : String) (hlaid : ∀ m ∈ n.nodes, m.IsLaidOut)
    (hturn : ∀ m ∈ n.nodes, m.kind = .fieldDeclaration → m.DeclaresInTurn) :
    n.ListsInTurn source := by
  induction n using Node.induction with
  | mk kind role extent isAbsent children ih =>
    let n := Node.mk kind role extent isAbsent children
    have hself : n.IsLaidOut := hlaid n n.mem_nodes_self
    have hbelow (c : Node) (hc : c ∈ children) : c.ListsInTurn source :=
      have hmem {m : Node} (hm : m ∈ c.nodes) : m ∈ n.nodes :=
        mem_nodes_trans hm (mem_nodes_of_mem_children hc)
      ih c hc (fun m hm => hlaid m (hmem hm)) fun m hm => hturn m (hmem hm)
    refine ⟨fun outer holder => ?_, fun nesting holder => ?_⟩
    · rw [entriesOf]
      split
      · -- a type brings what is in its body, which is one of its children
        split
        · exact .nil _
        · rw [List.flatMap_cons, entriesOfBody_eq]
          cases hbody : children.find? fun c => c.role == some Role.body with
          | none => exact .nil _
          | some body =>
            have hmem : body ∈ n.children := List.mem_of_find?_eq_some hbody
            obtain ⟨hstart, -, hstop⟩ := hself.inside body hmem
            exact ((hbelow body hmem).inside _ _).mono hstart hstop
      · split
        · rw [List.flatMap_singleton]
          exact holds_namePlaces hlaid (hturn n n.mem_nodes_self)
        · exact .nil _
    · rw [entriesIn, entriesAmong_eq_flatMap, List.flatMap_assoc]
      refine holds_flatMap hself fun c hc => ?_
      split
      · exact (hbelow c hc).inside _ _
      · exact (hbelow c hc).here _ _

/-- **The names that a text declares in its types stand in turn.** -/
theorem holds_outline {root : Node} (hlaid : ∀ m ∈ root.nodes, m.IsLaidOut)
    (hturn : ∀ m ∈ root.nodes, m.kind = .fieldDeclaration → m.DeclaresInTurn) :
    root.extent.Holds ((outline source root).flatMap Entry.namePlaces) := by
  rw [outline, entriesAtTop_eq_flatMap, List.flatMap_assoc]
  refine holds_flatMap (hlaid root root.mem_nodes_self) fun c hc => ?_
  have hmem {m : Node} (hm : m ∈ c.nodes) : m ∈ root.nodes :=
    Node.mem_nodes_trans hm (Node.mem_nodes_of_mem_children hc)
  split
  · exact (Node.listsInTurn source (fun m hm => hlaid m (hmem hm))
      fun m hm => hturn m (hmem hm)).here _ _
  · exact .nil _

/-! ### The fields -/

namespace Reading

variable {r : Reading} {owner : TypeName} {mark : Node} {notes : Constants.Notes}

/-- The places of the fields that a member brings are those of names that it declares. -/
theorem places_memberBindings :
    ((r.memberBindings nesting holder member notes).1.fields.map BoundField.place).Sublist
      (member.namePlaces.map fun e => some ⟨r.number, e⟩) := by
  unfold memberBindings
  split
  · split
    · rename_i hkind
      unfold fieldBindings
      dsimp only
      split
      · exact List.nil_sublist _
      · split
        · rw [Node.namePlaces, if_pos (by simpa using hkind), declaredFields,
            List.map_filterMap, List.map_filterMap]
          simp only [Option.map_map]
          exact List.Sublist.refl _
        · exact List.nil_sublist _
    · split <;> exact List.nil_sublist _
  · exact List.nil_sublist _

/-- **The fields of a text are brought in the order in which their names are declared.** -/
theorem places_entryBindings (entries : List Entry) (notes : Constants.Notes) :
    ((r.entryBindings entries notes).fields.map BoundField.place).Sublist
      ((entries.flatMap Entry.namePlaces).map fun e => some ⟨r.number, e⟩) := by
  induction entries generalizing notes with
  | nil => exact List.nil_sublist _
  | cons entry entries ih =>
    cases entry with
    | type nesting => exact ih notes
    | member nesting holder member =>
      rw [entryBindings, List.flatMap_cons, List.map_append]
      dsimp only
      rw [Bindings.fields_append, List.map_append]
      exact places_memberBindings.append (ih _)

end Reading

/-- The fields of a source stand in turn in it. -/
theorem places_bindings (number : Nat)
    (hlaid : ∀ n ∈ (Node.ofText source).nodes, n.IsLaidOut)
    (hturn : ∀ n ∈ (Node.ofText source).nodes, n.kind = .fieldDeclaration → n.DeclaresInTurn) :
    ∃ es : List Extent,
      (bindings number source).fields.map BoundField.place =
        es.map (fun e => some ⟨number, e⟩) ∧
      es.Pairwise fun x y => x.start < y.start ∧ x.stop ≤ y.start := by
  obtain ⟨es, hes, hplaces⟩ := List.sublist_map_iff.mp
    ((Reading.ofTree number source (.ofText source)).places_entryBindings
      (outline source (.ofText source)) [])
  exact ⟨es, hplaces, (holds_outline hlaid hturn).ordered.sublist hes⟩

theorem places_bindingsFrom (start : Nat) {sources : Sources}
    (hlaid : ∀ source ∈ sources, ∀ n ∈ (Node.ofText source.content).nodes, n.IsLaidOut)
    (hturn : ∀ source ∈ sources, ∀ n ∈ (Node.ofText source.content).nodes,
      n.kind = .fieldDeclaration → n.DeclaresInTurn) :
    ∃ places : List Place,
      (bindingsFrom start sources).fields.map BoundField.place = places.map some ∧
      (∀ p ∈ places, start ≤ p.source) ∧
      places.Pairwise fun p q => p.IsBefore q ∧ p.IsApart q := by
  induction sources generalizing start with
  | nil => exact ⟨[], rfl, fun _ h => (List.not_mem_nil h).elim, .nil⟩
  | cons source sources ih =>
    obtain ⟨es, hes, hordered⟩ := places_bindings start
      (hlaid source List.mem_cons_self) (hturn source List.mem_cons_self)
    obtain ⟨places, hplaces, hstart, hpairwise⟩ := ih (start + 1)
      (fun later hlater => hlaid later (.tail _ hlater))
      fun later hlater => hturn later (.tail _ hlater)
    refine ⟨es.map (Place.mk start) ++ places, ?_, ?_, List.pairwise_append.mpr ⟨?_, hpairwise, ?_⟩⟩
    · rw [bindingsFrom, Bindings.fields_append, List.map_append, hes, hplaces, List.map_append,
        List.map_map]
      rfl
    · intro p hp
      rcases List.mem_append.mp hp with hp | hp
      · obtain ⟨e, -, rfl⟩ := List.mem_map.mp hp
        exact Nat.le_refl _
      · exact Nat.le_of_succ_le (hstart p hp)
    · exact List.pairwise_map.mpr (hordered.imp fun h => ⟨.inr ⟨rfl, h.1⟩, fun _ => .inl h.2⟩)
    · -- the later sources have greater numbers
      intro p hp q hq
      obtain ⟨e, -, rfl⟩ := List.mem_map.mp hp
      have hlt : start < q.source := hstart q hq
      exact ⟨.inl hlt, fun heq => absurd heq (Nat.ne_of_lt hlt)⟩

/-- **The fields come in the order of the sources and of their texts.** Every field that sources
bring has a place, and these places strictly increase and have nothing in common, however types are
nested and fields and types mixed in them, and however many names a declaration declares. -/
theorem places_allBindings (sources : Sources)
    (hlaid : ∀ source ∈ sources, ∀ n ∈ (Node.ofText source.content).nodes, n.IsLaidOut)
    (hturn : ∀ source ∈ sources, ∀ n ∈ (Node.ofText source.content).nodes,
      n.kind = .fieldDeclaration → n.DeclaresInTurn) :
    ∃ places : List Place, (allBindings sources).fields.map BoundField.place = places.map some ∧
      places.Pairwise Place.IsBefore ∧ places.Pairwise Place.IsApart := by
  obtain ⟨places, hplaces, -, hpairwise⟩ := places_bindingsFrom 0 hlaid hturn
  exact ⟨places, hplaces, List.pairwise_and_iff.mp hpairwise⟩

/-- Fields before, between and after a class and an enum, which have fields of their own, a
declaration that declares two, and a field in another source. -/
theorem places_allBindings_nested :
    let sources : Sources := [⟨.inline, "class A \x7b @BindView(1) View a, b; class B \x7b "
      ++ "@BindView(2) View c; \x7d @BindView(3) View d; enum E \x7b X; @BindView(4) View e; \x7d "
      ++ "@BindView(5) View f; \x7d"⟩, ⟨.inline, "class C \x7b @BindView(1) View g; \x7d"⟩]
    (allBindings sources).fields.map BoundField.name = ["a", "b", "c", "d", "e", "f", "g"] ∧
      ∃ places : List Place,
        (allBindings sources).fields.map BoundField.place = places.map some ∧
        places.Pairwise Place.IsBefore ∧ places.Pairwise Place.IsApart := by
  intro sources
  obtain ⟨hnames, hlaid, hturn⟩ :
      (allBindings sources).fields.map BoundField.name = ["a", "b", "c", "d", "e", "f", "g"] ∧
      (∀ source ∈ sources, ∀ n ∈ (Node.ofText source.content).nodes, n.IsLaidOut) ∧
      ∀ source ∈ sources, ∀ n ∈ (Node.ofText source.content).nodes,
        n.kind = .fieldDeclaration → n.DeclaresInTurn := by
    decide +kernel
  exact ⟨hnames, places_allBindings sources hlaid hturn⟩

end Java

end ViewBinding
