import Mathlib.Data.List.Infix
import Mathlib.Data.String.Basic
import ViewBinding.Proofs.Tree.Nodes

/-!
# Moving a tree

When a text is put into another one between two tokens, and is passed over there, the tree stays as
it is but for the places: what stands behind moves on, and what stands around becomes longer
(`ViewBinding.Text.Extent.moved`, `ViewBinding.Java.Node.moved`).

What a tree says then depends on the texts of those nodes whose spelling is looked at: names and the
dotted names in declarations, the types and array brackets of fields, operators and literals.
`ViewBinding.Java.Node.spelled` lists them. A node keeps its text if the new one does not come to
stand inside of it (`ViewBinding.Text.Extent.textIn_moved`).
-/

namespace ViewBinding

/-! ### Extents -/

namespace Text

theorem byteLength_eq_utf8Len (cs : List Char) : byteLength cs = String.utf8Len cs := by
  induction cs with
  | nil => rfl
  | cons c cs ih => rw [byteLength_cons, String.utf8Len_cons, ih, Nat.add_comm]

theorem eq_nil_of_byteLength_eq_zero {cs : List Char} (h : byteLength cs = 0) : cs = [] := by
  rwa [byteLength_eq_utf8Len, String.utf8Len_eq_zero] at h

/-- Of two beginnings of one text the shorter one is a beginning of the longer one. -/
theorem exists_eq_append_of_byteLength_le {as bs cs ds : List Char} (h : as ++ bs = cs ++ ds)
    (hle : byteLength as ≤ byteLength cs) : ∃ ms, cs = as ++ ms ∧ bs = ms ++ ds := by
  rcases List.append_eq_append_iff.mp h with hms | ⟨ms, rfl, rfl⟩
  · exact hms
  · rw [byteLength_append] at hle
    obtain rfl : ms = [] := eq_nil_of_byteLength_eq_zero (by omega)
    exact ⟨[], by simp⟩

namespace Extent

/-- The extent in the text into which `size` bytes have been put in front of the byte `cut`. -/
def moved (cut size : Nat) (e : Extent) : Extent :=
  ⟨if cut ≤ e.start then e.start + size else e.start,
    if cut < e.stop then e.stop + size else e.stop⟩

/-- The extent covers some of the characters, and these wholly. -/
def CoversIn (e : Extent) (cs : List Char) : Prop :=
  e.start < e.stop ∧ e.start ∈ cs.inits.map byteLength ∧ e.stop ∈ cs.inits.map byteLength

instance (e : Extent) (cs : List Char) : Decidable (e.CoversIn cs) :=
  inferInstanceAs (Decidable (_ ∧ _ ∧ _))

theorem CoversIn.exists_split {e : Extent} {cs : List Char} (h : e.CoversIn cs) :
    ∃ as bs ds, cs = as ++ bs ++ ds ∧ bs ≠ [] ∧
      e = ⟨byteLength as, byteLength as + byteLength bs⟩ := by
  obtain ⟨hlt, hfirst, hlast⟩ := h
  obtain ⟨as, has, hstart⟩ := List.mem_map.mp hfirst
  obtain ⟨front, hfront, hstop⟩ := List.mem_map.mp hlast
  obtain ⟨rest, hrest⟩ := (List.mem_inits _ _).mp has
  obtain ⟨ds, hds⟩ := (List.mem_inits _ _).mp hfront
  obtain ⟨bs, rfl, -⟩ := exists_eq_append_of_byteLength_le (hrest.trans hds.symm) (by omega)
  rw [byteLength_append] at hstop
  refine ⟨as, bs, ds, hds.symm, ?_, by rw [hstop, hstart]⟩
  rintro rfl
  rw [byteLength_nil] at hstop
  omega

/-- An extent covers what stands between what is in front of it and what is behind it. -/
theorem textIn_append (as bs cs : List Char) :
    textIn ⟨byteLength as, byteLength as + byteLength bs⟩ (.ofList (as ++ bs ++ cs)) =
      .ofList bs := by
  rw [byteLength_eq_utf8Len, byteLength_eq_utf8Len]
  exact String.extract_of_valid as bs cs

/-- **An extent that is not cut keeps its text** when other text is put in. -/
theorem textIn_moved {e : Extent} {front added back : List Char} (h : e.CoversIn (front ++ back))
    (huncut : e.stop ≤ byteLength front ∨ byteLength front ≤ e.start) :
    (e.moved (byteLength front) (byteLength added)).textIn (.ofList (front ++ added ++ back)) =
      e.textIn (.ofList (front ++ back)) := by
  obtain ⟨as, bs, cs, hsplit, hne, rfl⟩ := h.exists_split
  have hpos : 0 < byteLength bs :=
    Nat.pos_of_ne_zero fun hzero => hne (eq_nil_of_byteLength_eq_zero hzero)
  rw [hsplit, textIn_append]
  -- the node stands in front of the cut and stays, or behind it and moves on
  rcases huncut with hbefore | hbehind
  · obtain ⟨ms, rfl, -⟩ := exists_eq_append_of_byteLength_le hsplit.symm
      (by rwa [byteLength_append])
    simp only [byteLength_append, moved] at *
    rw [if_neg (by omega), if_neg (by omega)]
    simpa using textIn_append as bs (ms ++ added ++ back)
  · obtain ⟨ms, rfl, rfl⟩ := exists_eq_append_of_byteLength_le
      (hsplit.trans (List.append_assoc as bs cs)) hbehind
    simp only [byteLength_append, moved] at *
    rw [if_pos (by omega), if_pos (by omega)]
    have hshift : byteLength front + byteLength ms + byteLength added =
        byteLength (front ++ added ++ ms) := by
      simp only [byteLength_append]
      omega
    rw [Nat.add_right_comm _ (byteLength bs), hshift]
    simpa using textIn_append (front ++ added ++ ms) bs cs

end Extent

end Text

namespace Java

open Text

/-! ### Trees -/

/-- Whether a node of the kind is a word by itself: a name or a literal. -/
def Kind.isWord : Kind → Bool
  | identifier | literal _ => true
  | _ => false

/-- Whether the text of the child `c` of a node of the kind is looked at. -/
def Kind.reads (kind : Kind) (c : Node) : Bool :=
  match kind with
  | .packageDeclaration | .importDeclaration => c.kind == .identifier || c.kind == .scopedName
  | .classDeclaration | .enumDeclaration | .recordDeclaration | .interfaceDeclaration
  | .annotationDeclaration | .annotationUse | .annotationMarker => c.role == some .name
  | .elementPair => c.role == some .key
  | .assignment => c.role == some .left
  | .fieldDeclaration | .constantDeclaration => c.role == some .type
  | .unary | .binary => c.role == some .operator
  | .fieldAccess => c.role == some .object || c.role == some .field
  | .scopedName => c.role == some .scope || c.role == some .name
  | _ => false

namespace Node

mutual

/-- The tree in which every extent is another one. -/
def moved (move : Extent → Extent) : Node → Node
  | .mk kind role extent isAbsent children =>
    .mk kind role (move extent) isAbsent (movedAll move children)

/-- The trees in which every extent is another one. -/
def movedAll (move : Extent → Extent) : List Node → List Node
  | [] => []
  | c :: cs => moved move c :: movedAll move cs

end

variable {move : Extent → Extent} {n c m : Node}

@[simp] theorem movedAll_eq (cs : List Node) : movedAll move cs = cs.map (moved move) := by
  induction cs with
  | nil => rfl
  | cons c cs ih => rw [movedAll, ih, List.map_cons]

@[simp] theorem kind_moved (n : Node) : (n.moved move).kind = n.kind := by
  cases n
  rfl

@[simp] theorem role_moved (n : Node) : (n.moved move).role = n.role := by
  cases n
  rfl

@[simp] theorem extent_moved (n : Node) : (n.moved move).extent = move n.extent := by
  cases n
  rfl

@[simp] theorem children_moved (n : Node) :
    (n.moved move).children = n.children.map (moved move) := by
  cases n
  rw [moved, children_mk, movedAll_eq, children_mk]

@[simp] theorem child?_moved (n : Node) (role : Role) :
    (n.moved move).child? role = (n.child? role).map (moved move) := by
  simp only [child?, children_moved, List.find?_map, Function.comp_def, role_moved]

@[simp] theorem childOf?_moved (n : Node) (kind : Kind) :
    (n.moved move).childOf? kind = (n.childOf? kind).map (moved move) := by
  simp only [childOf?, children_moved, List.find?_map, Function.comp_def, kind_moved]

@[simp] theorem childrenIn_moved (n : Node) (role : Role) :
    (n.moved move).childrenIn role = (n.childrenIn role).map (moved move) := by
  simp [childrenIn, List.filter_map, Function.comp_def]

@[simp] theorem namedChildren_moved (n : Node) :
    (n.moved move).namedChildren = n.namedChildren.map (moved move) := by
  simp [namedChildren, List.filter_map, Function.comp_def]

/-- The places where a text is not Java move with the tree. -/
theorem faultsOf_moved (n : Node) : faultsOf (n.moved move) = (faultsOf n).map (moved move) := by
  induction n using Node.induction with
  | mk kind role extent isAbsent children ih =>
    -- the induction goes down the tree, so a list of children needs one of its own
    have hamong : ∀ cs ⊆ children,
        faultsAmong (cs.map (moved move)) = (faultsAmong cs).map (moved move) := by
      intro cs hcs
      induction cs with
      | nil => rfl
      | cons c cs ih' =>
        obtain ⟨hc, hcs⟩ := List.cons_subset.mp hcs
        rw [List.map_cons, faultsAmong, faultsAmong, List.map_append, ih c hc, ih' hcs]
    rw [moved, faultsOf, faultsOf]
    split
    · simp [moved]
    · rw [movedAll_eq, hamong children (List.Subset.refl _)]

/-! ### Spelling -/

/-- Whether the text of the child `c` is looked at. -/
def reads (n c : Node) : Bool :=
  n.kind.reads c
    || (n.role == some .declarator && (c.role == some .name || c.role == some .dimensions))

theorem reads_of_kind {n c : Node} (h : n.kind.reads c) : n.reads c := by
  simp [reads, h]

/-- The nodes of a tree whose text is looked at. -/
def spelled (root : Node) : List Node :=
  (root.nodes.filter fun n => n.kind.isWord) ++
    root.nodes.flatMap fun n => n.children.filter n.reads

theorem mem_spelled_iff {root : Node} : m ∈ root.spelled ↔
    (m ∈ root.nodes ∧ m.kind.isWord) ∨ ∃ n ∈ root.nodes, m ∈ n.children ∧ n.reads m := by
  simp [spelled]

theorem spelled_subset_of_mem_nodes {root : Node} (hn : n ∈ root.nodes) :
    n.spelled ⊆ root.spelled := by
  intro m hm
  rcases mem_spelled_iff.mp hm with ⟨hmem, hword⟩ | ⟨l, hl, hmem, hreads⟩
  · exact mem_spelled_iff.mpr (.inl ⟨mem_nodes_trans hmem hn, hword⟩)
  · exact mem_spelled_iff.mpr (.inr ⟨l, mem_nodes_trans hl hn, hmem, hreads⟩)

/-- What is looked at below the node is spelled in the one text, after the move, as it is in the
other one. -/
def SpelledAlike (move : Extent → Extent) (source source' : String) (n : Node) : Prop :=
  ∀ m ∈ n.spelled, (m.moved move).textIn source' = m.textIn source

namespace SpelledAlike

variable {source source' : String}

theorem of_mem_nodes (h : n.SpelledAlike move source source') (hm : m ∈ n.nodes) :
    m.SpelledAlike move source source' :=
  fun l hl => h l (spelled_subset_of_mem_nodes hm hl)

theorem of_mem_children (h : n.SpelledAlike move source source') (hc : c ∈ n.children) :
    c.SpelledAlike move source source' :=
  h.of_mem_nodes (mem_nodes_of_mem_children hc)

theorem textIn_word (h : n.SpelledAlike move source source') (hkind : n.kind.isWord) :
    (n.moved move).textIn source' = n.textIn source :=
  h n (mem_spelled_iff.mpr (.inl ⟨n.mem_nodes_self, hkind⟩))

theorem textIn_child (h : n.SpelledAlike move source source') (hc : c ∈ n.children)
    (hreads : n.reads c) : (c.moved move).textIn source' = c.textIn source :=
  h c (mem_spelled_iff.mpr (.inr ⟨n, n.mem_nodes_self, hc, hreads⟩))

/-- A child is spelled alike if the text of all children in its role is looked at. -/
theorem textIn_child? {role : Role} (h : n.SpelledAlike move source source')
    (hc : n.child? role = some c) (hreads : ∀ c : Node, c.role = some role → n.reads c) :
    (c.moved move).textIn source' = c.textIn source :=
  h.textIn_child (mem_children_of_child? hc) (hreads c (role_of_child? hc))

end SpelledAlike

/-- **Text put in leaves all spellings alone** that it does not come to stand inside of. -/
theorem spelledAlike_moved {front added back : List Char}
    (h : ∀ m ∈ n.spelled, m.extent.CoversIn (front ++ back) ∧
      (m.extent.stop ≤ byteLength front ∨ byteLength front ≤ m.extent.start)) :
    n.SpelledAlike (.moved (byteLength front) (byteLength added)) (.ofList (front ++ back))
      (.ofList (front ++ added ++ back)) := by
  intro m hm
  rw [textIn, extent_moved]
  exact Extent.textIn_moved (h m hm).1 (h m hm).2

end Node

end Java

end ViewBinding
