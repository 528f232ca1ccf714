import ViewBinding.Java.Outline
import ViewBinding.Proofs.Tree.Nodes

/-!
# The members of the declared types

`ViewBinding.Java.outline` goes through a tree by recursion. What it is to list is said here
without the recursion: a member of a declared type is reached from the root through a statement that
declares a type, the body of that type, the body of a type declared in it, and so on. A
`ViewBinding.Java.Site` is such a member with the way down to it, and
`ViewBinding.Java.Site.IsMember` says which sites a tree has.

`ViewBinding.Java.sites` numbers the members that the outline lists
(`ViewBinding.Java.members_outline`). They are the sites of the tree and nothing else
(`ViewBinding.Java.mem_sites_iff`), in the order of the text, so that none is listed twice
(`ViewBinding.Java.sites_pairwise`).
-/

namespace ViewBinding.Java

/-- A member of a declared type that is not a type itself, and where it stands. -/
structure Site where
  /-- The way down to the member: the number of the child that is taken at every node. -/
  path : List Nat
  /-- The names of the types around the member. -/
  nesting : List String
  /-- How the innermost of these types is declared. -/
  holder : Kind
  member : Node

namespace Site

/-- The site seen from a node further up, from which `path` leads down to where it was seen
from. -/
def below (path : List Nat) (s : Site) : Site :=
  { s with path := path ++ s.path }

@[simp] theorem path_below (path : List Nat) (s : Site) : (s.below path).path = path ++ s.path :=
  rfl

@[simp] theorem nesting_below (path : List Nat) (s : Site) : (s.below path).nesting = s.nesting :=
  rfl

@[simp] theorem holder_below (path : List Nat) (s : Site) : (s.below path).holder = s.holder :=
  rfl

@[simp] theorem member_below (path : List Nat) (s : Site) : (s.below path).member = s.member :=
  rfl

@[simp] theorem below_below (path path' : List Nat) (s : Site) :
    (s.below path').below path = s.below (path ++ path') := by
  simp [below]

end Site

/-! ### Which sites a tree has -/

/-- The first child that is a body is `body`, and `i` is its number. -/
def Node.HasBody (n : Node) (i : Nat) (body : Node) : Prop :=
  n.children.findIdx? (fun c => c.role == some Role.body) = some i ∧ n.children[i]? = some body

/-- `path` leads from a body to a node in it. The members of an enum are in a list of their own
after its constants. -/
inductive Node.InBody : Node → List Nat → Node → Prop
  | member {body m : Node} {i : Nat} (hm : body.children[i]? = some m)
      (hkind : m.kind ≠ .enumMembers) : InBody body [i] m
  | enumMember {body list m : Node} {i : Nat} {path : List Nat}
      (hlist : body.children[i]? = some list) (hkind : list.kind = .enumMembers)
      (hm : InBody list path m) : InBody body (i :: path) m

/-- The site is a member of the type of that nesting, which `n` stands in directly, or of a type
that `n` declares. -/
inductive Node.HasMember (source : String) : List String → Kind → Node → Site → Prop
  | member {nesting : List String} {holder : Kind} {n : Node} (hnamed : n.kind.isNamed)
      (hkind : n.kind.declaresType = false) : HasMember source nesting holder n
        ⟨[], nesting, holder, n⟩
  | type {outer : List String} {holder : Kind} {n name body m : Node} {i : Nat}
      {path : List Nat} {s : Site} (hkind : n.kind.declaresType)
      (hname : n.child? .name = some name) (hbody : n.HasBody i body) (hm : body.InBody path m)
      (hs : HasMember source (outer ++ [name.textIn source]) n.kind m s) :
      HasMember source outer holder n (s.below (i :: path))

/-- **The sites of a tree**: the members of the types that its statements declare, and of the types
declared inside them. -/
inductive Site.IsMember (source : String) (root : Node) : Site → Prop
  | intro {statement : Node} {i : Nat} {s : Site} (hstatement : root.children[i]? = some statement)
      (hkind : statement.kind.declaresType)
      (hs : statement.HasMember source [] .program s) : IsMember source root (s.below [i])

/-! ### Where the sites stand -/

theorem Node.mem_nodes_of_inBody {body m : Node} {path : List Nat} (h : body.InBody path m) :
    m ∈ body.nodes := by
  induction h with
  | member hm _ => exact mem_nodes_of_mem_children (List.mem_of_getElem? hm)
  | enumMember hlist _ _ ih =>
    exact mem_nodes_trans ih (mem_nodes_of_mem_children (List.mem_of_getElem? hlist))

namespace Node.HasMember

variable {source : String} {outer : List String} {holder : Kind} {n : Node} {s : Site}

theorem mem_nodes (h : n.HasMember source outer holder s) : s.member ∈ n.nodes := by
  induction h with
  | member _ _ => exact mem_nodes_self _
  | type _ _ hbody hm _ ih =>
    exact mem_nodes_trans (mem_nodes_trans ih (mem_nodes_of_inBody hm))
      (mem_nodes_of_mem_children (List.mem_of_getElem? hbody.2))

/-- The types around a member start with those that the node stands in. -/
theorem nesting_eq (h : n.HasMember source outer holder s) :
    ∃ inner, s.nesting = outer ++ inner := by
  induction h with
  | member _ _ => exact ⟨[], (List.append_nil _).symm⟩
  | type _ _ _ _ _ ih =>
    obtain ⟨inner, hinner⟩ := ih
    exact ⟨_ :: inner, by rw [Site.nesting_below, hinner, List.append_assoc]; rfl⟩

end Node.HasMember

namespace Site.IsMember

variable {source : String} {root : Node} {s : Site}

theorem mem_nodes (h : s.IsMember source root) : s.member ∈ root.nodes := by
  obtain ⟨hstatement, -, hs⟩ := h
  exact Node.mem_nodes_trans hs.mem_nodes
    (Node.mem_nodes_of_mem_children (List.mem_of_getElem? hstatement))

/-- A member is always inside a type that has a name. -/
theorem nesting_ne_nil (h : s.IsMember source root) : s.nesting ≠ [] := by
  obtain ⟨-, hkind, hs⟩ := h
  cases hs with
  | member _ hnot =>
    rw [hkind] at hnot
    cases hnot
  | type _ _ _ _ hs =>
    obtain ⟨inner, hinner⟩ := hs.nesting_eq
    simp [hinner]

end Site.IsMember

/-! ### Numbering the members of the outline -/

/-- The sites that the nodes of a list bring, seen from their parent, in which the first node of
the list has the number `i`. -/
def numbered (bring : Node → List Site) (i : Nat) : List Node → List Site
  | [] => []
  | c :: cs => (bring c).map (.below [i]) ++ numbered bring (i + 1) cs

mutual

/-- The sites that a child of a body, or a statement of the text, brings. -/
def sitesOf (source : String) (outer : List String) (holder : Kind) : Node → List Site
  | .mk kind role extent isAbsent children =>
    if kind.declaresType then
      match children.find? fun c => c.role == some Role.name with
      | none => []
      | some name => sitesOfBody source (outer ++ [name.textIn source]) kind 0 children
    else if kind.isNamed then [⟨[], outer, holder, .mk kind role extent isAbsent children⟩]
    else []

/-- The sites in the first body among the children of a declaration, from the child of the number
`i` on. -/
def sitesOfBody (source : String) (nesting : List String) (holder : Kind) (i : Nat) :
    List Node → List Site
  | [] => []
  | c :: cs =>
    if c.role == some Role.body then (sitesIn source nesting holder c).map (.below [i])
    else sitesOfBody source nesting holder (i + 1) cs

/-- The sites in a body. -/
def sitesIn (source : String) (nesting : List String) (holder : Kind) : Node → List Site
  | .mk _ _ _ _ children => sitesAmong source nesting holder 0 children

/-- The sites in a list of members, from the one of the number `i` on. -/
def sitesAmong (source : String) (nesting : List String) (holder : Kind) (i : Nat) :
    List Node → List Site
  | [] => []
  | c :: cs =>
    (if c.kind = .enumMembers then sitesIn source nesting holder c
      else sitesOf source nesting holder c).map (.below [i])
      ++ sitesAmong source nesting holder (i + 1) cs

end

/-- The members of the declared types, in the order of the text. -/
def sites (source : String) (root : Node) : List Site :=
  numbered (fun c => if c.kind.declaresType then sitesOf source [] .program c else []) 0
    root.children

variable {source : String} {nesting outer : List String} {holder : Kind} {n body : Node}
  {s : Site}

theorem mem_numbered_iff {bring : Node → List Site} {i : Nat} {cs : List Node} :
    s ∈ numbered bring i cs ↔
      ∃ j c t, cs[j]? = some c ∧ t ∈ bring c ∧ s = t.below [i + j] := by
  induction cs generalizing i with
  | nil => simp [numbered]
  | cons c cs ih =>
    rw [numbered, List.mem_append, ih, List.mem_map]
    constructor
    · rintro (⟨t, ht, rfl⟩ | ⟨j, d, t, hd, ht, rfl⟩)
      · exact ⟨0, c, t, rfl, ht, rfl⟩
      · exact ⟨j + 1, d, t, hd, ht, by rw [Nat.add_right_comm, Nat.add_assoc]⟩
    · rintro ⟨j, d, t, hd, ht, rfl⟩
      cases j with
      | zero =>
        obtain rfl : c = d := Option.some.inj hd
        exact .inl ⟨t, ht, rfl⟩
      | succ j => exact .inr ⟨j, d, t, hd, ht, by rw [Nat.add_right_comm, Nat.add_assoc]⟩

/-- Numbering keeps the order: a node comes before those that have a greater number. -/
theorem numbered_pairwise {bring : Node → List Site} {i : Nat} {cs : List Node}
    (h : ∀ c ∈ cs, (bring c).Pairwise fun s t => s.path < t.path) :
    (numbered bring i cs).Pairwise fun s t => s.path < t.path := by
  induction cs generalizing i with
  | nil => exact .nil
  | cons c cs ih =>
    refine List.pairwise_append.mpr ⟨?_, ih fun d hd => h d (List.mem_cons_of_mem c hd), ?_⟩
    · refine List.pairwise_map.mpr ((h c List.mem_cons_self).imp fun hlt => ?_)
      exact List.cons_lt_cons_iff.mpr (.inr ⟨rfl, hlt⟩)
    · intro s hs t ht
      obtain ⟨s, -, rfl⟩ := List.mem_map.mp hs
      obtain ⟨j, d, t, -, -, rfl⟩ := mem_numbered_iff.mp ht
      exact List.cons_lt_cons_iff.mpr (.inl (by omega))

theorem sitesAmong_eq (i : Nat) (cs : List Node) :
    sitesAmong source nesting holder i cs =
      numbered (fun c => if c.kind = .enumMembers then sitesIn source nesting holder c
        else sitesOf source nesting holder c) i cs := by
  induction cs generalizing i with
  | nil => rfl
  | cons c cs ih => rw [sitesAmong, numbered, ih]

theorem sitesIn_eq (n : Node) :
    sitesIn source nesting holder n =
      numbered (fun c => if c.kind = .enumMembers then sitesIn source nesting holder c
        else sitesOf source nesting holder c) 0 n.children := by
  cases n
  rw [sitesIn, sitesAmong_eq]
  rfl

theorem mem_sitesOfBody_iff {i : Nat} {cs : List Node} :
    s ∈ sitesOfBody source nesting holder i cs ↔
      ∃ j body t, cs.findIdx? (fun c => c.role == some Role.body) = some j ∧
        cs[j]? = some body ∧ t ∈ sitesIn source nesting holder body ∧ s = t.below [i + j] := by
  induction cs generalizing i with
  | nil => simp [sitesOfBody]
  | cons c cs ih =>
    rw [sitesOfBody, List.findIdx?_cons]
    split
    · rw [List.mem_map]
      constructor
      · rintro ⟨t, ht, rfl⟩
        exact ⟨0, c, t, rfl, rfl, ht, rfl⟩
      · rintro ⟨j, body, t, hj, hbody, ht, rfl⟩
        obtain rfl : 0 = j := Option.some.inj hj
        obtain rfl : c = body := Option.some.inj hbody
        exact ⟨t, ht, rfl⟩
    · rw [ih]
      constructor
      · rintro ⟨j, body, t, hj, hbody, ht, rfl⟩
        exact ⟨j + 1, body, t, by rw [hj]; rfl, hbody, ht,
          by rw [Nat.add_right_comm, Nat.add_assoc]⟩
      · rintro ⟨j, body, t, hj, hbody, ht, rfl⟩
        obtain ⟨k, hk, rfl⟩ := Option.map_eq_some_iff.mp hj
        exact ⟨k, body, t, hk, hbody, ht, by rw [Nat.add_right_comm, Nat.add_assoc]⟩

theorem mem_sitesOf_of_type (hkind : n.kind.declaresType) :
    s ∈ sitesOf source outer holder n ↔
      ∃ name i body t, n.child? .name = some name ∧ n.HasBody i body ∧
        t ∈ sitesIn source (outer ++ [name.textIn source]) n.kind body ∧ s = t.below [i] := by
  obtain ⟨kind, role, extent, isAbsent, children⟩ := n
  rw [sitesOf, if_pos (show kind.declaresType = true from hkind)]
  split
  · rename_i hname
    simp [Node.child?, hname]
  · rename_i name hname
    rw [mem_sitesOfBody_iff]
    constructor
    · rintro ⟨j, body, t, hj, hbody, ht, rfl⟩
      exact ⟨name, j, body, t, hname, ⟨hj, hbody⟩, ht, by rw [Nat.zero_add]⟩
    · rintro ⟨name', j, body, t, hname', ⟨hj, hbody⟩, ht, rfl⟩
      obtain rfl : name = name' := Option.some.inj (hname.symm.trans hname')
      exact ⟨j, body, t, hj, hbody, ht, by rw [Nat.zero_add]⟩

theorem mem_sitesOf_of_not_type (hkind : n.kind.declaresType = false) :
    s ∈ sitesOf source outer holder n ↔ n.kind.isNamed ∧ s = ⟨[], outer, holder, n⟩ := by
  obtain ⟨kind, role, extent, isAbsent, children⟩ := n
  rw [sitesOf, if_neg (show ¬kind.declaresType = true by simpa using hkind)]
  split
  · rename_i hnamed
    simp [hnamed]
  · rename_i hnamed
    simp [hnamed]

/-! ### The sites are the members -/

theorem Node.hasMember_iff_of_type (hkind : n.kind.declaresType) :
    n.HasMember source outer holder s ↔
      ∃ name i body path m t, n.child? .name = some name ∧ n.HasBody i body ∧
        body.InBody path m ∧ m.HasMember source (outer ++ [name.textIn source]) n.kind t ∧
        s = t.below (i :: path) := by
  constructor
  · intro h
    cases h with
    | member _ hnot =>
      rw [hkind] at hnot
      cases hnot
    | type _ hname hbody hm hs => exact ⟨_, _, _, _, _, _, hname, hbody, hm, hs, rfl⟩
  · rintro ⟨name, i, body, path, m, t, hname, hbody, hm, ht, rfl⟩
    exact .type hkind hname hbody hm ht

theorem Node.hasMember_iff_of_not_type (hkind : n.kind.declaresType = false) :
    n.HasMember source outer holder s ↔ n.kind.isNamed ∧ s = ⟨[], outer, holder, n⟩ := by
  constructor
  · intro h
    cases h with
    | member hnamed _ => exact ⟨hnamed, rfl⟩
    | type hnot =>
      rw [hkind] at hnot
      cases hnot
  · rintro ⟨hnamed, rfl⟩
    exact .member hnamed hkind

/-- A node in a body is a child of it, or it is in the list of the members of an enum. -/
theorem Node.inBody_iff {path : List Nat} {m : Node} :
    body.InBody path m ↔ ∃ i c, body.children[i]? = some c ∧
      if c.kind = .enumMembers then ∃ rest, path = i :: rest ∧ c.InBody rest m
      else path = [i] ∧ m = c := by
  constructor
  · intro h
    cases h with
    | member hm hkind => exact ⟨_, _, hm, by rw [if_neg hkind]; exact ⟨rfl, rfl⟩⟩
    | enumMember hlist hkind hm => exact ⟨_, _, hlist, by rw [if_pos hkind]; exact ⟨_, rfl, hm⟩⟩
  · rintro ⟨i, c, hc, h⟩
    split at h
    · rename_i hkind
      obtain ⟨rest, rfl, hm⟩ := h
      exact .enumMember hc hkind hm
    · rename_i hkind
      obtain ⟨rfl, rfl⟩ := h
      exact .member hc hkind

/-- What the recursion lists below a node is what is said of it without the recursion. -/
structure Node.IsListed (source : String) (n : Node) : Prop where
  here : ∀ outer holder s, s ∈ sitesOf source outer holder n ↔ n.HasMember source outer holder s
  inside : ∀ nesting holder s, s ∈ sitesIn source nesting holder n ↔
    ∃ path m t, n.InBody path m ∧ m.HasMember source nesting holder t ∧ s = t.below path

theorem Node.isListed (source : String) (n : Node) : n.IsListed source := by
  induction n using Node.induction with
  | mk kind role extent isAbsent children ih =>
    refine ⟨fun outer holder s => ?_, fun nesting holder s => ?_⟩
    · -- below a type comes its body, so the induction has to speak of what is inside of a node too
      cases hkind : (Node.mk kind role extent isAbsent children).kind.declaresType with
      | false => rw [mem_sitesOf_of_not_type hkind, Node.hasMember_iff_of_not_type hkind]
      | true =>
        rw [mem_sitesOf_of_type hkind, Node.hasMember_iff_of_type hkind]
        constructor
        · rintro ⟨name, i, body, t, hname, hbody, ht, rfl⟩
          obtain ⟨path, m, u, hm, hu, rfl⟩ :=
            ((ih body (List.mem_of_getElem? hbody.2)).inside _ _ _).mp ht
          exact ⟨name, i, body, path, m, u, hname, hbody, hm, hu, Site.below_below ..⟩
        · rintro ⟨name, i, body, path, m, u, hname, hbody, hm, hu, rfl⟩
          refine ⟨name, i, body, u.below path, hname, hbody, ?_, by simp⟩
          exact ((ih body (List.mem_of_getElem? hbody.2)).inside _ _ _).mpr
            ⟨path, m, u, hm, hu, rfl⟩
    · -- a member is in the body itself, or in the list of the members of an enum
      rw [sitesIn_eq, mem_numbered_iff]
      constructor
      · rintro ⟨j, c, t, hc, ht, rfl⟩
        have hlisted := ih c (List.mem_of_getElem? hc)
        split at ht
        · rename_i hkind
          obtain ⟨path, m, u, hm, hu, rfl⟩ := (hlisted.inside _ _ _).mp ht
          exact ⟨j :: path, m, u, .enumMember hc hkind hm, hu, by simp⟩
        · rename_i hkind
          exact ⟨[j], c, t, .member hc hkind, (hlisted.here _ _ _).mp ht, by simp⟩
      · rintro ⟨path, m, u, hm, hu, rfl⟩
        obtain ⟨j, c, hc, h⟩ := Node.inBody_iff.mp hm
        have hlisted := ih c (List.mem_of_getElem? hc)
        split at h
        · rename_i hkind
          obtain ⟨rest, rfl, hrest⟩ := h
          refine ⟨j, c, u.below rest, hc, ?_, by simp⟩
          rw [if_pos hkind]
          exact (hlisted.inside _ _ _).mpr ⟨rest, m, u, hrest, hu, rfl⟩
        · rename_i hkind
          obtain ⟨rfl, rfl⟩ := h
          refine ⟨j, m, u, hc, ?_, by simp⟩
          rw [if_neg hkind]
          exact (hlisted.here _ _ _).mpr hu

/-- **The members that are listed are the sites of the tree.** -/
theorem mem_sites_iff {root : Node} : s ∈ sites source root ↔ s.IsMember source root := by
  rw [sites, mem_numbered_iff]
  constructor
  · rintro ⟨i, c, t, hc, ht, rfl⟩
    split at ht
    · rename_i hkind
      rw [Nat.zero_add]
      exact .intro hc hkind ((c.isListed source).here _ _ _ |>.mp ht)
    · cases ht
  · rintro ⟨hc, hkind, hs⟩
    refine ⟨_, _, _, hc, ?_, by rw [Nat.zero_add]⟩
    rw [if_pos hkind]
    exact ((Node.isListed source _).here _ _ _).mpr hs

/-! ### The order of the sites -/

theorem sitesOfBody_pairwise {i : Nat} {cs : List Node}
    (h : ∀ c ∈ cs, (sitesIn source nesting holder c).Pairwise fun s t => s.path < t.path) :
    (sitesOfBody source nesting holder i cs).Pairwise fun s t => s.path < t.path := by
  induction cs generalizing i with
  | nil => exact .nil
  | cons c cs ih =>
    rw [sitesOfBody]
    split
    · refine List.pairwise_map.mpr ((h c List.mem_cons_self).imp fun hlt => ?_)
      exact List.cons_lt_cons_iff.mpr (.inr ⟨rfl, hlt⟩)
    · exact ih fun d hd => h d (List.mem_cons_of_mem c hd)

theorem sitesOf_pairwise (n : Node) :
    (∀ outer holder, (sitesOf source outer holder n).Pairwise fun s t => s.path < t.path) ∧
      ∀ nesting holder, (sitesIn source nesting holder n).Pairwise fun s t => s.path < t.path := by
  induction n using Node.induction with
  | mk kind role extent isAbsent children ih =>
    refine ⟨fun outer holder => ?_, fun nesting holder => ?_⟩
    · rw [sitesOf]
      split
      · split
        · exact .nil
        · exact sitesOfBody_pairwise fun c hc => (ih c hc).2 _ _
      · split
        · exact List.pairwise_singleton _ _
        · exact .nil
    · rw [sitesIn_eq]
      refine numbered_pairwise fun c hc => ?_
      split
      · exact (ih c hc).2 _ _
      · exact (ih c hc).1 _ _

/-- **The members are listed in the order of the text**, and so none of them twice. -/
theorem sites_pairwise (source : String) (root : Node) :
    (sites source root).Pairwise fun s t => s.path < t.path := by
  refine numbered_pairwise fun c _ => ?_
  split
  · exact (sitesOf_pairwise c).1 _ _
  · exact .nil

/-! ### The sites and the outline -/

/-- Whether the entry is a member. -/
def Entry.isMember : Entry → Bool
  | .member .. => true
  | .type _ => false

/-- The entry of the outline that the site is. -/
def Site.entry (s : Site) : Entry :=
  .member s.nesting s.holder s.member

@[simp] theorem Site.entry_below (path : List Nat) (s : Site) : (s.below path).entry = s.entry :=
  rfl

theorem map_entry_below (path : List Nat) (ss : List Site) :
    (ss.map (.below path)).map Site.entry = ss.map Site.entry := by
  simp [Function.comp_def]

/-- The members that the outline lists below a node are its sites. -/
structure Node.IsNumbered (source : String) (n : Node) : Prop where
  here : ∀ outer holder, (entriesOf source outer holder n).filter Entry.isMember =
    (sitesOf source outer holder n).map Site.entry
  inside : ∀ nesting holder, (entriesIn source nesting holder n).filter Entry.isMember =
    (sitesIn source nesting holder n).map Site.entry

theorem members_entriesAmong {i : Nat} {cs : List Node} (h : ∀ c ∈ cs, c.IsNumbered source) :
    (entriesAmong source nesting holder cs).filter Entry.isMember =
      (sitesAmong source nesting holder i cs).map Site.entry := by
  induction cs generalizing i with
  | nil => rfl
  | cons c cs ih =>
    have hc := h c List.mem_cons_self
    rw [entriesAmong, sitesAmong, List.filter_append, List.map_append, map_entry_below,
      ih fun d hd => h d (List.mem_cons_of_mem c hd)]
    by_cases hkind : c.kind = .enumMembers
    · rw [if_pos (by simpa using hkind), if_pos hkind, hc.inside]
    · rw [if_neg (by simpa using hkind), if_neg hkind, hc.here]

theorem members_entriesOfBody {i : Nat} {cs : List Node} (h : ∀ c ∈ cs, c.IsNumbered source) :
    (entriesOfBody source nesting holder cs).filter Entry.isMember =
      (sitesOfBody source nesting holder i cs).map Site.entry := by
  induction cs generalizing i with
  | nil => rfl
  | cons c cs ih =>
    rw [entriesOfBody, sitesOfBody]
    split
    · rw [map_entry_below, (h c List.mem_cons_self).inside]
    · exact ih fun d hd => h d (List.mem_cons_of_mem c hd)

theorem Node.isNumbered (source : String) (n : Node) : n.IsNumbered source := by
  induction n using Node.induction with
  | mk kind role extent isAbsent children ih =>
    refine ⟨fun outer holder => ?_, fun nesting holder => ?_⟩
    · rw [entriesOf, sitesOf]
      split
      · cases children.find? fun c => c.role == some Role.name with
        | none => rfl
        | some name => exact members_entriesOfBody ih
      · split <;> rfl
    · rw [entriesIn, sitesIn]
      exact members_entriesAmong ih

/-- **The sites are the members that the outline lists**, in the same order. -/
theorem members_outline (source : String) (root : Node) :
    (outline source root).filter Entry.isMember = (sites source root).map Site.entry := by
  have hnumbered (i : Nat) (cs : List Node) :
      (entriesAtTop source cs).filter Entry.isMember =
        (numbered (fun c => if c.kind.declaresType then sitesOf source [] .program c else []) i
          cs).map Site.entry := by
    induction cs generalizing i with
    | nil => rfl
    | cons c cs ih =>
      rw [entriesAtTop, numbered, List.filter_append, List.map_append, map_entry_below, ih]
      split
      · rw [(c.isNumbered source).here]
      · rfl
  exact hnumbered 0 root.children

/-- A member that the outline lists is one of the sites. -/
theorem exists_site_of_mem_outline {root member : Node}
    (h : .member nesting holder member ∈ outline source root) :
    ∃ path, ⟨path, nesting, holder, member⟩ ∈ sites source root := by
  have hmem : Entry.member nesting holder member ∈ (sites source root).map Site.entry := by
    rw [← members_outline]
    exact List.mem_filter.mpr ⟨h, rfl⟩
  obtain ⟨s, hs, hentry⟩ := List.mem_map.mp hmem
  obtain ⟨rfl, rfl, rfl⟩ := Entry.member.inj hentry
  exact ⟨s.path, hs⟩

end ViewBinding.Java
