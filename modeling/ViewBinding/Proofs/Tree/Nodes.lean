import ViewBinding.Java.Fault

/-!
# The nodes of a tree

A statement about a whole syntax tree is a statement about each of its nodes:
`ViewBinding.Java.Node.nodes` lists them. `ViewBinding.Java.Node.induction` is the induction that
goes with the type of trees, whose children are a list.
-/

namespace ViewBinding.Java.Node

/-- What holds of a node as soon as it holds of its children holds of every node. -/
@[elab_as_elim]
theorem induction {motive : Node → Prop} (n : Node)
    (mk : ∀ kind role extent isAbsent children, (∀ c ∈ children, motive c) →
      motive (.mk kind role extent isAbsent children)) : motive n := by
  refine @Node.rec motive (fun children => ∀ c ∈ children, motive c)
    mk (fun c hc => nomatch hc) (fun c cs hhead htail d hd => ?_) n
  rcases List.mem_cons.mp hd with rfl | hd
  · exact hhead
  · exact htail d hd

/-! ### Equality -/

mutual

/-- Whether two trees are equal. -/
def decideEq : (m n : Node) → Decidable (m = n)
  | .mk kind role extent isAbsent children, .mk kind' role' extent' isAbsent' children' =>
    match decideEqAll children children' with
    | .isTrue h =>
      decidable_of_iff (kind = kind' ∧ role = role' ∧ extent = extent' ∧ isAbsent = isAbsent')
        (by simp [h])
    | .isFalse h => .isFalse (by simp [h])

/-- Whether two lists of trees are equal. -/
def decideEqAll : (ms ns : List Node) → Decidable (ms = ns)
  | [], [] => .isTrue rfl
  | [], _ :: _ => .isFalse nofun
  | _ :: _, [] => .isFalse nofun
  | m :: ms, n :: ns =>
    match decideEq m n, decideEqAll ms ns with
    | .isTrue h, .isTrue hs => .isTrue (by rw [h, hs])
    | .isFalse h, _ => .isFalse fun heq => h (List.cons.inj heq).1
    | _, .isFalse hs => .isFalse fun heq => hs (List.cons.inj heq).2

end

instance : DecidableEq Node := decideEq

/-! ### The nodes at or below a node -/

mutual

/-- The node and the nodes below it, each before its children. -/
def nodes : Node → List Node
  | .mk kind role extent isAbsent children =>
    .mk kind role extent isAbsent children :: nodesAmong children

/-- The nodes of several trees. -/
def nodesAmong : List Node → List Node
  | [] => []
  | c :: cs => nodes c ++ nodesAmong cs

end

variable {l m n c : Node}

theorem mem_nodesAmong {cs : List Node} : m ∈ nodesAmong cs ↔ ∃ c ∈ cs, m ∈ c.nodes := by
  induction cs with
  | nil => simp [nodesAmong]
  | cons c cs ih => simp [nodesAmong, ih]

theorem mem_nodes_iff : m ∈ n.nodes ↔ m = n ∨ ∃ c ∈ n.children, m ∈ c.nodes := by
  cases n
  rw [nodes, List.mem_cons, mem_nodesAmong]
  rfl

@[simp] theorem mem_nodes_self (n : Node) : n ∈ n.nodes :=
  mem_nodes_iff.mpr (.inl rfl)

theorem mem_nodes_of_mem_children (h : c ∈ n.children) : c ∈ n.nodes :=
  mem_nodes_iff.mpr (.inr ⟨c, h, c.mem_nodes_self⟩)

theorem mem_nodes_trans (h : l ∈ m.nodes) (h' : m ∈ n.nodes) : l ∈ n.nodes := by
  induction n using Node.induction with
  | mk kind role extent isAbsent children ih =>
    rcases mem_nodes_iff.mp h' with rfl | ⟨c, hc, hm⟩
    · exact h
    · exact mem_nodes_iff.mpr (.inr ⟨c, hc, ih c hc hm⟩)

theorem mem_children_of_child? {role : Role} (h : n.child? role = some c) : c ∈ n.children :=
  List.mem_of_find?_eq_some h

theorem role_of_child? {role : Role} (h : n.child? role = some c) : c.role = some role := by
  simpa using List.find?_some h

theorem mem_children_of_childrenIn {role : Role} (h : c ∈ n.childrenIn role) : c ∈ n.children :=
  (List.mem_filter.mp h).1

theorem role_of_childrenIn {role : Role} (h : c ∈ n.childrenIn role) : c.role = some role := by
  simpa using (List.mem_filter.mp h).2

theorem mem_children_of_childOf? {kind : Kind} (h : n.childOf? kind = some c) :
    c ∈ n.children :=
  List.mem_of_find?_eq_some h

theorem mem_children_of_namedChildren (h : c ∈ n.namedChildren) : c ∈ n.children :=
  (List.mem_filter.mp h).1

/-! ### Trees without faults -/

theorem faultsAmong_eq_flatMap (cs : List Node) : faultsAmong cs = cs.flatMap faultsOf := by
  induction cs with
  | nil => rfl
  | cons c cs ih => rw [faultsAmong, ih, List.flatMap_cons]

theorem faultsAmong_eq_nil_iff {cs : List Node} :
    faultsAmong cs = [] ↔ ∀ c ∈ cs, faultsOf c = [] := by
  rw [faultsAmong_eq_flatMap, List.flatMap_eq_nil_iff]

/-- Where a text is Java everywhere, it is so in every part. -/
theorem faultsOf_eq_nil_of_mem_nodes (hn : faultsOf n = []) (hm : m ∈ n.nodes) :
    faultsOf m = [] := by
  induction n using Node.induction with
  | mk kind role extent isAbsent children ih =>
    rcases mem_nodes_iff.mp hm with rfl | ⟨c, hc, hm⟩
    · exact hn
    · rw [faultsOf] at hn
      split at hn
      · cases hn
      · exact ih c hc (faultsAmong_eq_nil_iff.mp hn c hc) hm

/-- A text is Java everywhere if no node of its tree is a fault or an absent token. -/
theorem faultsOf_eq_nil_iff : faultsOf n = [] ↔ ∀ m ∈ n.nodes, m.isFault = false := by
  constructor
  · intro hn m hm
    have hm := faultsOf_eq_nil_of_mem_nodes hn hm
    cases m
    rw [faultsOf] at hm
    split at hm
    · cases hm
    · rename_i hfault
      simpa [isFault] using hfault
  · intro hn
    induction n using Node.induction with
    | mk kind role extent isAbsent children ih =>
      have hself := hn _ (mem_nodes_self _)
      rw [isFault] at hself
      rw [faultsOf, if_neg (by simpa using hself), faultsAmong_eq_nil_iff]
      exact fun c hc => ih c hc fun m hm => hn m (mem_nodes_iff.mpr (.inr ⟨c, hc, hm⟩))

/-! ### Flags -/

/-- A node is flagged if it is a fault or an absent token or has one below it. -/
theorem isFlagged_iff : isFlagged n = true ↔ ∃ m ∈ n.nodes, m.isFault = true := by
  induction n using Node.induction with
  | mk kind role extent isAbsent children ih =>
    have hany (cs : List Node) (hcs : cs ⊆ children) :
        isAnyFlagged cs = true ↔ ∃ c ∈ cs, ∃ m ∈ c.nodes, m.isFault = true := by
      induction cs with
      | nil => simp [isAnyFlagged]
      | cons c cs ih' =>
        obtain ⟨hc, hcs⟩ := List.cons_subset.mp hcs
        rw [isAnyFlagged, Bool.or_eq_true, ih c hc, ih' hcs]
        simp only [List.mem_cons, exists_eq_or_imp]
    rw [isFlagged, Bool.or_eq_true, hany children (List.Subset.refl _)]
    constructor
    · rintro (hself | ⟨c, hc, m, hm, hfault⟩)
      · exact ⟨_, mem_nodes_self _, hself⟩
      · exact ⟨m, mem_nodes_iff.mpr (.inr ⟨c, hc, hm⟩), hfault⟩
    · rintro ⟨m, hm, hfault⟩
      rcases mem_nodes_iff.mp hm with rfl | ⟨c, hc, hm⟩
      · exact .inl hfault
      · exact .inr ⟨c, hc, m, hm, hfault⟩

/-- **Nothing is missed below nodes without a flag**, if the flags are right. -/
theorem flaggedFaults_eq {flag : Node → Bool}
    (hflag : ∀ m ∈ n.nodes, flag m = true ↔ ∃ l ∈ m.nodes, l.isFault = true) :
    flaggedFaults flag n = faultsOf n := by
  induction n using Node.induction with
  | mk kind role extent isAbsent children ih =>
    have hamong (cs : List Node) (hcs : cs ⊆ children) :
        flaggedFaultsAmong flag cs = faultsAmong cs := by
      induction cs with
      | nil => rfl
      | cons c cs ih' =>
        obtain ⟨hc, hcs⟩ := List.cons_subset.mp hcs
        rw [flaggedFaultsAmong, faultsAmong, ih' hcs,
          ih c hc fun m hm => hflag m (mem_nodes_iff.mpr (.inr ⟨c, hc, hm⟩))]
    rw [flaggedFaults, faultsOf]
    split
    · rfl
    · split
      · exact hamong children (List.Subset.refl _)
      · -- without a flag there is nothing to be found below
        rename_i hunflagged
        symm
        rw [faultsAmong_eq_nil_iff]
        intro c hc
        refine faultsOf_eq_nil_iff.mpr fun m hm => Bool.not_eq_true _ ▸ fun hfault => ?_
        exact hunflagged ((hflag _ (mem_nodes_self _)).mpr
          ⟨m, mem_nodes_iff.mpr (.inr ⟨c, hc, hm⟩), hfault⟩)

end ViewBinding.Java.Node

namespace ViewBinding.Java

/-- The findings on a tree are those on its outermost faults and absent tokens. -/
theorem faultReport_eq (number : Nat) (source : String) (root : Node) :
    faultReport number source root = (faultsOf root).map (faultFinding number source) := by
  rw [faultReport, flaggedReport, Node.flaggedFaults_eq fun _ _ => Node.isFlagged_iff]

end ViewBinding.Java
