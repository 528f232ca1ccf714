import Mathlib.Data.List.Forall2
import ViewBinding.Proofs.Tree.Nodes

/-!
# The places that are reported as not Java

Which faults of a tree are outermost is said here by the ways down to its nodes: a path is the
list of the numbers of the children that are taken, and it leads to an outermost fault if no
shorter way along it leads to a fault (`ViewBinding.Java.Node.IsOutermostFault`).

The recursion that reports the faults stops at each that it meets and passes over each node without
a flag. If the flags are right it misses none for all that: its findings are those on the outermost
faults, in the order of the paths, which is the order of the text
(`ViewBinding.Java.flaggedReport_outermost`).
-/

namespace ViewBinding.Java

namespace Node

/-! ### The ways down a tree -/

/-- The node that the path leads to. -/
def at? : Node → List Nat → Option Node
  | n, [] => some n
  | n, i :: path => n.children[i]?.bind fun c => c.at? path

/-- The path leads to a fault or an absent token, and no way that it starts with leads to
another. -/
structure IsOutermostFault (root : Node) (path : List Nat) : Prop where
  isFault : ∃ n, root.at? path = some n ∧ n.isFault = true
  outermost : ∀ shorter, shorter <+: path → shorter ≠ path →
    ∀ n, root.at? shorter = some n → n.isFault = false

variable {n m : Node} {i : Nat} {path : List Nat}

theorem at?_cons_eq_some_iff :
    n.at? (i :: path) = some m ↔ ∃ c, n.children[i]? = some c ∧ c.at? path = some m := by
  rw [at?, Option.bind_eq_some_iff]

theorem isOutermostFault_nil_iff : n.IsOutermostFault [] ↔ n.isFault = true := by
  constructor
  · rintro ⟨⟨m, hm, hfault⟩, -⟩
    obtain rfl : n = m := Option.some.inj hm
    exact hfault
  · intro hfault
    exact ⟨⟨n, rfl, hfault⟩, fun shorter h hne => absurd (List.prefix_nil.mp h) hne⟩

/-- Below the root a fault is outermost if the root is not a fault itself and it is so in the child
that it stands in. -/
theorem isOutermostFault_cons_iff : n.IsOutermostFault (i :: path) ↔
    n.isFault = false ∧ ∃ c, n.children[i]? = some c ∧ c.IsOutermostFault path := by
  constructor
  · rintro ⟨⟨m, hm, hfault⟩, houtermost⟩
    obtain ⟨c, hc, hm⟩ := at?_cons_eq_some_iff.mp hm
    refine ⟨houtermost [] List.nil_prefix nofun n rfl, c, hc, ⟨m, hm, hfault⟩, ?_⟩
    intro shorter h hne l hl
    exact houtermost (i :: shorter) (List.cons_prefix_cons.mpr ⟨rfl, h⟩)
      (fun heq => hne (List.cons.inj heq).2) l (at?_cons_eq_some_iff.mpr ⟨c, hc, hl⟩)
  · rintro ⟨hself, c, hc, ⟨m, hm, hfault⟩, houtermost⟩
    refine ⟨⟨m, at?_cons_eq_some_iff.mpr ⟨c, hc, hm⟩, hfault⟩, ?_⟩
    intro shorter h hne l hl
    cases shorter with
    | nil =>
      obtain rfl : n = l := Option.some.inj hl
      exact hself
    | cons j shorter =>
      obtain ⟨rfl, hshorter⟩ := List.cons_prefix_cons.mp h
      obtain ⟨d, hd, hl⟩ := at?_cons_eq_some_iff.mp hl
      obtain rfl : c = d := Option.some.inj (hc.symm.trans hd)
      exact houtermost shorter hshorter (fun heq => hne (congrArg _ heq)) l hl

/-! ### The ways to the outermost faults -/

mutual

/-- The ways to the outermost faults and absent tokens at or below a node. -/
def faultPaths : Node → List (List Nat)
  | .mk kind _ _ isAbsent children =>
    if isAbsent || kind == .fault then [[]] else faultPathsAmong 0 children

/-- The ways to the outermost faults and absent tokens at or below the nodes, the first of which
has that number. -/
def faultPathsAmong : Nat → List Node → List (List Nat)
  | _, [] => []
  | i, c :: cs => (faultPaths c).map (i :: ·) ++ faultPathsAmong (i + 1) cs

end

theorem faultPaths_of_isFault (h : n.isFault = true) : n.faultPaths = [[]] := by
  cases n
  rw [faultPaths]
  exact if_pos h

theorem faultPaths_of_not_isFault (h : n.isFault = false) :
    n.faultPaths = faultPathsAmong 0 n.children := by
  cases n
  rw [faultPaths]
  exact if_neg (Bool.eq_false_iff.mp h)

theorem faultsOf_of_isFault (h : n.isFault = true) : faultsOf n = [n] := by
  cases n
  rw [faultsOf]
  exact if_pos h

theorem faultsOf_of_not_isFault (h : n.isFault = false) :
    faultsOf n = faultsAmong n.children := by
  cases n
  rw [faultsOf]
  exact if_neg (Bool.eq_false_iff.mp h)

theorem mem_faultPathsAmong_iff {cs : List Node} : path ∈ faultPathsAmong i cs ↔
    ∃ j c rest, cs[j]? = some c ∧ rest ∈ c.faultPaths ∧ path = (i + j) :: rest := by
  induction cs generalizing i with
  | nil => simp [faultPathsAmong]
  | cons c cs ih =>
    rw [faultPathsAmong, List.mem_append, List.mem_map, ih]
    constructor
    · rintro (⟨rest, hrest, rfl⟩ | ⟨j, d, rest, hd, hrest, rfl⟩)
      · exact ⟨0, c, rest, rfl, hrest, rfl⟩
      · exact ⟨j + 1, d, rest, hd, hrest, by rw [Nat.add_right_comm, Nat.add_assoc]⟩
    · rintro ⟨j, d, rest, hd, hrest, rfl⟩
      cases j with
      | zero =>
        obtain rfl : c = d := Option.some.inj hd
        exact .inl ⟨rest, hrest, rfl⟩
      | succ j => exact .inr ⟨j, d, rest, hd, hrest, by rw [Nat.add_right_comm, Nat.add_assoc]⟩

/-- The ways that are listed are those to the outermost faults. -/
theorem mem_faultPaths_iff : path ∈ n.faultPaths ↔ n.IsOutermostFault path := by
  induction n using Node.induction generalizing path with
  | mk kind role extent isAbsent children ih =>
    cases hself : isFault (.mk kind role extent isAbsent children) with
    | true =>
      rw [faultPaths_of_isFault hself, List.mem_singleton]
      cases path with
      | nil => simp [isOutermostFault_nil_iff, hself]
      | cons i rest => simp [isOutermostFault_cons_iff, hself]
    | false =>
      rw [faultPaths_of_not_isFault hself, mem_faultPathsAmong_iff]
      cases path with
      | nil => simp [isOutermostFault_nil_iff, hself]
      | cons i rest =>
        rw [isOutermostFault_cons_iff]
        constructor
        · rintro ⟨j, c, rest', hc, hrest, heq⟩
          obtain ⟨rfl, rfl⟩ := List.cons.inj heq
          rw [Nat.zero_add]
          exact ⟨hself, c, hc, (ih c (List.mem_of_getElem? hc)).mp hrest⟩
        · rintro ⟨-, c, hc, hrest⟩
          exact ⟨i, c, rest, hc, (ih c (List.mem_of_getElem? hc)).mpr hrest,
            by rw [Nat.zero_add]⟩

theorem faultPathsAmong_pairwise {cs : List Node}
    (h : ∀ c ∈ cs, c.faultPaths.Pairwise (· < ·)) :
    (faultPathsAmong i cs).Pairwise (· < ·) := by
  induction cs generalizing i with
  | nil => exact .nil
  | cons c cs ih =>
    refine List.pairwise_append.mpr ⟨?_, ih fun d hd => h d (List.mem_cons_of_mem c hd), ?_⟩
    · refine List.pairwise_map.mpr ((h c List.mem_cons_self).imp fun hlt => ?_)
      exact List.cons_lt_cons_iff.mpr (.inr ⟨rfl, hlt⟩)
    · intro p hp q hq
      obtain ⟨p, -, rfl⟩ := List.mem_map.mp hp
      obtain ⟨j, d, q, -, -, rfl⟩ := mem_faultPathsAmong_iff.mp hq
      exact List.cons_lt_cons_iff.mpr (.inl (by omega))

theorem faultPaths_pairwise (n : Node) : n.faultPaths.Pairwise (· < ·) := by
  induction n using Node.induction with
  | mk kind role extent isAbsent children ih =>
    rw [faultPaths]
    split
    · exact List.pairwise_singleton _ _
    · exact faultPathsAmong_pairwise ih

/-- The faults are found in the order of the ways to them. -/
theorem forall₂_faultPaths (n : Node) :
    List.Forall₂ (fun path m => n.at? path = some m) n.faultPaths (faultsOf n) := by
  induction n using Node.induction with
  | mk kind role extent isAbsent children ih =>
    have hamong (i : Nat) (cs : List Node) (hcs : children.drop i = cs) :
        List.Forall₂ (fun path m => at? (.mk kind role extent isAbsent children) path = some m)
          (faultPathsAmong i cs) (faultsAmong cs) := by
      induction cs generalizing i with
      | nil => exact .nil
      | cons c cs ih' =>
        have hc : children[i]? = some c := by
          rw [← List.head?_drop, hcs, List.head?_cons]
        refine List.rel_append ?_ (ih' (i + 1) (by rw [← List.tail_drop, hcs, List.tail_cons]))
        refine List.forall₂_map_left_iff.mpr ((ih c (List.mem_of_getElem? hc)).imp ?_)
        exact fun path m hm => at?_cons_eq_some_iff.mpr ⟨c, hc, hm⟩
    cases hself : isFault (.mk kind role extent isAbsent children) with
    | true =>
      rw [faultPaths_of_isFault hself, faultsOf_of_isFault hself]
      exact .cons rfl .nil
    | false =>
      rw [faultPaths_of_not_isFault hself, faultsOf_of_not_isFault hself]
      exact hamong 0 children rfl

end Node

/-! ### The findings on them -/

variable {flag : Node → Bool} {root : Node}

/-- **The findings on a tree are those on its outermost faults and absent tokens**, each of them
reported once and in the order of the text, although nothing is looked for below a node without a
flag. They are warnings, and there are none only where the text is Java everywhere. -/
theorem flaggedReport_outermost (number : Nat) (source : String)
    (hflag : ∀ n ∈ root.nodes, flag n = true ↔ ∃ m ∈ n.nodes, m.isFault = true) :
    (∃ paths : List (List Nat),
      paths.Pairwise (· < ·) ∧
      (∀ path, path ∈ paths ↔ root.IsOutermostFault path) ∧
      List.Forall₂ (fun path x => ∃ n, root.at? path = some n ∧ x = faultFinding number source n)
        paths (flaggedReport flag number source root)) ∧
    (∀ x ∈ flaggedReport flag number source root,
      x.problem = .syntaxError ∧ x.isWarning = true) ∧
    (0 < (flaggedReport flag number source root).warningCount ↔
      ∃ n ∈ root.nodes, n.isFault = true) ∧
    (flaggedReport flag number source root = [] ↔ ∀ n ∈ root.nodes, n.isFault = false) := by
  have hwarning : ∀ x ∈ flaggedReport flag number source root,
      x.problem = .syntaxError ∧ x.isWarning = true := by
    intro x hx
    obtain ⟨n, -, rfl⟩ := List.mem_map.mp hx
    exact ⟨rfl, rfl⟩
  have hnone : flaggedReport flag number source root = [] ↔
      ∀ n ∈ root.nodes, n.isFault = false := by
    rw [flaggedReport, Node.flaggedFaults_eq hflag, List.map_eq_nil_iff, Node.faultsOf_eq_nil_iff]
  refine ⟨⟨root.faultPaths, root.faultPaths_pairwise, fun path => Node.mem_faultPaths_iff, ?_⟩,
    hwarning, ?_, hnone⟩
  · rw [flaggedReport, Node.flaggedFaults_eq hflag, List.forall₂_map_right_iff]
    exact root.forall₂_faultPaths.imp fun path n hn => ⟨n, hn, rfl⟩
  · rw [Report.warningCount, List.countP_eq_length.mpr fun x hx => (hwarning x hx).2,
      List.length_pos_iff, ne_eq, hnone]
    simp

/-- A tree put together by hand: a class with a fault in its body, in which stands another, and
without its last brace. -/
def unfinishedClass : Node :=
  .mk .program none ⟨0, 13⟩ false [
    .mk .classDeclaration none ⟨0, 13⟩ false [
      .mk .identifier (some .name) ⟨6, 7⟩ false [],
      .mk .typeBody (some .body) ⟨8, 13⟩ false [
        .mk (.sign "\x7b") none ⟨8, 9⟩ false [],
        .mk .fault none ⟨10, 13⟩ false [.mk .fault none ⟨12, 13⟩ false []],
        .mk (.sign "\x7d") none ⟨13, 13⟩ true []]]]

/-- Of the three faults the one that stands in another is not reported. -/
theorem unfinishedClass_outermost :
    (∃ paths : List (List Nat),
      paths.Pairwise (· < ·) ∧
      (∀ path, path ∈ paths ↔ unfinishedClass.IsOutermostFault path) ∧
      List.Forall₂
        (fun path x => ∃ n, unfinishedClass.at? path = some n ∧
          x = faultFinding 0 "class A \x7b # #" n)
        paths (flaggedReport isFlagged 0 "class A \x7b # #" unfinishedClass)) ∧
    (flaggedReport isFlagged 0 "class A \x7b # #" unfinishedClass).length = 2 ∧
    0 < (flaggedReport isFlagged 0 "class A \x7b # #" unfinishedClass).warningCount := by
  have h := @flaggedReport_outermost isFlagged unfinishedClass 0 "class A \x7b # #" (by decide)
  exact ⟨h.1, by decide +kernel, h.2.2.1.mpr (by decide)⟩

end ViewBinding.Java
