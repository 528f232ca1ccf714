import Mathlib.Logic.Relation
import ViewBinding.Java.Constants

/-!
# What an expression for a view id denotes

The value of an expression, said without notes and without looking out for cycles:
`ViewBinding.Java.Constants.Denotes` has one rule for each way to form an expression, and the rule
of a name unfolds the constant that it stands for. A value is what a finite derivation leads to; a
constant that is defined in terms of itself has none.

Whoever unfolds names needs to know how far that goes.
`ViewBinding.Java.Constants.DependsOn` relates a constant to those that its initializer names, and
every derivation goes through all of them, for no operator passes over an operand. So a constant
with a value has only finitely much below it (`ViewBinding.Java.Constants.Defines.acc`), and one
that depends on itself has no value (`ViewBinding.Java.Constants.not_defines_of_cycle`).
-/

namespace ViewBinding.Java

/-! ### Signs of literals -/

/-- A sign in front of a literal that is an `int` without it negates the value. -/
theorem IntLiteral.read_negated {text : String} {v : Int32}
    (h : read .decimal text false = .value v) : read .decimal text true = .value (-v) := by
  unfold read at h ⊢
  have hb : ∀ cs, basis .decimal cs = (10, cs) := fun cs => by simp [basis]
  simp only [hb, if_true, Bool.false_eq_true, if_false] at h ⊢
  split at h
  · cases h
  · rename_i hlong
    rw [if_neg hlong]
    split at h
    · rename_i hrange
      simp only [Bool.and_eq_true, decide_eq_true_eq] at hrange
      cases h
      rw [if_pos (by simp only [Bool.and_eq_true, decide_eq_true_eq]; omega), Int32.ofInt_neg]
    · cases h

namespace Constants

variable {table : Constants} {scope : List String}

/-! ### Derivations -/

/-- **The plain meaning of an expression**: written inside the type of the nesting `scope`, it has
the value `v`. A name has the value of the initializer of the constant that it stands for, and
that initializer is read inside the type that declares the constant. -/
inductive Denotes (table : Constants) : List String → IdExpr → Int32 → Prop
  /-- A literal denotes what it spells. -/
  | literal {scope kind text place v} (h : IntLiteral.read kind text false = .value v) :
    Denotes table scope (.literal kind text place) v
  /-- Parentheses change nothing. -/
  | group {scope inner place v} (h : Denotes table scope inner v) :
    Denotes table scope (.group inner place) v
  /-- A decimal literal may be read together with the sign in front of it. -/
  | negated {scope text inner place v} (h : IntLiteral.read .decimal text true = .value v) :
    Denotes table scope (.unary "-" (.literal .decimal text inner) place) v
  /-- A unary operator applies to the value of its operand. -/
  | unary {scope operator operand place v w} (h : Denotes table scope operand v)
    (ho : unaryValue? operator v = some w) : Denotes table scope (.unary operator operand place) w
  /-- A binary operator applies to the values of its operands. -/
  | binary {scope operator left right place v w x} (hl : Denotes table scope left v)
    (hr : Denotes table scope right w) (ho : binaryValue? operator v w = some x) :
    Denotes table scope (.binary operator left right place) x
  /-- A simple name is unfolded. -/
  | name {scope name place c e v} (hc : table.resolve? scope name = some c)
    (he : table.initializer? c = some e) (h : Denotes table c.owner e v) :
    Denotes table scope (.name name place) v
  /-- A selected name is unfolded. -/
  | select {scope object name place c e v} (hc : table.select? object name = some c)
    (he : table.initializer? c = some e) (h : Denotes table c.owner e v) :
    Denotes table scope (.select object name place) v

/-- The constant of that name has the value `v`. -/
def Defines (table : Constants) (c : ConstantName) (v : Int32) : Prop :=
  ∃ e, table.initializer? c = some e ∧ table.Denotes c.owner e v

theorem denotes_literal_iff {kind text place v} :
    table.Denotes scope (.literal kind text place) v ↔
      IntLiteral.read kind text false = .value v :=
  ⟨fun h => by cases h with | literal h => exact h, .literal⟩

theorem denotes_group_iff {inner place v} :
    table.Denotes scope (.group inner place) v ↔ table.Denotes scope inner v :=
  ⟨fun h => by cases h with | group h => exact h, .group⟩

/-- A sign in front of a decimal literal belongs to the literal. -/
theorem denotes_negated_iff {text inner place v} :
    table.Denotes scope (.unary "-" (.literal .decimal text inner) place) v ↔
      IntLiteral.read .decimal text true = .value v := by
  refine ⟨fun h => ?_, .negated⟩
  cases h with
  | negated h => exact h
  | unary h ho =>
    obtain rfl := Option.some.inj ho
    exact IntLiteral.read_negated (denotes_literal_iff.mp h)

/-- Any other unary operator takes a value. -/
theorem denotes_unary_iff {operator operand place w}
    (hn : ¬∃ text inner, operator = "-" ∧ operand = .literal .decimal text inner) :
    table.Denotes scope (.unary operator operand place) w ↔
      ∃ v, table.Denotes scope operand v ∧ unaryValue? operator v = some w := by
  refine ⟨fun h => ?_, fun ⟨_, h, ho⟩ => .unary h ho⟩
  cases h with
  | negated => exact absurd ⟨_, _, rfl, rfl⟩ hn
  | unary h ho => exact ⟨_, h, ho⟩

theorem denotes_binary_iff {operator left right place x} :
    table.Denotes scope (.binary operator left right place) x ↔
      ∃ v w, table.Denotes scope left v ∧ table.Denotes scope right w ∧
        binaryValue? operator v w = some x :=
  ⟨fun h => by cases h with | binary hl hr ho => exact ⟨_, _, hl, hr, ho⟩,
    fun ⟨_, _, hl, hr, ho⟩ => .binary hl hr ho⟩

theorem denotes_name_iff {name place v} :
    table.Denotes scope (.name name place) v ↔
      ∃ c, table.resolve? scope name = some c ∧ table.Defines c v :=
  ⟨fun h => by cases h with | name hc he h => exact ⟨_, hc, _, he, h⟩,
    fun ⟨_, hc, _, he, h⟩ => .name hc he h⟩

theorem denotes_select_iff {object name place v} :
    table.Denotes scope (.select object name place) v ↔
      ∃ c, table.select? object name = some c ∧ table.Defines c v :=
  ⟨fun h => by cases h with | select hc he h => exact ⟨_, hc, _, he, h⟩,
    fun ⟨_, hc, _, he, h⟩ => .select hc he h⟩

theorem not_denotes_other {place v} : ¬table.Denotes scope (.other place) v :=
  nofun

/-! ### What a constant depends on -/

/-- The constants that the names in an expression stand for. -/
def references (table : Constants) (scope : List String) : IdExpr → List ConstantName
  | .group inner _ => references table scope inner
  | .unary _ operand _ => references table scope operand
  | .binary _ left right _ => references table scope left ++ references table scope right
  | .name name _ => (table.resolve? scope name).toList
  | .select object name _ => (table.select? object name).toList
  | .literal .. | .other _ => []

/-- The initializer of `c` names the constant `d`. -/
def DependsOn (table : Constants) (c d : ConstantName) : Prop :=
  ∃ e, table.initializer? c = some e ∧ d ∈ table.references c.owner e

/-- **A derivation goes through every name**: below a constant that is named in an expression with
a value, names can only be unfolded finitely often. -/
theorem Denotes.acc_references {e : IdExpr} {v : Int32} (h : table.Denotes scope e v) :
    ∀ d ∈ table.references scope e, Acc (fun d c => table.DependsOn c d) d := by
  induction h with
  | literal | negated => exact fun d hd => absurd hd List.not_mem_nil
  | group _ ih => exact ih
  | unary _ _ ih => exact ih
  | binary _ _ _ ihl ihr => exact fun d hd => (List.mem_append.mp hd).elim (ihl d) (ihr d)
  | name hc he _ ih | select hc he _ ih =>
    intro d hd
    simp only [references, hc, Option.toList_some, List.mem_singleton] at hd
    subst hd
    refine Acc.intro _ fun d' ⟨e', he', hd'⟩ => ih d' ?_
    rwa [Option.some.inj (he.symm.trans he')]

/-- A constant with a value has only finitely much below it. -/
theorem Defines.acc {c : ConstantName} {v : Int32} (h : table.Defines c v) :
    Acc (fun d c => table.DependsOn c d) c := by
  obtain ⟨e, he, hv⟩ := h
  refine Acc.intro _ fun d ⟨e', he', hd⟩ => hv.acc_references d ?_
  rwa [Option.some.inj (he.symm.trans he')]

/-- **A constant that depends on itself has no value.** -/
theorem not_defines_of_cycle {c : ConstantName} (h : Relation.TransGen table.DependsOn c c)
    (v : Int32) : ¬table.Defines c v := by
  intro hv
  have hacc := hv.acc
  clear hv
  induction hacc with
  | intro c _ ih =>
    -- the next constant on the cycle depends on itself as well
    obtain ⟨d, hcd, hdc⟩ := Relation.TransGen.head'_iff.mp h
    exact ih d hcd (Relation.TransGen.tail' hdc hcd)

end Constants

end ViewBinding.Java
