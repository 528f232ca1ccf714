import ViewBinding.Proofs.Constants.Histories
import ViewBinding.Proofs.Numbers.Operators

/-!
# View ids on exact integers

An expression for a view id has the value that is computed for it on integers without a size, where
each operator wraps its result to 32 bits (`ViewBinding.Java.Constants.Computes`). Where an operator
has no result – zero divides, or the operator is none of a constant expression – the expression as a
whole has no value (`ViewBinding.Java.Constants.Computes.not_undefined`), and if its names and
literals have values, such a part is the only thing that can keep it from having one
(`ViewBinding.Java.Constants.StopsAt.exists_undefined`).
-/

namespace ViewBinding.Java

open Text

namespace IdExpr

/-! ### Operands -/

/-- What the operators of an expression apply to in the end: the names and the literals, a decimal
one together with the minus in front of it. -/
def operands : IdExpr → List IdExpr
  | .group inner _ => operands inner
  | .unary operator operand place =>
    match operator, operand with
    | "-", .literal .decimal text inner => [.unary "-" (.literal .decimal text inner) place]
    | _, _ => operands operand
  | .binary _ left right _ => operands left ++ operands right
  | .other _ => []
  | e => [e]

theorem operands_unary {operator : String} {operand : IdExpr} (place : Extent)
    (h : ¬∃ text inner, operator = "-" ∧ operand = .literal .decimal text inner) :
    operands (.unary operator operand place) = operands operand := by
  conv_lhs => unfold operands
  split
  · exact absurd ⟨_, _, rfl, rfl⟩ h
  · rfl

end IdExpr

namespace Constants

variable {table : Constants} {scope : List String} {e : IdExpr}

/-! ### The value of an expression among the integers -/

/-- **The value of an expression, computed on exact integers.** -/
inductive Computes (table : Constants) : List String → IdExpr → Int → Prop
  | literal {scope kind text place v} (h : IntLiteral.read kind text false = .value v) :
    Computes table scope (.literal kind text place) v.toInt
  | group {scope inner place a} (h : Computes table scope inner a) :
    Computes table scope (.group inner place) a
  | negated {scope text inner place v} (h : IntLiteral.read .decimal text true = .value v) :
    Computes table scope (.unary "-" (.literal .decimal text inner) place) v.toInt
  | unary {scope operator operand place a b} (h : Computes table scope operand a)
    (ho : exactUnary? operator a = some b) : Computes table scope (.unary operator operand place) b
  | binary {scope operator left right place a b c} (hl : Computes table scope left a)
    (hr : Computes table scope right b) (ho : exactBinary? operator a b = some c) :
    Computes table scope (.binary operator left right place) c
  | name {scope name place c e a} (hc : table.resolve? scope name = some c)
    (he : table.initializer? c = some e) (h : Computes table c.owner e a) :
    Computes table scope (.name name place) a
  | select {scope object name place c e a} (hc : table.select? object name = some c)
    (he : table.initializer? c = some e) (h : Computes table c.owner e a) :
    Computes table scope (.select object name place) a

theorem Denotes.computes {v : Int32} (h : table.Denotes scope e v) :
    table.Computes scope e v.toInt := by
  induction h with
  | literal h => exact .literal h
  | group _ ih => exact .group ih
  | negated h => exact .negated h
  | unary _ ho ih => exact .unary ih (by rw [← unaryValue?_exact, ho]; rfl)
  | binary _ _ ho ihl ihr => exact .binary ihl ihr (by rw [← binaryValue?_exact, ho]; rfl)
  | name hc he _ ih => exact .name hc he ih
  | select hc he _ ih => exact .select hc he ih

theorem Computes.exists_denotes {n : Int} (h : table.Computes scope e n) :
    ∃ v, table.Denotes scope e v ∧ v.toInt = n := by
  induction h with
  | literal h => exact ⟨_, .literal h, rfl⟩
  | group _ ih => exact ih.imp fun v hv => ⟨.group hv.1, hv.2⟩
  | negated h => exact ⟨_, .negated h, rfl⟩
  | unary _ ho ih =>
    obtain ⟨v, hv, rfl⟩ := ih
    rw [← unaryValue?_exact] at ho
    obtain ⟨w, hw, rfl⟩ := Option.map_eq_some_iff.mp ho
    exact ⟨w, .unary hv hw, rfl⟩
  | binary _ _ ho ihl ihr =>
    obtain ⟨v, hv, rfl⟩ := ihl
    obtain ⟨w, hw, rfl⟩ := ihr
    rw [← binaryValue?_exact] at ho
    obtain ⟨x, hx, rfl⟩ := Option.map_eq_some_iff.mp ho
    exact ⟨x, .binary hv hw hx, rfl⟩
  | name hc he _ ih => exact ih.imp fun v hv => ⟨.name hc he hv.1, hv.2⟩
  | select hc he _ ih => exact ih.imp fun v hv => ⟨.select hc he hv.1, hv.2⟩

/-- **What is computed on exact integers is what the expression denotes.** -/
theorem computes_toInt_iff {v : Int32} :
    table.Computes scope e v.toInt ↔ table.Denotes scope e v := by
  refine ⟨fun h => ?_, Denotes.computes⟩
  obtain ⟨w, hw, heq⟩ := h.exists_denotes
  exact Int32.toInt_inj.mp heq ▸ hw

theorem Computes.unique {n m : Int} (h : table.Computes scope e n)
    (h' : table.Computes scope e m) : n = m := by
  obtain ⟨v, hv, rfl⟩ := h.exists_denotes
  obtain ⟨w, hw, rfl⟩ := h'.exists_denotes
  rw [hv.unique hw]

/-! ### Parts without a result -/

/-- **An operator without a result**: zero divides, or the operator is none of a constant
expression. -/
def Undefined (table : Constants) (scope : List String) : IdExpr → Prop
  | .unary operator _ _ => operator ∉ unaryOperators
  | .binary operator _ right _ =>
    operator ∉ binaryOperators ∨ operator ∈ ["/", "%"] ∧ table.Computes scope right 0
  | .other _ => True
  | _ => False

/-- **Nothing hides a part without a result.** -/
theorem Computes.not_undefined {n : Int} (h : table.Computes scope e n) :
    ∀ part ∈ e.parts, ¬table.Undefined scope part := by
  induction h with
  | literal | name | select => simp [IdExpr.parts, Undefined]
  | group _ ih =>
    refine List.forall_mem_cons.mpr ⟨id, ih⟩
  | negated => simp [IdExpr.parts, Undefined, unaryOperators]
  | unary _ ho ih =>
    refine List.forall_mem_cons.mpr ⟨fun hundefined => ?_, ih⟩
    rw [exactUnary?_eq_none_iff.mpr hundefined] at ho
    cases ho
  | binary hl hr ho ihl ihr =>
    refine List.forall_mem_cons.mpr ⟨fun hundefined => ?_, List.forall_mem_append.mpr ⟨ihl, ihr⟩⟩
    rw [exactBinary?_eq_none_iff.mpr
      (hundefined.imp_right fun hzero => ⟨hzero.1, hr.unique hzero.2⟩)] at ho
    cases ho

/-- **If the operands have values, an expression stops at a part without a result.** -/
theorem StopsAt.exists_undefined {o : Obstacle} (h : table.StopsAt scope e o)
    (hoperands : ∀ x ∈ e.operands, ∃ n, table.Computes scope x n) :
    ∃ part ∈ e.parts, table.Undefined scope part ∧ o = .error (.notConstant part.place) := by
  -- what stops has no value, and every operand has one
  have hself {x : IdExpr} {o : Obstacle} (hx : table.StopsAt scope x o) :
      ¬∃ n, table.Computes scope x n := by
    rintro ⟨n, hn⟩
    obtain ⟨v, hv, -⟩ := hn.exists_denotes
    exact hx.not_denotes v hv
  induction h with
  | literal h => exact absurd (hoperands _ List.mem_cons_self) (hself (.literal h))
  | group _ ih =>
    obtain ⟨part, hpart, h⟩ := ih hoperands
    exact ⟨part, List.mem_cons_of_mem _ hpart, h⟩
  | negated h => exact absurd (hoperands _ List.mem_cons_self) (hself (.negated h))
  | operand halone _ ih =>
    rw [IdExpr.operands_unary _ halone] at hoperands
    obtain ⟨part, hpart, h⟩ := ih hoperands
    exact ⟨part, List.mem_cons_of_mem _ hpart, h⟩
  | @unary operator operand place v halone hv ho =>
    have hnone : exactUnary? operator v.toInt = none := by
      rw [← unaryValue?_exact, ho]
      rfl
    exact ⟨_, List.mem_cons_self, exactUnary?_eq_none_iff.mp hnone, rfl⟩
  | left _ ih =>
    obtain ⟨part, hpart, h⟩ := ih fun x hx => hoperands x (List.mem_append_left _ hx)
    exact ⟨part, List.mem_cons_of_mem _ (List.mem_append_left _ hpart), h⟩
  | right _ _ ih =>
    obtain ⟨part, hpart, h⟩ := ih fun x hx => hoperands x (List.mem_append_right _ hx)
    exact ⟨part, List.mem_cons_of_mem _ (List.mem_append_right _ hpart), h⟩
  | @binary operator left right place v w hl hr ho =>
    have hnone : exactBinary? operator v.toInt w.toInt = none := by
      rw [← binaryValue?_exact, ho]
      rfl
    refine ⟨_, List.mem_cons_self, (exactBinary?_eq_none_iff.mp hnone).imp_right ?_, rfl⟩
    exact fun hzero => ⟨hzero.1, hzero.2 ▸ hr.computes⟩
  | unresolved h => exact absurd (hoperands _ List.mem_cons_self) (hself (.unresolved h))
  | name hc h => exact absurd (hoperands _ List.mem_cons_self) (hself (.name hc h))
  | unselected h => exact absurd (hoperands _ List.mem_cons_self) (hself (.unselected h))
  | select hc h => exact absurd (hoperands _ List.mem_cons_self) (hself (.select hc h))
  | other => exact ⟨_, List.mem_cons_self, trivial, rfl⟩

/-! ### The arithmetic of view ids -/

/-- **View ids are computed as on exact integers.** Whatever was folded before, an expression comes
to the value that is computed for it on exact integers with the results of its operators wrapped to
32 bits, and to an error if there is none. A part without a result anywhere in it – zero divides, or
the operator is another one – leaves the whole expression without a value. If the names and literals
have values, nothing else does, and the error is that such a part is not constant.

An operator has a value for all other operands. Quotient and remainder belong together; the least
`int` is its own quotient by minus one, which leaves nothing over. -/
theorem fold_computes (table : Constants) (history : List (List String × IdExpr))
    (scope : List String) (e : IdExpr) :
    let out := table.foldAfter history scope e
    ((∀ v, out = .ok v ↔ table.Computes scope e v.toInt) ∧
      (∀ n, table.Computes scope e n → ∃ v, out = .ok v ∧ v.toInt = n) ∧
      ((∃ part ∈ e.parts, table.Undefined scope part) → ∃ err, out = .error err) ∧
      ((∀ x ∈ e.operands, ∃ n, table.Computes scope x n) →
        (∃ v, out = .ok v) ∨ ∃ part ∈ e.parts, table.Undefined scope part ∧
          out = .error (.notConstant part.place))) ∧
    (∀ operator v w, binaryValue? operator v w = none ↔
      operator ∉ binaryOperators ∨ operator ∈ ["/", "%"] ∧ w = 0) ∧
    (∀ v w, w ≠ 0 → ∃ q r, binaryValue? "/" v w = some q ∧ binaryValue? "%" v w = some r ∧
      IsDivision v w q r) ∧
    binaryValue? "/" Int32.minValue (-1) = some Int32.minValue ∧
    ∀ v, binaryValue? "%" v (-1) = some 0 := by
  intro out
  have hvalue (v : Int32) : out = .ok v ↔ table.Computes scope e v.toInt :=
    foldAfter_eq_ok_iff.trans computes_toInt_iff.symm
  refine ⟨⟨hvalue, fun n hn => ?_, fun ⟨part, hpart, hundefined⟩ => ?_, fun hoperands => ?_⟩,
    fun _ _ _ => binaryValue?_eq_none_iff, fun v _ hw => exists_isDivision v hw,
    division_by_minus_one⟩
  · obtain ⟨v, hv, rfl⟩ := hn.exists_denotes
    exact ⟨v, (hvalue v).mpr hv.computes, rfl⟩
  · cases hout : out with
    | ok v => exact absurd hundefined (((hvalue v).mp hout).not_undefined part hpart)
    | error err => exact ⟨err, rfl⟩
  · rcases denotes_or_stopsAt table scope e with ⟨v, hv⟩ | ⟨o, ho⟩
    · exact .inl ⟨v, (hvalue v).mpr hv.computes⟩
    · obtain ⟨part, hpart, hundefined, rfl⟩ := ho.exists_undefined hoperands
      obtain ⟨notes', -, -, heq⟩ := (table.atRest_after history).fold_of_stopsAt ho
      exact .inr ⟨part, hpart, hundefined, congrArg Prod.fst heq⟩

/-- A divisor that comes to zero: the quotient is not constant, though the sum around it could
be. -/
theorem fold_computes_zero_divisor :
    let source := "class A \x7b static final int X = 6; @BindView(-X / (X - 6) + 1) View v; \x7d\n"
    let table := (Reading.ofTree 0 source (.ofText source)).constants
    let divisor : IdExpr :=
      .binary "-" (.name "X" ⟨50, 51⟩) (.literal .decimal "6" ⟨54, 55⟩) ⟨50, 55⟩
    let quotient : IdExpr :=
      .binary "/" (.unary "-" (.name "X" ⟨45, 46⟩) ⟨44, 46⟩) (.group divisor ⟨49, 56⟩) ⟨44, 56⟩
    let e : IdExpr := .binary "+" quotient (.literal .decimal "1" ⟨59, 60⟩) ⟨44, 60⟩
    (∀ x ∈ e.operands, ∃ n, table.Computes ["A"] x n) ∧ table.Undefined ["A"] quotient ∧
      ∃ part ∈ e.parts, table.Undefined ["A"] part ∧
        table.foldAfter [] ["A"] e = .error (.notConstant part.place) := by
  intro source table divisor quotient e
  obtain ⟨hx, hname⟩ :
      table.initializer? ⟨["A"], "X"⟩ = some (.literal .decimal "6" ⟨31, 32⟩) ∧
        table.resolve? ["A"] "X" = some ⟨["A"], "X"⟩ := by decide +kernel
  have hsix : IntLiteral.read .decimal "6" false = .value 6 := by decide +kernel
  have hone : IntLiteral.read .decimal "1" false = .value 1 := by decide +kernel
  have hX (place : Extent) : table.Computes ["A"] (.name "X" place) 6 :=
    .name hname hx (.literal hsix)
  have hdivisor : table.Computes ["A"] divisor 0 := .binary (hX _) (.literal hsix) rfl
  have hquotient : table.Undefined ["A"] quotient := .inr ⟨by decide, .group hdivisor⟩
  have hoperands : ∀ x ∈ e.operands, ∃ n, table.Computes ["A"] x n := by
    intro x hx
    simp only [e, quotient, divisor, IdExpr.operands, List.cons_append, List.nil_append,
      List.mem_cons, List.not_mem_nil, or_false] at hx
    rcases hx with rfl | rfl | rfl | rfl
    · exact ⟨6, hX _⟩
    · exact ⟨6, hX _⟩
    · exact ⟨_, .literal hsix⟩
    · exact ⟨_, .literal hone⟩
  obtain ⟨⟨-, -, hundefined, hdefined⟩, -⟩ := fold_computes table [] ["A"] e
  refine ⟨hoperands, hquotient, (hdefined hoperands).resolve_left fun ⟨v, hv⟩ => ?_⟩
  have hpart : quotient ∈ e.parts :=
    List.mem_cons_of_mem _ (List.mem_append_left _ List.mem_cons_self)
  obtain ⟨err, herr⟩ := hundefined ⟨quotient, hpart, hquotient⟩
  cases hv.symm.trans herr

end Constants

end ViewBinding.Java
