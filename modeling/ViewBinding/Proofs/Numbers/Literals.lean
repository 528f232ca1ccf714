import ViewBinding.Proofs.Constants.Folding
import ViewBinding.Proofs.Constants.Moved
import ViewBinding.Proofs.Numbers.Tokens
import ViewBinding.Proofs.Numbers.Values

/-!
# Integer literals as view ids

What a view id comes to that is written as an integer literal
(`ViewBinding.Java.Constants.fold_integerLiteral`). Its value is the number that it spells, or the
`int` of that pattern of bits if it is hexadecimal, octal or binary; if there is none the literal is
too large, and with a suffix it is no `int` at all. Wherever it stands in an expression, the
expression then has no value.

Only a decimal literal right behind a minus is read together with it, for the least `int` has no
other literal (`ViewBinding.Java.IdExpr.Reads`).
-/

namespace ViewBinding.Java

open Text

variable {source : String} {kind : Literal} {numeral suffix : List Char} {m u : Node}

/-! ### Expressions -/

namespace IdExpr

theorem ofNode_literal (h : m.kind = .literal kind) (hkind : isInteger kind = true) :
    ofNode source m = .literal kind (m.extent.textIn source) m.extent := by
  cases m
  cases h
  exact if_pos hkind

/-- An operator with its operand. -/
theorem ofNode_unary {operator : Node} (hkind : u.kind = .unary)
    (hoperator : u.child? .operator = some operator) (hoperand : u.child? .operand = some m) :
    ofNode source u = .unary (operator.textIn source) (ofNode source m) u.extent := by
  obtain ⟨_, role, extent, isAbsent, children⟩ := u
  cases hkind
  have hpart (role : Role) :
      ((ofNodes source children).find? fun part => part.1.role == some role) =
        (children.find? fun c => c.role == some role).map fun c => (c, ofNode source c) := by
    rw [ofNodes_eq, List.find?_map]
    rfl
  have hoperator : (children.find? fun c => c.role == some .operator) = some operator := hoperator
  have hoperand : (children.find? fun c => c.role == some .operand) = some m := hoperand
  rw [ofNode, assemble]
  simp only [hpart, hoperator, hoperand]
  rfl

/-- **A literal is read in an expression**, together with a minus if `negated`. A decimal literal
right behind a minus is not read without it. -/
inductive Reads (kind : Literal) (text : String) : Bool → IdExpr → Prop
  | literal {place : Extent} : Reads kind text false (.literal kind text place)
  | negated {inner place : Extent} (h : kind = .decimal) :
    Reads kind text true (.unary "-" (.literal .decimal text inner) place)
  | group {negated : Bool} {inner : IdExpr} {place : Extent} (h : Reads kind text negated inner) :
    Reads kind text negated (.group inner place)
  | unary {negated : Bool} {operator : String} {operand : IdExpr} {place : Extent}
    (h : Reads kind text negated operand)
    (halone : operator = "-" → ∀ text inner, operand ≠ .literal .decimal text inner) :
    Reads kind text negated (.unary operator operand place)
  | left {negated : Bool} {operator : String} {left right : IdExpr} {place : Extent}
    (h : Reads kind text negated left) :
    Reads kind text negated (.binary operator left right place)
  | right {negated : Bool} {operator : String} {left right : IdExpr} {place : Extent}
    (h : Reads kind text negated right) :
    Reads kind text negated (.binary operator left right place)

end IdExpr

namespace Constants

variable {table : Constants} {scope : List String} {notes : Notes}

theorem andThen_ne_ok {out : Folded × Notes} {next : Int32 → Notes → Folded × Notes}
    (h : (∀ v, out.1 ≠ .ok v) ∨ ∀ v notes w, (next v notes).1 ≠ .ok w) (w : Int32) :
    (andThen out next).1 ≠ .ok w := by
  obtain ⟨result, notes⟩ := out
  cases result with
  | ok v =>
    rcases h with h | h
    · exact absurd rfl (h v)
    · exact h v notes w
  | error e => exact fun h => nomatch h

/-- **An expression has no value if a literal in it has none.** -/
theorem foldWith_ne_ok {constant : ConstantName → Extent → Notes → Folded × Notes} {text : String}
    {negated : Bool} {e : IdExpr} (h : e.Reads kind text negated)
    (hvalue : ∀ v, IntLiteral.read kind text negated ≠ .value v) (w : Int32) :
    (foldWith table constant scope e notes).1 ≠ .ok w := by
  induction h generalizing notes w with
  | literal => exact fun hw => hvalue w (literalValue_eq_ok_iff.mp hw)
  | negated hkind =>
    subst hkind
    rw [foldWith_negated]
    exact fun hw => hvalue w (literalValue_eq_ok_iff.mp hw)
  | group _ ih => exact ih hvalue w
  | unary _ halone ih =>
    rw [foldWith_unary constant _ halone]
    exact andThen_ne_ok (.inl fun v => ih hvalue v) w
  | left _ ih => exact andThen_ne_ok (.inl fun v => ih hvalue v) w
  | right _ ih =>
    exact andThen_ne_ok (.inr fun v notes => andThen_ne_ok (.inl fun v => ih hvalue v)) w

/-- **What an integer literal comes to as a view id.** The literal may be any of Java that the
tokens have as one number, of any length. A zero in front of other digits makes it octal. A decimal
literal denotes the number that it spells, every other one the `int` of that pattern of bits; if
there is none the literal is too large. A minus in front of a decimal literal is read together with
it, which gives the least `int`. With a suffix the literal is not constant. An expression that reads
a literal without a value has none either. -/
theorem fold_integerLiteral (hnumeral : IsNumeral kind numeral) (hsuffix : IsSuffix suffix)
    (hm : m.IsNumber source) (htext : m.textIn source = .ofList (numeral ++ suffix))
    (table : Constants) (scope : List String) (notes : Notes) :
    let value (e : IdExpr) : Folded := (table.fold scope e notes).1
    let literal := IdExpr.ofNode source m
    let n := magnitude kind numeral
    (suffix ≠ [] → value literal = .error (.notConstant m.extent)) ∧
    (suffix = [] → kind = .decimal →
      (n ≤ 2147483647 → ∃ v, value literal = .ok v ∧ v.toInt = n) ∧
      (2147483647 < n → value literal = .error (.outOfRange m.extent))) ∧
    (suffix = [] → kind ≠ .decimal →
      (n < 2 ^ 32 → ∃ v, value literal = .ok v ∧ v.toUInt32.toNat = n) ∧
      (2 ^ 32 ≤ n → value literal = .error (.outOfRange m.extent))) ∧
    (∀ u sign, u.kind = .unary → u.child? .operator = some sign → sign.textIn source = "-" →
      u.child? .operand = some m → kind = .decimal →
      (suffix ≠ [] → value (IdExpr.ofNode source u) = .error (.notConstant u.extent)) ∧
      (suffix = [] → n ≤ 2147483648 →
        ∃ v, value (IdExpr.ofNode source u) = .ok v ∧ v.toInt = -n) ∧
      (suffix = [] → 2147483648 < n →
        value (IdExpr.ofNode source u) = .error (.outOfRange u.extent))) ∧
    ∀ e negated, e.Reads kind (.ofList (numeral ++ suffix)) negated →
      suffix ≠ [] ∨ IntLiteral.limit kind negated < n → ∀ v, value e ≠ .ok v := by
  intro value literal n
  obtain ⟨kind', cs, hkind, hcs, hread⟩ := hm
  obtain rfl : numeral ++ suffix = cs := String.ofList_inj.mp (htext.symm.trans hcs)
  obtain ⟨rfl, -⟩ := Lexeme.number?_numeral hnumeral hsuffix hread
  have hinteger : IdExpr.isInteger kind' = true := by cases hnumeral <;> rfl
  have hliteral : literal = .literal kind' (.ofList (numeral ++ suffix)) m.extent := by
    rw [← htext]
    exact IdExpr.ofNode_literal hkind hinteger
  have hvalue : value literal =
      literalValue kind' (.ofList (numeral ++ suffix)) false m.extent := by
    rw [hliteral]
    rfl
  -- a minus is read together with the literal, so that the unary expression is one literal as well
  have hunary {u sign : Node} (hu : u.kind = .unary) (hsign : u.child? .operator = some sign)
      (hminus : sign.textIn source = "-") (hm : u.child? .operand = some m)
      (hdecimal : kind' = .decimal) : value (IdExpr.ofNode source u) =
        literalValue .decimal (.ofList (numeral ++ suffix)) true u.extent := by
    subst hdecimal
    have hexpr : IdExpr.ofNode source u = .unary (sign.textIn source) literal u.extent :=
      IdExpr.ofNode_unary hu hsign hm
    rw [hminus, hliteral] at hexpr
    simp only [value, hexpr, fold, foldWith_negated]
  have hlong (negated : Bool) (hs : suffix ≠ []) :
      IntLiteral.read kind' (.ofList (numeral ++ suffix)) negated = .long :=
    IntLiteral.read_long ((or_iff_right hs).mp hsuffix)
  have hlarge (negated : Bool) (hs : suffix = []) (hlt : IntLiteral.limit kind' negated < n) :
      IntLiteral.read kind' (.ofList (numeral ++ suffix)) negated = .tooLarge := by
    rw [hs, List.append_nil]
    exact IntLiteral.read_tooLarge hnumeral hlt
  refine ⟨fun hs => ?_, fun hs hdecimal => ⟨fun hle => ?_, fun hlt => ?_⟩,
    fun hs hother => ⟨fun hlt => ?_, fun hle => ?_⟩,
    fun u sign hu hsign hminus hm hdecimal => ⟨fun hs => ?_, fun hs hle => ?_, fun hs hlt => ?_⟩,
    fun e negated he hnone v => ?_⟩
  · rw [hvalue, literalValue, hlong false hs]
  · subst hdecimal
    obtain ⟨v, hv, htoInt⟩ := IntLiteral.read_decimal hnumeral false hle
    exact ⟨v, by rw [hvalue, literalValue, hs, List.append_nil, hv], htoInt⟩
  · subst hdecimal
    rw [hvalue, literalValue, hlarge false hs hlt]
  · have hle : n ≤ IntLiteral.limit kind' false := by
      rw [IntLiteral.limit, if_neg hother]
      exact Nat.le_of_lt_succ hlt
    obtain ⟨v, hv, hbits⟩ := IntLiteral.read_bits hnumeral hother hle
    exact ⟨v, by rw [hvalue, literalValue, hs, List.append_nil, hv], hbits⟩
  · have hlt : IntLiteral.limit kind' false < n := by
      rw [IntLiteral.limit, if_neg hother]
      exact hle
    rw [hvalue, literalValue, hlarge false hs hlt]
  · rw [hunary hu hsign hminus hm hdecimal, literalValue, ← hdecimal, hlong true hs]
  · have hnegated := hunary hu hsign hminus hm hdecimal
    subst hdecimal
    obtain ⟨v, hv, htoInt⟩ := IntLiteral.read_decimal hnumeral true hle
    exact ⟨v, by rw [hnegated, literalValue, hs, List.append_nil, hv], htoInt⟩
  · have hnegated := hunary hu hsign hminus hm hdecimal
    subst hdecimal
    rw [hnegated, literalValue, hlarge true hs hlt]
  · exact foldWith_ne_ok he (IntLiteral.read_ne_value hnumeral hsuffix hnone) v

/-- The least `int`, whose literal is too large without the minus. -/
theorem fold_integerLiteral_least :
    let source := "class A \x7b int a = -2147483648; \x7d"
    ∃ root, Plain.tree? source = some root ∧ ∃ u ∈ root.nodes, ∃ m ∈ root.nodes,
      u.textIn source = "-2147483648" ∧ m.textIn source = "2147483648" ∧
      (∃ v, ((Constants.mk "" [] []).fold [] (IdExpr.ofNode source u) []).1 = .ok v ∧
        v.toInt = -2147483648) ∧
      ((Constants.mk "" [] []).fold [] (IdExpr.ofNode source m) []).1 =
        .error (.outOfRange m.extent) := by
  intro source
  obtain ⟨root, hroot⟩ : ∃ root, Plain.tree? source = some root :=
    Option.isSome_iff_exists.mp (by decide +kernel)
  have hall : (Plain.tree? source).all (fun root => decide (∃ u ∈ root.nodes, ∃ m ∈ root.nodes,
      u.kind = .unary ∧ m.kind = .literal .decimal ∧ u.child? .operand = some m ∧
      (u.child? .operator).map (·.textIn source) = some "-" ∧
      u.textIn source = "-2147483648" ∧ m.textIn source = "2147483648")) = true := by
    decide +kernel
  rw [hroot, Option.all_some, decide_eq_true_eq] at hall
  obtain ⟨u, hu, m, hm, hkind, hkind', hoperand, hsign, htext, htext'⟩ := hall
  obtain ⟨sign, hoperator, hminus⟩ := Option.map_eq_some_iff.mp hsign
  have hnumeral : IsNumeral .decimal "2147483648".toList :=
    .decimal (by decide +kernel) (by decide)
  have hmagnitude : magnitude .decimal "2147483648".toList = 2147483648 := by decide +kernel
  have hsuffix : IsSuffix [] := .inl rfl
  obtain ⟨-, hdecimal, -, hnegated, -⟩ := fold_integerLiteral hnumeral hsuffix
    (Plain.isNumber_of_mem_nodes hroot hm hkind') htext' (.mk "" [] []) [] []
  obtain ⟨v, hv, htoInt⟩ := (hnegated u sign hkind hoperator hminus hoperand rfl).2.1 rfl (by
    rw [hmagnitude])
  refine ⟨root, hroot, u, hu, m, hm, htext, htext', ⟨v, hv, ?_⟩, (hdecimal rfl rfl).2 ?_⟩
  · rw [htoInt, hmagnitude]
    rfl
  · rw [hmagnitude]
    decide

end Constants

end ViewBinding.Java
