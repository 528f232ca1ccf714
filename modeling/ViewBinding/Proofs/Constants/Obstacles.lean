import ViewBinding.Proofs.Constants.Folding

/-!
# Where folding stops

Folding goes through the parts of an expression from left to right and stops at the first one that
has no value. This is a part of the expression itself – a literal, an operator, a name that stands
for nothing – or it is the name of a constant that has no value in its turn.
`ViewBinding.Java.Constants.StopsAt` says which part it is without notes. An expression either has
a value or stops somewhere (`ViewBinding.Java.Constants.denotes_or_stopsAt`), and there is one such
part only (`ViewBinding.Java.Constants.StopsAt.unique`).

What was folded before does not move that part. Where it is the name of a constant, folding the
expression comes to what folding this constant comes to
(`ViewBinding.Java.Constants.foldWith_of_stopsAt`), and whatever was noted on the way there has a
value (`ViewBinding.Java.Constants.Passes`).
-/

namespace ViewBinding.Java

/-- The expression and all that it is made of. -/
def IdExpr.parts : IdExpr → List IdExpr
  | .group inner place => .group inner place :: parts inner
  | .unary operator operand place => .unary operator operand place :: parts operand
  | .binary operator left right place =>
    .binary operator left right place :: (parts left ++ parts right)
  | e => [e]

namespace Constants

open Text

variable {table : Constants} {scope : List String} {notes notes' notes'' : Notes} {e : IdExpr}
  {budget : Nat}

/-! ### Names in an expression with a value -/

/-- An expression has one value at most. -/
theorem Denotes.unique {v w : Int32} (h : table.Denotes scope e v)
    (h' : table.Denotes scope e w) : v = w := by
  have hfinds : table.Finds (table.Denotes scope e) (table.fold scope e []) :=
    fold_finds e sound_nil (by simp)
  exact Except.ok.inj (((hfinds.value_iff v).mpr h).symm.trans ((hfinds.value_iff w).mpr h'))

/-- Every name in an expression with a value has a value. -/
theorem Denotes.exists_denotes_name {v : Int32} {name : String} {place : Extent}
    (h : table.Denotes scope e v) (hname : .name name place ∈ e.parts) :
    ∃ w, table.Denotes scope (.name name place) w := by
  induction h with
  | literal | negated | select => simp [IdExpr.parts] at hname
  | group _ ih | unary _ _ ih => exact ih (by simpa [IdExpr.parts] using hname)
  | binary _ _ _ ihl ihr =>
    simp only [IdExpr.parts, List.mem_cons, List.mem_append, reduceCtorEq, false_or] at hname
    exact hname.elim ihl ihr
  | name hc he h _ =>
    rw [List.mem_singleton.mp hname]
    exact ⟨_, .name hc he h⟩

/-! ### The first part without a value -/

/-- What keeps an expression from having a value. -/
inductive Obstacle
  /-- A part of the expression itself, with the error that it is. -/
  | error (e : FoldError)
  /-- A constant that has no value and is named at that place. -/
  | constant (c : ConstantName) (place : Extent)
deriving DecidableEq

/-- **The expression stops at the obstacle**: this is the first part of it that has no value. -/
inductive StopsAt (table : Constants) (scope : List String) : IdExpr → Obstacle → Prop
  /-- A literal that is no `int`. -/
  | literal {kind text place err} (h : literalValue kind text false place = .error err) :
    StopsAt table scope (.literal kind text place) (.error err)
  /-- Parentheses change nothing. -/
  | group {inner place o} (h : StopsAt table scope inner o) :
    StopsAt table scope (.group inner place) o
  /-- A decimal literal that is no `int` with the sign in front of it. -/
  | negated {text inner place err} (h : literalValue .decimal text true place = .error err) :
    StopsAt table scope (.unary "-" (.literal .decimal text inner) place) (.error err)
  /-- The operand of a unary operator. -/
  | operand {operator operand place o}
    (halone : ¬∃ text inner, operator = "-" ∧ operand = .literal .decimal text inner)
    (h : StopsAt table scope operand o) : StopsAt table scope (.unary operator operand place) o
  /-- A unary operator that is not applied to the value of its operand. -/
  | unary {operator operand place v}
    (halone : ¬∃ text inner, operator = "-" ∧ operand = .literal .decimal text inner)
    (h : table.Denotes scope operand v) (ho : unaryValue? operator v = none) :
    StopsAt table scope (.unary operator operand place) (.error (.notConstant place))
  /-- The left operand of a binary operator. -/
  | left {operator left right place o} (h : StopsAt table scope left o) :
    StopsAt table scope (.binary operator left right place) o
  /-- The right operand of a binary operator, if the left one has a value. -/
  | right {operator left right place v o} (hl : table.Denotes scope left v)
    (h : StopsAt table scope right o) : StopsAt table scope (.binary operator left right place) o
  /-- A binary operator that is not applied to the values of its operands. -/
  | binary {operator left right place v w} (hl : table.Denotes scope left v)
    (hr : table.Denotes scope right w) (ho : binaryValue? operator v w = none) :
    StopsAt table scope (.binary operator left right place) (.error (.notConstant place))
  /-- A simple name that stands for nothing. -/
  | unresolved {name place} (h : table.resolve? scope name = none) :
    StopsAt table scope (.name name place) (.error (.notConstant place))
  /-- A simple name of a constant without a value. -/
  | name {name place c} (hc : table.resolve? scope name = some c) (h : ∀ v, ¬table.Defines c v) :
    StopsAt table scope (.name name place) (.constant c place)
  /-- A selected name that stands for nothing. -/
  | unselected {object name place} (h : table.select? object name = none) :
    StopsAt table scope (.select object name place) (.error (.notConstant place))
  /-- A selected name of a constant without a value. -/
  | select {object name place c} (hc : table.select? object name = some c)
    (h : ∀ v, ¬table.Defines c v) :
    StopsAt table scope (.select object name place) (.constant c place)
  /-- What is no part of a constant expression. -/
  | other {place} : StopsAt table scope (.other place) (.error (.notConstant place))

variable {o o' : Obstacle}

theorem StopsAt.not_denotes (h : table.StopsAt scope e o) (v : Int32) :
    ¬table.Denotes scope e v := by
  induction h generalizing v with
  | literal h =>
    rw [denotes_literal_iff, ← literalValue_eq_ok_iff, h]
    exact nofun
  | group _ ih => exact fun hv => ih v (denotes_group_iff.mp hv)
  | negated h =>
    rw [denotes_negated_iff, ← literalValue_eq_ok_iff, h]
    exact nofun
  | operand halone _ ih =>
    intro hv
    obtain ⟨w, hw, -⟩ := (denotes_unary_iff halone).mp hv
    exact ih w hw
  | unary halone hoperand ho =>
    -- the operand has no other value to which the operator could be applied
    intro hv
    obtain ⟨w, hw, hvalue⟩ := (denotes_unary_iff halone).mp hv
    rw [hw.unique hoperand, ho] at hvalue
    cases hvalue
  | left _ ih =>
    intro hv
    obtain ⟨w, -, hw, -, -⟩ := denotes_binary_iff.mp hv
    exact ih w hw
  | right _ _ ih =>
    intro hv
    obtain ⟨-, w, -, hw, -⟩ := denotes_binary_iff.mp hv
    exact ih w hw
  | binary hl hr ho =>
    intro hv
    obtain ⟨w, x, hw, hx, hvalue⟩ := denotes_binary_iff.mp hv
    rw [hw.unique hl, hx.unique hr, ho] at hvalue
    cases hvalue
  | unresolved h =>
    rw [denotes_name_iff, h]
    exact nofun
  | unselected h =>
    rw [denotes_select_iff, h]
    exact nofun
  | name hc h =>
    rw [denotes_name_iff, hc]
    rintro ⟨c, hcc, hv⟩
    cases hcc
    exact h v hv
  | select hc h =>
    rw [denotes_select_iff, hc]
    rintro ⟨c, hcc, hv⟩
    cases hcc
    exact h v hv
  | other => exact not_denotes_other

/-- **An expression without a value stops somewhere.** -/
theorem denotes_or_stopsAt (table : Constants) (scope : List String) (e : IdExpr) :
    (∃ v, table.Denotes scope e v) ∨ ∃ o, table.StopsAt scope e o := by
  induction e with
  | literal kind text place =>
    cases h : literalValue kind text false place with
    | ok v => exact .inl ⟨v, .literal (literalValue_eq_ok_iff.mp h)⟩
    | error err => exact .inr ⟨_, .literal h⟩
  | group inner place ih =>
    exact ih.imp (fun ⟨v, hv⟩ => ⟨v, .group hv⟩) fun ⟨o, ho⟩ => ⟨o, .group ho⟩
  | unary operator operand place ih =>
    by_cases hnegated : ∃ text inner, operator = "-" ∧ operand = .literal .decimal text inner
    · obtain ⟨text, inner, rfl, rfl⟩ := hnegated
      cases h : literalValue .decimal text true place with
      | ok v => exact .inl ⟨v, .negated (literalValue_eq_ok_iff.mp h)⟩
      | error err => exact .inr ⟨_, .negated h⟩
    · rcases ih with ⟨v, hv⟩ | ⟨o, ho⟩
      · cases hvalue : unaryValue? operator v with
        | some w => exact .inl ⟨w, .unary hv hvalue⟩
        | none => exact .inr ⟨_, .unary hnegated hv hvalue⟩
      · exact .inr ⟨o, .operand hnegated ho⟩
  | binary operator left right place ihl ihr =>
    rcases ihl with ⟨v, hv⟩ | ⟨o, ho⟩
    · rcases ihr with ⟨w, hw⟩ | ⟨o, ho⟩
      · cases hvalue : binaryValue? operator v w with
        | some x => exact .inl ⟨x, .binary hv hw hvalue⟩
        | none => exact .inr ⟨_, .binary hv hw hvalue⟩
      · exact .inr ⟨o, .right hv ho⟩
    · exact .inr ⟨o, .left ho⟩
  | name name place =>
    cases hc : table.resolve? scope name with
    | none => exact .inr ⟨_, .unresolved hc⟩
    | some c =>
      by_cases hv : ∃ v, table.Defines c v
      · exact .inl (hv.imp fun v hv => denotes_name_iff.mpr ⟨c, hc, hv⟩)
      · exact .inr ⟨_, .name hc (not_exists.mp hv)⟩
  | select object name place =>
    cases hc : table.select? object name with
    | none => exact .inr ⟨_, .unselected hc⟩
    | some c =>
      by_cases hv : ∃ v, table.Defines c v
      · exact .inl (hv.imp fun v hv => denotes_select_iff.mpr ⟨c, hc, hv⟩)
      · exact .inr ⟨_, .select hc (not_exists.mp hv)⟩
  | other => exact .inr ⟨_, .other⟩

/-- **An expression stops at one part only.** -/
theorem StopsAt.unique (h : table.StopsAt scope e o) (h' : table.StopsAt scope e o') :
    o = o' := by
  -- two rules for one kind of expression differ in that a part has a value in one and stops in the
  -- other, which `StopsAt.not_denotes` rules out
  induction h with
  | literal h =>
    cases h' with
    | literal h' => rw [Except.error.inj (h.symm.trans h')]
  | group _ ih =>
    cases h' with
    | group h' => exact ih h'
  | negated h =>
    cases h' with
    | negated h' => rw [Except.error.inj (h.symm.trans h')]
    | operand halone => exact absurd ⟨_, _, rfl, rfl⟩ halone
    | unary halone => exact absurd ⟨_, _, rfl, rfl⟩ halone
  | operand halone h ih =>
    cases h' with
    | negated => exact absurd ⟨_, _, rfl, rfl⟩ halone
    | operand _ h' => exact ih h'
    | unary _ hv => exact absurd hv (h.not_denotes _)
  | unary halone hv =>
    cases h' with
    | negated => exact absurd ⟨_, _, rfl, rfl⟩ halone
    | operand _ h' => exact absurd hv (h'.not_denotes _)
    | unary => rfl
  | left h ih =>
    cases h' with
    | left h' => exact ih h'
    | right hv | binary hv => exact absurd hv (h.not_denotes _)
  | right hv h ih =>
    cases h' with
    | left h' => exact absurd hv (h'.not_denotes _)
    | right _ h' => exact ih h'
    | binary _ hw => exact absurd hw (h.not_denotes _)
  | binary hv hw =>
    cases h' with
    | left h' => exact absurd hv (h'.not_denotes _)
    | right _ h' => exact absurd hw (h'.not_denotes _)
    | binary => rfl
  | unresolved h =>
    cases h' with
    | unresolved => rfl
    | name hc => cases h.symm.trans hc
  | name hc =>
    cases h' with
    | unresolved h' => cases hc.symm.trans h'
    | name hc' => rw [Option.some.inj (hc.symm.trans hc')]
  | unselected h =>
    cases h' with
    | unselected => rfl
    | select hc => cases h.symm.trans hc
  | select hc =>
    cases h' with
    | unselected h' => cases hc.symm.trans h'
    | select hc' => rw [Option.some.inj (hc.symm.trans hc')]
  | other =>
    cases h'
    rfl

/-- The constant at which an expression stops is one that it names. -/
theorem StopsAt.mem_references {c : ConstantName} {place : Extent}
    (h : table.StopsAt scope e (.constant c place)) : c ∈ table.references scope e := by
  generalize ho : Obstacle.constant c place = o at h
  induction h with
  | group _ ih | operand _ _ ih => exact ih ho
  | left _ ih => exact List.mem_append_left _ (ih ho)
  | right _ _ ih => exact List.mem_append_right _ (ih ho)
  | name hc | select hc =>
    cases ho
    simp [references, hc]
  | _ => cases ho

/-- The constant at which an expression stops has no value. -/
theorem StopsAt.not_defines {c : ConstantName} {place : Extent}
    (h : table.StopsAt scope e (.constant c place)) (v : Int32) : ¬table.Defines c v := by
  generalize ho : Obstacle.constant c place = o at h
  induction h with
  | group _ ih | operand _ _ ih | left _ ih | right _ _ ih => exact ih ho
  | name _ h | select _ h =>
    cases ho
    exact h v
  | _ => cases ho

/-! ### On the way there -/

/-- **Notes that go on from right ones without a new error.** -/
structure Passes (table : Constants) (notes notes' : Notes) : Prop extends
    Extends notes notes' where
  sound : table.Sound notes'
  noNewError : ∀ {c err}, noteOn? notes' c = some (.settled (.error err)) →
    noteOn? notes c = some (.settled (.error err))

theorem Passes.refl (h : table.Sound notes) : table.Passes notes notes :=
  ⟨.refl notes, h, id⟩

theorem Passes.trans (h : table.Passes notes notes') (h' : table.Passes notes' notes'') :
    table.Passes notes notes'' :=
  ⟨h.toExtends.trans h'.toExtends, h'.sound, fun hc => h.noNewError (h'.noNewError hc)⟩

theorem Passes.unnoted_lt (h : table.Passes notes notes') (hb : table.unnoted notes < budget) :
    table.unnoted notes' < budget :=
  lt_of_le_of_lt h.unnoted_le hb

/-- What is known of a constant without a value does not change. -/
theorem Passes.noteOn?_eq (h : table.Passes notes notes') {c : ConstantName}
    (hc : ∀ v, ¬table.Defines c v) : noteOn? notes' c = noteOn? notes c := by
  cases hn : noteOn? notes c with
  | some note => exact h.kept hn
  | none =>
    cases hn' : noteOn? notes' c with
    | none => rfl
    | some note =>
      cases note with
      | begun => exact absurd hn' (h.settled hn)
      | settled result =>
        cases result with
        | ok v => exact absurd ((h.sound c _ hn' v).mp rfl) (hc v)
        | error err => rw [h.noNewError hn'] at hn; cases hn

/-- If folding comes to a value, it has noted no new error. -/
def NoNewError (notes : Notes) (out : Folded × Notes) : Prop :=
  ∀ v, out.1 = .ok v → ∀ c err, noteOn? out.2 c = some (.settled (.error err)) →
    noteOn? notes c = some (.settled (.error err))

theorem NoNewError.same (r : Folded) (notes : Notes) : NoNewError notes (r, notes) :=
  fun _ _ _ _ hc => hc

theorem NoNewError.andThen {out : Folded × Notes} {next : Int32 → Notes → Folded × Notes}
    (h : NoNewError notes out) (hnext : ∀ v, NoNewError out.2 (next v out.2)) :
    NoNewError notes (andThen out next) := by
  obtain ⟨r, notes'⟩ := out
  cases r with
  | ok v => exact fun w hw c err hc => h v rfl c err (hnext v w hw c err hc)
  | error err => exact fun w hw => nomatch hw

theorem NoNewError.foldReference {constant : ConstantName → Extent → Notes → Folded × Notes}
    (hc : ∀ c place notes, NoNewError notes (constant c place notes))
    (name? : Option ConstantName) (place : Extent) (notes : Notes) :
    NoNewError notes (foldReference constant name? place notes) := by
  cases name? with
  | none => exact .same _ notes
  | some c => exact hc c place notes

theorem foldWith_noNewError {constant : ConstantName → Extent → Notes → Folded × Notes}
    (hc : ∀ c place notes, NoNewError notes (constant c place notes)) (e : IdExpr)
    (notes : Notes) : NoNewError notes (foldWith table constant scope e notes) := by
  induction e generalizing notes with
  | literal | other => exact .same _ notes
  | group _ _ ih => exact ih notes
  | unary _ _ _ ih =>
    unfold foldWith
    split
    · exact .same _ notes
    · exact (ih notes).andThen fun v => .same _ _
  | binary _ _ _ _ ihl ihr =>
    exact (ihl notes).andThen fun v => (ihr _).andThen fun w => .same _ _
  | name | select => exact .foldReference hc _ _ notes

theorem foldConstant_noNewError (budget : Nat) (c : ConstantName) (place : Extent)
    (notes : Notes) : NoNewError notes (foldConstant table budget c place notes) := by
  induction budget generalizing c place notes with
  | zero => exact .same _ notes
  | succ budget ih =>
    unfold foldConstant
    split
    · exact .same _ notes
    · exact .same _ notes
    · split
      · exact .same _ notes
      · rename_i initializer _
        intro v hv d err hd
        -- the constant itself is settled with the value, and begun before
        rw [noteOn?_noted] at hd
        split at hd
        · cases hd.symm.trans (congrArg (fun r => some (Note.settled r)) hv)
        · rename_i hcd
          have hinner := foldWith_noNewError ih initializer (noted notes c .begun) v hv d err hd
          rwa [noteOn?_noted_of_ne hcd] at hinner

/-- Folding an expression with a value comes to the value and notes no error. -/
theorem foldWith_of_denotes {v : Int32} (h : table.Denotes scope e v) (hs : table.Sound notes)
    (hb : table.unnoted notes < budget)
    (hu : ∀ d ∈ table.references scope e, table.Underlies notes d) :
    ∃ notes', table.Passes notes notes' ∧
      foldWith table (foldConstant table budget) scope e notes = (.ok v, notes') := by
  have hfinds : table.Finds (table.Denotes scope e)
      (foldWith table (foldConstant table budget) scope e notes) :=
    foldWith_finds (fun c place _ => foldConstant_finds budget c place) e hs hb hu
  have hv := (hfinds.value_iff v).mpr h
  have hno : NoNewError notes (foldWith table (foldConstant table budget) scope e notes) :=
    foldWith_noNewError (foldConstant_noNewError budget) e notes
  exact ⟨_, ⟨foldWith_extends budget e notes, hfinds.sound, fun hc => hno v hv _ _ hc⟩,
    Prod.ext hv rfl⟩

/-! ### What folding comes to where it stops -/

/-- What folding comes to at an obstacle: the error, or whatever the constant comes to. -/
def Obstacle.fold (table : Constants) (budget : Nat) : Obstacle → Notes → Folded × Notes
  | error e, notes => (.error e, notes)
  | constant c place, notes => foldConstant table budget c place notes

/-- At the obstacle of an expression folding comes to an error. -/
theorem StopsAt.fold_eq_error (h : table.StopsAt scope e o) (hs : table.Sound notes)
    (hb : table.unnoted notes < budget)
    (hu : ∀ d ∈ table.references scope e, table.Underlies notes d) :
    ∃ err, (o.fold table budget notes).1 = .error err := by
  cases o with
  | error err => exact ⟨err, rfl⟩
  | constant c place =>
    have hfinds : table.Finds (table.Defines c) (foldConstant table budget c place notes) :=
      foldConstant_finds budget c place hs hb (hu c h.mem_references)
    cases hr : (foldConstant table budget c place notes).1 with
    | ok v => exact absurd ((hfinds.value_iff v).mp hr) (h.not_defines v)
    | error err => exact ⟨err, hr⟩

theorem andThen_of_eq_error {out : Folded × Notes} {err : FoldError} (h : out.1 = .error err)
    (next : Int32 → Notes → Folded × Notes) : andThen out next = out := by
  obtain ⟨r, notes'⟩ := out
  cases h
  rfl

/-- Nothing comes after the obstacle of an expression, whatever was noted on the way to it. -/
theorem StopsAt.andThen_fold (h : table.StopsAt scope e o) {notes' : Notes}
    (hpasses : table.Passes notes notes') (hb : table.unnoted notes < budget)
    (hu : ∀ d ∈ table.references scope e, table.Underlies notes d)
    (next : Int32 → Notes → Folded × Notes) :
    andThen (o.fold table budget notes') next = o.fold table budget notes' := by
  obtain ⟨err, herr⟩ := h.fold_eq_error hpasses.sound (hpasses.unnoted_lt hb)
    fun d hd => (hu d hd).extends hpasses.toExtends
  exact andThen_of_eq_error herr next

/-- **Where an expression stops, folding it comes to what folding comes to there**, with notes in
which nothing has changed but for constants with values. -/
theorem foldWith_of_stopsAt (h : table.StopsAt scope e o) (hs : table.Sound notes)
    (hb : table.unnoted notes < budget)
    (hu : ∀ d ∈ table.references scope e, table.Underlies notes d) :
    ∃ notes', table.Passes notes notes' ∧
      foldWith table (foldConstant table budget) scope e notes = o.fold table budget notes' := by
  induction h generalizing notes with
  | literal h => exact ⟨notes, .refl hs, by rw [foldWith, h]; rfl⟩
  | group _ ih => exact ih hs hb hu
  | negated h => exact ⟨notes, .refl hs, by rw [foldWith, h]; rfl⟩
  | operand halone h ih =>
    obtain ⟨notes', hpasses, heq⟩ := ih hs hb hu
    refine ⟨notes', hpasses, ?_⟩
    rw [foldWith_unary _ _ fun ho text inner he => halone ⟨text, inner, ho, he⟩, heq,
      h.andThen_fold hpasses hb hu]
  | unary halone hv ho =>
    obtain ⟨notes', hpasses, heq⟩ := foldWith_of_denotes hv hs hb hu
    refine ⟨notes', hpasses, ?_⟩
    rw [foldWith_unary _ _ fun ho text inner he => halone ⟨text, inner, ho, he⟩, heq, andThen, ho]
    rfl
  | left h ih =>
    have hleft := fun d hd => hu d (List.mem_append_left _ hd)
    obtain ⟨notes', hpasses, heq⟩ := ih hs hb hleft
    exact ⟨notes', hpasses, by rw [foldWith, heq, h.andThen_fold hpasses hb hleft]⟩
  | right hl h ih =>
    obtain ⟨notes₁, hpasses₁, heq₁⟩ :=
      foldWith_of_denotes hl hs hb fun d hd => hu d (List.mem_append_left _ hd)
    -- the left operand has a value, but on the way to it constants may have been noted
    have hright := fun d hd => (hu d (List.mem_append_right _ hd)).extends hpasses₁.toExtends
    have hb₁ := hpasses₁.unnoted_lt hb
    obtain ⟨notes₂, hpasses₂, heq₂⟩ := ih hpasses₁.sound hb₁ hright
    refine ⟨notes₂, hpasses₁.trans hpasses₂, ?_⟩
    rw [foldWith, heq₁, andThen, heq₂, h.andThen_fold hpasses₂ hb₁ hright]
  | binary hl hr ho =>
    obtain ⟨notes₁, hpasses₁, heq₁⟩ :=
      foldWith_of_denotes hl hs hb fun d hd => hu d (List.mem_append_left _ hd)
    obtain ⟨notes₂, hpasses₂, heq₂⟩ := foldWith_of_denotes hr hpasses₁.sound
      (hpasses₁.unnoted_lt hb)
      fun d hd => (hu d (List.mem_append_right _ hd)).extends hpasses₁.toExtends
    refine ⟨notes₂, hpasses₁.trans hpasses₂, ?_⟩
    rw [foldWith, heq₁, andThen, heq₂, andThen, ho]
    rfl
  | unresolved h => exact ⟨notes, .refl hs, by rw [foldWith, h]; rfl⟩
  | name hc => exact ⟨notes, .refl hs, by rw [foldWith, hc]; rfl⟩
  | unselected h => exact ⟨notes, .refl hs, by rw [foldWith, h]; rfl⟩
  | select hc => exact ⟨notes, .refl hs, by rw [foldWith, hc]; rfl⟩
  | other => exact ⟨notes, .refl hs, rfl⟩

end Constants

end ViewBinding.Java
