import ViewBinding.Java.Bindings
import ViewBinding.Proofs.Constants.Cycles

/-!
# What was folded before

The notes are handed on from one view id to the next. The value that is found does not depend on
them (`ViewBinding.Java.Constants.inTurn_fold_iff_denotes`), and neither does the problem, if there
is no value. The place that is blamed does: if the view id leads into a cycle of constants
(`ViewBinding.Java.Constants.LeadsInto`), each reference of the cycle is blamed after some history
(`ViewBinding.Java.Constants.LeadsInto.exists_history`), and nothing else ever is
(`ViewBinding.Java.Reading.idAfter_depends_on_cycle`).
-/

namespace ViewBinding.Java

open Relation Text

namespace Constants

variable {table : Constants} {scope : List String} {e : IdExpr} {notes notes' : Notes}
  {a b c d : ConstantName} {place place' : Extent} {err err' : FoldError}

/-! ### Expressions -/

/-- **An error that folding the expression can come to.** -/
inductive MayStopWith (table : Constants) (scope : List String) (e : IdExpr) : FoldError → Prop
  | error {err : FoldError} (h : table.StopsAt scope e (.error err)) : MayStopWith table scope e err
  | constant {c : ConstantName} {place : Extent} {err : FoldError}
    (h : table.StopsAt scope e (.constant c place)) (hc : table.MayFailWith c err) :
    MayStopWith table scope e err

/-- **The expression leads into the cycle** in which the constant `c` waits for `d`, named at that
place: it stops at a constant from which one comes to `c`. -/
def LeadsInto (table : Constants) (scope : List String) (e : IdExpr) (c d : ConstantName)
    (place : Extent) : Prop :=
  ∃ a inner, table.StopsAt scope e (.constant a inner) ∧ ReflTransGen table.Waits a c ∧
    table.InCycle c d place

/-- An expression leads into one cycle only. -/
theorem LeadsInto.reaches (h : table.LeadsInto scope e a b place)
    (h' : table.LeadsInto scope e c d place') : ReflTransGen table.Waits a c := by
  obtain ⟨start, inner, hstop, hreach, -⟩ := h
  obtain ⟨start', inner', hstop', hreach', hcycle'⟩ := h'
  obtain ⟨rfl, -⟩ := Obstacle.constant.inj (hstop.unique hstop')
  exact hcycle'.reaches hreach hreach'

/-- With one reference of a cycle, an expression leads into all of them. -/
theorem LeadsInto.of_reaches (h : table.LeadsInto scope e a b place)
    (hc : ReflTransGen table.Waits a c) (hd : table.WaitsFor c d place') :
    table.LeadsInto scope e c d place' := by
  obtain ⟨start, inner, hstop, hreach, hcycle⟩ := h
  refine ⟨start, inner, hstop, hreach.trans hc, hd, ?_⟩
  exact (hcycle.back_of_reaches (hc.tail hd.waits)).trans hc

/-- Unless an expression leads into a cycle, there is one error only. -/
theorem MayStopWith.unique (h : table.MayStopWith scope e err)
    (h' : table.MayStopWith scope e err') (hno : ∀ c d place, ¬table.LeadsInto scope e c d place) :
    err = err' := by
  cases h with
  | error h =>
    cases h' with
    | error h' => exact Obstacle.error.inj (h.unique h')
    | constant h' => cases h.unique h'
  | constant h hc =>
    cases h' with
    | error h' => cases h.unique h'
    | constant h' hc' =>
      obtain ⟨rfl, -⟩ := Obstacle.constant.inj (h.unique h')
      cases hc with
      | cycle hreach hcycle => exact absurd ⟨_, _, h, hreach, hcycle⟩ (hno _ _ _)
      | error hc =>
        cases hc' with
        | cycle hreach hcycle => exact absurd ⟨_, _, h, hreach, hcycle⟩ (hno _ _ _)
        | error hc' => exact hc.unique hc'

/-- The errors of an expression that leads into a cycle are that a reference of the cycle is not
constant. -/
theorem MayStopWith.exists_waitsFor (h : table.MayStopWith scope e err)
    (hcycle : table.LeadsInto scope e a b place) :
    ∃ c d place', ReflTransGen table.Waits a c ∧ table.WaitsFor c d place' ∧
      err = .notConstant place' := by
  cases h with
  | error h =>
    obtain ⟨start, inner, hstop, -, -⟩ := hcycle
    cases h.unique hstop
  | constant h hc =>
    cases hc with
    | error hc =>
      obtain ⟨start, inner, hstop, hreach, hcycle⟩ := hcycle
      obtain ⟨rfl, -⟩ := Obstacle.constant.inj (h.unique hstop)
      exact absurd hcycle (hc.not_inCycle hreach)
    | cycle hreach hcycle' =>
      exact ⟨_, _, _, hcycle.reaches ⟨_, _, h, hreach, hcycle'⟩, hcycle'.waitsFor, rfl⟩

/-! ### Between two expressions -/

/-- **The notes between two expressions**: nothing is begun, and what is noted is right. -/
structure AtRest (table : Constants) (notes : Notes) : Prop where
  sound : table.Sound notes
  noneBegun : ∀ c, noteOn? notes c ≠ some .begun
  rightErrors : table.RightErrors notes

theorem atRest_nil : table.AtRest [] :=
  ⟨sound_nil, by simp, fun c err h => absurd h (by simp)⟩

theorem AtRest.awaited (h : table.AtRest notes) (c : ConstantName) : table.Awaited notes c :=
  fun b hb => absurd hb (h.noneBegun b)

/-- Folding stops where the expression does. -/
theorem AtRest.fold_of_stopsAt {o : Obstacle} (h : table.AtRest notes)
    (ho : table.StopsAt scope e o) :
    ∃ notes', table.Passes notes notes' ∧ table.AtRest notes' ∧
      table.fold scope e notes = o.fold table (table.initializers.length + 1) notes' := by
  obtain ⟨notes', hpasses, heq⟩ := foldWith_of_stopsAt ho h.sound
    (Nat.lt_succ_of_le (table.unnoted_le_length notes)) fun d _ => (h.awaited d).underlies
  exact ⟨notes', hpasses, ⟨hpasses.sound, fun c hc => h.noneBegun c (hpasses.begun_iff.mp hc),
    h.rightErrors.passes hpasses⟩, heq⟩

/-- **An expression without a value comes to an error that it can come to**, and the errors that are
noted on the way are such errors again. -/
theorem AtRest.fold_mayStopWith (h : table.AtRest notes) (hno : ∀ v, ¬table.Denotes scope e v) :
    ∃ err, (table.fold scope e notes).1 = .error err ∧ table.MayStopWith scope e err ∧
      table.RightErrors (table.fold scope e notes).2 := by
  obtain ⟨o, ho⟩ : ∃ o, table.StopsAt scope e o :=
    (denotes_or_stopsAt table scope e).resolve_left fun ⟨v, hv⟩ => hno v hv
  obtain ⟨notes', -, hrest, heq⟩ := h.fold_of_stopsAt ho
  rw [heq]
  cases o with
  | error err => exact ⟨err, rfl, .error ho, hrest.rightErrors⟩
  | constant c place =>
    obtain ⟨err, hresult, hmay, hright⟩ := foldConstant_comesTo _ c place ho.exists_initializer
      ho.not_defines hrest.sound hrest.rightErrors
      (Nat.lt_succ_of_le (table.unnoted_le_length notes')) (hrest.awaited c)
    exact ⟨err, hresult,
      .constant ho (hmay.resolve_right fun hbegun => hrest.noneBegun c hbegun.1), hright⟩

theorem AtRest.fold (h : table.AtRest notes) (scope : List String) (e : IdExpr) :
    table.AtRest (table.fold scope e notes).2 := by
  have hext : Extends notes (table.fold scope e notes).2 := foldWith_extends _ e notes
  refine ⟨(fold_finds e h.sound h.noneBegun).sound,
    fun c hc => h.noneBegun c (hext.begun_iff.mp hc), ?_⟩
  by_cases hv : ∃ v, table.Denotes scope e v
  · obtain ⟨v, hv⟩ := hv
    obtain ⟨notes', hpasses, heq⟩ := foldWith_of_denotes hv h.sound
      (Nat.lt_succ_of_le (table.unnoted_le_length notes)) fun d _ => (h.awaited d).underlies
    have hnotes : (table.fold scope e notes).2 = notes' := congrArg Prod.snd heq
    exact hnotes ▸ h.rightErrors.passes hpasses
  · obtain ⟨-, -, -, hright⟩ := h.fold_mayStopWith (not_exists.mp hv)
    exact hright

/-- The notes after expressions have been folded one after the other, each inside a type. -/
def after (table : Constants) (history : List (List String × IdExpr)) : Notes :=
  history.foldl (fun notes query => (table.fold query.1 query.2 notes).2) []

/-- **Whatever was folded, the notes are at rest.** -/
theorem atRest_after (table : Constants) (history : List (List String × IdExpr)) :
    table.AtRest (table.after history) := by
  induction history using List.reverseRecOn with
  | nil => exact atRest_nil
  | append_singleton history query ih =>
    rw [after, List.foldl_append]
    exact ih.fold query.1 query.2

/-- **What an expression comes to** after others have been folded. -/
def foldAfter (table : Constants) (history : List (List String × IdExpr)) (scope : List String)
    (e : IdExpr) : Folded :=
  (table.fold scope e (table.after history)).1

/-- The value that is found does not depend on what was folded before. -/
theorem foldAfter_eq_ok_iff {history : List (List String × IdExpr)} {v : Int32} :
    table.foldAfter history scope e = .ok v ↔ table.Denotes scope e v :=
  have hrest := table.atRest_after history
  (fold_finds e hrest.sound hrest.noneBegun).value_iff v

/-! ### Every reference of a cycle is blamed after some history -/

/-- No error but that one is noted. -/
def OnlyError (table : Constants) (notes : Notes) (err : FoldError) : Prop :=
  ∀ c, (∀ v, ¬table.Defines c v) → noteOn? notes c = none ∨
    noteOn? notes c = some (.settled (.error err))

theorem onlyError_nil (table : Constants) (err : FoldError) : table.OnlyError [] err :=
  fun _ _ => .inl rfl

theorem OnlyError.passes (h : table.OnlyError notes err) (hpasses : table.Passes notes notes') :
    table.OnlyError notes' err := by
  intro c hc
  rw [hpasses.noteOn?_eq hc]
  exact h c hc

theorem OnlyError.spreads {out : Folded × Notes} (h : table.OnlyError notes err)
    (hout : table.Spreads notes err out) : table.OnlyError out.2 err := by
  intro c hc
  rcases hout.others c hc with heq | hsettled
  · rw [heq]
    exact h c hc
  · exact .inr hsettled

/-- The error at the end of a way spreads to its start, from notes that are at rest and hold no
other error. -/
theorem AtRest.spreads {inner : Extent} (h : table.AtRest notes) (honly : table.OnlyError notes err)
    (hreach : ReflTransGen table.Waits c a) (hab : table.WaitsFor a b inner)
    (hend : Known notes b inner err ∨ b = c ∧ err = .notConstant inner) (place : Extent) :
    table.Spreads notes err (foldConstant table (table.initializers.length + 1) c place notes) ∧
      noteOn? (foldConstant table (table.initializers.length + 1) c place notes).2 c =
        some (.settled (.error err)) := by
  obtain ⟨path, hchain, hnodup, hlast⟩ := exists_nodup_isChain hreach
  have hno : ∀ d ∈ c :: path, ∀ v, ¬table.Defines d v :=
    hchain.backwards_cons_induction (fun d => ∀ v, ¬table.Defines d v) path hlast
      (fun _ _ hwaits _ => hwaits.not_defines_left) hab.waits.not_defines_left
  refine foldConstant_spreads hchain hnodup hlast hab
    (fun d hd => ⟨hno d hd, honly d (hno d hd)⟩) (hend.imp_right fun hb => ?_) h.sound
    (Nat.lt_succ_of_le (table.unnoted_le_length notes)) (h.awaited c) place
  exact ⟨hb.1 ▸ List.mem_cons_self, hb.2⟩

/-- **Each reference of a cycle can be the one that is blamed**: it is, after the initializer has
been folded in which it stands. -/
theorem LeadsInto.exists_history (h : table.LeadsInto scope e c d place) :
    ∃ history, table.foldAfter history scope e = .error (.notConstant place) := by
  obtain ⟨start, inner, hstop, hreach, hcycle⟩ := h
  obtain ⟨initializer, -, hinitializer⟩ := hcycle.waitsFor
  refine ⟨[(c.owner, initializer)], ?_⟩
  set notes := table.after [(c.owner, initializer)]
  -- from the initializer one comes to the constant that it waits for, and around to the reference
  obtain ⟨honly, hsettled⟩ : table.OnlyError notes (.notConstant place) ∧
      noteOn? notes d = some (.settled (.error (.notConstant place))) := by
    obtain ⟨notes₁, hpasses, hrest, heq⟩ := atRest_nil.fold_of_stopsAt hinitializer
    have honly := (table.onlyError_nil (.notConstant place)).passes hpasses
    have hspreads := hrest.spreads honly hcycle.back hcycle.waitsFor (.inr ⟨rfl, rfl⟩) place
    have hafter : notes =
        (foldConstant table (table.initializers.length + 1) d place notes₁).2 :=
      congrArg Prod.snd heq
    rw [hafter]
    exact ⟨honly.spreads hspreads.1, hspreads.2⟩
  obtain ⟨notes₂, hpasses, hrest, heq⟩ :=
    (table.atRest_after [(c.owner, initializer)]).fold_of_stopsAt hstop
  rw [foldAfter, heq]
  exact (hrest.spreads (honly.passes hpasses) hreach hcycle.waitsFor
    (.inl (.inl (hpasses.kept hsettled))) inner).1.result

end Constants

/-! ### What is answered -/

namespace Reading

variable {r : Reading} {history : List (List String × IdExpr)} {nesting : List String} {e : IdExpr}

/-- **The answer to a view id** inside the type of that nesting, after others have been folded: its
value, or the finding with its place and with the text that it quotes. -/
def idAfter (r : Reading) (history : List (List String × IdExpr)) (nesting : List String)
    (e : IdExpr) : Except Finding Int32 :=
  (r.constants.foldAfter history nesting e).mapError r.idFinding

/-- The view ids of annotations are answered so, one after the other. -/
theorem viewId_after {mark n : Node} (h : r.idNode mark = .ok (some n)) :
    r.viewId nesting mark (r.constants.after history) =
      ((r.idAfter history nesting (.ofNode r.source n)).map some,
        r.constants.after (history ++ [(nesting, .ofNode r.source n)])) := by
  rw [viewId, h, idAfter, Constants.foldAfter, Constants.after, Constants.after,
    List.foldl_append]
  dsimp only [List.foldl_cons, List.foldl_nil]
  rcases r.constants.fold nesting (.ofNode r.source n) _ with ⟨_ | _, _⟩ <;> rfl

theorem idAfter_eq_ok_iff (r : Reading) (history : List (List String × IdExpr))
    (nesting : List String) (e : IdExpr) (v : Int32) :
    r.idAfter history nesting e = .ok v ↔ r.constants.Denotes nesting e v := by
  have hdenotes : r.constants.foldAfter history nesting e = .ok v ↔
      r.constants.Denotes nesting e v := Constants.foldAfter_eq_ok_iff
  rw [← hdenotes, idAfter]
  cases r.constants.foldAfter history nesting e <;> simp [Except.mapError]

/-- An answer without a value is one of the errors that there can be. -/
theorem exists_idAfter_eq_error (history : List (List String × IdExpr))
    (hno : ∀ v, ¬r.constants.Denotes nesting e v) :
    ∃ err, r.constants.MayStopWith nesting e err ∧
      r.idAfter history nesting e = .error (r.idFinding err) := by
  obtain ⟨err, hresult, hmay, -⟩ := (r.constants.atRest_after history).fold_mayStopWith hno
  exact ⟨err, hmay, by rw [idAfter, Constants.foldAfter, hresult]; rfl⟩

/-- Unless a view id leads into a cycle, there is one answer only. -/
theorem idAfter_eq_idAfter_nil (history : List (List String × IdExpr))
    (hno : ∀ c d place, ¬r.constants.LeadsInto nesting e c d place) :
    r.idAfter history nesting e = r.idAfter [] nesting e := by
  by_cases hv : ∃ v, r.constants.Denotes nesting e v
  · obtain ⟨v, hv⟩ := hv
    rw [(r.idAfter_eq_ok_iff history nesting e v).mpr hv,
      (r.idAfter_eq_ok_iff [] nesting e v).mpr hv]
  · obtain ⟨err, hmay, herr⟩ := exists_idAfter_eq_error history (not_exists.mp hv)
    obtain ⟨err', hmay', herr'⟩ := exists_idAfter_eq_error [] (not_exists.mp hv)
    rw [herr, herr', hmay.unique hmay' hno]

/-- The findings on a view id that leads into a cycle are those on the references of the cycle. -/
theorem exists_idAfter_eq_error_iff {c d : ConstantName} {place : Extent}
    (h : r.constants.LeadsInto nesting e c d place) (x : Finding) :
    (∃ history, r.idAfter history nesting e = .error x) ↔
      ∃ c' d' place', ReflTransGen r.constants.Waits c c' ∧ r.constants.WaitsFor c' d' place' ∧
        x = r.idFinding (.notConstant place') := by
  constructor
  · rintro ⟨history, hx⟩
    have hno : ∀ v, ¬r.constants.Denotes nesting e v := by
      obtain ⟨start, inner, hstop, -⟩ := h
      exact hstop.not_denotes
    obtain ⟨err, hmay, herr⟩ := exists_idAfter_eq_error history hno
    obtain ⟨c', d', place', hreach, hwaits, rfl⟩ := hmay.exists_waitsFor h
    exact ⟨c', d', place', hreach, hwaits, Except.error.inj (hx.symm.trans herr)⟩
  · rintro ⟨c', d', place', hreach, hwaits, rfl⟩
    obtain ⟨history, hresult⟩ := (h.of_reaches hreach hwaits).exists_history
    exact ⟨history, by rw [idAfter, hresult]; rfl⟩

/-- **What was folded before shows in the place of a cycle only.** Whatever view ids have been
folded before, a view id has the same value, and if it has none, the same problem. The whole answer
is the same, with the place and the text that is quoted, unless the view id leads into a cycle of
constants; and then the references of this one cycle, and no other places, are blamed, each of them
after some history. -/
theorem idAfter_depends_on_cycle (r : Reading) (nesting : List String) (e : IdExpr) :
    (∀ history v, r.idAfter history nesting e = .ok v ↔ r.idAfter [] nesting e = .ok v) ∧
    (∀ history x, r.idAfter history nesting e = .error x →
      ∃ y, r.idAfter [] nesting e = .error y ∧ y.problem = x.problem) ∧
    ((∀ c d place, ¬r.constants.LeadsInto nesting e c d place) →
      ∀ history, r.idAfter history nesting e = r.idAfter [] nesting e) ∧
    ∀ c d place, r.constants.LeadsInto nesting e c d place → ∀ x,
      (∃ history, r.idAfter history nesting e = .error x) ↔
        ∃ c' d' place', ReflTransGen r.constants.Waits c c' ∧
          r.constants.WaitsFor c' d' place' ∧ x = r.idFinding (.notConstant place') := by
  have hvalue (history : List (List String × IdExpr)) (v : Int32) :
      r.idAfter history nesting e = .ok v ↔ r.idAfter [] nesting e = .ok v := by
    rw [idAfter_eq_ok_iff, idAfter_eq_ok_iff]
  refine ⟨hvalue, fun history x hx => ?_, fun hno history => idAfter_eq_idAfter_nil history hno,
    fun c d place h => exists_idAfter_eq_error_iff h⟩
  by_cases hcycle : ∃ c d place, r.constants.LeadsInto nesting e c d place
  · obtain ⟨c, d, place, hcycle⟩ := hcycle
    have hiff := exists_idAfter_eq_error_iff hcycle
    obtain ⟨_, _, place', -, -, rfl⟩ := (hiff x).mp ⟨history, hx⟩
    cases hfresh : r.idAfter [] nesting e with
    | ok v => cases hx.symm.trans ((hvalue history v).mpr hfresh)
    | error y =>
      obtain ⟨_, _, place'', -, -, rfl⟩ := (hiff y).mp ⟨[], hfresh⟩
      exact ⟨_, rfl, rfl⟩
  · have hno : ∀ c d place, ¬r.constants.LeadsInto nesting e c d place :=
      fun c d place h => hcycle ⟨c, d, place, h⟩
    exact ⟨x, (idAfter_eq_idAfter_nil history hno).symm.trans hx, rfl⟩

/-- A cycle of two constants: the reference in `Y` is blamed for a view id that names `Y`. -/
theorem idAfter_depends_on_cycle_two :
    let source := "class A \x7b static final int X = Y + 0; static final int Y = X + 0;\n"
      ++ "@BindView(X) View a; @BindView(Y) View b; \x7d\n"
    let r := ofTree 0 source (.ofText source)
    let y := IdExpr.name "Y" ⟨97, 98⟩
    r.constants.LeadsInto ["A"] y ⟨["A"], "X"⟩ ⟨["A"], "Y"⟩ ⟨31, 32⟩ ∧
      ∃ history, r.idAfter history ["A"] y = .error (r.idFinding (.notConstant ⟨59, 60⟩)) := by
  intro source r y
  obtain ⟨hx, hy, hnameX, hnameY⟩ :
      r.constants.initializer? ⟨["A"], "X"⟩ = some (.binary "+" (.name "Y" ⟨31, 32⟩)
        (.literal .decimal "0" ⟨35, 36⟩) ⟨31, 36⟩) ∧
      r.constants.initializer? ⟨["A"], "Y"⟩ = some (.binary "+" (.name "X" ⟨59, 60⟩)
        (.literal .decimal "0" ⟨63, 64⟩) ⟨59, 64⟩) ∧
      r.constants.resolve? ["A"] "X" = some ⟨["A"], "X"⟩ ∧
      r.constants.resolve? ["A"] "Y" = some ⟨["A"], "Y"⟩ := by decide +kernel
  have hxy : r.constants.DependsOn ⟨["A"], "X"⟩ ⟨["A"], "Y"⟩ :=
    ⟨_, hx, by simp [Constants.references, hnameY]⟩
  have hyx : r.constants.DependsOn ⟨["A"], "Y"⟩ ⟨["A"], "X"⟩ :=
    ⟨_, hy, by simp [Constants.references, hnameX]⟩
  have hnoX := Constants.not_defines_of_cycle (.tail (.single hxy) hyx)
  have hnoY := Constants.not_defines_of_cycle (.tail (.single hyx) hxy)
  have hwaitsX : r.constants.WaitsFor ⟨["A"], "X"⟩ ⟨["A"], "Y"⟩ ⟨31, 32⟩ :=
    ⟨_, hx, .left (.name hnameY hnoY)⟩
  have hwaitsY : r.constants.WaitsFor ⟨["A"], "Y"⟩ ⟨["A"], "X"⟩ ⟨59, 60⟩ :=
    ⟨_, hy, .left (.name hnameX hnoX)⟩
  have hleads : r.constants.LeadsInto ["A"] y ⟨["A"], "X"⟩ ⟨["A"], "Y"⟩ ⟨31, 32⟩ :=
    ⟨_, _, .name hnameY hnoY, .single hwaitsY.waits, hwaitsX, .single hwaitsY.waits⟩
  obtain ⟨-, -, -, hblamed⟩ := idAfter_depends_on_cycle r ["A"] y
  exact ⟨hleads, (hblamed _ _ _ hleads _).mpr ⟨_, _, _, .single hwaitsX.waits, hwaitsY, rfl⟩⟩

/-- **In a cycle the place that is blamed depends on what was folded before.** In a text with a
view id that names `X` and one that names `Y`, the reference in `Y` is blamed for both; without the
first, the reference in `X` is blamed for the second. -/
theorem exists_idAfter_ne :
    let source := "class A \x7b static final int X = Y + 0; static final int Y = X + 0;\n"
      ++ "@BindView(X) View a; @BindView(Y) View b; \x7d\n"
    let r := ofTree 0 source (.ofText source)
    let x := IdExpr.name "X" ⟨76, 77⟩
    let y := IdExpr.name "Y" ⟨97, 98⟩
    (bindings 0 source).report.map Finding.place = [some ⟨0, ⟨59, 60⟩⟩, some ⟨0, ⟨59, 60⟩⟩] ∧
      r.idAfter [(["A"], x)] ["A"] y ≠ r.idAfter [] ["A"] y := by
  intro source r x y
  let blamed : Except Finding Int32 → Option Place
    | .ok _ => none
    | .error finding => finding.place
  obtain ⟨hreport, hafter, hfresh⟩ :
      (bindings 0 source).report.map Finding.place =
          [some ⟨0, ⟨59, 60⟩⟩, some ⟨0, ⟨59, 60⟩⟩] ∧
        blamed (r.idAfter [(["A"], x)] ["A"] y) = some ⟨0, ⟨59, 60⟩⟩ ∧
        blamed (r.idAfter [] ["A"] y) = some ⟨0, ⟨31, 32⟩⟩ := by decide +kernel
  refine ⟨hreport, fun h => ?_⟩
  rw [h, hfresh] at hafter
  exact absurd hafter (by decide)

end Reading

end ViewBinding.Java
