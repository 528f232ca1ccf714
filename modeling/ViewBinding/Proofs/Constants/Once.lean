import ViewBinding.Proofs.Constants.Histories

/-!
# Every constant is folded once

The notes do not say how often an initializer has been folded, so this is written down beside them:
a `ViewBinding.Java.Constants.Trace` has the notes and, in turn, the constants whose initializers
folding has gone into. Folding with a trace is folding (`ViewBinding.Java.Constants.traceFold_eq`).

What one constant adds is closed under going on (`ViewBinding.Java.Constants.Trace.Grows`): the
constants gone into are those on which a note has been made meanwhile, each of them once. From this
the whole life of the notes follows, from the empty ones on
(`ViewBinding.Java.Constants.after_folds_once`).
-/

namespace ViewBinding.Java.Constants

open Text

variable {table : Constants} {scope : List String} {notes : Notes}

/-! ### The entries of the notes -/

theorem nodup_keys_noted (h : (notes.map Prod.fst).Nodup) (c : ConstantName) (note : Note) :
    ((noted notes c note).map Prod.fst).Nodup := by
  rw [noted, List.map_cons, List.nodup_cons]
  refine ⟨fun hc => ?_, h.sublist (List.filter_sublist.map _)⟩
  obtain ⟨entry, hentry, heq⟩ := List.mem_map.mp hc
  simpa [heq] using (List.mem_filter.mp hentry).2

/-- Where no constant has two entries, the entries are what is known. -/
theorem mem_iff_noteOn? (h : (notes.map Prod.fst).Nodup) {c : ConstantName} {note : Note} :
    (c, note) ∈ notes ↔ noteOn? notes c = some note := by
  induction notes with
  | nil => simp
  | cons entry notes ih =>
    obtain ⟨d, note'⟩ := entry
    obtain ⟨hd, hnodup⟩ := List.nodup_cons.mp h
    rw [List.mem_cons, ih hnodup, noteOn?_cons]
    by_cases hdc : d = c
    · subst hdc
      have hnone : noteOn? notes d ≠ some note := fun hnote =>
        hd (List.mem_map.mpr ⟨_, (ih hnodup).mpr hnote, rfl⟩)
      simp [hnone, eq_comm]
    · simp [hdc, Ne.symm hdc]

/-! ### Traces -/

/-- The notes, and what has been gone into to come to them. -/
structure Trace where
  notes : Notes
  /-- The constants whose initializers have been folded or are being folded, in turn. -/
  entered : List ConstantName

/-- Folds the constant of that name like `ViewBinding.Java.Constants.foldConstant`, and writes down
when its initializer is gone into. -/
def traceConstant (table : Constants) :
    Nat → ConstantName → Extent → Trace → Folded × Trace
  | 0, _, place, t => (.error (.notConstant place), t)
  | budget + 1, name, place, t =>
    match noteOn? t.notes name with
    | some (.settled result) => (result, t)
    | some .begun => (.error (.notConstant place), t)
    | none =>
      match table.initializer? name with
      | none => (.error (.notConstant place), t)
      | some initializer =>
        let (result, t) :=
          foldWith table (traceConstant table budget) name.owner initializer
            ⟨noted t.notes name .begun, t.entered ++ [name]⟩
        (result, ⟨noted t.notes name (.settled result), t.entered⟩)

/-- Folds an expression inside the type of that nesting, with a trace. -/
def traceFold (table : Constants) (scope : List String) (e : IdExpr) (t : Trace) :
    Folded × Trace :=
  foldWith table (traceConstant table (table.initializers.length + 1)) scope e t

/-- The trace after expressions have been folded one after the other, each inside a type. -/
def traceAfter (table : Constants) (history : List (List String × IdExpr)) : Trace :=
  history.foldl (fun t query => (table.traceFold query.1 query.2 t).2) ⟨[], []⟩

theorem traceAfter_append (history more : List (List String × IdExpr)) :
    table.traceAfter (history ++ more) =
      more.foldl (fun t query => (table.traceFold query.1 query.2 t).2)
        (table.traceAfter history) :=
  List.foldl_append

/-! ### Folding with a trace is folding -/

section Forget

variable {σ τ : Type} {f : σ → τ} {constant : ConstantName → Extent → σ → Folded × σ}
  {constant' : ConstantName → Extent → τ → Folded × τ} {state : σ}

theorem andThen_map {out : Folded × σ} {next : Int32 → σ → Folded × σ}
    {next' : Int32 → τ → Folded × τ}
    (hnext : ∀ v state, (next v state).map id f = next' v (f state)) :
    (andThen out next).map id f = andThen (out.map id f) next' := by
  obtain ⟨r, state⟩ := out
  cases r with
  | ok v => exact hnext v state
  | error _ => rfl

theorem foldReference_map
    (hc : ∀ c place state, (constant c place state).map id f = constant' c place (f state))
    (name? : Option ConstantName) (place : Extent) :
    (foldReference constant name? place state).map id f =
      foldReference constant' name? place (f state) := by
  cases name? with
  | none => rfl
  | some c => exact hc c place state

/-- Constants that are folded alike but for what is forgotten make for the same folding of a whole
expression but for that. -/
theorem foldWith_map
    (hc : ∀ c place state, (constant c place state).map id f = constant' c place (f state))
    (e : IdExpr) (state : σ) :
    (foldWith table constant scope e state).map id f =
      foldWith table constant' scope e (f state) := by
  induction e generalizing state with
  | literal | other => rfl
  | group _ _ ih => exact ih state
  | unary operator operand place ih =>
    unfold foldWith
    split
    · rfl
    · rw [← ih]
      exact andThen_map fun _ _ => rfl
  | binary operator left right place ihl ihr =>
    unfold foldWith
    rw [← ihl]
    refine andThen_map fun v state => ?_
    rw [← ihr]
    exact andThen_map fun _ _ => rfl
  | name | select => exact foldReference_map hc _ _

end Forget

theorem traceConstant_eq (budget : Nat) (c : ConstantName) (place : Extent) (t : Trace) :
    (table.traceConstant budget c place t).map id Trace.notes =
      table.foldConstant budget c place t.notes := by
  induction budget generalizing c place t with
  | zero => rfl
  | succ budget ih =>
    unfold traceConstant foldConstant
    cases hnote : noteOn? t.notes c with
    | some note => cases note <;> rfl
    | none =>
      cases table.initializer? c with
      | none => rfl
      | some initializer =>
        have hinner : (foldWith table (table.traceConstant budget) c.owner initializer
              ⟨noted t.notes c .begun, t.entered ++ [c]⟩).map id Trace.notes =
            foldWith table (table.foldConstant budget) c.owner initializer
              (noted t.notes c .begun) :=
          foldWith_map ih initializer _
        dsimp only
        rw [← hinner]
        rfl

/-- **Folding with a trace is folding**: it comes to the same and takes the same notes. -/
theorem traceFold_eq (table : Constants) (scope : List String) (e : IdExpr) (t : Trace) :
    (table.traceFold scope e t).map id Trace.notes = table.fold scope e t.notes :=
  foldWith_map (traceConstant_eq _) e t

theorem notes_traceAfter (table : Constants) (history : List (List String × IdExpr)) :
    (table.traceAfter history).notes = table.after history := by
  induction history using List.reverseRecOn with
  | nil => rfl
  | append_singleton history query ih =>
    rw [traceAfter_append, after, List.foldl_append]
    have hstep := congrArg Prod.snd (traceFold_eq table query.1 query.2 (table.traceAfter history))
    rw [ih] at hstep
    exact hstep

/-! ### Growing traces -/

namespace Trace

/-- **A trace that goes on from another**: the notes go on, those that are new are on constants
that are declared, and these constants are what has been gone into meanwhile, each of them once. -/
structure Grows (table : Constants) (t t' : Trace) : Prop where
  notes : Extends t.notes t'.notes
  keys : (t.notes.map Prod.fst).Nodup → (t'.notes.map Prod.fst).Nodup
  declared : ∀ c, noteOn? t.notes c = none → noteOn? t'.notes c ≠ none → table.declares c = true
  entered : ∃ new, t'.entered = t.entered ++ new ∧ new.Nodup ∧
    ∀ c, c ∈ new ↔ noteOn? t.notes c = none ∧ noteOn? t'.notes c ≠ none

variable {t t' t'' : Trace}

namespace Grows

theorem refl (t : Trace) : Grows table t t :=
  ⟨.refl _, id, fun _ h h' => absurd h h', [], by simp, .nil, by simp⟩

theorem trans (h : Grows table t t') (h' : Grows table t' t'') : Grows table t t'' := by
  have hkept (c : ConstantName) (hc : noteOn? t'.notes c ≠ none) : noteOn? t''.notes c ≠ none := by
    obtain ⟨note, hnote⟩ := Option.ne_none_iff_exists'.mp hc
    rw [h'.notes.kept hnote]
    exact Option.some_ne_none note
  have hnone (c : ConstantName) (hc : noteOn? t'.notes c = none) : noteOn? t.notes c = none := by
    by_contra hsome
    obtain ⟨note, hnote⟩ := Option.ne_none_iff_exists'.mp hsome
    rw [h.notes.kept hnote] at hc
    cases hc
  obtain ⟨new, hentered, hnodup, hmem⟩ := h.entered
  obtain ⟨new', hentered', hnodup', hmem'⟩ := h'.entered
  refine ⟨h.notes.trans h'.notes, h'.keys ∘ h.keys, fun c hc hc'' => ?_, new ++ new', ?_, ?_, ?_⟩
  · by_cases hc' : noteOn? t'.notes c = none
    · exact h'.declared c hc' hc''
    · exact h.declared c hc hc'
  · rw [hentered', hentered, List.append_assoc]
  · refine List.nodup_append'.mpr ⟨hnodup, hnodup', fun c hc hc' => ?_⟩
    exact ((hmem c).mp hc).2 ((hmem' c).mp hc').1
  · intro c
    rw [List.mem_append, hmem, hmem']
    constructor
    · rintro (⟨hc, hc'⟩ | ⟨hc', hc''⟩)
      · exact ⟨hc, hkept c hc'⟩
      · exact ⟨hnone c hc', hc''⟩
    · rintro ⟨hc, hc''⟩
      by_cases hc' : noteOn? t'.notes c = none
      · exact .inr ⟨hc', hc''⟩
      · exact .inl ⟨hc, hc'⟩

/-- What folding a constant leaves: it is begun and gone into, its initializer is folded, and it is
settled. -/
theorem of_entered {c : ConstantName} {r : Folded} (hc : noteOn? t.notes c = none)
    (hdeclared : table.declares c = true)
    (h : Grows table ⟨noted t.notes c .begun, t.entered ++ [c]⟩ t') :
    Grows table t ⟨noted t'.notes c (.settled r), t'.entered⟩ := by
  obtain ⟨new, hentered, hnodup, hmem⟩ := h.entered
  have hnew (d : ConstantName) (hcd : c ≠ d) :
      d ∈ new ↔ noteOn? t.notes d = none ∧ noteOn? t'.notes d ≠ none := by
    rw [hmem, noteOn?_noted_of_ne hcd]
  refine ⟨.of_noted hc h.notes, fun hkeys => ?_, fun d hd hd' => ?_, c :: new, ?_, ?_, ?_⟩
  · exact nodup_keys_noted (h.keys (nodup_keys_noted hkeys c .begun)) c _
  · by_cases hcd : c = d
    · exact hcd ▸ hdeclared
    · refine h.declared d (by rwa [noteOn?_noted_of_ne hcd]) ?_
      rwa [noteOn?_noted_of_ne hcd] at hd'
  · rw [hentered, List.append_assoc]
    rfl
  · -- a constant that is begun is not gone into again
    refine List.nodup_cons.mpr ⟨fun hcnew => ?_, hnodup⟩
    have hbegun := ((hmem c).mp hcnew).1
    rw [noteOn?_noted_self] at hbegun
    cases hbegun
  · intro d
    rw [List.mem_cons]
    by_cases hcd : c = d
    · subst hcd
      simp [hc]
    · rw [hnew d hcd, noteOn?_noted_of_ne hcd]
      simp [Ne.symm hcd]

end Grows

end Trace

open Trace

/-- **Folding a constant makes the trace grow**, whatever the budget is. -/
theorem traceConstant_grows (budget : Nat) (c : ConstantName) (place : Extent) (t : Trace) :
    Grows table t (table.traceConstant budget c place t).2 := by
  induction budget generalizing c place t with
  | zero => exact .refl t
  | succ budget ih =>
    unfold traceConstant
    split
    · exact .refl t
    · exact .refl t
    · rename_i hnote
      split
      · exact .refl t
      · rename_i initializer hinitializer
        have hdeclared : table.declares c = true :=
          Option.isSome_iff_exists.mpr ⟨initializer, hinitializer⟩
        exact .of_entered hnote hdeclared (foldWith_rel .refl .trans ih _ _)

theorem traceFold_grows (scope : List String) (e : IdExpr) (t : Trace) :
    Grows table t (table.traceFold scope e t).2 :=
  foldWith_rel .refl .trans (traceConstant_grows _) e t

/-- What is folded later makes the trace grow. -/
theorem traceAfter_grows (history more : List (List String × IdExpr)) :
    Grows table (table.traceAfter history) (table.traceAfter (history ++ more)) := by
  rw [traceAfter_append]
  induction more generalizing history with
  | nil => exact .refl _
  | cons query more ih =>
    have hrest := ih (history ++ [query])
    rw [traceAfter_append] at hrest
    exact (traceFold_grows query.1 query.2 _).trans hrest

/-! ### The whole life of the notes -/

theorem traceAfter_grows_nil (table : Constants) (history : List (List String × IdExpr)) :
    Grows table ⟨[], []⟩ (table.traceAfter history) :=
  traceAfter_grows [] history

/-- No constant has two entries. -/
theorem nodup_keys_after (table : Constants) (history : List (List String × IdExpr)) :
    ((table.after history).map Prod.fst).Nodup := by
  rw [← notes_traceAfter]
  exact (traceAfter_grows_nil table history).keys List.nodup_nil

theorem mem_after_iff {history : List (List String × IdExpr)} {c : ConstantName} {note : Note} :
    (c, note) ∈ table.after history ↔ noteOn? (table.after history) c = some note :=
  mem_iff_noteOn? (nodup_keys_after table history)

theorem mem_keys_after_iff {history : List (List String × IdExpr)} {c : ConstantName} :
    c ∈ (table.after history).map Prod.fst ↔ noteOn? (table.after history) c ≠ none := by
  rw [List.mem_map, Option.ne_none_iff_exists']
  simp only [← mem_after_iff, Prod.exists, exists_and_right, exists_eq_right]

/-- What is noted is settled, and stays. -/
theorem settled_of_mem_after {history : List (List String × IdExpr)} {c : ConstantName}
    {note : Note} (h : (c, note) ∈ table.after history) :
    (∃ result, note = .settled result) ∧ table.declares c = true ∧
      ∀ more, (c, note) ∈ table.after (history ++ more) := by
  have hnote := mem_after_iff.mp h
  refine ⟨?_, ?_, fun more => ?_⟩
  · cases note with
    | begun => exact absurd hnote ((table.atRest_after history).noneBegun c)
    | settled result => exact ⟨result, rfl⟩
  · refine (traceAfter_grows_nil table history).declared c rfl ?_
    rw [notes_traceAfter]
    exact mem_keys_after_iff.mp (List.mem_map_of_mem h)
  · rw [mem_after_iff, ← notes_traceAfter]
    exact (traceAfter_grows history more).notes.kept (by rwa [notes_traceAfter])

/-- What has been gone into is what has an entry, each constant once. -/
theorem entered_traceAfter (table : Constants) (history : List (List String × IdExpr)) :
    (table.traceAfter history).entered.Nodup ∧
    ∀ c, c ∈ (table.traceAfter history).entered ↔ c ∈ (table.after history).map Prod.fst := by
  obtain ⟨new, hentered, hnodup, hmem⟩ := (traceAfter_grows_nil table history).entered
  rw [hentered, List.nil_append]
  refine ⟨hnodup, fun c => ?_⟩
  rw [mem_keys_after_iff, ← notes_traceAfter]
  exact (hmem c).trans ⟨And.right, fun hc => ⟨rfl, hc⟩⟩

/-- **Between two expressions nothing is left begun, what is noted stays, and every constant is
folded once.** Whatever was folded, every entry of the notes is the only one on its constant, is
settled, and is on a constant that is declared, and whatever is folded later leaves it as it is. And
what is folded is noted as well in the order in which folding comes to the initializers: those of
the constants with an entry have been folded once each, and no others. -/
theorem after_folds_once (table : Constants) (history : List (List String × IdExpr)) :
    (∀ scope e, (table.traceFold scope e (table.traceAfter history)).1 =
      table.foldAfter history scope e) ∧
    (table.traceAfter history).notes = table.after history ∧
    ((table.after history).map Prod.fst).Nodup ∧
    (∀ c note, (c, note) ∈ table.after history →
      (∃ result, note = .settled result) ∧ table.declares c = true ∧
      ∀ more, (c, note) ∈ table.after (history ++ more)) ∧
    (table.traceAfter history).entered.Nodup ∧
    (∀ c, c ∈ (table.traceAfter history).entered ↔ c ∈ (table.after history).map Prod.fst) ∧
    ∀ more,
      (table.traceAfter history).entered <+: (table.traceAfter (history ++ more)).entered := by
  obtain ⟨hnodup, hmem⟩ := entered_traceAfter table history
  refine ⟨fun scope e => ?_, notes_traceAfter table history, nodup_keys_after table history,
    fun c note => settled_of_mem_after, hnodup, hmem, fun more => ?_⟩
  · rw [foldAfter, ← notes_traceAfter, ← traceFold_eq]
    rfl
  · obtain ⟨new, hentered, -, -⟩ := (traceAfter_grows history more).entered
    exact ⟨new, hentered.symm⟩

/-- Two references to one constant, in each of two constants: three initializers are folded. -/
example :
    let name (text : String) : IdExpr := .name text ⟨0, 0⟩
    let double (text : String) : IdExpr := .binary "+" (name text) (name text) ⟨0, 0⟩
    let table : Constants := ⟨"", [(⟨["A"], "C"⟩, double "B"), (⟨["A"], "B"⟩, double "A"),
      (⟨["A"], "A"⟩, .literal .decimal "1" ⟨0, 0⟩)], [["A"]]⟩
    (table.traceAfter [(["A"], double "C"), (["A"], name "B")]).entered =
      [⟨["A"], "C"⟩, ⟨["A"], "B"⟩, ⟨["A"], "A"⟩] := by decide +kernel

end ViewBinding.Java.Constants
