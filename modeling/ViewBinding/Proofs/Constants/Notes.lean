import Mathlib.Data.Finset.Card
import Mathlib.Data.Finset.Dedup
import ViewBinding.Java.Constants

/-!
# The notes taken while constants are folded

Folding an expression only ever adds to the notes: what is known of a constant stays as it is, and
what comes to be known of another one is settled by the time the expression is folded
(`ViewBinding.Java.Constants.Extends`). In between a constant may be begun, but then it is one of
those that folding has not come back from.

Every constant that folding goes into is noted first, so the constants without a note
(`ViewBinding.Java.Constants.unnoted`) bound how deeply folding nests. That is why a budget of one
more than the number of constants is never spent: any larger budget comes to the same
(`ViewBinding.Java.Constants.foldWith_budget`).
-/

namespace ViewBinding.Java.Constants

open Text

variable {table : Constants} {scope : List String} {notes notes' notes'' : Notes}

/-! ### Reading notes -/

@[simp] theorem noteOn?_nil (c : ConstantName) : noteOn? [] c = none := rfl

theorem noteOn?_cons (c d : ConstantName) (note : Note) (notes : Notes) :
    noteOn? ((c, note) :: notes) d = if c = d then some note else noteOn? notes d := by
  by_cases h : c = d <;> simp [noteOn?, h]

/-- A new note is read back, and the notes on other constants stay. -/
theorem noteOn?_noted (notes : Notes) (c d : ConstantName) (note : Note) :
    noteOn? (noted notes c note) d = if c = d then some note else noteOn? notes d := by
  rw [noted, noteOn?_cons]
  by_cases h : c = d
  · rw [if_pos h, if_pos h]
  · rw [if_neg h, if_neg h]
    -- what is filtered out is not what is looked for
    rw [noteOn?, noteOn?, List.find?_filter]
    congr 2
    funext entry
    by_cases hd : entry.1 = d
    · simp [hd, Ne.symm h]
    · simp [hd]

@[simp] theorem noteOn?_noted_self (notes : Notes) (c : ConstantName) (note : Note) :
    noteOn? (noted notes c note) c = some note := by
  rw [noteOn?_noted, if_pos rfl]

theorem noteOn?_noted_of_ne {c d : ConstantName} (h : c ≠ d) (notes : Notes) (note : Note) :
    noteOn? (noted notes c note) d = noteOn? notes d := by
  rw [noteOn?_noted, if_neg h]

/-! ### Growing notes -/

/-- **Notes that go on from others**: every note is kept, and every new one is settled. -/
structure Extends (notes notes' : Notes) : Prop where
  kept : ∀ {c note}, noteOn? notes c = some note → noteOn? notes' c = some note
  settled : ∀ {c}, noteOn? notes c = none → noteOn? notes' c ≠ some .begun

theorem Extends.refl (notes : Notes) : Extends notes notes :=
  ⟨id, fun h => by rw [h]; simp⟩

theorem Extends.trans (h : Extends notes notes') (h' : Extends notes' notes'') :
    Extends notes notes'' := by
  refine ⟨fun hn => h'.kept (h.kept hn), fun {c} hn => ?_⟩
  cases hc : noteOn? notes' c with
  | none => exact h'.settled hc
  | some note =>
    rw [h'.kept hc, ← hc]
    exact h.settled hn

/-- No constant is begun anew. -/
theorem Extends.begun_iff (h : Extends notes notes') {c : ConstantName} :
    noteOn? notes' c = some .begun ↔ noteOn? notes c = some .begun := by
  refine ⟨fun hc => ?_, h.kept⟩
  cases hn : noteOn? notes c with
  | none => exact absurd hc (h.settled hn)
  | some note => rw [← h.kept hn, hc]

/-- What folding a constant leaves: it is begun, its initializer is folded, and it is settled. -/
theorem Extends.of_noted {c : ConstantName} {r : Folded} (hc : noteOn? notes c = none)
    (h : Extends (noted notes c .begun) notes') : Extends notes (noted notes' c (.settled r)) := by
  constructor
  · intro d note hd
    have hne : c ≠ d := fun hcd => by rw [hcd, hd] at hc; cases hc
    rw [noteOn?_noted_of_ne hne]
    exact h.kept (by rwa [noteOn?_noted_of_ne hne])
  · intro d hd
    by_cases hcd : c = d
    · subst hcd
      simp
    · rw [noteOn?_noted_of_ne hcd]
      exact h.settled (by rwa [noteOn?_noted_of_ne hcd])

/-! ### Folding extends the notes -/

section Rel

variable {σ : Type} {R : σ → σ → Prop} {constant : ConstantName → Extent → σ → Folded × σ}
  {state : σ}

theorem andThen_rel (htrans : ∀ {a b c}, R a b → R b c → R a c) {out : Folded × σ}
    {next : Int32 → σ → Folded × σ} (h : R state out.2)
    (hnext : ∀ v state', R state' (next v state').2) : R state (andThen out next).2 := by
  obtain ⟨r, state'⟩ := out
  cases r with
  | ok v => exact htrans h (hnext v state')
  | error _ => exact h

theorem foldReference_rel (hrefl : ∀ state, R state state)
    (hc : ∀ c place state, R state (constant c place state).2) (name? : Option ConstantName)
    (place : Extent) : R state (foldReference constant name? place state).2 := by
  cases name? with
  | none => exact hrefl state
  | some c => exact hc c place state

/-- What holds between what is known before and after every constant holds of a whole
expression. -/
theorem foldWith_rel (hrefl : ∀ state, R state state)
    (htrans : ∀ {a b c}, R a b → R b c → R a c)
    (hc : ∀ c place state, R state (constant c place state).2) (e : IdExpr) (state : σ) :
    R state (foldWith table constant scope e state).2 := by
  induction e generalizing state with
  | literal | other => exact hrefl state
  | group _ _ ih => exact ih state
  | unary _ _ _ ih =>
    unfold foldWith
    split
    · exact hrefl state
    · exact andThen_rel (R := R) htrans (ih state) fun _ => hrefl
  | binary _ _ _ _ ihl ihr =>
    exact andThen_rel (R := R) htrans (ihl state) fun _ state' =>
      andThen_rel (R := R) htrans (ihr state') fun _ => hrefl
  | name | select => exact foldReference_rel hrefl hc _ _

end Rel

/-- **Folding a constant extends the notes**, whatever the budget is. -/
theorem foldConstant_extends (budget : Nat) (c : ConstantName) (place : Extent) (notes : Notes) :
    Extends notes (foldConstant table budget c place notes).2 := by
  induction budget generalizing c place notes with
  | zero => exact .refl notes
  | succ budget ih =>
    unfold foldConstant
    split
    · exact .refl notes
    · exact .refl notes
    · rename_i hnote
      split
      · exact .refl notes
      · exact .of_noted hnote (foldWith_rel .refl .trans ih _ _)

/-- **Folding an expression extends the notes.** -/
theorem foldWith_extends (budget : Nat) (e : IdExpr) (notes : Notes) :
    Extends notes (foldWith table (foldConstant table budget) scope e notes).2 :=
  foldWith_rel .refl .trans (foldConstant_extends budget) e notes

/-! ### The budget -/

theorem initializer?_mem {c : ConstantName} {e : IdExpr} (h : table.initializer? c = some e) :
    (c, e) ∈ table.initializers := by
  obtain ⟨entry, hentry, rfl⟩ := Option.map_eq_some_iff.mp h
  have hname : entry.1 = c := by simpa using List.find?_some hentry
  exact hname ▸ List.mem_of_find?_eq_some hentry

/-- The number of constants on which there is no note yet. -/
def unnoted (table : Constants) (notes : Notes) : Nat :=
  ((table.initializers.map Prod.fst).toFinset.filter fun c => (noteOn? notes c).isNone).card

theorem unnoted_le_length (notes : Notes) :
    table.unnoted notes ≤ table.initializers.length := by
  calc table.unnoted notes
      ≤ (table.initializers.map Prod.fst).toFinset.card := Finset.card_filter_le _ _
    _ ≤ (table.initializers.map Prod.fst).length := List.toFinset_card_le _
    _ = table.initializers.length := List.length_map _

theorem Extends.unnoted_le (h : Extends notes notes') :
    table.unnoted notes' ≤ table.unnoted notes := by
  refine Finset.card_le_card (Finset.monotone_filter_right _ fun c _ hc => ?_)
  cases hn : noteOn? notes c with
  | none => rfl
  | some note => rw [h.kept hn] at hc; cases hc

/-- A constant that is noted for the first time leaves fewer without a note. -/
theorem unnoted_noted_lt {c : ConstantName} {e : IdExpr} (hc : noteOn? notes c = none)
    (he : table.initializer? c = some e) (note : Note) :
    table.unnoted (noted notes c note) < table.unnoted notes := by
  refine Finset.card_lt_card (Finset.ssubset_iff_of_subset ?_ |>.mpr ⟨c, ?_, ?_⟩)
  · refine Finset.monotone_filter_right _ fun d _ hd => ?_
    by_cases hcd : c = d
    · simp [hcd] at hd
    · rwa [noteOn?_noted_of_ne hcd] at hd
  · rw [Finset.mem_filter, List.mem_toFinset, hc]
    exact ⟨List.mem_map_of_mem (initializer?_mem he), rfl⟩
  · simp

theorem foldReference_congr {f g : ConstantName → Extent → Notes → Folded × Notes}
    (h : ∀ c place, f c place notes = g c place notes) (name? : Option ConstantName)
    (place : Extent) : foldReference f name? place notes = foldReference g name? place notes := by
  cases name? with
  | none => rfl
  | some c => exact h c place

/-- Constants that are folded alike with all notes to come make for the same folding. -/
theorem foldWith_congr {f g : ConstantName → Extent → Notes → Folded × Notes}
    (hf : ∀ c place notes, Extends notes (f c place notes).2) (e : IdExpr)
    (h : ∀ c place notes', Extends notes notes' → f c place notes' = g c place notes') :
    foldWith table f scope e notes = foldWith table g scope e notes := by
  induction e generalizing notes with
  | literal | other => rfl
  | group _ _ ih => exact ih h
  | unary _ _ _ ih =>
    unfold foldWith
    rw [ih h]
  | binary operator left right place ihl ihr =>
    have hl : Extends notes (foldWith table f scope left notes).2 :=
      foldWith_rel .refl .trans hf left notes
    unfold foldWith
    rw [← ihl h]
    -- the right operand is folded with the notes that the left one leaves
    revert hl
    rcases foldWith table f scope left notes with ⟨v | _, notes'⟩
    · exact fun _ => rfl
    · intro hl
      simp only [andThen]
      rw [ihr fun c place notes'' hn => h c place notes'' (hl.trans hn)]
  | name | select => exact foldReference_congr (fun c place => h c place notes (.refl notes)) _ _

/-- **The budget is never spent**: two budgets larger than the number of constants without a note
come to the same. -/
theorem foldConstant_budget {n m : Nat} (c : ConstantName) (place : Extent)
    (hn : table.unnoted notes < n) (hm : table.unnoted notes < m) :
    foldConstant table n c place notes = foldConstant table m c place notes := by
  induction n generalizing m c place notes with
  | zero => omega
  | succ n ih =>
    cases m with
    | zero => omega
    | succ m =>
      unfold foldConstant
      split
      · rfl
      · rfl
      · rename_i hnote
        split
        · rfl
        · rename_i e he
          -- both budgets are less by one, and so at least is the number of constants without a note
          have hlt := unnoted_noted_lt hnote he .begun
          rw [foldWith_congr (foldConstant_extends n) e fun d place notes' hext => ?_]
          have hle : table.unnoted notes' ≤ _ := hext.unnoted_le
          exact ih d place (by omega) (by omega)

/-- Any budget larger than the number of constants folds an expression like
`ViewBinding.Java.Constants.fold`. -/
theorem foldWith_budget {n : Nat} (h : table.initializers.length < n) (e : IdExpr)
    (notes : Notes) :
    foldWith table (foldConstant table n) scope e notes = table.fold scope e notes := by
  refine foldWith_congr (foldConstant_extends n) e fun c place notes' _ => ?_
  have hle := table.unnoted_le_length notes'
  exact foldConstant_budget c place (by omega) (by omega)

end ViewBinding.Java.Constants
