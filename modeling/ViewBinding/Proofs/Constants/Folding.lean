import ViewBinding.Proofs.Constants.Meaning
import ViewBinding.Proofs.Constants.Notes

/-!
# Folding finds the meaning

`ViewBinding.Java.Constants.fold` unfolds a constant once, keeps what it has found in its notes,
and takes a constant that it meets again before it is done with it for one without a value. None of
this shows: whatever was folded before, an expression is folded to `v` exactly if it denotes `v`
in the sense of `ViewBinding.Java.Constants.Denotes`, which knows neither notes nor cycles
(`ViewBinding.Java.Constants.inTurn_fold_iff_denotes`).

The doubtful case is an error that is noted in the middle of a cycle and found again later by
another way. Two invariants settle it. What is noted as settled is right
(`ViewBinding.Java.Constants.Sound`), and whatever is being folded is something that every begun
constant depends on (`ViewBinding.Java.Constants.Underlies`). So a constant that is met while it is
begun depends on itself and has no value, and neither has anything that needs it.
-/

namespace ViewBinding.Java.Constants

open Text

variable {table : Constants} {scope : List String} {notes : Notes}

/-! ### The two invariants -/

/-- **Right notes**: a settled constant has the value that is noted, and none if an error is
noted. -/
def Sound (table : Constants) (notes : Notes) : Prop :=
  ∀ c r, noteOn? notes c = some (.settled r) → ∀ v, r = .ok v ↔ table.Defines c v

theorem sound_nil : table.Sound [] :=
  fun _ _ h => absurd h (by simp)

/-- A constant may be noted as begun. -/
theorem Sound.begin (h : table.Sound notes) (c : ConstantName) :
    table.Sound (noted notes c .begun) := by
  intro d r hd
  rw [noteOn?_noted] at hd
  split at hd
  · cases hd
  · exact h d r hd

/-- A constant may be noted as settled with the right result. -/
theorem Sound.settle (h : table.Sound notes) {c : ConstantName} {r : Folded}
    (hr : ∀ v, r = .ok v ↔ table.Defines c v) : table.Sound (noted notes c (.settled r)) := by
  intro d r' hd
  rw [noteOn?_noted] at hd
  split at hd
  · rename_i hcd
    cases hd
    exact hcd ▸ hr
  · exact h d r' hd

/-- **What is folded right now**: every constant that is begun depends on the constant `c`. -/
def Underlies (table : Constants) (notes : Notes) (c : ConstantName) : Prop :=
  ∀ b, noteOn? notes b = some .begun → Relation.TransGen table.DependsOn b c

/-- Folding something else on the way changes nothing about it. -/
theorem Underlies.extends {notes' : Notes} {c : ConstantName} (h : table.Underlies notes c)
    (hext : Extends notes notes') : table.Underlies notes' c :=
  fun b hb => h b (hext.begun_iff.mp hb)

/-- What the initializer of a constant names underlies the notes in which it is begun. -/
theorem Underlies.enter {c d : ConstantName} (h : table.Underlies notes c)
    (hd : table.DependsOn c d) : table.Underlies (noted notes c .begun) d := by
  intro b hb
  rw [noteOn?_noted] at hb
  split at hb
  · rename_i hcb
    exact hcb ▸ .single hd
  · exact (h b hb).tail hd

/-! ### Unary operators -/

/-- What is read together with the minus in front of it. -/
theorem foldWith_negated (constant : ConstantName → Extent → Notes → Folded × Notes) (text : String)
    (inner place : Extent) :
    foldWith table constant scope (.unary "-" (.literal .decimal text inner) place) notes =
      (literalValue .decimal text true place, notes) := by
  simp only [foldWith]

theorem foldWith_unary (constant : ConstantName → Extent → Notes → Folded × Notes)
    {operator : String} {operand : IdExpr} (place : Extent)
    (h : operator = "-" → ∀ text inner, operand ≠ .literal .decimal text inner) :
    foldWith table constant scope (.unary operator operand place) notes =
      andThen (foldWith table constant scope operand notes) fun v notes =>
        (orNotConstant place (unaryValue? operator v), notes) := by
  conv_lhs => unfold foldWith
  split
  · exact absurd rfl (h rfl _ _)
  · rfl

/-! ### One expression -/

/-- A result and the notes after it, if `meaning` is what was to be found. -/
structure Finds (table : Constants) (meaning : Int32 → Prop) (out : Folded × Notes) : Prop where
  /-- The value is found, and nothing else. -/
  value_iff : ∀ v, out.1 = .ok v ↔ meaning v
  sound : table.Sound out.2

/-- Nothing is found where there is nothing. -/
theorem Finds.error {meaning : Int32 → Prop} (e : FoldError) (hm : ∀ v, ¬meaning v)
    (h : table.Sound notes) : table.Finds meaning (.error e, notes) :=
  ⟨fun v => iff_of_false nofun (hm v), h⟩

/-- The same is found where the same is to be found. -/
theorem Finds.congr {p q : Int32 → Prop} {out : Folded × Notes} (h : table.Finds p out)
    (hpq : ∀ v, p v ↔ q v) : table.Finds q out :=
  ⟨fun v => (h.value_iff v).trans (hpq v), h.sound⟩

theorem literalValue_eq_ok_iff {kind : Literal} {text : String} {negated : Bool} {place : Extent}
    {v : Int32} : literalValue kind text negated place = .ok v ↔
      IntLiteral.read kind text negated = .value v := by
  unfold literalValue
  split <;> simp_all

/-- An operator gives its value and takes no notes. -/
theorem Finds.orNotConstant (place : Extent) (v? : Option Int32) (h : table.Sound notes) :
    table.Finds (fun v => v? = some v) (orNotConstant place v?, notes) := by
  refine ⟨fun v => ?_, h⟩
  cases v? <;> simp [Constants.orNotConstant]

/-- What is found after a first value depends on that value. -/
theorem Finds.andThen {p : Int32 → Prop} {q : Int32 → Int32 → Prop} {out : Folded × Notes}
    {next : Int32 → Notes → Folded × Notes} (h : table.Finds p out)
    (hnext : ∀ v, table.Finds (q v) (next v out.2)) :
    table.Finds (fun w => ∃ v, p v ∧ q v w) (andThen out next) := by
  obtain ⟨r, notes'⟩ := out
  cases r with
  | ok v =>
    refine (hnext v).congr fun w => ⟨fun hw => ⟨v, (h.value_iff v).mp rfl, hw⟩, ?_⟩
    rintro ⟨v', hv', hw⟩
    obtain rfl := Except.ok.inj ((h.value_iff v').mpr hv')
    exact hw
  | error e => exact .error e (fun _ ⟨v, hv, _⟩ => nomatch (h.value_iff v).mpr hv) h.sound

/-- What is found at a name is what is found of the constant that it stands for. -/
theorem Finds.foldReference {constant : ConstantName → Extent → Notes → Folded × Notes}
    {name? : Option ConstantName} {place : Extent} (hs : table.Sound notes)
    (hc : ∀ c, name? = some c → table.Finds (table.Defines c) (constant c place notes)) :
    table.Finds (fun v => ∃ c, name? = some c ∧ table.Defines c v)
      (foldReference constant name? place notes) := by
  cases name? with
  | none => exact .error _ (fun _ ⟨_, hc', _⟩ => nomatch hc') hs
  | some c =>
    refine (hc c rfl).congr fun v => ⟨fun hv => ⟨c, rfl, hv⟩, ?_⟩
    rintro ⟨c', hc', hv⟩
    exact Option.some.inj hc' ▸ hv

/-- **An expression is folded to its meaning**, if the constants in it are. Those need only be
folded rightly while fewer than `budget` constants are without a note, and where they underlie what
is begun. -/
theorem foldWith_finds {budget : Nat}
    (ih : ∀ c place notes, table.Sound notes → table.unnoted notes < budget →
      table.Underlies notes c →
      table.Finds (table.Defines c) (foldConstant table budget c place notes))
    (e : IdExpr) (hs : table.Sound notes) (hb : table.unnoted notes < budget)
    (hu : ∀ d ∈ table.references scope e, table.Underlies notes d) :
    table.Finds (table.Denotes scope e)
      (foldWith table (foldConstant table budget) scope e notes) := by
  induction e generalizing notes with
  | literal =>
    exact ⟨fun v => literalValue_eq_ok_iff.trans denotes_literal_iff.symm, hs⟩
  | group _ _ ihe => exact (ihe hs hb hu).congr fun v => denotes_group_iff.symm
  | unary operator operand place ihe =>
    unfold foldWith
    split
    · exact ⟨fun v => literalValue_eq_ok_iff.trans denotes_negated_iff.symm, hs⟩
    · rename_i hn
      have h := ihe hs hb hu
      refine (h.andThen fun v => .orNotConstant place _ h.sound).congr fun w => ?_
      exact (denotes_unary_iff fun ⟨text, inner, ho, he⟩ => hn text inner ho he).symm
  | binary operator left right place ihl ihr =>
    have hl := ihl hs hb fun d hd => hu d (List.mem_append_left _ hd)
    have hext : Extends notes (foldWith table (foldConstant table budget) scope left notes).2 :=
      foldWith_extends budget left notes
    -- the left operand leaves nothing begun, so what underlay the notes before still does
    have hr := ihr hl.sound (lt_of_le_of_lt hext.unnoted_le hb)
      fun d hd => (hu d (List.mem_append_right _ hd)).extends hext
    unfold foldWith
    refine (hl.andThen fun v => hr.andThen fun w => .orNotConstant place _ hr.sound).congr
      fun x => ?_
    rw [denotes_binary_iff]
    exact ⟨fun ⟨v, hv, w, hw, ho⟩ => ⟨v, w, hv, hw, ho⟩,
      fun ⟨v, w, hv, hw, ho⟩ => ⟨v, hv, w, hw, ho⟩⟩
  | name name place =>
    refine (Finds.foldReference hs fun c hc => ?_).congr fun v => denotes_name_iff.symm
    exact ih c place notes hs hb (hu c (by simp [references, hc]))
  | select object name place =>
    refine (Finds.foldReference hs fun c hc => ?_).congr fun v => denotes_select_iff.symm
    exact ih c place notes hs hb (hu c (by simp [references, hc]))
  | other => exact .error _ (fun v => not_denotes_other) hs

/-! ### One constant -/

/-- **A constant is folded to its value**, if it underlies what is begun. -/
theorem foldConstant_finds (budget : Nat) (c : ConstantName) (place : Extent)
    (hs : table.Sound notes) (hb : table.unnoted notes < budget) (hu : table.Underlies notes c) :
    table.Finds (table.Defines c) (foldConstant table budget c place notes) := by
  induction budget generalizing c place notes with
  | zero => omega
  | succ budget ih =>
    unfold foldConstant
    split
    · -- the constant is settled already, and the notes are right
      rename_i r hr
      exact ⟨hs c r hr, hs⟩
    · -- the constant is begun, and it underlies all that are: it is on a cycle
      rename_i hr
      exact .error _ (not_defines_of_cycle (hu c hr)) hs
    · rename_i hnote
      split
      · rename_i he
        refine .error _ (fun v hv => ?_) hs
        obtain ⟨e, he', -⟩ := hv
        cases he.symm.trans he'
      · rename_i e he
        -- the constant is begun, and whatever its initializer names is below it
        have hlt := unnoted_noted_lt hnote he .begun
        have h := foldWith_finds (fun d place notes => ih d place) e (hs.begin c) (by omega)
          fun d hd => hu.enter ⟨e, he, hd⟩
        have hmeaning (v : Int32) : table.Denotes c.owner e v ↔ table.Defines c v := by
          refine ⟨fun hv => ⟨e, he, hv⟩, ?_⟩
          rintro ⟨e', he', hv⟩
          rwa [Option.some.inj (he'.symm.trans he)] at hv
        have hvalue := h.congr hmeaning
        exact ⟨hvalue.value_iff, h.sound.settle hvalue.value_iff⟩

/-! ### One after the other -/

/-- **Folding an expression finds its meaning**, from right notes in which nothing is begun. -/
theorem fold_finds (e : IdExpr) (hs : table.Sound notes)
    (hn : ∀ c, noteOn? notes c ≠ some .begun) :
    table.Finds (table.Denotes scope e) (table.fold scope e notes) := by
  have hb : table.unnoted notes < table.initializers.length + 1 :=
    Nat.lt_succ_of_le (table.unnoted_le_length notes)
  exact foldWith_finds (fun c place notes => foldConstant_finds _ c place) e hs hb
    fun d _ b hb => absurd hb (hn b)

/-- What folding comes to for expressions that are folded one after the other, each inside a type,
with the notes handed on. -/
def inTurn (fold : List String → IdExpr → Notes → Folded × Notes) :
    List (List String × IdExpr) → Notes → List Folded
  | [], _ => []
  | (scope, e) :: queries, notes =>
    (fold scope e notes).1 :: inTurn fold queries (fold scope e notes).2

/-- From right notes in which nothing is begun, every expression in turn is folded to its
meaning. -/
theorem inTurn_fold_finds (queries : List (List String × IdExpr)) (hs : table.Sound notes)
    (hn : ∀ c, noteOn? notes c ≠ some .begun) :
    List.Forall₂ (fun q r => ∀ v, r = .ok v ↔ table.Denotes q.1 q.2 v) queries
      (inTurn table.fold queries notes) := by
  induction queries generalizing notes with
  | nil => exact .nil
  | cons q queries ih =>
    have h : table.Finds (table.Denotes q.1 q.2) (table.fold q.1 q.2 notes) :=
      fold_finds q.2 hs hn
    have hext : Extends notes (table.fold q.1 q.2 notes).2 := foldWith_extends _ q.2 notes
    exact .cons h.value_iff (ih h.sound fun c hc => hn c (hext.begun_iff.mp hc))

/-- **The notes never show.** Whatever constants a text declares and however they are defined in
terms of each other, and whatever was folded before: an expression is folded to `v` exactly if it
denotes `v`, and to an error if it denotes nothing. Folding comes to an end by itself, for a larger
budget than that of `ViewBinding.Java.Constants.fold` comes to the same. -/
theorem inTurn_fold_iff_denotes (table : Constants) (queries : List (List String × IdExpr)) :
    List.Forall₂ (fun q r => (∀ v, r = .ok v ↔ table.Denotes q.1 q.2 v) ∧
        ((∀ v, ¬table.Denotes q.1 q.2 v) → ∃ e, r = .error e))
      queries (inTurn table.fold queries []) ∧
    ∀ more, inTurn (fun scope => foldWith table
        (foldConstant table (table.initializers.length + 1 + more)) scope) queries [] =
      inTurn table.fold queries [] := by
  constructor
  · refine (inTurn_fold_finds queries sound_nil (by simp)).imp fun q r h => ⟨h, fun hno => ?_⟩
    cases r with
    | ok v => exact absurd ((h v).mp rfl) (hno v)
    | error e => exact ⟨e, rfl⟩
  · intro more
    congr 1
    funext scope e notes
    exact foldWith_budget (by omega) e notes

end ViewBinding.Java.Constants
