import ViewBinding.Proofs.Constants.Moved
import ViewBinding.Proofs.Constants.Notes

/-!
# What an error blames

A view id that has no value is blamed on the part of an expression that has none. That part need not
belong to the view id: it may stand in the initializer of a constant, and the error may have been
noted when the constant was met before. Yet all expressions are made from nodes of one tree
(`ViewBinding.Java.IdExpr.standsAt_ofNode`), and an error only ever blames the place of a part of
one of them, or one that has been noted (`ViewBinding.Java.Constants.fold_blames`).

The places in question are given as a set `P` of extents.
-/

namespace ViewBinding.Java

open Text

variable {P : Extent → Prop}

/-! ### The places of an expression -/

namespace IdExpr

/-- **All parts of the expression stand at places in `P`.** -/
def StandsAt (P : Extent → Prop) : IdExpr → Prop
  | .literal _ _ place | .name _ place | .select _ _ place | .other place => P place
  | .group inner place => inner.StandsAt P ∧ P place
  | .unary _ operand place => operand.StandsAt P ∧ P place
  | .binary _ left right place => left.StandsAt P ∧ right.StandsAt P ∧ P place

variable {source : String}

theorem standsAt_assemble {kind : Kind} {place : Extent} {parts : List (Node × IdExpr)}
    (hplace : P place) (hparts : ∀ part ∈ parts, part.2.StandsAt P) :
    (assemble source kind place parts).StandsAt P := by
  have hfind {p : Node × IdExpr → Bool} {part : Node × IdExpr} (h : parts.find? p = some part) :
      part.2.StandsAt P := hparts part (List.mem_of_find?_eq_some h)
  unfold assemble
  dsimp only
  split
  · split <;> exact hplace
  · split
    · rename_i inner hinner
      exact ⟨hfind hinner, hplace⟩
    · exact hplace
  · split
    · rename_i operator _ operand _ hoperand
      exact ⟨hfind hoperand, hplace⟩
    · exact hplace
  · split
    · rename_i left operator _ right hleft _ hright
      exact ⟨hfind hleft, hfind hright, hplace⟩
    · exact hplace
  · exact hplace
  · split <;> exact hplace
  · split <;> exact hplace
  · exact hplace

/-- **All parts of an expression stand where nodes of its tree do.** -/
theorem standsAt_ofNode {n : Node} (h : ∀ m ∈ n.nodes, P m.extent) :
    (ofNode source n).StandsAt P := by
  induction n using Node.induction with
  | mk kind role extent isAbsent children ih =>
    refine standsAt_assemble (h _ (Node.mem_nodes_self _)) fun part hpart => ?_
    rw [ofNodes_eq] at hpart
    obtain ⟨c, hc, rfl⟩ := List.mem_map.mp hpart
    exact ih c hc fun m hm => h m (Node.mem_nodes_iff.mpr (.inr ⟨c, hc, hm⟩))

end IdExpr

/-! ### Folding -/

/-- What the error blames. -/
def FoldError.place : FoldError → Extent
  | .notConstant place | .outOfRange place => place

namespace Constants

variable {table : Constants} {scope : List String} {notes : Notes}

/-- An error blames a place in `P`. -/
def Folded.Blames (P : Extent → Prop) (result : Folded) : Prop :=
  ∀ e, result = .error e → P e.place

/-- The errors that have been noted blame places in `P`. -/
def Notes.Blame (P : Extent → Prop) (notes : Notes) : Prop :=
  ∀ c result, noteOn? notes c = some (.settled result) → Folded.Blames P result

/-- An error in the result and the errors in the notes after it blame places in `P`. -/
structure Blames (P : Extent → Prop) (out : Folded × Notes) : Prop where
  result : Folded.Blames P out.1
  notes : Notes.Blame P out.2

/-- The initializers of all constants stand at places in `P`. -/
def InitializedAt (table : Constants) (P : Extent → Prop) : Prop :=
  ∀ entry ∈ table.initializers, entry.2.StandsAt P

theorem Notes.blame_nil : Notes.Blame P [] :=
  fun c _ h => by cases h

theorem Notes.Blame.begin (h : Notes.Blame P notes) (c : ConstantName) :
    Notes.Blame P (noted notes c .begun) := by
  intro d result hd
  rw [noteOn?_noted] at hd
  split at hd
  · cases hd
  · exact h d result hd

theorem Notes.Blame.settle (h : Notes.Blame P notes) (c : ConstantName) {result : Folded}
    (hresult : Folded.Blames P result) : Notes.Blame P (noted notes c (.settled result)) := by
  intro d r hd
  rw [noteOn?_noted] at hd
  split at hd
  · cases hd
    exact hresult
  · exact h d r hd

theorem Blames.of_error {e : FoldError} (he : P e.place) (h : Notes.Blame P notes) :
    Blames P (.error e, notes) := by
  refine ⟨fun e' he' => ?_, h⟩
  cases he'
  exact he

theorem Blames.literalValue {kind : Literal} {text : String} {negated : Bool} {place : Extent}
    (hplace : P place) (h : Notes.Blame P notes) :
    Blames P (literalValue kind text negated place, notes) := by
  refine ⟨fun e he => ?_, h⟩
  unfold Constants.literalValue at he
  split at he <;> cases he <;> exact hplace

theorem Blames.orNotConstant {place : Extent} (hplace : P place) (v? : Option Int32)
    (h : Notes.Blame P notes) : Blames P (orNotConstant place v?, notes) := by
  refine ⟨fun e he => ?_, h⟩
  cases v? with
  | none =>
    cases he
    exact hplace
  | some v => cases he

theorem Blames.andThen {out : Folded × Notes} {next : Int32 → Notes → Folded × Notes}
    (h : Blames P out) (hnext : ∀ v, Blames P (next v out.2)) : Blames P (andThen out next) := by
  obtain ⟨result, notes'⟩ := out
  cases result with
  | ok v => exact hnext v
  | error e => exact h

theorem Blames.foldReference {constant : ConstantName → Extent → Notes → Folded × Notes}
    {name? : Option ConstantName} {place : Extent} (hplace : P place) (h : Notes.Blame P notes)
    (hc : ∀ c, Blames P (constant c place notes)) :
    Blames P (foldReference constant name? place notes) := by
  cases name? with
  | none => exact .of_error hplace h
  | some c => exact hc c

/-- **An error in an expression blames a part of it**, if the errors in the constants blame places
in `P`. -/
theorem foldWith_blames {constant : ConstantName → Extent → Notes → Folded × Notes}
    (hc : ∀ c place notes, P place → Notes.Blame P notes → Blames P (constant c place notes))
    {e : IdExpr} (he : e.StandsAt P) (h : Notes.Blame P notes) :
    Blames P (foldWith table constant scope e notes) := by
  induction e generalizing notes with
  | literal kind text place => exact .literalValue he h
  | group inner place ih => exact ih he.1 h
  | unary operator operand place ih =>
    unfold foldWith
    split
    · exact .literalValue he.2 h
    · have hoperand := ih he.1 h
      exact hoperand.andThen fun v => .orNotConstant he.2 _ hoperand.notes
  | binary operator left right place ihl ihr =>
    have hleft := ihl he.1 h
    have hright := ihr he.2.1 hleft.notes
    exact hleft.andThen fun v => hright.andThen fun w => .orNotConstant he.2.2 _ hright.notes
  | name simple place => exact .foldReference he h fun c => hc c place notes he h
  | select object simple place => exact .foldReference he h fun c => hc c place notes he h
  | other place => exact .of_error he h

/-- **An error in a constant blames a part of an initializer**, or the place where the constant was
met. -/
theorem foldConstant_blames (htable : table.InitializedAt P) (budget : Nat) (c : ConstantName)
    {place : Extent} (hplace : P place) (h : Notes.Blame P notes) :
    Blames P (foldConstant table budget c place notes) := by
  induction budget generalizing c place notes with
  | zero => exact .of_error hplace h
  | succ budget ih =>
    unfold foldConstant
    split
    · rename_i result hresult
      exact ⟨h c result hresult, h⟩
    · exact .of_error hplace h
    · split
      · exact .of_error hplace h
      · rename_i initializer hinitializer
        have hout : Blames P (foldWith table (foldConstant table budget) c.owner initializer
            (noted notes c .begun)) :=
          foldWith_blames (fun d place notes hplace h => ih d hplace h)
            (htable _ (initializer?_mem hinitializer)) (h.begin c)
        exact ⟨hout.result, hout.notes.settle c hout.result⟩

/-- **An error blames a place in `P`** if all expressions stand at such places, whatever has been
noted before. -/
theorem fold_blames (htable : table.InitializedAt P) {e : IdExpr} (he : e.StandsAt P)
    (h : Notes.Blame P notes) : Blames P (table.fold scope e notes) :=
  foldWith_blames (fun c _ _ hplace h => foldConstant_blames htable _ c hplace h) he h

end Constants

end ViewBinding.Java
