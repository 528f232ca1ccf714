import ViewBinding.Java.Constants
import ViewBinding.Proofs.Tree.Moved

/-!
# Folding and places

Where an expression stands matters to the places that errors name and to nothing else: the same
expression at other places, folded with the same constants at other places, comes to the same value
or to the same error at another place (`ViewBinding.Java.Constants.fold_moved`).
-/

namespace ViewBinding.Java

open Text

variable {move : Extent → Extent}

/-! ### Expressions -/

namespace IdExpr

/-- The expression in which every place is another one. -/
def moved (move : Extent → Extent) : IdExpr → IdExpr
  | .literal kind text place => .literal kind text (move place)
  | .group inner place => .group (inner.moved move) (move place)
  | .unary operator operand place => .unary operator (operand.moved move) (move place)
  | .binary operator left right place =>
    .binary operator (left.moved move) (right.moved move) (move place)
  | .name simple place => .name simple (move place)
  | .select object simple place => .select object simple (move place)
  | .other place => .other (move place)

theorem ofNodes_eq (source : String) (cs : List Node) :
    ofNodes source cs = cs.map fun c => (c, ofNode source c) := by
  induction cs with
  | nil => rfl
  | cons c cs ih => rw [ofNodes, ih, List.map_cons]

variable {source source' : String}

/-- A part of an expression in which every place is another one. -/
def movedPart (move : Extent → Extent) (part : Node × IdExpr) : Node × IdExpr :=
  (part.1.moved move, part.2.moved move)

theorem assemble_moved {kind : Kind} {place : Extent} {parts : List (Node × IdExpr)}
    (hword : kind.isWord → (move place).textIn source' = place.textIn source)
    (hreads : ∀ part ∈ parts, kind.reads part.1 →
      (part.1.moved move).textIn source' = part.1.textIn source) :
    assemble source' kind (move place) (parts.map (movedPart move)) =
      (assemble source kind place parts).moved move := by
  have hpart (role : Role) :
      ((parts.map (movedPart move)).find? fun part => part.1.role == some role) =
        (parts.find? fun part => part.1.role == some role).map (movedPart move) := by
    simp only [List.find?_map, Function.comp_def, movedPart, Node.role_moved]
  have hnamed :
      ((parts.map (movedPart move)).find? fun part => part.1.kind.isNamed) =
        (parts.find? fun part => part.1.kind.isNamed).map (movedPart move) := by
    simp only [List.find?_map, Function.comp_def, movedPart, Node.kind_moved]
  have htext (role : Role) (part : Node × IdExpr)
      (hfind : parts.find? (fun part => part.1.role == some role) = some part)
      (hrole : ∀ c : Node, c.role = some role → kind.reads c) :
      (part.1.moved move).textIn source' = part.1.textIn source := by
    refine hreads part (List.mem_of_find?_eq_some hfind) (hrole _ ?_)
    simpa using List.find?_some hfind
  -- both take the same parts, and of these only the texts still have to be compared
  unfold assemble
  simp only [hpart, hnamed]
  cases kind with
  | literal l =>
    simp only [hword rfl]
    split <;> rfl
  | identifier =>
    simp only [hword rfl]
    rfl
  | parenthesized => cases parts.find? fun part => part.1.kind.isNamed <;> rfl
  | unary =>
    cases hoperator : parts.find? fun part => part.1.role == some .operator with
    | none => rfl
    | some operator =>
      have hsame := htext .operator operator hoperator fun c hc => by simp [Kind.reads, hc]
      cases parts.find? fun part => part.1.role == some .operand with
      | none => rfl
      | some operand =>
        simp only [Option.map_some, movedPart, hsame]
        rfl
  | binary =>
    cases parts.find? fun part => part.1.role == some .left with
    | none => rfl
    | some left =>
      cases hoperator : parts.find? fun part => part.1.role == some .operator with
      | none => rfl
      | some operator =>
        have hsame := htext .operator operator hoperator fun c hc => by simp [Kind.reads, hc]
        cases parts.find? fun part => part.1.role == some .right with
        | none => rfl
        | some right =>
          simp only [Option.map_some, movedPart, hsame]
          rfl
  | fieldAccess =>
    cases hobject : parts.find? fun part => part.1.role == some .object with
    | none => rfl
    | some object =>
      have hsame := htext .object object hobject fun c hc => by simp [Kind.reads, hc]
      cases hfield : parts.find? fun part => part.1.role == some .field with
      | none => rfl
      | some field =>
        have hsame' := htext .field field hfield fun c hc => by simp [Kind.reads, hc]
        simp only [Option.map_some, movedPart, hsame, hsame']
        rfl
  | scopedName =>
    cases hscope : parts.find? fun part => part.1.role == some .scope with
    | none => rfl
    | some scope =>
      have hsame := htext .scope scope hscope fun c hc => by simp [Kind.reads, hc]
      cases hname : parts.find? fun part => part.1.role == some .name with
      | none => rfl
      | some simple =>
        have hsame' := htext .name simple hname fun c hc => by simp [Kind.reads, hc]
        simp only [Option.map_some, movedPart, hsame, hsame']
        rfl
  | _ => rfl

/-- **The same tree at other places gives the same expression at other places**, as long as what is
looked at is spelled alike. -/
theorem ofNode_moved {n : Node} (h : n.SpelledAlike move source source') :
    ofNode source' (n.moved move) = (ofNode source n).moved move := by
  induction n using Node.induction with
  | mk kind role extent isAbsent children ih =>
    have hparts : ofNodes source' (children.map (Node.moved move)) =
        (ofNodes source children).map (movedPart move) := by
      rw [ofNodes_eq, ofNodes_eq, List.map_map, List.map_map]
      refine List.map_congr_left fun c hc => ?_
      exact congrArg (c.moved move, ·) (ih c hc (h.of_mem_children hc))
    rw [Node.moved, ofNode, ofNode, Node.movedAll_eq, hparts]
    refine assemble_moved (fun hword => h.textIn_word hword) fun part hpart hreads => ?_
    rw [ofNodes_eq] at hpart
    obtain ⟨c, hc, rfl⟩ := List.mem_map.mp hpart
    exact h.textIn_child hc (Node.reads_of_kind hreads)

end IdExpr

/-! ### Constants -/

/-- The error at another place. -/
def FoldError.moved (move : Extent → Extent) : FoldError → FoldError
  | .notConstant place => .notConstant (move place)
  | .outOfRange place => .outOfRange (move place)

namespace Constants

/-- What folding comes to, at other places. -/
def Folded.moved (move : Extent → Extent) (result : Folded) : Folded :=
  result.mapError (FoldError.moved move)

/-- What is known of a constant, at other places. -/
def Note.moved (move : Extent → Extent) : Note → Note
  | .begun => .begun
  | .settled result => .settled (Folded.moved move result)

/-- What is known of the constants, at other places. -/
def Notes.moved (move : Extent → Extent) (notes : Notes) : Notes :=
  notes.map fun entry => (entry.1, entry.2.moved move)

/-- A result with the notes after it, at other places. -/
def movedOut (move : Extent → Extent) (out : Folded × Notes) : Folded × Notes :=
  (Folded.moved move out.1, Notes.moved move out.2)

/-- The constants with their initializers at other places. -/
def moved (move : Extent → Extent) (table : Constants) : Constants :=
  { table with initializers := table.initializers.map fun entry => (entry.1, entry.2.moved move) }

variable {table : Constants} {scope : List String} {notes : Notes}
  {constant constant' : ConstantName → Extent → Notes → Folded × Notes}

theorem noteOn?_moved (notes : Notes) (c : ConstantName) :
    noteOn? (Notes.moved move notes) c = (noteOn? notes c).map (Note.moved move) := by
  simp [noteOn?, Notes.moved, List.find?_map, Function.comp_def]

theorem noted_moved (notes : Notes) (c : ConstantName) (note : Note) :
    noted (Notes.moved move notes) c (note.moved move) =
      Notes.moved move (noted notes c note) := by
  simp [noted, Notes.moved, List.filter_map, Function.comp_def]

theorem initializer?_moved (table : Constants) (c : ConstantName) :
    (table.moved move).initializer? c = (table.initializer? c).map (IdExpr.moved move) := by
  simp [initializer?, moved, List.find?_map, Function.comp_def]

theorem declares_moved (table : Constants) : (table.moved move).declares = table.declares := by
  funext c
  simp [declares, initializer?_moved]

theorem resolve?_moved (table : Constants) (scope : List String) (simple : String) :
    (table.moved move).resolve? scope simple = table.resolve? scope simple := by
  rw [resolve?, resolve?, declares_moved]

theorem select?_moved (table : Constants) (object simple : String) :
    (table.moved move).select? object simple = table.select? object simple := by
  rw [select?, select?, declares_moved]
  rfl

theorem andThen_moved {out : Folded × Notes} {next next' : Int32 → Notes → Folded × Notes}
    (hnext : ∀ v notes, next' v (Notes.moved move notes) = movedOut move (next v notes)) :
    andThen (movedOut move out) next' = movedOut move (andThen out next) := by
  obtain ⟨result, notes⟩ := out
  cases result with
  | ok v => exact hnext v notes
  | error e => rfl

theorem orNotConstant_moved (place : Extent) (v? : Option Int32) :
    orNotConstant (move place) v? = Folded.moved move (orNotConstant place v?) := by
  cases v? <;> rfl

theorem literalValue_moved (kind : Literal) (text : String) (negated : Bool) (place : Extent) :
    literalValue kind text negated (move place) =
      Folded.moved move (literalValue kind text negated place) := by
  unfold literalValue
  split <;> rfl

theorem foldReference_moved
    (hconstant : ∀ c place notes,
      constant' c (move place) (Notes.moved move notes) = movedOut move (constant c place notes))
    (name? : Option ConstantName) (place : Extent) (notes : Notes) :
    foldReference constant' name? (move place) (Notes.moved move notes) =
      movedOut move (foldReference constant name? place notes) := by
  cases name? with
  | none => rfl
  | some c => exact hconstant c place notes

/-- If folding a constant does not depend on places, folding an expression does not. -/
theorem foldWith_moved
    (hconstant : ∀ c place notes,
      constant' c (move place) (Notes.moved move notes) = movedOut move (constant c place notes))
    (e : IdExpr) (notes : Notes) :
    foldWith (table.moved move) constant' scope (e.moved move) (Notes.moved move notes) =
      movedOut move (foldWith table constant scope e notes) := by
  induction e generalizing notes with
  | literal kind text place =>
    exact congrArg (·, Notes.moved move notes) (literalValue_moved kind text false place)
  | group inner _ ih => exact ih notes
  | unary operator operand place ih =>
    -- a minus and a decimal literal are read as one number, which has to be told apart
    by_cases hleast : operator = "-" ∧ ∃ text place, operand = .literal .decimal text place
    · obtain ⟨rfl, text, inner, rfl⟩ := hleast
      exact congrArg (·, Notes.moved move notes) (literalValue_moved .decimal text true place)
    · rw [IdExpr.moved, foldWith, foldWith, ih]
      · refine andThen_moved fun v notes => ?_
        exact congrArg (·, Notes.moved move notes) (orNotConstant_moved place _)
      · exact fun text inner hminus hliteral => hleast ⟨hminus, text, inner, hliteral⟩
      · intro text inner hminus hliteral
        cases operand with
        | literal kind text' inner' =>
          obtain ⟨rfl, -, -⟩ := IdExpr.literal.inj hliteral
          exact hleast ⟨hminus, text', inner', rfl⟩
        | _ => cases hliteral
  | binary operator left right place ihl ihr =>
    rw [IdExpr.moved, foldWith, foldWith, ihl]
    refine andThen_moved fun v notes => ?_
    rw [ihr]
    refine andThen_moved fun w notes => ?_
    exact congrArg (·, Notes.moved move notes) (orNotConstant_moved place _)
  | name simple place =>
    rw [IdExpr.moved, foldWith, foldWith, resolve?_moved]
    exact foldReference_moved hconstant _ _ _
  | select object simple place =>
    rw [IdExpr.moved, foldWith, foldWith, select?_moved]
    exact foldReference_moved hconstant _ _ _
  | other place => rfl

theorem foldConstant_moved (budget : Nat) (c : ConstantName) (place : Extent) (notes : Notes) :
    foldConstant (table.moved move) budget c (move place) (Notes.moved move notes) =
      movedOut move (foldConstant table budget c place notes) := by
  induction budget generalizing c place notes with
  | zero => rfl
  | succ budget ih =>
    rw [foldConstant, foldConstant, noteOn?_moved]
    cases noteOn? notes c with
    | some note => cases note <;> rfl
    | none =>
      rw [initializer?_moved]
      cases table.initializer? c with
      | none => rfl
      | some initializer =>
        -- the initializer is folded with a smaller budget, which the induction is on
        have hbegun : noted (Notes.moved move notes) c .begun =
            Notes.moved move (noted notes c .begun) := noted_moved notes c .begun
        dsimp only [Option.map_some]
        rw [hbegun, foldWith_moved ih, movedOut, movedOut, ← noted_moved]
        rfl

/-- **Folding does not depend on places**, which show in its errors only. -/
theorem fold_moved (table : Constants) (scope : List String) (e : IdExpr) (notes : Notes) :
    (table.moved move).fold scope (e.moved move) (Notes.moved move notes) =
      movedOut move (table.fold scope e notes) := by
  have hlength : (table.moved move).initializers.length = table.initializers.length :=
    List.length_map _
  rw [fold, fold, hlength]
  exact foldWith_moved (foldConstant_moved _) e notes

end Constants

end ViewBinding.Java
