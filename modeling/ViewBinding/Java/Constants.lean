import ViewBinding.Java.IdExpr
import ViewBinding.Java.IntLiteral
import ViewBinding.Java.Outline
import ViewBinding.Text.Dotted

/-!
# Constants and view ids

The value of a view id is folded from its expression. A name in it stands for an `int` constant of
the same text: a field that is `static` and `final`, or one of an interface or an annotation type.
`ViewBinding.Java.Constants` holds the constants of a text with their initializers, and the types
that it declares.

`ViewBinding.Java.Constants.fold` goes through an expression and, where a name stands for a
constant, through the initializer of that constant in turn. It takes note of what it has found out
in a `ViewBinding.Java.Notes`: a constant is folded at most once, and one that is met again while
it is being folded is not constant. The notes are handed on from one view id to the next.

The arithmetic is that of the 32-bit integers of `Int32`: it wraps around, division goes toward
zero, and a shift takes the amount modulo 32.
-/

namespace ViewBinding.Java

open Text

/-- Why a view id has no value. -/
inductive FoldError
  /-- The expression at that place is not constant. -/
  | notConstant (place : Extent)
  /-- The literal at that place is too large. -/
  | outOfRange (place : Extent)
deriving DecidableEq, Repr, Inhabited

/-- The name of a constant: the type that declares it, by its nesting, and its own name. -/
structure ConstantName where
  owner : List String
  name : String
deriving DecidableEq, Repr, Inhabited

/-- The constants of a text. -/
structure Constants where
  /-- The package of the text. -/
  package : String
  /-- The constants with their initializers, the last one first. -/
  initializers : List (ConstantName × IdExpr)
  /-- The nestings of the types declared, in the order of the text. -/
  types : List (List String)
deriving Repr, Inhabited

namespace Constants

/-! ### Collecting -/

/-- The constants that a member of a type declares, in order. -/
def ofMember (source : String) (nesting : List String) (holder : Kind) (member : Node) :
    List (ConstantName × IdExpr) :=
  let isConstant := holder.holdsConstants
    || ((member.modifier? "static").isSome && (member.modifier? "final").isSome)
  let isInt := (member.child? .type).any fun type => type.textIn source == "int"
  if (member.kind == .fieldDeclaration || member.kind == .constantDeclaration)
      && isConstant && isInt then
    (member.childrenIn .declarator).filterMap fun declarator =>
      if (declarator.child? .dimensions).isSome then none
      else
        match declarator.child? .name, declarator.child? .value with
        | some name, some value =>
          some (⟨nesting, name.textIn source⟩, IdExpr.ofNode source value)
        | _, _ => none
  else []

/-- The constants of a text in the package. -/
def ofEntries (source package : String) (entries : List Entry) : Constants where
  package
  initializers := (entries.flatMap fun
    | .type _ => []
    | .member nesting holder node => ofMember source nesting holder node).reverse
  types := declaredTypes entries

/-- The initializer of a constant; of two constants of one name the later one counts. -/
def initializer? (table : Constants) (name : ConstantName) : Option IdExpr :=
  (table.initializers.find? fun entry => entry.1 == name).map Prod.snd

/-- Whether there is a constant of that name. -/
def declares (table : Constants) (name : ConstantName) : Bool :=
  (table.initializer? name).isSome

/-! ### Resolving names -/

/-- The nesting, the one around it, and so on to the outermost type. -/
def outward : List String → List (List String)
  | [] => []
  | name :: names => ((outward names).map (name :: ·)) ++ [[name]]

/-- The constant that a simple name stands for inside a type: the one of the innermost enclosing
type that has a constant of that name. -/
def resolve? (table : Constants) (scope : List String) (name : String) : Option ConstantName :=
  ((outward scope).map (ConstantName.mk · name)).find? table.declares

/-- The text without the package and the full stop in front of it, if it starts so. -/
def withoutPackage (package object : String) : String :=
  let front := (package ++ ".").toList
  if package ≠ "" && front.isPrefixOf object.toList then
    String.ofList (object.toList.drop front.length)
  else object

/-- Whether the dotted text of a nesting is the given one or ends with it after a full stop. -/
def endsIn (nesting : List String) (relative : String) : Bool :=
  dotted nesting == relative
    || ('.' :: relative.toList).isSuffixOf (dotted nesting).toList

/-- The constant that a name selected from an object stands for: the one of the first declared
type whose nesting ends in the object. -/
def select? (table : Constants) (object name : String) : Option ConstantName :=
  match table.types.find? fun nesting =>
      endsIn nesting (withoutPackage table.package object) with
  | none => none
  | some nesting => some (ConstantName.mk nesting name) |>.filter table.declares

/-! ### Folding -/

/-- What folding comes to. -/
abbrev Folded := Except FoldError Int32

/-- What is known of a constant. -/
inductive Note
  /-- It is being folded. -/
  | begun
  /-- It has been folded. -/
  | settled (result : Folded)
deriving Repr

/-- What is known of the constants, the latest first. -/
abbrev Notes := List (ConstantName × Note)

/-- What is known of a constant. -/
def noteOn? (notes : Notes) (name : ConstantName) : Option Note :=
  (notes.find? fun entry => entry.1 == name).map Prod.snd

/-- The notes with what is known of a constant replaced. -/
def noted (notes : Notes) (name : ConstantName) (note : Note) : Notes :=
  (name, note) :: notes.filter fun entry => entry.1 != name

/-- The value of a unary operator. -/
def unaryValue? (operator : String) (v : Int32) : Option Int32 :=
  match operator with
  | "-" => some (-v)
  | "+" => some v
  | "~" => some (~~~v)
  | _ => none

/-- The value of a binary operator. A remainder or a quotient by zero has none. -/
def binaryValue? (operator : String) (v w : Int32) : Option Int32 :=
  match operator with
  | "+" => some (v + w)
  | "-" => some (v - w)
  | "*" => some (v * w)
  | "/" => if w = 0 then none else some (v / w)
  | "%" => if w = 0 then none else some (v % w)
  | "|" => some (v ||| w)
  | "&" => some (v &&& w)
  | "^" => some (v ^^^ w)
  | "<<" => some (v <<< w)
  | ">>" => some (v >>> w)
  | ">>>" => some (v.toUInt32 >>> w.toUInt32).toInt32
  | _ => none

/-- The value of a literal; `blamed` is what an error names. -/
def literalValue (kind : Literal) (text : String) (negated : Bool) (blamed : Extent) : Folded :=
  match IntLiteral.read kind text negated with
  | .value v => .ok v
  | .long => .error (.notConstant blamed)
  | .tooLarge => .error (.outOfRange blamed)

/-- The value of the operator, or the error that the expression at `place` is not constant. -/
def orNotConstant (place : Extent) : Option Int32 → Folded
  | some v => .ok v
  | none => .error (.notConstant place)

/-- Goes on with the value that folding has come to and the notes taken so far; an error stays. -/
def andThen {σ : Type} (out : Folded × σ) (next : Int32 → σ → Folded × σ) : Folded × σ :=
  match out with
  | (.ok v, notes) => next v notes
  | (.error e, notes) => (.error e, notes)

/-- Folds the constant that the name at `place` stands for; a name may stand for none. -/
def foldReference {σ : Type} (constant : ConstantName → Extent → σ → Folded × σ)
    (name? : Option ConstantName) (place : Extent) (notes : σ) : Folded × σ :=
  match name? with
  | some name => constant name place notes
  | none => (.error (.notConstant place), notes)

/-- Folds an expression inside the type of that nesting. A constant that a name stands for is
folded by `constant`, which is told where the name stands; the notes are its business alone, and
all else only hands them on. -/
def foldWith {σ : Type} (table : Constants) (constant : ConstantName → Extent → σ → Folded × σ)
    (scope : List String) : IdExpr → σ → Folded × σ
  | .literal kind text place, notes => (literalValue kind text false place, notes)
  | .group inner _, notes => foldWith table constant scope inner notes
  | .unary operator operand place, notes =>
    match operator, operand with
    | "-", .literal .decimal text _ => (literalValue .decimal text true place, notes)
    | _, _ =>
      andThen (foldWith table constant scope operand notes) fun v notes =>
        (orNotConstant place (unaryValue? operator v), notes)
  | .binary operator left right place, notes =>
    andThen (foldWith table constant scope left notes) fun v notes =>
      andThen (foldWith table constant scope right notes) fun w notes =>
        (orNotConstant place (binaryValue? operator v w), notes)
  | .name name place, notes => foldReference constant (table.resolve? scope name) place notes
  | .select object name place, notes =>
    foldReference constant (table.select? object name) place notes
  | .other place, notes => (.error (.notConstant place), notes)

/-- Folds the constant of that name, met at `place`. At most `budget` constants are folded
inside each other. -/
def foldConstant (table : Constants) :
    Nat → ConstantName → Extent → Notes → Folded × Notes
  | 0, _, place, notes => (.error (.notConstant place), notes)
  | budget + 1, name, place, notes =>
    match noteOn? notes name with
    | some (.settled result) => (result, notes)
    | some .begun => (.error (.notConstant place), notes)
    | none =>
      match table.initializer? name with
      | none => (.error (.notConstant place), notes)
      | some initializer =>
        let (result, notes) :=
          foldWith table (foldConstant table budget) name.owner initializer
            (noted notes name .begun)
        (result, noted notes name (.settled result))

/-- Folds an expression inside the type of that nesting. -/
def fold (table : Constants) (scope : List String) (e : IdExpr) (notes : Notes) :
    Folded × Notes :=
  foldWith table (foldConstant table (table.initializers.length + 1)) scope e notes

end Constants

end ViewBinding.Java
