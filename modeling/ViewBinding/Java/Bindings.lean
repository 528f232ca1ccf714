import ViewBinding.Java.Fault
import ViewBinding.Java.Parse
import ViewBinding.Java.TypeScope

/-!
# Fields of a Java text

The fields of a Java text that carry the annotation `@BindView`. `ViewBinding.Java.bindings` goes
through the members of the declared types in the order of the text and gives the fields to bind
and the findings on those that cannot be bound: private, static and final fields, fields of
interfaces and annotation types, and fields whose view id is lacking or is no constant.
-/

namespace ViewBinding.Java

open Text

/-- The simple name of the annotation. -/
def annotationName : String := "BindView"

/-- Fields with the findings made on the way to them. -/
structure Bindings where
  fields : List BoundField
  report : Report
deriving Repr, Inhabited

namespace Bindings

/-- No fields and no findings. -/
def none : Bindings := ⟨[], []⟩

/-- First the one, then the other. -/
instance : Append Bindings where
  append a b := ⟨a.fields ++ b.fields, a.report ++ b.report⟩

@[simp] theorem fields_append (a b : Bindings) : (a ++ b).fields = a.fields ++ b.fields := rfl

@[simp] theorem report_append (a b : Bindings) : (a ++ b).report = a.report ++ b.report := rfl

end Bindings

/-- What is known of a text while its members are gone through. -/
structure Reading where
  /-- The number of the source. -/
  number : Nat
  source : String
  scope : TypeScope
  constants : Constants
deriving Repr, Inhabited

namespace Reading

/-- The place of a node. -/
def placeOf (r : Reading) (n : Node) : Place :=
  ⟨r.number, n.extent⟩

/-- Whether the annotation of that name is the one that binds. -/
def binds (r : Reading) (name : Node) : Bool :=
  (segments (String.ofList (compact (name.textIn r.source).toList))).getLast?
    == some annotationName

/-- The annotation that binds the fields of a declaration. -/
def binding? (r : Reading) (member : Node) : Option Node :=
  member.modifiers?.bind fun modifiers =>
    modifiers.namedChildren.find? fun n =>
      (n.kind == .annotationUse || n.kind == .annotationMarker)
        && (n.child? .name).any r.binds

/-- The node in which the view id is to be found: the only argument of the annotation, or its
element called `value`. -/
def idNode (r : Reading) (mark : Node) : Except Finding (Option Node) :=
  match (mark.child? .arguments).bind fun arguments => arguments.namedChildren.head? with
  | .none => .error (.of .missingViewId (some (r.placeOf mark)) .none [])
  | some first =>
    let roles? : Option (Role × Role) :=
      match first.kind with
      | .elementPair => some (.key, .value)
      | .assignment => some (.left, .right)
      | _ => .none
    match roles? with
    | .none => .ok (some first)
    | some (keyRole, valueRole) =>
      let name := ((first.child? keyRole).map fun n => n.textIn r.source).getD ""
      if name = "value" then .ok (first.child? valueRole)
      else .error (.of .missingViewId (some (r.placeOf first))
        (some ("found element `" ++ name ++ "`")) [])

/-- The finding on a view id that has no value. -/
def idFinding (r : Reading) (e : FoldError) : Finding :=
  let (problem, extent) : Problem × Extent :=
    match e with
    | .notConstant extent => (.nonConstantViewId, extent)
    | .outOfRange extent => (.viewIdOutOfRange, extent)
  .of problem (some ⟨r.number, extent⟩) (some (extent.textIn r.source)) []

/-- The view id that an annotation gives inside the type of that nesting, or the finding on it;
there may be neither. -/
def viewId (r : Reading) (nesting : List String) (mark : Node) (notes : Constants.Notes) :
    Except Finding (Option Int32) × Constants.Notes :=
  match r.idNode mark with
  | .error finding => (.error finding, notes)
  | .ok .none => (.ok .none, notes)
  | .ok (some n) =>
    match r.constants.fold nesting (IdExpr.ofNode r.source n) notes with
    | (.ok id, notes) => (.ok (some id), notes)
    | (.error e, notes) => (.error (r.idFinding e), notes)

/-- The modifiers that keep a field from being assigned. -/
def hindrances : List (String × Problem) :=
  [("private", .privateField), ("static", .staticField), ("final", .finalField)]

/-- The findings on the modifiers of a declaration of fields. -/
def modifierReport (r : Reading) (member : Node) : Report :=
  let names := (member.childrenIn .declarator).filterMap fun declarator =>
    (declarator.child? .name).map fun name => name.textIn r.source
  hindrances.filterMap fun (keyword, problem) =>
    (member.modifier? keyword).map fun n =>
      .of problem (some (r.placeOf n)) (some (", ".intercalate names)) []

/-- The fields that a declaration declares, of the type `type` and with the view id `id`. -/
def declaredFields (r : Reading) (owner : TypeName) (member : Node) (type : CastType)
    (id : Int32) : List BoundField :=
  (member.childrenIn .declarator).filterMap fun declarator =>
    (declarator.child? .name).map fun name =>
      let brackets := match declarator.child? .dimensions with
        | some dimensions => TypeText.tidy (dimensions.textIn r.source)
        | .none => ""
      { owner, id
        name := name.textIn r.source
        type := { type with text := type.text ++ brackets }
        place := some (r.placeOf name) }

/-- What a declaration of fields brings that carries the annotation. -/
def fieldBindings (r : Reading) (owner : TypeName) (member mark : Node)
    (notes : Constants.Notes) : Bindings × Constants.Notes :=
  let hindering := r.modifierReport member
  match r.viewId owner.nesting mark notes with
  | (.error finding, notes) => (⟨[], hindering ++ [finding]⟩, notes)
  | (.ok id?, notes) =>
    match id?, member.child? .type, hindering with
    | some id, some type, [] =>
      let type := r.scope.cast owner.nesting (type.textIn r.source)
      (⟨r.declaredFields owner member type id, []⟩, notes)
    | _, _, _ => (⟨[], hindering⟩, notes)

/-- The finding on an annotated field of an interface or an annotation type. -/
def unsupported (r : Reading) (owner : TypeName) (holder : Kind) (mark : Node) : Finding :=
  let what := if holder == .annotationDeclaration then "an annotation type" else "an interface"
  .of .unsupportedEnclosingType (some (r.placeOf mark))
    (some ("`" ++ owner.relative ++ "` is " ++ what)) []

/-- What a member of the type of that nesting brings. -/
def memberBindings (r : Reading) (nesting : List String) (holder : Kind) (member : Node)
    (notes : Constants.Notes) : Bindings × Constants.Notes :=
  match TypeName.ofNesting? r.scope.header.package nesting, r.binding? member with
  | some owner, some mark =>
    if member.kind == .fieldDeclaration then r.fieldBindings owner member mark notes
    else if member.kind == .constantDeclaration then
      (⟨[], [r.unsupported owner holder mark]⟩, notes)
    else (.none, notes)
  | _, _ => (.none, notes)

/-- What the members of a text bring, in order. -/
def entryBindings (r : Reading) : List Entry → Constants.Notes → Bindings
  | [], _ => .none
  | .type _ :: entries, notes => r.entryBindings entries notes
  | .member nesting holder member :: entries, notes =>
    let (bindings, notes) := r.memberBindings nesting holder member notes
    bindings ++ r.entryBindings entries notes

/-- What is known of the source of that number, by its tree. -/
def ofTree (number : Nat) (source : String) (root : Node) : Reading :=
  let header := Header.ofTree source root
  let entries := outline source root
  { number, source
    scope := ⟨header, declaredTypes entries⟩
    constants := .ofEntries source header.package entries }

end Reading

/-- The fields and findings of the source of that number, by its tree: first the findings on the
places that are not Java, then what the members bring. -/
def bindingsOfTree (number : Nat) (source : String) (root : Node) : Bindings :=
  ⟨[], faultReport number source root⟩
    ++ (Reading.ofTree number source root).entryBindings (outline source root) []

/-- The fields and findings of the source of that number. -/
def bindings (number : Nat) (source : String) : Bindings :=
  bindingsOfTree number source (.ofText source)

/-- The fields and findings of the sources, from the number `start` on. -/
def bindingsFrom (start : Nat) : Sources → Bindings
  | [] => .none
  | source :: sources => bindings start source.content ++ bindingsFrom (start + 1) sources

/-- The fields and findings of all sources, in order. -/
def allBindings (sources : Sources) : Bindings :=
  bindingsFrom 0 sources

end ViewBinding.Java
