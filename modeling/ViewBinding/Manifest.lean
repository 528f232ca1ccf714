import ViewBinding.Field
import ViewBinding.Java.TypeText
import ViewBinding.Json.Reader
import ViewBinding.Report

/-!
# Manifests

A manifest lists fields to bind in JSON, for hosts that know their declarations without the Java
texts: it is an array of entries, or an object whose member `fields` is one. An entry is an object
with the members `declaringType`, `package`, which may be left out or null, `fieldName`,
`fieldType` and `viewId`, or an array of these five values in this order.
`ViewBinding.Manifest.parse` reads a manifest, and `ViewBinding.Manifest.bindings` checks the
entries one by one: one that cannot be used is reported and left out, but a manifest that cannot
be read at all is an error.
-/

namespace ViewBinding.Manifest

open Java Text

/-- An entry as it is written. -/
structure Entry where
  declaringType : String
  package : Option String
  fieldName : String
  fieldType : String
  viewId : Int
deriving DecidableEq, Repr, Inhabited

/-- Why a manifest cannot be read. -/
inductive Error
  /-- It is not JSON. -/
  | json (fault : Json.Fault)
  /-- It is JSON, but not a manifest. -/
  | shape
deriving DecidableEq, Repr

/-- The wording of an error in a text. -/
def Error.message (text : String) : Error → String
  | json fault => fault.message text
  | shape => "data did not match any variant of untagged enum RawManifest"

/-! ### Reading entries -/

/-- A string or null. -/
def optionalString? : Json → Option (Option String)
  | .null => some none
  | .string s => some (some s)
  | _ => none

/-- An integer of 64 bits with a sign. -/
def integer? : Json → Option Int
  | .int n => if n ≤ Int64.maxValue.toInt then some n else none
  | _ => none

/-- The value of the only member of that key. -/
def only? (members : List (String × Json)) (key : String) : Option Json :=
  match Json.valuesOf members key with
  | [v] => some v
  | _ => none

/-- The entry with these five values. -/
def entry? (type package name fieldType id : Json) : Option Entry := do
  some ⟨← type.string?, ← optionalString? package, ← name.string?, ← fieldType.string?,
    ← integer? id⟩

/-- The entry that a JSON value is. -/
def entryOf? : Json → Option Entry
  | .array [type, package, name, fieldType, id] => entry? type package name fieldType id
  | .object members => do
    let package ←
      match Json.valuesOf members "package" with
      | [] => some Json.null
      | [v] => some v
      | _ => none
    entry? (← only? members "declaringType") package (← only? members "fieldName")
      (← only? members "fieldType") (← only? members "viewId")
  | _ => none

/-- The entries that a JSON value holds. -/
def entriesOf? : Json → Option (List Entry)
  | .array elements => elements.mapM entryOf?
  | .object members =>
    match only? members "fields" with
    | some (.array elements) => elements.mapM entryOf?
    | _ => none
  | _ => none

/-- The entries of a manifest. -/
def parse (text : String) : Except Error (List Entry) :=
  match Json.readPrefix text with
  | .error fault => .error (.json fault)
  | .ok (value, c) =>
    match entriesOf? value with
    | none => .error .shape
    | some entries =>
      match Json.readEnd c with
      | .error fault => .error (.json fault)
      | .ok () => .ok entries

/-! ### Checking entries -/

/-- Why an entry cannot be used. -/
inductive Flaw
  | package (package : String)
  | declaringType (type : String)
  | fieldName (name : String)
  | noType (name : String)
  | viewId (id : Int)
deriving DecidableEq, Repr

/-- The wording of a flaw. -/
def Flaw.message : Flaw → String
  | .package text => "`" ++ text ++ "` is not a package name"
  | .declaringType text => "`" ++ text ++ "` is not a type name"
  | .fieldName text => "`" ++ text ++ "` is not a valid field name"
  | .noType name => "field `" ++ name ++ "` has no type"
  | .viewId n => "view id " ++ toString n ++ " does not fit in an `int`"

namespace Entry

/-- The declaring type of an entry: relative to the package if there is one, else guessed. -/
def owner (e : Entry) : Except Flaw TypeName :=
  match e.package with
  | some package =>
    if !isPackageName package then .error (.package package)
    else
      let names := segments e.declaringType
      match TypeName.ofNesting? package names with
      | some owner =>
        if names.all isIdentifier then .ok owner else .error (.declaringType e.declaringType)
      | none => .error (.declaringType e.declaringType)
  | none =>
    match TypeName.guess? e.declaringType with
    | some owner => .ok owner
    | none => .error (.declaringType e.declaringType)

/-- The field that an entry describes, or the first flaw of the entry. -/
def toField (e : Entry) : Except Flaw BoundField := do
  let owner ← e.owner
  if !isIdentifier e.fieldName then throw (.fieldName e.fieldName)
  let type := TypeText.tidy e.fieldType
  if type = "" then throw (.noType e.fieldName)
  if -2147483648 ≤ e.viewId && e.viewId ≤ 2147483647 then
    return ⟨owner, e.fieldName, ⟨type, []⟩, Int32.ofInt e.viewId, none⟩
  else throw (.viewId e.viewId)

end Entry

/-- The finding on the entry of that number in a manifest shown as `display`. -/
def finding (display : String) (number : Nat) (flaw : Flaw) : Finding :=
  .of .invalidManifestEntry none
    (some (display ++ " entry " ++ toString number ++ ": " ++ flaw.message)) []

/-- The fields and findings of entries, the first of which has the number `number`. -/
def entryBindings (display : String) (number : Nat) : List Entry → List BoundField × Report
  | [] => ([], [])
  | e :: entries =>
    let (fields, report) := entryBindings display (number + 1) entries
    match e.toField with
    | .ok field => (field :: fields, report)
    | .error flaw => (fields, finding display number flaw :: report)

/-- The fields and findings of all manifests, or the wording of the first error in one. -/
def bindings : Sources → Except String (List BoundField × Report)
  | [] => .ok ([], [])
  | source :: sources =>
    match parse source.content with
    | .error e => .error (e.message source.content)
    | .ok entries =>
      match bindings sources with
      | .error message => .error message
      | .ok (fields, report) =>
        let (first, findings) := entryBindings source.origin.display 0 entries
        .ok (first ++ fields, findings ++ report)

end ViewBinding.Manifest
