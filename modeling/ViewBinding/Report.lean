import ViewBinding.Source

/-!
# Findings

What is wrong with the inputs of a round is reported as a list of findings. A
`ViewBinding.Finding` has a `ViewBinding.Problem`, which fixes its severity and its wording, the
place where it was found, if it has one, related places, and hints. Whether a
`ViewBinding.Report` fails a round is `ViewBinding.Report.fails`: an error always does, a warning
only where the round is strict.
-/

namespace ViewBinding

/-- What can be wrong. -/
inductive Problem
  /-- A source is not Java everywhere. -/
  | syntaxError
  /-- An annotation has no view id. -/
  | missingViewId
  /-- A view id is not a constant. -/
  | nonConstantViewId
  /-- A view id is too large. -/
  | viewIdOutOfRange
  | privateField
  | staticField
  | finalField
  /-- An annotated field stands in an interface or an annotation type. -/
  | unsupportedEnclosingType
  /-- An entry of a manifest cannot be used. -/
  | invalidManifestEntry
  /-- Two fields of one type have the same view id. -/
  | duplicateViewId
  /-- Two types have the same companion. -/
  | duplicateGeneratedType
deriving DecidableEq, Repr, Inhabited

/-- How bad a finding is. -/
inductive Severity
  | error
  | warning
deriving DecidableEq, Repr, Inhabited

/-- The word for a severity. -/
def Severity.word : Severity → String
  | error => "error"
  | warning => "warning"

namespace Problem

/-- How bad the problem is. -/
def severity : Problem → Severity
  | syntaxError | duplicateViewId => .warning
  | _ => .error

/-- The hint that comes with the problem. -/
def hint? : Problem → Option String
  | nonConstantViewId =>
    some "use an integer literal or a `static final int` constant declared in the same file"
  | missingViewId => some "e.g., `@BindView(100)`"
  | privateField => some "make the field package-private"
  | staticField => some "bind an instance field instead"
  | finalField => some "remove the `final` modifier"
  | duplicateViewId => some "the later field wins; give each field its own id"
  | duplicateGeneratedType =>
    some "rename one of the types; companion types are named after the simple name"
  | _ => none

/-- The wording without a detail. -/
def plainMessage : Problem → String
  | syntaxError => "source contains syntax errors"
  | missingViewId => "`@BindView` requires a view id"
  | nonConstantViewId => "view id is not an integer constant"
  | viewIdOutOfRange => "view id does not fit in an `int`"
  | privateField => "cannot bind a private field"
  | staticField => "cannot bind a static field"
  | finalField => "cannot bind a final field"
  | unsupportedEnclosingType => "`@BindView` fields must be declared in a class, enum, or record"
  | invalidManifestEntry => "invalid manifest entry"
  | duplicateViewId => "duplicate view id"
  | duplicateGeneratedType => "duplicate generated type"

/-- The wording around a detail: what stands in front of it and what follows. -/
def frame : Problem → String × String
  | nonConstantViewId => ("view id `", "` is not an integer constant")
  | viewIdOutOfRange => ("view id `", "` does not fit in an `int`")
  | privateField => ("cannot bind private field `", "`")
  | staticField => ("cannot bind static field `", "`")
  | finalField => ("cannot bind final field `", "`")
  | duplicateViewId | duplicateGeneratedType => ("", "")
  | p => (p.plainMessage ++ ": ", "")

/-- The wording with or without a detail. -/
def message (p : Problem) : Option String → String
  | none => p.plainMessage
  | some detail => p.frame.1 ++ detail ++ p.frame.2

/-- The wording with a pair of braces for the detail. -/
def template (p : Problem) : String :=
  p.message (some "\x7b\x7d")

end Problem

/-- A place that has to do with a finding, and what it has to do with it. -/
structure Related where
  message : String
  place : Place
deriving DecidableEq, Repr, Inhabited

/-- Something wrong that was found. -/
structure Finding where
  problem : Problem
  /-- Where it was found; entries of manifests have no place. -/
  place : Option Place
  message : String
  related : List Related
  hints : List String
deriving DecidableEq, Repr, Inhabited

namespace Finding

/-- The finding of a problem, in its wording with the detail and with its hint. -/
def of (problem : Problem) (place : Option Place) (detail : Option String)
    (related : List Related) : Finding :=
  { problem, place, related
    message := problem.message detail
    hints := problem.hint?.toList }

/-- How bad the finding is. -/
def severity (f : Finding) : Severity :=
  f.problem.severity

/-- Whether the finding is an error. -/
def isError (f : Finding) : Bool :=
  f.severity == .error

/-- Whether the finding is a warning. -/
def isWarning (f : Finding) : Bool :=
  f.severity == .warning

/-- The extent as two numbers. -/
def showExtent (e : Text.Extent) : String :=
  toString e.start ++ ".." ++ toString e.stop

/-- The finding in one line. -/
def line (f : Finding) : String :=
  let place := match f.place with
    | some place => " at " ++ showExtent place.extent
    | none => ""
  let related := f.related.map fun r =>
    " (related: " ++ r.message ++ " at " ++ showExtent r.place.extent ++ ")"
  let hints := f.hints.map fun hint => " (hint: " ++ hint ++ ")"
  f.severity.word ++ place ++ ": " ++ f.message ++ String.join related ++ String.join hints

theorem isWarning_eq_not_isError (f : Finding) : f.isWarning = !f.isError := by
  unfold isWarning isError
  cases f.severity <;> rfl

end Finding

/-- What was found in one round, in order. -/
abbrev Report := List Finding

namespace Report

/-- The number of errors. -/
def errorCount (r : Report) : Nat :=
  r.countP Finding.isError

/-- The number of warnings. -/
def warningCount (r : Report) : Nat :=
  r.countP Finding.isWarning

/-- Whether there is an error. -/
def hasErrors (r : Report) : Bool :=
  r.any Finding.isError

/-- Whether there is a warning. -/
def hasWarnings (r : Report) : Bool :=
  r.any Finding.isWarning

/-- Whether the findings fail a round; in a strict one warnings do. -/
def fails (r : Report) (strict : Bool) : Bool :=
  r.hasErrors || (strict && r.hasWarnings)

theorem hasErrors_append (r s : Report) :
    hasErrors (r ++ s) = (r.hasErrors || s.hasErrors) := by
  simp [hasErrors]

theorem hasWarnings_append (r s : Report) :
    hasWarnings (r ++ s) = (r.hasWarnings || s.hasWarnings) := by
  simp [hasWarnings]

end Report

end ViewBinding
