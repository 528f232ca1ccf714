import ViewBinding.Companion
import ViewBinding.Java.Bindings
import ViewBinding.Manifest

/-!
# Rounds

A round reads sources and manifests, groups the fields it finds, and makes the companions. Its
findings come from two stages: the scan of the inputs, and the synthesis of the companions from
the fields. A round fails if its findings do; `ViewBinding.Round.failure?` blames the scan if the
findings of the scan alone fail, and the synthesis otherwise.
-/

namespace ViewBinding

/-- What was found in the inputs of a round. -/
structure Scan where
  sources : Sources
  fields : List BoundField
  report : Report
  /-- Whether warnings fail the round. -/
  strict : Bool
deriving Repr, Inhabited

/-- Scans sources and manifests; a manifest that cannot be read is an error. -/
def scan (sources manifests : Sources) (strict : Bool) : Except String Scan :=
  match Manifest.bindings manifests with
  | .error message => .error message
  | .ok (fields, report) =>
    let java := Java.allBindings sources
    .ok ⟨sources, java.fields ++ fields, java.report ++ report, strict⟩

/-- A round with its companions. -/
structure Round where
  sources : Sources
  groups : Grouping
  companions : List Companion
  report : Report
  /-- Whether the findings of the scan fail the round. -/
  scanFailed : Bool
  strict : Bool

/-- Groups the fields and makes the companions. -/
def Scan.synthesize (s : Scan) : Round :=
  let (groups, collisions) := Grouping.ofFields s.fields
  let (companions, clashes) := Companion.ofGroups groups
  { sources := s.sources
    groups, companions
    report := s.report ++ collisions ++ clashes
    scanFailed := s.report.fails s.strict
    strict := s.strict }

/-- The stage that failed a round, and the number of errors in the round. -/
inductive Failure
  | scan (errors : Nat)
  | synthesis (errors : Nat)
deriving DecidableEq, Repr

/-- The wording of a failure. -/
def Failure.message : Failure → String
  | .scan errors => "scan failed with " ++ toString errors ++ " errors"
  | .synthesis errors => "synthesis failed with " ++ toString errors ++ " errors"

namespace Round

/-- Whether the companions may be used. -/
def isValid (r : Round) : Bool :=
  !r.report.fails r.strict

/-- The failure of a round, if it failed. -/
def failure? (r : Round) : Option Failure :=
  if r.scanFailed then some (.scan r.report.errorCount)
  else if r.isValid then none
  else some (.synthesis r.report.errorCount)

/-- The companions of a round that did not fail. -/
def result (r : Round) : Except Failure (List Companion) :=
  match r.failure? with
  | some failure => .error failure
  | none => .ok r.companions

end Round

/-- The wording of the error that a manifest is. -/
def manifestErrorMessage (message : String) : String :=
  "invalid binding manifest: " ++ message

end ViewBinding
