import Mathlib.Data.List.Perm.Basic
import ViewBinding.Proofs.Manifest.Checks
import ViewBinding.Round

/-!
# The order of the inputs

A source is read by itself: its number goes into the places of what is found in it, and nowhere
else (`ViewBinding.Java.bindings_renumbered`). So a scan of the same inputs in another order finds
the same fields, in another order and at other places (`ViewBinding.Scan.sameFields_of_perm`).
Whether the manifests can be read does not depend on their order either.
-/

namespace ViewBinding

open Java

variable {number : Nat}

/-! ### Fields without places -/

/-- The field without its place. -/
def BoundField.unplaced (f : BoundField) : BoundField :=
  { f with place := none }

@[simp] theorem BoundField.owner_unplaced (f : BoundField) : f.unplaced.owner = f.owner := rfl

/-- **The lists have the same fields**, in whatever order and wherever they stand. -/
def SameFields (fields fields' : List BoundField) : Prop :=
  (fields.map BoundField.unplaced).Perm (fields'.map BoundField.unplaced)

/-! ### The number of a source -/

/-- The place in the source of that number. -/
def Place.renumbered (number : Nat) (place : Place) : Place :=
  { place with source := number }

/-- The field at its place in the source of that number. -/
def BoundField.renumbered (number : Nat) (f : BoundField) : BoundField :=
  { f with place := f.place.map (Place.renumbered number) }

/-- The finding at its place in the source of that number. -/
def Finding.renumbered (number : Nat) (x : Finding) : Finding :=
  { x with place := x.place.map (Place.renumbered number) }

namespace Java

/-- The fields and findings at their places in the source of that number. -/
def Bindings.renumbered (number : Nat) (b : Bindings) : Bindings :=
  ⟨b.fields.map (BoundField.renumbered number), b.report.map (Finding.renumbered number)⟩

theorem Bindings.renumbered_append (a b : Bindings) :
    (a ++ b).renumbered number = a.renumbered number ++ b.renumbered number := by
  change Bindings.mk ((a.fields ++ b.fields).map _) ((a.report ++ b.report).map _) = _
  rw [List.map_append, List.map_append]
  rfl

namespace Reading

variable {owner : TypeName} {member mark : Node}

/-- What is known of a text that has that number. -/
def renumbered (number : Nat) (r : Reading) : Reading :=
  { r with number }

variable (r : Reading)

theorem binding?_renumbered (member : Node) :
    (r.renumbered number).binding? member = r.binding? member :=
  rfl

theorem idNode_renumbered (mark : Node) :
    (r.renumbered number).idNode mark = (r.idNode mark).mapError (Finding.renumbered number) := by
  unfold idNode
  split
  · rfl
  · dsimp only
    split
    · rfl
    · split
      · rename_i hvalue
        rw [if_pos (by exact hvalue)]
        rfl
      · rename_i hvalue
        rw [if_neg (by exact hvalue)]
        rfl

theorem idFinding_renumbered (e : FoldError) :
    (r.renumbered number).idFinding e = (r.idFinding e).renumbered number := by
  cases e <;> rfl

theorem viewId_renumbered (nesting : List String) (mark : Node) (notes : Constants.Notes) :
    (r.renumbered number).viewId nesting mark notes =
      ((r.viewId nesting mark notes).1.mapError (Finding.renumbered number),
        (r.viewId nesting mark notes).2) := by
  unfold viewId
  rw [idNode_renumbered]
  rcases r.idNode mark with x | n?
  · rfl
  · cases n? with
    | none => rfl
    | some n =>
      have hfold : (r.renumbered number).constants.fold nesting
          (IdExpr.ofNode (r.renumbered number).source n) notes =
            r.constants.fold nesting (IdExpr.ofNode r.source n) notes := rfl
      dsimp only [Except.mapError]
      rw [hfold]
      rcases r.constants.fold nesting (IdExpr.ofNode r.source n) notes with ⟨e | id, notes'⟩
      · dsimp only [Except.mapError]
        rw [idFinding_renumbered]
      · rfl

theorem modifierReport_renumbered (member : Node) :
    (r.renumbered number).modifierReport member =
      (r.modifierReport member).map (Finding.renumbered number) := by
  unfold modifierReport
  rw [List.map_filterMap]
  refine List.filterMap_congr fun ⟨keyword, problem⟩ _ => ?_
  dsimp only
  cases member.modifier? keyword <;> rfl

theorem declaredFields_renumbered (type : CastType) (id : Int32) :
    (r.renumbered number).declaredFields owner member type id =
      (r.declaredFields owner member type id).map (BoundField.renumbered number) := by
  unfold declaredFields
  rw [List.map_filterMap]
  refine List.filterMap_congr fun declarator _ => ?_
  cases declarator.child? .name <;> rfl

theorem fieldBindings_renumbered (notes : Constants.Notes) :
    (r.renumbered number).fieldBindings owner member mark notes =
      ((r.fieldBindings owner member mark notes).1.renumbered number,
        (r.fieldBindings owner member mark notes).2) := by
  unfold fieldBindings
  rw [viewId_renumbered, modifierReport_renumbered]
  obtain ⟨x | id?, notes'⟩ := r.viewId owner.nesting mark notes
  · dsimp only [Except.mapError, Bindings.renumbered]
    rw [List.map_append]
    rfl
  · dsimp only [Except.mapError]
    cases id? with
    | none => rfl
    | some id =>
      cases member.child? .type with
      | none => rfl
      | some type =>
        -- fields are brought exactly if nothing is reported
        cases r.modifierReport member with
        | nil =>
          rw [List.map_nil]
          exact congrArg (fun fields => (Bindings.mk fields [], notes'))
            (r.declaredFields_renumbered _ id)
        | cons x report => rfl

theorem memberBindings_renumbered (nesting : List String) (holder : Kind) (member : Node)
    (notes : Constants.Notes) :
    (r.renumbered number).memberBindings nesting holder member notes =
      ((r.memberBindings nesting holder member notes).1.renumbered number,
        (r.memberBindings nesting holder member notes).2) := by
  have hscope : (r.renumbered number).scope = r.scope := rfl
  unfold memberBindings
  rw [binding?_renumbered, hscope]
  cases TypeName.ofNesting? r.scope.header.package nesting with
  | none => rfl
  | some owner =>
    cases r.binding? member with
    | none => rfl
    | some mark =>
      dsimp only
      split
      · exact r.fieldBindings_renumbered notes
      · split <;> rfl

/-- **The members of a text bring the same whatever its number**, but for the number itself. -/
theorem entryBindings_renumbered (entries : List Entry) (notes : Constants.Notes) :
    (r.renumbered number).entryBindings entries notes =
      (r.entryBindings entries notes).renumbered number := by
  induction entries generalizing notes with
  | nil => rfl
  | cons entry entries ih =>
    cases entry with
    | type nesting => exact ih notes
    | member nesting holder member =>
      rw [entryBindings, entryBindings, memberBindings_renumbered, Bindings.renumbered_append]
      exact congrArg (_ ++ ·) (ih (r.memberBindings nesting holder member notes).2)

end Reading

/-- **A source brings the same whatever its number**, but for the number itself. -/
theorem bindings_renumbered (number n : Nat) (source : String) :
    bindings number source = (bindings n source).renumbered number := by
  let r := Reading.ofTree n source (.ofText source)
  have hmembers : (r.renumbered number).entryBindings (outline source (.ofText source)) [] =
      (r.entryBindings (outline source (.ofText source)) []).renumbered number :=
    r.entryBindings_renumbered _ []
  have hfaults : faultReport number source (.ofText source) =
      (faultReport n source (.ofText source)).map (Finding.renumbered number) := by
    rw [faultReport, faultReport, flaggedReport, flaggedReport, List.map_map]
    rfl
  rw [bindings, bindings, bindingsOfTree, bindingsOfTree, Bindings.renumbered_append, ← hmembers,
    hfaults]
  rfl

/-- The fields of several sources are those of each of them. -/
theorem fields_bindingsFrom (start : Nat) (sources : Sources) :
    (bindingsFrom start sources).fields.map BoundField.unplaced =
      sources.flatMap fun source =>
        (bindings 0 source.content).fields.map BoundField.unplaced := by
  induction sources generalizing start with
  | nil => rfl
  | cons source sources ih =>
    rw [bindingsFrom, Bindings.fields_append, List.map_append, ih, List.flatMap_cons,
      bindings_renumbered start 0, Bindings.renumbered, List.map_map]
    rfl

end Java

/-! ### Scans -/

/-- **The same inputs in another order have the same fields**, and can be read if they could be read
before. -/
theorem Scan.sameFields_of_perm {sources sources' manifests manifests' : Sources}
    {strict : Bool} {s : Scan} (h : scan sources manifests strict = .ok s)
    (hsources : sources.Perm sources') (hmanifests : manifests.Perm manifests')
    (strict' : Bool) :
    ∃ t, scan sources' manifests' strict' = .ok t ∧ SameFields s.fields t.fields := by
  unfold scan at h
  split at h
  · cases h
  · rename_i fields report hbindings
    cases h
    obtain ⟨hparse, rfl⟩ := Manifest.of_bindings hbindings
    obtain ⟨out, hout⟩ := Manifest.exists_bindings fun source hmem =>
      hparse source (hmanifests.mem_iff.mpr hmem)
    obtain ⟨-, hfields⟩ := Manifest.of_bindings hout
    refine ⟨_, by rw [scan, hout], ?_⟩
    rw [SameFields, List.map_append, List.map_append, allBindings, allBindings,
      fields_bindingsFrom, fields_bindingsFrom, hfields]
    exact (hsources.flatMap_right _).append ((hmanifests.flatMap_right _).map _)

end ViewBinding
