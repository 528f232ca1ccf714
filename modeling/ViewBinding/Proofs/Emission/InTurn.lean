import ViewBinding.Emission

/-!
# Storing companions in turn

Companions are stored one after the other, each in the files that the one before has left behind.
`ViewBinding.StoresAll` says that every one of these stores succeeds; it mentions no error and no
stopping. An emission succeeds exactly if they all do
(`ViewBinding.emit_eq_ok_iff`).
-/

namespace ViewBinding

open Files

variable {σ : Type} {store : Store (StateM σ)} {l : Layout}

/-- **All companions are stored**, one after the other: this leads from the files `before` to the
files `after`, and the companions are at these paths. -/
inductive StoresAll (store : Store (StateM σ)) (l : Layout) :
    List Companion → (before : σ) → List Path → (after : σ) → Prop
  | nil (files : σ) : StoresAll store l [] files [] files
  | cons {c : Companion} {companions : List Companion} {path : Path} {paths : List Path}
      {before between after : σ} (first : store c (c.render l) before = (.ok path, between))
      (rest : StoresAll store l companions between paths after) :
      StoresAll store l (c :: companions) before (path :: paths) after

/-! ### One companion -/

variable {c : Companion} {companions : List Companion} {path : Path} {paths : List Path}
  {before between after : σ} {e : WriteError}

/-- An action on the files goes on where the one before it has ended. -/
theorem bind_apply {α β : Type} {action : StateM σ α} {result : α}
    (h : action before = (result, between)) (next : α → StateM σ β) :
    (action >>= next) before = next result between := by
  change (StateT.bind action next) before = _
  rw [StateT.bind, h]
  rfl

/-- The first companion that cannot be stored ends the emission. -/
theorem emit_cons_of_error (h : store c (c.render l) before = (.error e, between))
    (companions : List Companion) :
    emit store l (c :: companions) before = (.error e, between) := by
  rw [emit, bind_apply h]
  rfl

/-- After a companion that is stored, all is left to the others. -/
theorem emit_cons_of_ok (h : store c (c.render l) before = (.ok path, between))
    (companions : List Companion) :
    emit store l (c :: companions) before =
      ((emit store l companions between).1.map (path :: ·),
        (emit store l companions between).2) := by
  rcases hrest : emit store l companions between with ⟨rest, after⟩
  rw [emit, bind_apply h]
  change (emit store l companions >>= _) between = _
  rw [bind_apply hrest]
  cases rest <;> rfl

/-! ### All companions -/

/-- **An emission succeeds exactly if every companion is stored.** -/
theorem emit_eq_ok_iff :
    emit store l companions before = (.ok paths, after) ↔
      StoresAll store l companions before paths after := by
  induction companions generalizing before paths with
  | nil =>
    constructor
    · intro h
      cases h
      exact .nil _
    · rintro ⟨⟩
      rfl
  | cons c companions ih =>
    rcases hstore : store c (c.render l) before with ⟨out, between⟩
    cases out with
    | error e =>
      rw [emit_cons_of_error hstore]
      constructor
      · intro h
        cases h
      · rintro (_ | ⟨hfirst, -⟩)
        rw [hstore] at hfirst
        cases hfirst
    | ok path =>
      rw [emit_cons_of_ok hstore]
      constructor
      · intro h
        rcases hrest : emit store l companions between with ⟨rest, last⟩
        rw [hrest] at h
        cases rest with
        | error e => cases h
        | ok rest =>
          cases h
          exact .cons hstore (ih.mp hrest)
      · rintro (_ | ⟨hfirst, hrest⟩)
        rw [hstore] at hfirst
        cases hfirst
        rw [ih.mpr hrest]
        rfl

end ViewBinding
