import ViewBinding.Proofs.Constants.Obstacles

/-!
# Constants that wait for each other

A constant without a value stops somewhere in its initializer. Where that is the name of another
constant, it waits for that one (`ViewBinding.Java.Constants.WaitsFor`), and as there is one first
part without a value only, it waits for one constant only. Going on from constant to constant, one
either comes to an error (`ViewBinding.Java.Constants.FailsWith`) or into a cycle of constants that
wait for each other (`ViewBinding.Java.Constants.InCycle`), and never to both
(`ViewBinding.Java.Constants.FailsWith.not_inCycle`).

All of this is said without notes, so it holds of a text once and for all.
-/

namespace ViewBinding.Java.Constants

open Relation Text

variable {table : Constants} {scope : List String} {e : IdExpr} {a b c d : ConstantName}
  {place place' : Extent} {err err' : FoldError}

/-! ### Names of constants -/

theorem declares_of_resolve? {name : String} (h : table.resolve? scope name = some c) :
    table.declares c = true := by
  simpa using List.find?_some h

theorem declares_of_select? {object name : String} (h : table.select? object name = some c) :
    table.declares c = true := by
  unfold select? at h
  split at h
  · cases h
  · exact (Option.filter_eq_some_iff.mp h).2

/-- A constant at which an expression stops is declared. -/
theorem StopsAt.exists_initializer (h : table.StopsAt scope e (.constant c place)) :
    ∃ e', table.initializer? c = some e' := by
  generalize ho : Obstacle.constant c place = o at h
  induction h with
  | group _ ih | operand _ _ ih | left _ ih | right _ _ ih => exact ih ho
  | name hc =>
    cases ho
    exact Option.isSome_iff_exists.mp (declares_of_resolve? hc)
  | select hc =>
    cases ho
    exact Option.isSome_iff_exists.mp (declares_of_select? hc)
  | _ => cases ho

/-! ### Waiting -/

/-- **The constant `c` waits for `d`**, which its initializer names at that place: this is the first
part of the initializer that has no value. -/
def WaitsFor (table : Constants) (c d : ConstantName) (place : Extent) : Prop :=
  ∃ e, table.initializer? c = some e ∧ table.StopsAt c.owner e (.constant d place)

/-- The constant `c` waits for `d` somewhere. -/
def Waits (table : Constants) (c d : ConstantName) : Prop :=
  ∃ place, table.WaitsFor c d place

theorem WaitsFor.waits (h : table.WaitsFor c d place) : table.Waits c d :=
  ⟨place, h⟩

/-- A constant waits for one constant only, at one place. -/
theorem WaitsFor.unique (h : table.WaitsFor c a place) (h' : table.WaitsFor c b place') :
    a = b ∧ place = place' := by
  obtain ⟨e, he, h⟩ := h
  obtain ⟨e', he', h'⟩ := h'
  obtain rfl := Option.some.inj (he.symm.trans he')
  exact Obstacle.constant.inj (h.unique h')

theorem Waits.unique (h : table.Waits c a) (h' : table.Waits c b) : a = b :=
  (h.choose_spec.unique h'.choose_spec).1

theorem rightUnique_waits (table : Constants) : Relator.RightUnique table.Waits :=
  fun _ _ _ h h' => h.unique h'

theorem Waits.dependsOn (h : table.Waits c d) : table.DependsOn c d := by
  obtain ⟨_, e, he, h⟩ := h
  exact ⟨e, he, h.mem_references⟩

/-- A constant that waits has no value. -/
theorem Waits.not_defines_left (h : table.Waits c d) (v : Int32) : ¬table.Defines c v := by
  obtain ⟨_, e, he, h⟩ := h
  rintro ⟨e', he', hv⟩
  obtain rfl := Option.some.inj (he.symm.trans he')
  exact h.not_denotes v hv

/-! ### Errors and cycles -/

/-- **The constant fails with the error**: going on from it to the constants that are waited for
leads to a constant whose initializer stops at the error. -/
inductive FailsWith (table : Constants) : ConstantName → FoldError → Prop
  | here {c : ConstantName} {e : IdExpr} {err : FoldError} (he : table.initializer? c = some e)
    (h : table.StopsAt c.owner e (.error err)) : FailsWith table c err
  | next {c d : ConstantName} {err : FoldError} (h : table.Waits c d)
    (hd : FailsWith table d err) : FailsWith table c err

/-- **A reference of a cycle**: the constant `c` waits for `d`, named at that place, and so in the
end for itself. -/
structure InCycle (table : Constants) (c d : ConstantName) (place : Extent) : Prop where
  waitsFor : table.WaitsFor c d place
  back : ReflTransGen table.Waits d c

theorem not_waits_of_stopsAt_error (he : table.initializer? c = some e)
    (h : table.StopsAt c.owner e (.error err)) : ¬table.Waits c d := by
  rintro ⟨place, e', he', h'⟩
  obtain rfl := Option.some.inj (he.symm.trans he')
  cases h.unique h'

theorem FailsWith.unique (h : table.FailsWith c err) (h' : table.FailsWith c err') :
    err = err' := by
  induction h with
  | here he h =>
    cases h' with
    | here he' h' =>
      obtain rfl := Option.some.inj (he.symm.trans he')
      exact Obstacle.error.inj (h.unique h')
    | next hd _ => exact absurd hd (not_waits_of_stopsAt_error he h)
  | next hd _ ih =>
    cases h' with
    | here he' h' => exact absurd hd (not_waits_of_stopsAt_error he' h')
    | next hd' h' =>
      obtain rfl := hd.unique hd'
      exact ih h'

/-- **What fails with an error leads into no cycle.** -/
theorem FailsWith.not_inCycle (h : table.FailsWith c err) (hc : ReflTransGen table.Waits c a) :
    ¬table.InCycle a b place := by
  induction h with
  | here he h =>
    intro hcycle
    rcases hc.cases_head with rfl | ⟨d, hd, -⟩
    · exact not_waits_of_stopsAt_error he h hcycle.waitsFor.waits
    · exact not_waits_of_stopsAt_error he h hd
  | next hd _ ih =>
    intro hcycle
    rcases hc.cases_head with rfl | ⟨d', hd', hrest⟩
    · obtain rfl := hd.unique hcycle.waitsFor.waits
      exact ih hcycle.back hcycle
    · obtain rfl := hd.unique hd'
      exact ih hrest hcycle

/-- From a constant of a cycle one only ever comes to others of the same cycle. -/
theorem InCycle.back_of_reaches (h : table.InCycle a b place)
    (hc : ReflTransGen table.Waits a c) : ReflTransGen table.Waits c a := by
  induction hc with
  | refl => exact .refl
  | @tail d c _ hdc ih =>
    rcases ih.cases_head with rfl | ⟨c', hdc', hback⟩
    · obtain rfl := hdc.unique h.waitsFor.waits
      exact h.back
    · obtain rfl := hdc.unique hdc'
      exact hback

/-- **One comes into one cycle only.** -/
theorem InCycle.reaches {a' b' : ConstantName} (h : table.InCycle a' b' place)
    (hc : ReflTransGen table.Waits c a) (hc' : ReflTransGen table.Waits c a') :
    ReflTransGen table.Waits a a' := by
  rcases ReflTransGen.total_of_right_unique (rightUnique_waits table) hc hc' with haa' | ha'a
  · exact haa'
  · exact h.back_of_reaches ha'a

end ViewBinding.Java.Constants
