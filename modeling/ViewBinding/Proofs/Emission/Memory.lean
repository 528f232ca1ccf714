import ViewBinding.Proofs.Emission.InTurn

/-!
# Storing companions in memory

An emission to memory always succeeds (`ViewBinding.emit_shelf`). The text that it leaves at a path
is that of the last companion with the path (`ViewBinding.Shelf.get?_putAll`); if no two of the
companions have one path, all texts are left, in the order of the companions
(`ViewBinding.Shelf.putAll_of_pairwise`).
-/

namespace ViewBinding

open Files

variable {l : Layout} {shelf : Shelf} {path q : Path} {text : String} {companions : List Companion}

namespace Shelf

/-- Puts the texts of companions in their places, one after the other. -/
def putAll (l : Layout) (shelf : Shelf) (companions : List Companion) : Shelf :=
  companions.foldl (fun shelf c => shelf.put c.path (c.render l)) shelf

theorem same_congr {p : Path} (h : p.same path = true) (q : Path) : p.same q = path.same q := by
  rw [Path.same, Path.same, eq_of_beq h]

theorem get?_put (shelf : Shelf) (path : Path) (text : String) (q : Path) :
    (shelf.put path text).get? q = if path.same q then some text else shelf.get? q := by
  induction shelf with
  | nil =>
    rw [put, get?, List.find?_cons]
    cases path.same q <;> rfl
  | cons entry shelf ih =>
    obtain ⟨p, old⟩ := entry
    simp only [get?] at ih
    rw [put]
    split
    · rename_i hsame
      rw [get?, get?, List.find?_cons, List.find?_cons, same_congr hsame]
      cases path.same q <;> rfl
    · rename_i hsame
      rw [get?, get?, List.find?_cons, List.find?_cons]
      cases hp : p.same q with
      | false => exact ih
      | true =>
        have hpath : path.same q = false := by
          rw [← Bool.not_eq_true]
          intro hpath
          rw [Path.same, beq_iff_eq] at hp hpath hsame
          exact hsame (hp.trans hpath.symm)
        simp [hpath]

/-- The text at a path is that of the companions there, if they agree. -/
theorem get?_putAll (hsame : ∀ c ∈ companions, c.path.same q = true → c.render l = text)
    (h : shelf.get? q = some text ∨ ∃ c ∈ companions, c.path.same q = true) :
    (shelf.putAll l companions).get? q = some text := by
  induction companions generalizing shelf with
  | nil => exact h.resolve_right (by simp)
  | cons c companions ih =>
    obtain ⟨hc, hrest⟩ := List.forall_mem_cons.mp hsame
    refine ih hrest ?_
    rw [get?_put]
    split
    · rename_i hq
      exact .inl (congrArg some (hc hq))
    · rename_i hq
      simpa [hq] using h

theorem put_of_forall (text : String) (h : ∀ entry ∈ shelf, entry.1.same path = false) :
    shelf.put path text = shelf ++ [(path, text)] := by
  induction shelf with
  | nil => rfl
  | cons entry shelf ih =>
    obtain ⟨hentry, hshelf⟩ := List.forall_mem_cons.mp h
    obtain ⟨p, old⟩ := entry
    rw [put, if_neg (by simp [hentry]), ih hshelf]
    rfl

/-- Texts with different paths stay in order. -/
theorem putAll_of_pairwise (l : Layout) (shelf : Shelf)
    (hshelf : ∀ entry ∈ shelf, ∀ c ∈ companions, entry.1.same c.path = false)
    (h : companions.Pairwise fun c d => c.path.same d.path = false) :
    shelf.putAll l companions = shelf ++ companions.map fun c => (c.path, c.render l) := by
  induction companions generalizing shelf with
  | nil => exact (List.append_nil shelf).symm
  | cons c companions ih =>
    obtain ⟨hc, hrest⟩ := List.pairwise_cons.mp h
    have hput : shelf.put c.path (c.render l) = shelf ++ [(c.path, c.render l)] :=
      put_of_forall _ fun entry hentry => hshelf entry hentry c List.mem_cons_self
    have hshelf' : ∀ entry ∈ shelf ++ [(c.path, c.render l)], ∀ d ∈ companions,
        entry.1.same d.path = false := by
      intro entry hentry d hd
      rcases List.mem_append.mp hentry with hentry | hentry
      · exact hshelf entry hentry d (List.mem_cons_of_mem _ hd)
      · rw [List.mem_singleton.mp hentry]
        exact hc d hd
    rw [putAll, List.foldl_cons, hput]
    exact (ih _ hshelf' hrest).trans (by simp)

end Shelf

/-- **An emission to memory puts every text in its place.** -/
theorem emit_shelf (l : Layout) (companions : List Companion) (shelf : Shelf) :
    emit Shelf.store l companions shelf =
      (.ok (companions.map Companion.path), shelf.putAll l companions) := by
  induction companions generalizing shelf with
  | nil => rfl
  | cons c companions ih =>
    have hstore : Shelf.store c (c.render l) shelf =
        (.ok c.path, shelf.put c.path (c.render l)) := rfl
    rw [emit_cons_of_ok hstore, ih]
    rfl

end ViewBinding
