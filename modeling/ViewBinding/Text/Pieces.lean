/-!
# Pieces of a text

A list of characters is taken apart at every occurrence of a separator by
`ViewBinding.Text.pieces` and put together by `ViewBinding.Text.joinPieces`; the two undo each
other (`ViewBinding.Text.joinPieces_pieces`, and `ViewBinding.Text.pieces_joinPieces` for a
non-empty list of pieces without separators).
-/

namespace ViewBinding.Text

/-- The pieces of the characters between the separators; there is always at least one. -/
def pieces (sep : Char) : List Char → List (List Char)
  | [] => [[]]
  | c :: cs =>
    if c = sep then [] :: pieces sep cs
    else
      match pieces sep cs with
      | [] => [[c]]
      | piece :: rest => (c :: piece) :: rest

/-- The pieces with a separator between each two neighbours. -/
def joinPieces (sep : Char) : List (List Char) → List Char
  | [] => []
  | [piece] => piece
  | piece :: rest => piece ++ sep :: joinPieces sep rest

variable {sep : Char}

theorem pieces_ne_nil (cs : List Char) : pieces sep cs ≠ [] := by
  cases cs with
  | nil => simp [pieces]
  | cons c cs =>
    unfold pieces
    split
    · simp
    · split <;> simp

theorem joinPieces_pieces (cs : List Char) : joinPieces sep (pieces sep cs) = cs := by
  induction cs with
  | nil => rfl
  | cons c cs ih =>
    unfold pieces
    split
    next h =>
      subst h
      cases hp : pieces c cs with
      | nil => exact absurd hp (pieces_ne_nil cs)
      | cons piece rest => rw [hp] at ih; simp [joinPieces, ih]
    next =>
      cases hp : pieces sep cs with
      | nil => exact absurd hp (pieces_ne_nil cs)
      | cons piece rest =>
        rw [hp] at ih
        cases rest with
        | nil => simpa [joinPieces] using ih
        | cons next rest => simpa [joinPieces] using ih

theorem joinPieces_cons {piece : List Char} {rest : List (List Char)}
    (h : rest ≠ []) : joinPieces sep (piece :: rest) = piece ++ sep :: joinPieces sep rest := by
  obtain ⟨next, rest, rfl⟩ := List.exists_cons_of_ne_nil h
  rfl

theorem joinPieces_append {front back : List (List Char)} (hfront : front ≠ [])
    (hback : back ≠ []) :
    joinPieces sep (front ++ back) = joinPieces sep front ++ sep :: joinPieces sep back := by
  induction front with
  | nil => contradiction
  | cons piece front ih =>
    by_cases hlast : front = []
    · subst hlast
      exact joinPieces_cons hback
    · rw [List.cons_append, joinPieces_cons (by simp [hlast]), ih hlast, joinPieces_cons hlast,
        List.append_assoc]
      rfl

theorem pieces_of_not_mem {cs : List Char} (h : sep ∉ cs) : pieces sep cs = [cs] := by
  induction cs with
  | nil => rfl
  | cons c cs ih =>
    have hc : c ≠ sep := fun hc => h (by simp [hc])
    simp [pieces, hc, ih fun hm => h (by simp [hm])]

theorem pieces_append (cs ds : List Char) :
    pieces sep (cs ++ sep :: ds) = pieces sep cs ++ pieces sep ds := by
  induction cs with
  | nil => simp [pieces]
  | cons c cs ih =>
    rw [List.cons_append, pieces, pieces, ih]
    split
    · rfl
    · cases h : pieces sep cs with
      | nil => exact absurd h (pieces_ne_nil cs)
      | cons piece rest => rfl

theorem pieces_append_sep {cs : List Char} (h : sep ∉ cs) (ds : List Char) :
    pieces sep (cs ++ sep :: ds) = cs :: pieces sep ds := by
  rw [pieces_append, pieces_of_not_mem h, List.singleton_append]

theorem flatten_pieces (cs : List Char) : (pieces sep cs).flatten = cs.filter (· ≠ sep) := by
  induction cs with
  | nil => rfl
  | cons c cs ih =>
    rw [pieces]
    split
    · rename_i h
      simp [h, ih]
    · rename_i h
      cases hp : pieces sep cs with
      | nil => exact absurd hp (pieces_ne_nil cs)
      | cons piece rest =>
        rw [List.filter_cons_of_pos (by simpa using h), ← ih, hp]
        rfl

theorem exists_mem_pieces_iff {cs : List Char} {c : Char} :
    (∃ piece ∈ pieces sep cs, c ∈ piece) ↔ c ∈ cs ∧ c ≠ sep := by
  rw [← List.mem_flatten, flatten_pieces, List.mem_filter, decide_eq_true_iff]

theorem pieces_joinPieces {ps : List (List Char)} (hne : ps ≠ []) (h : ∀ p ∈ ps, sep ∉ p) :
    pieces sep (joinPieces sep ps) = ps := by
  induction ps with
  | nil => exact absurd rfl hne
  | cons p ps ih =>
    cases ps with
    | nil => exact pieces_of_not_mem (h p (by simp))
    | cons q qs =>
      rw [joinPieces, pieces_append_sep (h p (by simp)),
        ih (by simp) fun r hr => h r (by simp [hr])]
      simp

end ViewBinding.Text
