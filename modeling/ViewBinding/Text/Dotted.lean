import ViewBinding.Text.Pieces

/-!
# Dotted texts

A qualified name is written as its segments with a full stop between them.
`ViewBinding.Text.segments` takes such a text apart at every full stop and
`ViewBinding.Text.dotted` puts it together; the two undo each other
(`ViewBinding.Text.dotted_segments`, and `ViewBinding.Text.segments_dotted` for a non-empty list
of segments without full stops).
-/

namespace ViewBinding.Text

/-- The segments of a dotted text; there is always at least one. -/
def segments (s : String) : List String :=
  (pieces '.' s.toList).map String.ofList

/-- The segments with a full stop between each two neighbours. -/
def dotted (names : List String) : String :=
  String.ofList (joinPieces '.' (names.map String.toList))

theorem segments_ne_nil (s : String) : segments s ≠ [] := by
  simp [segments, pieces_ne_nil]

theorem dotted_segments (s : String) : dotted (segments s) = s := by
  simp [dotted, segments, List.map_map, Function.comp_def, joinPieces_pieces]

theorem segments_dotted {names : List String} (hne : names ≠ [])
    (h : ∀ name ∈ names, '.' ∉ name.toList) : segments (dotted names) = names := by
  have hp : pieces '.' (joinPieces '.' (names.map String.toList)) = names.map String.toList :=
    pieces_joinPieces (by simpa using hne) (by simpa using h)
  simp [dotted, segments, hp, List.map_map, Function.comp_def]

end ViewBinding.Text
