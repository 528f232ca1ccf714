/-!
# Sets of code points as lists of ranges

A Unicode property is given to this library as data: the ascending list of the ranges of code
points that have it, both ends included. `ViewBinding.Text.inRanges` is the membership test, and
the tables themselves are in `ViewBinding.Text.Letter` and `ViewBinding.Text.Width`.
-/

namespace ViewBinding.Text

/-- Whether the code point of `c` lies in one of the ranges, both ends included. -/
def inRanges (ranges : List (Nat × Nat)) (c : Char) : Bool :=
  ranges.any fun range => range.1 ≤ c.toNat && c.toNat ≤ range.2

@[simp] theorem inRanges_nil (c : Char) : inRanges [] c = false := rfl

theorem inRanges_iff {ranges : List (Nat × Nat)} {c : Char} :
    inRanges ranges c = true ↔ ∃ range ∈ ranges, range.1 ≤ c.toNat ∧ c.toNat ≤ range.2 := by
  simp [inRanges]

/-- A set of code points lies in another one if each of its ranges lies in one of the other. -/
theorem inRanges_mono {ranges others : List (Nat × Nat)} {c : Char}
    (hall : ranges.all fun r => others.any fun other => other.1 ≤ r.1 && r.2 ≤ other.2)
    (h : inRanges ranges c = true) : inRanges others c = true := by
  obtain ⟨r, hr, hfrom, hto⟩ := inRanges_iff.mp h
  obtain ⟨other, hother, hwithin⟩ := List.any_eq_true.mp (List.all_eq_true.mp hall r hr)
  simp only [Bool.and_eq_true, decide_eq_true_eq] at hwithin
  exact inRanges_iff.mpr
    ⟨other, hother, Nat.le_trans hwithin.1 hfrom, Nat.le_trans hto hwithin.2⟩

end ViewBinding.Text
