/-!
# Decimal numerals

What the numeral of an integer is made of (`ViewBinding.Text.Decimal.isDigit_or_minus`), and that it
says which integer it is (`ViewBinding.Text.Decimal.toString_inj`).
-/

namespace ViewBinding.Text.Decimal

/-- The numeral of an integer is that of its absolute value, perhaps with a sign. -/
theorem toList_toString (n : Int) :
    (toString n).toList =
      if 0 ≤ n then Nat.toDigits 10 n.toNat else '-' :: Nat.toDigits 10 (-n).toNat := by
  rw [Int.toString_eq_repr, Int.repr_eq_if]
  split
  · exact Nat.toList_repr
  · rw [String.toList_append, Nat.toList_repr]
    rfl

theorem isDigit_of_mem {n : Nat} {c : Char} (h : c ∈ Nat.toDigits 10 n) : c.isDigit = true :=
  Nat.isDigit_of_mem_toDigits (by omega) (by omega) h

/-- A numeral has only digits and perhaps a sign. -/
theorem isDigit_or_minus {n : Int} {c : Char} (h : c ∈ (toString n).toList) :
    c.isDigit = true ∨ c = '-' := by
  rw [toList_toString] at h
  split at h
  · exact .inl (isDigit_of_mem h)
  · rcases List.mem_cons.mp h with hminus | h
    · exact .inr hminus
    · exact .inl (isDigit_of_mem h)

/-- The integer that the characters of a numeral stand for. -/
def valueOf : List Char → Int
  | '-' :: ds => -(Nat.ofDigitChars 10 ds 0 : Nat)
  | ds => (Nat.ofDigitChars 10 ds 0 : Nat)

theorem valueOf_of_ne {ds : List Char} (h : '-' ∉ ds) :
    valueOf ds = (Nat.ofDigitChars 10 ds 0 : Nat) := by
  rw [valueOf]
  rintro rest rfl
  exact h List.mem_cons_self

theorem valueOf_toString (n : Int) : valueOf (toString n).toList = n := by
  rw [toList_toString]
  split
  · rename_i hn
    have hminus : '-' ∉ Nat.toDigits 10 n.toNat := by
      intro hmem
      have hdigit := isDigit_of_mem hmem
      cases hdigit
    rw [valueOf_of_ne hminus, Nat.ofDigitChars_toDigits (by omega) (by omega),
      Int.toNat_of_nonneg hn]
  · rename_i hn
    rw [valueOf, Nat.ofDigitChars_toDigits (by omega) (by omega)]
    omega

theorem toString_inj {m n : Int} (h : (toString m).toList = (toString n).toList) : m = n := by
  rw [← valueOf_toString m, h, valueOf_toString]

end ViewBinding.Text.Decimal
