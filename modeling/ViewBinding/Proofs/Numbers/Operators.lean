import Mathlib.Data.Int.Bitwise
import Mathlib.Data.Int.ModEq
import ViewBinding.Java.Constants

/-!
# The operators on exact integers

View ids are computed with the wrapping arithmetic of `Int32`. Here its operators are compared with
the integers themselves, which have no size: sums, differences and products are wrapped to 32 bits
(`ViewBinding.Java.Constants.wrapped`), a quotient is truncated toward zero, a shift goes by an
amount modulo 32, to the right either rounding down or moving the bits of the pattern
(`ViewBinding.Java.Constants.exactBinary?`). The values of the operators are these
(`ViewBinding.Java.Constants.binaryValue?_exact`), and only a division by zero has none
(`ViewBinding.Java.Constants.binaryValue?_eq_none_iff`).
-/

namespace ViewBinding.Java.Constants

/-! ### Exact integers -/

/-- The number of patterns of 32 bits. -/
def modulus : Nat := 2 ^ 32

/-- **What an integer comes to as an `int`**: the number in range from which it differs by a
multiple of `2 ^ 32`. -/
def wrapped (n : Int) : Int :=
  n.bmod modulus

/-- The 32 bits of an integer, read as a number without a sign. -/
def pattern (n : Int) : Nat :=
  (n % modulus).toNat

/-- By how much a shift moves. -/
def distance (n : Int) : Nat :=
  (n % 32).toNat

/-- **The unary operators on exact integers.** -/
def exactUnary? (operator : String) (a : Int) : Option Int :=
  match operator with
  | "-" => some (wrapped (-a))
  | "+" => some a
  | "~" => some (-a - 1)
  | _ => none

/-- **The binary operators on exact integers.** A quotient is truncated toward zero and the
remainder goes with it; a shift to the right rounds down, or moves the pattern of bits. -/
def exactBinary? (operator : String) (a b : Int) : Option Int :=
  match operator with
  | "+" => some (wrapped (a + b))
  | "-" => some (wrapped (a - b))
  | "*" => some (wrapped (a * b))
  | "/" => if b = 0 then none else some (wrapped (a.tdiv b))
  | "%" => if b = 0 then none else some (a.tmod b)
  | "|" => some (wrapped (pattern a ||| pattern b : Nat))
  | "&" => some (wrapped (pattern a &&& pattern b : Nat))
  | "^" => some (wrapped (pattern a ^^^ pattern b : Nat))
  | "<<" => some (wrapped (a * 2 ^ distance b))
  | ">>" => some (a / 2 ^ distance b)
  | ">>>" => some (wrapped (pattern a / 2 ^ distance b : Nat))
  | _ => none

/-- The number that an integer wraps to is the only one in range that is congruent to it. -/
theorem wrapped_eq_iff {n m : Int} :
    wrapped n = m ↔ (-2 ^ 31 ≤ m ∧ m < 2 ^ 31) ∧ n ≡ m [ZMOD 2 ^ 32] := by
  rw [wrapped, Int.bmod_eq_iff (by decide), Int.modEq_iff_dvd, and_assoc]
  rfl

theorem wrapped_modEq (n : Int) : wrapped n ≡ n [ZMOD 2 ^ 32] :=
  (wrapped_eq_iff.mp rfl).2.symm

theorem wrapped_congr {n m : Int} (h : n ≡ m [ZMOD 2 ^ 32]) : wrapped n = wrapped m :=
  wrapped_eq_iff.mpr ⟨(wrapped_eq_iff.mp rfl).1, h.trans (wrapped_modEq m).symm⟩

/-- An `int` is in range already. -/
theorem wrapped_toInt (v : Int32) : wrapped v.toInt = v.toInt :=
  wrapped_eq_iff.mpr ⟨⟨v.le_toInt, v.toInt_lt⟩, rfl⟩

/-! ### Bits -/

/-- An integer and its pattern differ by a multiple of `2 ^ 32`. -/
theorem pattern_modEq (n : Int) : (pattern n : Int) ≡ n [ZMOD 2 ^ 32] := by
  rw [pattern, Int.toNat_of_nonneg (Int.emod_nonneg n (by decide))]
  exact Int.mod_modEq n (2 ^ 32)

/-- The bits of an `int` are its pattern. -/
theorem toNat_eq_pattern (x : BitVec 32) : x.toNat = pattern x.toInt := by
  conv_lhs => rw [← BitVec.ofInt_toInt (x := x), BitVec.toNat_ofInt]
  rfl

/-- The amount of a shift is never negative and less than 32. -/
theorem toNat_smod (x : BitVec 32) : (x.smod 32).toNat = distance x.toInt := by
  have h : (x.smod 32).toInt = x.toInt % 32 := by
    rw [BitVec.toInt_smod, Int.fmod_eq_emod_of_nonneg _ (by decide)]
    rfl
  rw [toNat_eq_pattern, h, pattern, distance, modulus]
  omega

theorem toNat_umod (x : BitVec 32) : (x % 32).toNat = distance x.toInt := by
  rw [BitVec.toNat_umod, toNat_eq_pattern, pattern, distance, modulus]
  change (x.toInt % (2 ^ 32 : Nat)).toNat % 32 = _
  omega

theorem toInt_eq_wrapped_toNat (x : BitVec 32) : x.toInt = wrapped x.toNat :=
  BitVec.toInt_eq_toNat_bmod x

theorem toInt_shiftLeft (v w : Int32) :
    (v <<< w).toInt = wrapped (v.toInt * 2 ^ distance w.toInt) := by
  rw [← Int32.toInt_toBitVec, Int32.toBitVec_shiftLeft, BitVec.shiftLeft_eq', toNat_smod,
    BitVec.toInt_shiftLeft, Nat.shiftLeft_eq, toNat_eq_pattern, Nat.cast_mul, Nat.cast_pow]
  exact wrapped_congr ((pattern_modEq v.toInt).mul_right _)

theorem toInt_shiftRight (v w : Int32) :
    (v >>> w).toInt = v.toInt / 2 ^ distance w.toInt := by
  rw [← Int32.toInt_toBitVec, Int32.toBitVec_shiftRight, BitVec.sshiftRight_eq', toNat_smod,
    BitVec.toInt_sshiftRight, Int.shiftRight_eq_div_pow, Int32.toInt_toBitVec, Int32.toInt_toBitVec]
  norm_cast

theorem toInt_unsignedShiftRight (v w : Int32) :
    (v.toUInt32 >>> w.toUInt32).toInt32.toInt =
      wrapped (pattern v.toInt / 2 ^ distance w.toInt : Nat) := by
  rw [← Int32.toInt_toBitVec, toInt_eq_wrapped_toNat]
  change wrapped ((v.toUInt32 >>> w.toUInt32).toBitVec.toNat : Nat) = _
  rw [UInt32.toBitVec_shiftRight, BitVec.ushiftRight_eq', BitVec.toNat_ushiftRight, toNat_umod,
    Nat.shiftRight_eq_div_pow, toNat_eq_pattern]
  rfl

/-! ### The operators -/

/-- **A unary operator does what it does on exact integers.** -/
theorem unaryValue?_exact (operator : String) (v : Int32) :
    (unaryValue? operator v).map Int32.toInt = exactUnary? operator v.toInt := by
  unfold unaryValue?
  split
  · exact congrArg some (Int32.toInt_neg v)
  · rfl
  · -- the complement is in range already
    have hrange := v.le_toInt
    have hrange' := v.toInt_lt
    exact congrArg some ((Int32.toInt_not v).trans (wrapped_eq_iff.mpr ⟨by omega, rfl⟩))
  · simp_all [exactUnary?]

/-- A division by zero has no value on either side. -/
theorem map_unless_zero {v w : Int32} {n : Int} (h : v.toInt = n) :
    (if w = 0 then none else some v).map Int32.toInt =
      if w.toInt = 0 then none else some n := by
  have hzero : w = 0 ↔ w.toInt = 0 := by
    rw [← Int32.toInt_inj]
    rfl
  by_cases hw : w = 0
  · rw [if_pos hw, if_pos (hzero.mp hw)]
    rfl
  · rw [if_neg hw, if_neg (mt hzero.mpr hw), ← h]
    rfl

/-- **A binary operator does what it does on exact integers.** -/
theorem binaryValue?_exact (operator : String) (v w : Int32) :
    (binaryValue? operator v w).map Int32.toInt = exactBinary? operator v.toInt w.toInt := by
  -- bits that are combined one by one are the bits of the combined patterns
  have hbits {combined : BitVec 32} {n : Nat} (h : combined.toNat = n) :
      some (Int32.ofBitVec combined).toInt = some (wrapped n) := by
    rw [Int32.toInt_ofBitVec, toInt_eq_wrapped_toNat, h]
  have hv := toNat_eq_pattern v.toBitVec
  have hw := toNat_eq_pattern w.toBitVec
  unfold binaryValue?
  split
  · exact congrArg some (Int32.toInt_add v w)
  · exact congrArg some (Int32.toInt_sub v w)
  · exact congrArg some (Int32.toInt_mul v w)
  · exact map_unless_zero (Int32.toInt_div v w)
  · exact map_unless_zero (Int32.toInt_mod v w)
  · exact hbits (by rw [BitVec.toNat_or, hv, hw]; rfl)
  · exact hbits (by rw [BitVec.toNat_and, hv, hw]; rfl)
  · exact hbits (by rw [BitVec.toNat_xor, hv, hw]; rfl)
  · exact congrArg some (toInt_shiftLeft v w)
  · exact congrArg some (toInt_shiftRight v w)
  · exact congrArg some (toInt_unsignedShiftRight v w)
  · simp_all [exactBinary?]

/-! ### Where there is no result -/

/-- The unary operators of a constant expression. -/
def unaryOperators : List String := ["-", "+", "~"]

/-- The binary operators of a constant expression. -/
def binaryOperators : List String :=
  ["+", "-", "*", "/", "%", "|", "&", "^", "<<", ">>", ">>>"]

theorem exactUnary?_eq_none_iff {operator : String} {a : Int} :
    exactUnary? operator a = none ↔ operator ∉ unaryOperators := by
  unfold exactUnary?
  split <;> simp_all [unaryOperators]

theorem exactBinary?_eq_none_iff {operator : String} {a b : Int} :
    exactBinary? operator a b = none ↔
      operator ∉ binaryOperators ∨ operator ∈ ["/", "%"] ∧ b = 0 := by
  unfold exactBinary?
  split <;> simp_all [binaryOperators]

/-- **A binary operator has a value for all operands**, unless zero divides. -/
theorem binaryValue?_eq_none_iff {operator : String} {v w : Int32} :
    binaryValue? operator v w = none ↔
      operator ∉ binaryOperators ∨ operator ∈ ["/", "%"] ∧ w = 0 := by
  rw [← Option.map_eq_none_iff, binaryValue?_exact, exactBinary?_eq_none_iff, ← Int32.toInt_inj]
  rfl

/-! ### Quotient and remainder -/

/-- **A quotient with its remainder**: they make up the dividend, modulo `2 ^ 32`, and the remainder
is smaller than the divisor and has the sign of the dividend. -/
structure IsDivision (dividend divisor quotient remainder : Int32) : Prop where
  sum : quotient * divisor + remainder = dividend
  smaller : remainder.toInt.natAbs < divisor.toInt.natAbs
  nonneg : 0 ≤ dividend.toInt → 0 ≤ remainder.toInt
  nonpos : dividend.toInt ≤ 0 → remainder.toInt ≤ 0

/-- **Division by anything but zero gives a quotient with its remainder.** -/
theorem exists_isDivision (v : Int32) {w : Int32} (hw : w ≠ 0) :
    ∃ q r, binaryValue? "/" v w = some q ∧ binaryValue? "%" v w = some r ∧ IsDivision v w q r := by
  refine ⟨v / w, v % w, if_neg hw, if_neg hw, ?_, ?_, ?_, ?_⟩
  · rw [← Int32.toInt_inj, Int32.toInt_add, Int32.toInt_mul, Int32.toInt_div, Int32.toInt_mod,
      Int.bmod_mul_bmod, Int.bmod_add_bmod, Int.tdiv_mul_add_tmod]
    exact wrapped_toInt v
  · rw [Int32.toInt_mod, Int.natAbs_tmod]
    exact Nat.mod_lt _ (Int.natAbs_pos.mpr fun h => hw (Int32.toInt_inj.mp h))
  · rw [Int32.toInt_mod]
    exact Int.tmod_nonneg w.toInt
  · intro hv
    have hneg := Int.tmod_nonneg w.toInt (Int.neg_nonneg.mpr hv)
    rw [Int.neg_tmod] at hneg
    rw [Int32.toInt_mod]
    omega

/-- **Division by minus one** leaves nothing over, and the least `int` is its own quotient. -/
theorem division_by_minus_one :
    binaryValue? "/" Int32.minValue (-1) = some Int32.minValue ∧
      ∀ v, binaryValue? "%" v (-1) = some 0 := by
  refine ⟨by decide, fun v => congrArg some (Int32.toInt_inj.mp ?_)⟩
  calc (v % -1).toInt = v.toInt.tmod (-1) := Int32.toInt_mod v (-1)
    _ = v.toInt.tmod 1 := Int.tmod_neg v.toInt 1
    _ = 0 := Int.tmod_one v.toInt

end ViewBinding.Java.Constants
