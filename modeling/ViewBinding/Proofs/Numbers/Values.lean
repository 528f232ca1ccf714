import Mathlib.Data.Nat.Digits.Defs
import ViewBinding.Java.IntLiteral
import ViewBinding.Proofs.Numbers.Numerals

/-!
# The numbers that literals spell

What an integer literal denotes is a matter of its kind and of the number that its digits spell
(`ViewBinding.Java.magnitude`), however long it is and wherever it has underscores
(`ViewBinding.Java.IntLiteral.read_numeral`). The suffix of a `long` comes before everything else
(`ViewBinding.Java.IntLiteral.read_long`).
-/

namespace ViewBinding.Java

variable {kind : Literal} {base : Nat} {numeral suffix cs : List Char} {negated : Bool}

/-! ### What digits spell -/

/-- The number that digits of a base spell. What is no digit is passed over. -/
def spelled (base : Nat) (cs : List Char) : Nat :=
  Nat.ofDigits base (cs.filterMap digitValue?).reverse

/-- **The number that a numeral stands for.** -/
def magnitude : Literal → List Char → Nat
  | .hex, cs => spelled 16 (cs.drop 2)
  | .octal, cs => spelled 8 cs
  | .binary, cs => spelled 2 (cs.drop 2)
  | _, cs => spelled 10 cs

/-- The last character of a numeral is a digit. -/
theorem IsNumeral.exists_last (h : IsNumeral kind numeral) :
    ∃ cs c, numeral = cs ++ [c] ∧ isDigitOf 16 c = true := by
  have hdigits {base : Nat} {cs : List Char} (h : IsDigits base cs) (hle : base ≤ 16) :
      ∃ ds c, cs = ds ++ [c] ∧ isDigitOf 16 c = true := by
    obtain ⟨c, hc, hdigit⟩ := h.last
    obtain ⟨ds, rfl⟩ := List.getLast?_eq_some_iff.mp hc
    exact ⟨ds, c, rfl, isDigitOf_mono hle hdigit⟩
  cases h with
  | zero => exact ⟨[], '0', rfl, by decide⟩
  | decimal h => exact hdigits h (by decide)
  | @hex x _ _ h =>
    obtain ⟨ds, c, rfl, hc⟩ := hdigits h (by decide)
    exact ⟨'0' :: x :: ds, c, rfl, hc⟩
  | octal h => exact hdigits h (by decide)
  | @binary b _ _ h =>
    obtain ⟨ds, c, rfl, hc⟩ := hdigits h (by decide)
    exact ⟨'0' :: b :: ds, c, rfl, hc⟩

namespace IntLiteral

theorem digit_eq {c : Char} {d : Nat} (h : digitValue? c = some d) : digit c = d := by
  have hall : ∀ entry ∈ digitValues, digit entry.1 = entry.2 := by decide +kernel
  exact hall (c, d) (mem_digitValues_of_digitValue? h)

theorem number_append (base : Nat) (cs : List Char) (c : Char) :
    number base (cs ++ [c]) = number base cs * base + digit c := by
  rw [number, number, List.foldl_append, List.foldl_cons, List.foldl_nil]

/-- Reading digits from the left gives the number that they spell. -/
theorem number_filter (h : ∀ c ∈ cs, isDigitOf base c = true ∨ c = '_') :
    number base (cs.filter (· ≠ '_')) = spelled base cs := by
  induction cs using List.reverseRecOn with
  | nil => rfl
  | append_singleton cs c ih =>
    obtain ⟨hcs, hc⟩ := List.forall_mem_append.mp h
    have ih := ih hcs
    rcases hc c (by simp) with hc | rfl
    · obtain ⟨d, hd, -⟩ := (Option.any_eq_true _ _).mp hc
      have hne : c ≠ '_' := isDigitOf_ne hc (by rfl)
      rw [List.filter_append, List.filter_singleton, decide_eq_true hne, cond_true,
        number_append, ih, digit_eq hd, spelled, spelled, List.filterMap_append]
      simp [hd, Nat.ofDigits_cons, Nat.mul_comm, Nat.add_comm]
    · have hnone : digitValue? '_' = none := by decide
      simpa [spelled, hnone] using ih

theorem basis_octal (h : ∀ c ∈ cs, isDigitOf 8 c = true) : basis .octal ('0' :: cs) = (8, cs) := by
  cases cs with
  | nil => rfl
  | cons c cs =>
    have hc := h c (.head _)
    have hlower : c ≠ 'o' := isDigitOf_ne hc (by rfl)
    have hupper : c ≠ 'O' := isDigitOf_ne hc (by rfl)
    simp [basis, hlower, hupper]

/-- **The number in a literal** is the one that its numeral stands for. -/
theorem number_basis (h : IsNumeral kind numeral) :
    number (basis kind (numeral.filter (· ≠ '_'))).1 (basis kind (numeral.filter (· ≠ '_'))).2 =
      magnitude kind numeral := by
  cases h with
  | zero => rfl
  | decimal h =>
    simpa [basis, magnitude] using number_filter h.all
  | @hex x cs hx h =>
    have hmark : ('0' :: x :: cs).filter (· ≠ '_') = '0' :: x :: cs.filter (· ≠ '_') := by
      rcases hx with rfl | rfl <;> simp
    rw [hmark]
    exact number_filter h.all
  | @octal cs h =>
    have hdigits : ∀ c ∈ cs.filter (· ≠ '_'), isDigitOf 8 c = true := by
      intro c hc
      obtain ⟨hc, hne⟩ := List.mem_filter.mp hc
      exact (h.all c (.tail _ hc)).resolve_right (of_decide_eq_true hne)
    have hmark : ('0' :: cs).filter (· ≠ '_') = '0' :: cs.filter (· ≠ '_') := by simp
    rw [hmark, basis_octal hdigits]
    -- the zero in front adds nothing
    exact (congrArg (number 8) hmark).symm.trans (number_filter h.all)
  | @binary b cs hb h =>
    have hmark : ('0' :: b :: cs).filter (· ≠ '_') = '0' :: b :: cs.filter (· ≠ '_') := by
      rcases hb with rfl | rfl <;> simp
    rw [hmark]
    exact number_filter h.all

/-! ### What literals denote -/

theorem read_long (h : suffix = ['l'] ∨ suffix = ['L']) :
    read kind (.ofList (numeral ++ suffix)) negated = .long := by
  unfold read
  rcases h with rfl | rfl <;> simp

/-- **What a literal denotes** is a matter of its kind and of the number that it spells. -/
theorem read_numeral (h : IsNumeral kind numeral) :
    read kind (.ofList numeral) negated =
      if kind = .decimal then
        let v : Int := if negated then -magnitude kind numeral else magnitude kind numeral
        if -2147483648 ≤ v && v ≤ 2147483647 then .value (Int32.ofInt v) else .tooLarge
      else if magnitude kind numeral < UInt32.size then
        .value (Int32.ofNat (magnitude kind numeral))
      else .tooLarge := by
  obtain ⟨cs, c, hlast, hc⟩ := h.exists_last
  have hne (d : Char) (hd : isDigitOf 16 d = false) : c ≠ d := isDigitOf_ne hc hd
  have hend : (numeral.filter (· ≠ '_')).getLast? = some c := by
    rw [hlast, List.filter_append, List.filter_singleton, decide_eq_true (hne '_' (by rfl)),
      cond_true, List.getLast?_concat]
  have hshort : ((numeral.filter (· ≠ '_')).getLast? == some 'l' ||
      (numeral.filter (· ≠ '_')).getLast? == some 'L') = false := by
    rw [hend]
    simp [hne 'l' (by rfl), hne 'L' (by rfl)]
  unfold read
  simp only [String.toList_ofList]
  rw [hshort, if_neg Bool.false_ne_true, ← number_basis h]

/-- The greatest number that a literal of the kind may spell, behind a minus if `negated`. -/
def limit (kind : Literal) (negated : Bool) : Nat :=
  if kind = .decimal then if negated then 2147483648 else 2147483647 else 4294967295

/-- What spells a greater number is too large. -/
theorem read_tooLarge (h : IsNumeral kind numeral)
    (hlarge : limit kind negated < magnitude kind numeral) :
    read kind (.ofList numeral) negated = .tooLarge := by
  rw [read_numeral h]
  unfold limit at hlarge
  split at hlarge
  · rename_i hkind
    rw [if_pos hkind]
    refine if_neg ?_
    cases negated <;> simp at hlarge ⊢ <;> omega
  · rename_i hkind
    rw [if_neg hkind, if_neg (Nat.not_lt.mpr hlarge)]

/-- A suffix or too great a number leaves a literal without a value. -/
theorem read_ne_value (hnumeral : IsNumeral kind numeral) (hsuffix : IsSuffix suffix)
    (h : suffix ≠ [] ∨ limit kind negated < magnitude kind numeral) (v : Int32) :
    read kind (.ofList (numeral ++ suffix)) negated ≠ .value v := by
  rcases hsuffix with rfl | hlong
  · rw [List.append_nil, read_tooLarge hnumeral (h.resolve_left fun hne => hne rfl)]
    exact nofun
  · rw [read_long hlong]
    exact nofun

/-- **A decimal literal denotes the number that it spells.** -/
theorem read_decimal (h : IsNumeral .decimal numeral) (negated : Bool)
    (hle : magnitude .decimal numeral ≤ limit .decimal negated) :
    ∃ v, read .decimal (.ofList numeral) negated = .value v ∧
      v.toInt = if negated then -(magnitude .decimal numeral : Int)
        else magnitude .decimal numeral := by
  rw [read_numeral h, if_pos rfl]
  dsimp only
  generalize magnitude .decimal numeral = n at hle ⊢
  have hrange : -2147483648 ≤ (if negated then -(n : Int) else n) ∧
      (if negated then -(n : Int) else n) ≤ 2147483647 := by
    cases negated <;> simp [limit] at hle ⊢ <;> omega
  refine ⟨_, if_pos (by simpa using hrange), ?_⟩
  exact Int32.toInt_ofInt_of_le hrange.1 (Int.lt_of_le_sub_one hrange.2)

/-- **Every other literal denotes its pattern of bits.** -/
theorem read_bits (h : IsNumeral kind numeral) (hkind : kind ≠ .decimal)
    (hle : magnitude kind numeral ≤ limit kind negated) :
    ∃ v, read kind (.ofList numeral) negated = .value v ∧
      v.toUInt32.toNat = magnitude kind numeral := by
  rw [limit, if_neg hkind] at hle
  have hlt : magnitude kind numeral < UInt32.size := Nat.lt_succ_of_le hle
  refine ⟨_, by rw [read_numeral h, if_neg hkind, if_pos hlt], ?_⟩
  rw [Int32.toUInt32_ofNat']
  exact UInt32.toNat_ofNat_of_lt hlt

end IntLiteral

end ViewBinding.Java
