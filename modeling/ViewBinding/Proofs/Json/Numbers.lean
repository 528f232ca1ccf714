import Mathlib.Data.List.Infix
import Mathlib.Data.List.TakeWhile
import ViewBinding.Proofs.Json.Strings

/-!
# Numbers of JSON

A numeral has a sign or none, digits, and perhaps a fraction and an exponent
(`ViewBinding.Json.Numeral`). It is an integer if it has only digits and its value fits into 64
bits; a zero with a sign is none. All other numerals are kept as numbers without a value, unless
they are too large for floating-point numbers (`ViewBinding.Json.Numeral.fits`).

`ViewBinding.Json.readNumber` reads exactly the numerals (`ViewBinding.Json.readNumber_of_isLegal`,
`ViewBinding.Json.isLegal_of_readNumber`).
-/

namespace ViewBinding.Json

open Text

/-! ### How numbers are written -/

/-- At least one digit. -/
def AreDigits (ds : List Char) : Prop :=
  ds ≠ [] ∧ ∀ d ∈ ds, d.isDigit = true

/-- An exponent, with its letter. -/
structure Exponent where
  letter : Char
  /-- The sign, if there is one. -/
  sign : List Char
  digits : List Char

namespace Exponent

/-- The exponent as it is written. -/
def chars (x : Exponent) : List Char :=
  x.letter :: (x.sign ++ x.digits)

structure IsLegal (x : Exponent) : Prop where
  letter : x.letter = 'e' ∨ x.letter = 'E'
  sign : x.sign = [] ∨ x.sign = ['+'] ∨ x.sign = ['-']
  digits : AreDigits x.digits

/-- Whether the sign is a minus. -/
def isNegative (x : Exponent) : Bool :=
  x.sign == ['-']

end Exponent

/-- Whether a number is not too large, given the sign and the digits of its exponent. The digits may
be too many for a number of 32 bits. -/
def fitsWith (significand : Nat) (exponent : Int) (negative : Bool) (digits : List Char) : Bool :=
  match exponentOf 0 0 digits with
  | .ok value => !overflows significand (if negative then exponent - value else exponent + value)
  | .error _ => significand = 0 || negative

/-- Whether a number is not too large, given its exponent if it has one. -/
def tailFits (significand : Nat) (exponent : Int) : Option Exponent → Bool
  | none => !overflows significand exponent
  | some x => fitsWith significand exponent x.isNegative x.digits

/-- Whether a number is not too large, given its fraction and its exponent. -/
def endFits (significand : Nat) (exponent : Int) (fraction : List Char) (x : Option Exponent) :
    Bool :=
  let (significand, count) := significandOf significand 0 fraction
  tailFits significand (exponent - count) x

/-- A fraction and an exponent as they are written. -/
def endChars (fraction : List Char) (x : Option Exponent) : List Char :=
  (if fraction = [] then [] else '.' :: fraction) ++ x.elim [] Exponent.chars

/-- A numeral. -/
structure Numeral where
  negative : Bool
  whole : List Char
  /-- The digits of the fraction, if there is one. -/
  fraction : List Char
  exponent : Option Exponent

namespace Numeral

/-- The numeral as it is written, without the sign. -/
def unsigned (m : Numeral) : List Char :=
  m.whole ++ endChars m.fraction m.exponent

/-- The numeral as it is written. -/
def chars (m : Numeral) : List Char :=
  if m.negative then '-' :: m.unsigned else m.unsigned

/-- The digits are there, and there is no zero in front of others. -/
structure IsLegal (m : Numeral) : Prop where
  whole : AreDigits m.whole
  zero : m.whole.head? = some '0' → m.whole = ['0']
  fraction : ∀ d ∈ m.fraction, d.isDigit = true
  exponent : ∀ x ∈ m.exponent, x.IsLegal

/-- The value of the digits in front of the fraction. -/
def magnitude (m : Numeral) : Nat :=
  Nat.ofDigitChars 10 m.whole 0

/-- The numeral is that of an integer that fits into 64 bits, and not of a zero with a sign. -/
def IsInteger (m : Numeral) : Prop :=
  m.fraction = [] ∧ m.exponent = none ∧
    if m.negative then m.magnitude ≠ 0 ∧ m.magnitude ≤ 0x8000000000000000
    else m.magnitude ≤ maxWord

instance (m : Numeral) : Decidable m.IsInteger :=
  inferInstanceAs (Decidable (_ ∧ _ ∧ _))

/-- The number that a numeral stands for. -/
def value (m : Numeral) : Json :=
  if m.IsInteger then .int (if m.negative then -m.magnitude else m.magnitude) else .real

/-- Whether the number is not too large, as far as this can be seen from the digits that fit into
64 bits. -/
def fits (m : Numeral) : Bool :=
  let (significand, count) := significandOf 0 0 m.whole
  count = m.whole.length && m.fraction = [] && m.exponent.isNone ||
    endFits significand (m.whole.length - count) m.fraction m.exponent

end Numeral

/-! ### Significands -/

variable {c c' : Cursor} {ds rest : List Char} {s n count i : Nat} {e : Int} {v : Json}

theorem le_ofDigitChars (ds : List Char) (s : Nat) : s ≤ Nat.ofDigitChars 10 ds s := by
  induction ds generalizing s with
  | nil => exact Nat.le_refl s
  | cons d ds ih =>
    rw [Nat.ofDigitChars_cons]
    have hle := ih (10 * s + (d.toNat - '0'.toNat))
    omega

/-- Digits whose value fits into 64 bits are all taken. -/
theorem significandOf_of_le (h : Nat.ofDigitChars 10 ds s ≤ maxWord) (count : Nat) :
    significandOf s count ds = (Nat.ofDigitChars 10 ds s, count + ds.length) := by
  induction ds generalizing s count with
  | nil => rfl
  | cons d ds ih =>
    rw [Nat.ofDigitChars_cons] at h ⊢
    have hle := le_ofDigitChars ds (10 * s + (d.toNat - '0'.toNat))
    rw [significandOf, digitValue, Nat.mul_comm s, if_neg (by omega), ih h, List.length_cons]
    congr 1
    omega

/-- Of digits whose value does not fit, some are left. -/
theorem taken_lt (h : maxWord < Nat.ofDigitChars 10 ds s) (hs : s ≤ maxWord) (count : Nat) :
    (significandOf s count ds).2 < count + ds.length := by
  induction ds generalizing s count with
  | nil => exact absurd h (by simpa using hs)
  | cons d ds ih =>
    rw [Nat.ofDigitChars_cons] at h
    rw [significandOf, digitValue, List.length_cons, Nat.mul_comm s]
    split
    · omega
    · have hlt := ih h (by omega) (count + 1)
      omega

/-! ### Reading exponents and fractions -/

/-- The characters do not go on with a digit. -/
def NoDigit (cs : List Char) : Prop :=
  ∀ d ∈ cs.head?, d.isDigit = false

theorem digits_append (h : ∀ d ∈ ds, d.isDigit = true) (hrest : NoDigit rest) (i : Nat) :
    Cursor.digits ⟨ds ++ rest, i⟩ = (ds, ⟨rest, i + ds.length⟩) := by
  have htake : rest.takeWhile Char.isDigit = [] := by
    cases rest with
    | nil => rfl
    | cons d rest => exact List.takeWhile_cons_of_neg (by simp [hrest d rfl])
  simp only [Cursor.digits, List.takeWhile_append_of_pos h, htake, List.append_nil, List.drop_left]

theorem digits_spec (c : Cursor) : c.rest = c.digits.1 ++ c.digits.2.rest ∧
    ∀ d ∈ c.digits.1, d.isDigit = true :=
  ⟨List.prefix_append_drop (List.takeWhile_prefix _), fun _ hd => List.mem_takeWhile_imp hd⟩

/-- The digits ahead start with the next one. -/
theorem digits_of_isDigit {d : Char} {more : List Char} (hc : c.rest = d :: more)
    (hd : d.isDigit = true) : ∃ ds, c.digits.1 = d :: ds := by
  rw [Cursor.digits, hc]
  exact ⟨_, List.takeWhile_cons_of_pos hd⟩

theorem AreDigits.exists_cons (h : AreDigits ds) :
    ∃ d more, ds = d :: more ∧ d.isDigit = true := by
  obtain ⟨d, more, rfl⟩ := List.exists_cons_of_ne_nil h.1
  exact ⟨d, more, rfl, h.2 d List.mem_cons_self⟩

theorem ne_of_isDigit {d x : Char} (h : d.isDigit = true) (hx : x.isDigit = false) : d ≠ x := by
  rintro rfl
  rw [hx] at h
  cases h

theorem finishReal_eq_ok_iff :
    finishReal c s e = .ok (v, c') ↔ overflows s e = false ∧ v = .real ∧ c' = c := by
  rw [finishReal]
  split
  · rename_i hover
    refine ⟨fun h => ?_, fun ⟨hfits, _⟩ => ?_⟩
    · cases h
    · cases hover.symm.trans hfits
  · rename_i hover
    rw [Except.ok.injEq, Prod.mk.injEq]
    exact ⟨fun ⟨hv, hc⟩ => ⟨by simpa using hover, hv.symm, hc.symm⟩,
      fun ⟨_, hv, hc⟩ => ⟨hv.symm, hc.symm⟩⟩

/-- The sign of an exponent, and the cursor behind it. -/
def readSign (c : Cursor) : Bool × Cursor :=
  match c.rest with
  | '-' :: _ => (true, c.next)
  | '+' :: _ => (false, c.next)
  | _ => (false, c)

/-- Reads an exponent after its sign. -/
def readDigits (significand : Nat) (exponent : Int) (negative : Bool) (c : Cursor) :
    Except Fault (Json × Cursor) :=
  match c.rest with
  | [] => c.fault .endInValue
  | d :: _ =>
    if !d.isDigit then c.faultAhead .invalidNumber
    else
      match exponentOf 0 0 c.digits.1 with
      | .ok value =>
        finishReal c.digits.2 significand
          (if negative then exponent - value else exponent + value)
      | .error read =>
        if significand ≠ 0 && !negative then .error ⟨.numberTooLarge, c.index + read⟩
        else .ok (.real, c.digits.2)

theorem readExponent_eq (s : Nat) (e : Int) (c : Cursor) :
    readExponent s e c = readDigits s e (readSign c.next).1 (readSign c.next).2 := rfl

theorem readSign_of_isLegal {x : Exponent} (h : x.IsLegal) (rest : List Char) (i : Nat) :
    ∃ j, readSign ⟨x.sign ++ (x.digits ++ rest), i⟩ = (x.isNegative, ⟨x.digits ++ rest, j⟩) := by
  rw [Exponent.isNegative]
  rcases h.sign with hsign | hsign | hsign
  · obtain ⟨d, more, hds, hd⟩ := h.digits.exists_cons
    rw [hsign, hds, readSign]
    split
    · rename_i heq
      exact absurd (List.head_eq_of_cons_eq heq) (ne_of_isDigit hd (by decide))
    · rename_i heq
      exact absurd (List.head_eq_of_cons_eq heq) (ne_of_isDigit hd (by decide))
    · exact ⟨i, rfl⟩
  · rw [hsign]
    exact ⟨_, rfl⟩
  · rw [hsign]
    exact ⟨_, rfl⟩

theorem readDigits_of_areDigits (h : AreDigits ds) {negative : Bool}
    (hfits : fitsWith s e negative ds = true) (hrest : NoDigit rest) (i : Nat) :
    ∃ j, readDigits s e negative ⟨ds ++ rest, i⟩ = .ok (.real, ⟨rest, j⟩) := by
  have hdigits := digits_append h.2 hrest i
  obtain ⟨d, more, rfl, hd⟩ := h.exists_cons
  rw [fitsWith] at hfits
  simp only [readDigits, List.cons_append]
  rw [if_neg (by simp [hd]), ← List.cons_append, hdigits]
  dsimp only
  cases hvalue : exponentOf 0 0 (d :: more) with
  | ok value =>
    rw [hvalue] at hfits
    dsimp only
    rw [finishReal, if_neg (by simpa using hfits)]
    exact ⟨_, rfl⟩
  | error read =>
    rw [hvalue] at hfits
    dsimp only
    rw [if_neg (by simpa [or_iff_not_imp_left] using hfits)]
    exact ⟨_, rfl⟩

theorem readExponent_of_isLegal {x : Exponent} (h : x.IsLegal)
    (hfits : fitsWith s e x.isNegative x.digits = true) (hrest : NoDigit rest) (i : Nat) :
    ∃ j, readExponent s e ⟨x.chars ++ rest, i⟩ = .ok (.real, ⟨rest, j⟩) := by
  obtain ⟨k, hsign⟩ := readSign_of_isLegal h rest (i + x.letter.utf8Size)
  obtain ⟨j, hdigits⟩ := readDigits_of_areDigits h.digits hfits hrest k
  refine ⟨j, ?_⟩
  have hnext : Cursor.next ⟨x.chars ++ rest, i⟩ =
      ⟨x.sign ++ (x.digits ++ rest), i + x.letter.utf8Size⟩ := by
    simp [Cursor.next, Exponent.chars]
  rw [readExponent_eq, hnext, hsign]
  exact hdigits

theorem readSign_spec (c : Cursor) :
    ∃ sign : List Char, (sign = [] ∨ sign = ['+'] ∨ sign = ['-']) ∧
      c.rest = sign ++ (readSign c).2.rest ∧ (readSign c).1 = (sign == ['-']) := by
  rw [readSign]
  split
  · rename_i hrest
    exact ⟨['-'], by simp, by rw [rest_next hrest, hrest]; rfl, rfl⟩
  · rename_i hrest
    exact ⟨['+'], by simp, by rw [rest_next hrest, hrest]; rfl, rfl⟩
  · exact ⟨[], by simp, rfl, rfl⟩

theorem areDigits_of_readDigits {negative : Bool} (h : readDigits s e negative c = .ok (v, c')) :
    ∃ ds, AreDigits ds ∧ c.rest = ds ++ c'.rest ∧ fitsWith s e negative ds = true ∧ v = .real := by
  obtain ⟨hrest, hdigits⟩ := digits_spec c
  rw [readDigits] at h
  split at h
  · cases h
  · rename_i d more hcons
    split at h
    · cases h
    · rename_i hd
      obtain ⟨ds, hds⟩ := digits_of_isDigit hcons (by simpa using hd)
      have hne : c.digits.1 ≠ [] := hds ▸ List.cons_ne_nil d ds
      have hfits : fitsWith s e negative c.digits.1 = true ∧ v = .real ∧ c' = c.digits.2 := by
        rw [fitsWith]
        cases hvalue : exponentOf 0 0 c.digits.1 with
        | ok value =>
          rw [hvalue] at h
          obtain ⟨hover, hv, hc'⟩ := finishReal_eq_ok_iff.mp h
          exact ⟨by simpa using hover, hv, hc'⟩
        | error read =>
          rw [hvalue] at h
          dsimp only at h
          split at h
          · cases h
          · rename_i hzero
            obtain ⟨rfl, rfl⟩ := Prod.mk.inj (Except.ok.inj h)
            exact ⟨by simpa [or_iff_not_imp_left] using hzero, rfl, rfl⟩
      obtain ⟨hfits, rfl, rfl⟩ := hfits
      exact ⟨_, ⟨hne, hdigits⟩, hrest, hfits, rfl⟩

theorem isLegal_of_readExponent {letter : Char} {more : List Char} (hc : c.rest = letter :: more)
    (hletter : letter = 'e' ∨ letter = 'E') (h : readExponent s e c = .ok (v, c')) :
    ∃ x : Exponent, x.IsLegal ∧ c.rest = x.chars ++ c'.rest ∧
      fitsWith s e x.isNegative x.digits = true ∧ v = .real := by
  rw [readExponent_eq] at h
  obtain ⟨sign, hsign, hrest, hnegative⟩ := readSign_spec c.next
  obtain ⟨ds, hdigits, hbehind, hfits, hv⟩ := areDigits_of_readDigits h
  rw [rest_next hc, hbehind] at hrest
  rw [hnegative] at hfits
  exact ⟨⟨letter, sign, ds⟩, ⟨hletter, hsign, hdigits⟩, by rw [hc, hrest]; simp [Exponent.chars],
    hfits, hv⟩

/-- The characters cannot go on with a part of a numeral. -/
def EndsNumeral (cs : List Char) : Prop :=
  ∀ d ∈ cs.head?, d.isDigit = false ∧ d ≠ '.' ∧ d ≠ 'e' ∧ d ≠ 'E'

section Parts

variable {x : Option Exponent}

theorem readRest_of_isLegal (h : ∀ y ∈ x, y.IsLegal) (hfits : tailFits s e x = true)
    (hrest : EndsNumeral rest) (i : Nat) :
    ∃ j, readRest s e ⟨x.elim [] Exponent.chars ++ rest, i⟩ = .ok (.real, ⟨rest, j⟩) := by
  cases x with
  | none =>
    refine ⟨i, ?_⟩
    rw [Option.elim_none, List.nil_append, readRest]
    split
    · rename_i heq
      exact absurd rfl (hrest 'e' (congrArg List.head? heq)).2.2.1
    · rename_i heq
      exact absurd rfl (hrest 'E' (congrArg List.head? heq)).2.2.2
    · exact finishReal_eq_ok_iff.mpr ⟨by simpa [tailFits] using hfits, rfl, rfl⟩
  | some y =>
    have hy := h y rfl
    obtain ⟨j, hj⟩ := readExponent_of_isLegal hy hfits (fun d hd => (hrest d hd).1) i
    refine ⟨j, ?_⟩
    rw [Option.elim_some, ← hj, readRest]
    obtain hletter | hletter := hy.letter <;> rw [Exponent.chars, hletter] <;> rfl

theorem isLegal_of_readRest (h : readRest s e c = .ok (v, c')) :
    ∃ x : Option Exponent, (∀ y ∈ x, y.IsLegal) ∧ c.rest = x.elim [] Exponent.chars ++ c'.rest ∧
      tailFits s e x = true ∧ v = .real := by
  have hexponent {letter : Char} {more : List Char} (hc : c.rest = letter :: more)
      (hletter : letter = 'e' ∨ letter = 'E') (h : readExponent s e c = .ok (v, c')) :
      ∃ x : Option Exponent, (∀ y ∈ x, y.IsLegal) ∧ c.rest = x.elim [] Exponent.chars ++ c'.rest ∧
        tailFits s e x = true ∧ v = .real := by
    obtain ⟨x, hx, hrest, hfits, hv⟩ := isLegal_of_readExponent hc hletter h
    exact ⟨some x, by simpa using hx, hrest, hfits, hv⟩
  rw [readRest] at h
  split at h
  · exact hexponent ‹_› (.inl rfl) h
  · exact hexponent ‹_› (.inr rfl) h
  · obtain ⟨hover, hv, rfl⟩ := finishReal_eq_ok_iff.mp h
    exact ⟨none, by simp, rfl, by simpa [tailFits] using hover, hv⟩

/-- Neither a digit nor a fraction follows the digits in front of an exponent, or of the end. -/
theorem head_elim_append (h : ∀ y ∈ x, y.IsLegal) (hrest : EndsNumeral rest) :
    ∀ d ∈ (x.elim [] Exponent.chars ++ rest).head?, d.isDigit = false ∧ d ≠ '.' := by
  cases x with
  | none => exact fun d hd => ⟨(hrest d hd).1, (hrest d hd).2.1⟩
  | some y =>
    rintro d hd
    obtain rfl : y.letter = d := Option.some_inj.mp hd
    obtain hletter | hletter := (h y rfl).letter <;> rw [hletter] <;> decide

theorem endFits_nil : endFits s e [] x = tailFits s e x := by
  simp [endFits, significandOf]

theorem readFraction_of_isLegal (h : AreDigits ds) (hx : ∀ y ∈ x, y.IsLegal)
    (hfits : endFits s e ds x = true) (hrest : EndsNumeral rest) (i : Nat) :
    ∃ j, readFraction s e ⟨endChars ds x ++ rest, i⟩ = .ok (.real, ⟨rest, j⟩) := by
  obtain ⟨j, hj⟩ := readRest_of_isLegal hx hfits hrest (i + '.'.utf8Size + ds.length)
  refine ⟨j, ?_⟩
  have hnext : Cursor.next ⟨endChars ds x ++ rest, i⟩ =
      ⟨ds ++ (x.elim [] Exponent.chars ++ rest), i + '.'.utf8Size⟩ := by
    rw [endChars, if_neg h.1]
    simp [Cursor.next]
  rw [readFraction, hnext, digits_append h.2 fun d hd => (head_elim_append hx hrest d hd).1, ← hj]
  obtain ⟨d, more, rfl, _⟩ := h.exists_cons
  rfl

theorem isLegal_of_readFraction {more : List Char} (hc : c.rest = '.' :: more)
    (h : readFraction s e c = .ok (v, c')) :
    ∃ ds x, AreDigits ds ∧ (∀ y ∈ x, y.IsLegal) ∧ c.rest = endChars ds x ++ c'.rest ∧
      endFits s e ds x = true ∧ v = .real := by
  obtain ⟨hbehind, hdigits⟩ := digits_spec c.next
  rw [readFraction] at h
  dsimp only at h
  split at h
  · cases h
  · rename_i hne
    obtain ⟨x, hx, hrest, hfits, hv⟩ := isLegal_of_readRest h
    refine ⟨c.next.digits.1, x, ⟨hne, hdigits⟩, hx, ?_, hfits, hv⟩
    rw [rest_next hc, hrest] at hbehind
    rw [endChars, if_neg hne, hc, hbehind]
    simp

/-- Reads what follows digits that do not fit into 64 bits. -/
def readTail (significand : Nat) (exponent : Int) (c : Cursor) : Except Fault (Json × Cursor) :=
  match c.rest with
  | '.' :: _ => readFraction significand exponent c
  | _ => readRest significand exponent c

theorem readTail_of_isLegal (h : ∀ d ∈ ds, d.isDigit = true) (hx : ∀ y ∈ x, y.IsLegal)
    (hfits : endFits s e ds x = true) (hrest : EndsNumeral rest) (i : Nat) :
    ∃ j, readTail s e ⟨endChars ds x ++ rest, i⟩ = .ok (.real, ⟨rest, j⟩) := by
  by_cases hds : ds = []
  · subst hds
    obtain ⟨j, hj⟩ := readRest_of_isLegal hx (endFits_nil.symm.trans hfits) hrest i
    refine ⟨j, ?_⟩
    rw [endChars, if_pos rfl, List.nil_append, ← hj, readTail]
    split
    · rename_i heq
      exact absurd rfl (head_elim_append hx hrest '.' (congrArg List.head? heq)).2
    · rfl
  · obtain ⟨j, hj⟩ := readFraction_of_isLegal ⟨hds, h⟩ hx hfits hrest i
    refine ⟨j, ?_⟩
    rw [← hj, endChars, if_neg hds]
    rfl

theorem isLegal_of_readTail (h : readTail s e c = .ok (v, c')) :
    ∃ ds x, (∀ d ∈ ds, d.isDigit = true) ∧ (∀ y ∈ x, y.IsLegal) ∧
      c.rest = endChars ds x ++ c'.rest ∧ endFits s e ds x = true ∧ v = .real := by
  rw [readTail] at h
  split at h
  · obtain ⟨ds, x, hds, h⟩ := isLegal_of_readFraction ‹_› h
    exact ⟨ds, x, hds.2, h⟩
  · obtain ⟨x, hx, hrest, hfits, hv⟩ := isLegal_of_readRest h
    exact ⟨[], x, by simp, hx, hrest, endFits_nil.trans hfits, hv⟩

/-- What an integer is read as, given its sign. -/
def bareValue (negative : Bool) (n : Nat) : Json :=
  if !negative then .int n
  else if n = 0 || n > 0x8000000000000000 then .real
  else .int (-n)

theorem readNumberEnd_of_endsNumeral {negative : Bool} (h : EndsNumeral c.rest) :
    readNumberEnd negative s c = .ok (bareValue negative s, c) := by
  rw [readNumberEnd]
  split
  · rename_i heq
    exact absurd rfl (h '.' (congrArg List.head? heq)).2.1
  · rename_i heq
    exact absurd rfl (h 'e' (congrArg List.head? heq)).2.2.1
  · rename_i heq
    exact absurd rfl (h 'E' (congrArg List.head? heq)).2.2.2
  · rw [bareValue]
    split
    · rfl
    · split <;> rfl

theorem readNumberEnd_of_isLegal (h : ∀ d ∈ ds, d.isDigit = true) (hx : ∀ y ∈ x, y.IsLegal)
    (hsome : ¬(ds = [] ∧ x = none)) (hfits : endFits s 0 ds x = true) (hrest : EndsNumeral rest)
    (negative : Bool) (i : Nat) :
    ∃ j, readNumberEnd negative s ⟨endChars ds x ++ rest, i⟩ = .ok (.real, ⟨rest, j⟩) := by
  by_cases hds : ds = []
  · subst hds
    obtain ⟨y, rfl⟩ := Option.ne_none_iff_exists'.mp fun hnone => hsome ⟨rfl, hnone⟩
    have hy := hx y rfl
    obtain ⟨j, hj⟩ := readExponent_of_isLegal hy (endFits_nil.symm.trans hfits)
      (fun d hd => (hrest d hd).1) i
    refine ⟨j, ?_⟩
    rw [← hj, endChars, if_pos rfl, List.nil_append, Option.elim_some]
    obtain hletter | hletter := hy.letter <;> rw [Exponent.chars, hletter] <;> rfl
  · obtain ⟨j, hj⟩ := readFraction_of_isLegal ⟨hds, h⟩ hx hfits hrest i
    refine ⟨j, ?_⟩
    rw [← hj, endChars, if_neg hds]
    rfl

theorem isLegal_of_readNumberEnd {negative : Bool} (h : readNumberEnd negative s c = .ok (v, c')) :
    ∃ ds x, (∀ d ∈ ds, d.isDigit = true) ∧ (∀ y ∈ x, y.IsLegal) ∧
      c.rest = endChars ds x ++ c'.rest ∧
      ((ds = [] ∧ x = none) ∧ v = bareValue negative s ∨
        ¬(ds = [] ∧ x = none) ∧ endFits s 0 ds x = true ∧ v = .real) := by
  have hexponent {letter : Char} {more : List Char} (hc : c.rest = letter :: more)
      (hletter : letter = 'e' ∨ letter = 'E') (h : readExponent s 0 c = .ok (v, c')) :
      ∃ x : Exponent, x.IsLegal ∧ c.rest = endChars [] (some x) ++ c'.rest ∧
        endFits s 0 [] (some x) = true ∧ v = .real := by
    obtain ⟨x, hx, hrest, hfits, hv⟩ := isLegal_of_readExponent hc hletter h
    exact ⟨x, hx, hrest, endFits_nil.trans hfits, hv⟩
  rw [readNumberEnd] at h
  split at h
  · obtain ⟨ds, x, hds, hx, hrest, hfits, hv⟩ := isLegal_of_readFraction ‹_› h
    exact ⟨ds, x, hds.2, hx, hrest, .inr ⟨fun hnone => hds.1 hnone.1, hfits, hv⟩⟩
  · obtain ⟨x, hx, hrest, hfits, hv⟩ := hexponent ‹_› (.inl rfl) h
    exact ⟨[], some x, by simp, by simpa using hx, hrest, .inr ⟨by simp, hfits, hv⟩⟩
  · obtain ⟨x, hx, hrest, hfits, hv⟩ := hexponent ‹_› (.inr rfl) h
    exact ⟨[], some x, by simp, by simpa using hx, hrest, .inr ⟨by simp, hfits, hv⟩⟩
  · have hbare : v = bareValue negative s ∧ c' = c := by
      rw [bareValue]
      split at h
      · rw [if_pos ‹_›]
        obtain ⟨hv, hc⟩ := Prod.mk.inj (Except.ok.inj h)
        exact ⟨hv.symm, hc.symm⟩
      · rw [if_neg ‹_›]
        split at h <;> cases h
        · exact ⟨(if_pos ‹_›).symm, rfl⟩
        · exact ⟨(if_neg ‹_›).symm, rfl⟩
    obtain ⟨rfl, rfl⟩ := hbare
    exact ⟨[], none, by simp, by simp, rfl, .inl ⟨⟨rfl, rfl⟩, rfl⟩⟩

end Parts

/-! ### Reading numbers -/

/-- Reads what follows the digits of a number. -/
def readAfter (negative : Bool) (ds : List Char) (c : Cursor) : Except Fault (Json × Cursor) :=
  let (significand, count) := significandOf 0 0 ds
  if count = ds.length then readNumberEnd negative significand c
  else readTail significand (ds.length - count) c

theorem readAfter_of_le (h : Nat.ofDigitChars 10 ds 0 ≤ maxWord) (negative : Bool) (c : Cursor) :
    readAfter negative ds c = readNumberEnd negative (Nat.ofDigitChars 10 ds 0) c := by
  rw [readAfter, significandOf_of_le h]
  exact if_pos (Nat.zero_add _)

theorem readAfter_of_lt (h : maxWord < Nat.ofDigitChars 10 ds 0) (negative : Bool) (c : Cursor) :
    readAfter negative ds c =
      readTail (significandOf 0 0 ds).1 (ds.length - (significandOf 0 0 ds).2) c := by
  have hlt := taken_lt h (Nat.zero_le _) 0
  rw [readAfter]
  exact if_neg (by omega)

section Whole

variable {m : Numeral}

theorem fits_of_le (h : m.magnitude ≤ maxWord) : m.fits = true ↔
    (m.fraction = [] ∧ m.exponent = none) ∨
      endFits m.magnitude 0 m.fraction m.exponent = true := by
  rw [Numeral.fits, significandOf_of_le h]
  simp [Numeral.magnitude]

theorem fits_of_lt (h : maxWord < m.magnitude) : m.fits =
    endFits (significandOf 0 0 m.whole).1 (m.whole.length - (significandOf 0 0 m.whole).2)
      m.fraction m.exponent := by
  have hlt := taken_lt h (Nat.zero_le _) 0
  rw [Nat.zero_add] at hlt
  rw [Numeral.fits]
  simp [hlt.ne]

theorem value_of_bare (hfraction : m.fraction = []) (hexponent : m.exponent = none)
    (hle : m.magnitude ≤ maxWord) : m.value = bareValue m.negative m.magnitude := by
  rw [Numeral.value, bareValue]
  cases hnegative : m.negative
  · rw [if_pos ⟨hfraction, hexponent, by simpa [hnegative] using hle⟩]
    rfl
  · by_cases hbound : m.magnitude = 0 ∨ m.magnitude > 0x8000000000000000
    · rw [if_neg fun hinteger => ?_]
      · simp [hbound]
      · have hbounds := hinteger.2.2
        simp only [hnegative, if_true] at hbounds
        omega
    · rw [if_pos ⟨hfraction, hexponent, by simp [hnegative]; omega⟩]
      simp [hbound]

theorem value_of_not_bare (h : ¬(m.fraction = [] ∧ m.exponent = none)) : m.value = .real :=
  if_neg fun hinteger => h ⟨hinteger.1, hinteger.2.1⟩

theorem value_of_lt (h : maxWord < m.magnitude) : m.value = .real := by
  refine if_neg fun hinteger => ?_
  have hbound := hinteger.2.2
  split at hbound
  · exact absurd (h.trans_le hbound.2) (by decide)
  · exact absurd (h.trans_le hbound) (Nat.lt_irrefl _)

theorem readAfter_of_isLegal (h : m.IsLegal) (hfits : m.fits = true) (hrest : EndsNumeral rest)
    (i : Nat) :
    ∃ j, readAfter m.negative m.whole ⟨endChars m.fraction m.exponent ++ rest, i⟩ =
      .ok (m.value, ⟨rest, j⟩) := by
  -- digits that do not fit are no integer whatever follows them
  obtain hle | hlt := (Nat.lt_or_ge maxWord m.magnitude).symm
  · rw [readAfter_of_le hle]
    by_cases hbare : m.fraction = [] ∧ m.exponent = none
    · rw [value_of_bare hbare.1 hbare.2 hle, hbare.1, hbare.2]
      exact ⟨i, readNumberEnd_of_endsNumeral hrest⟩
    · rw [value_of_not_bare hbare]
      exact readNumberEnd_of_isLegal h.fraction h.exponent hbare
        (((fits_of_le hle).mp hfits).resolve_left hbare) hrest m.negative i
  · rw [readAfter_of_lt hlt, value_of_lt hlt]
    exact readTail_of_isLegal h.fraction h.exponent (fits_of_lt hlt ▸ hfits) hrest i

theorem exists_of_readAfter {negative : Bool} (h : readAfter negative ds c = .ok (v, c')) :
    ∃ m : Numeral, m.negative = negative ∧ m.whole = ds ∧ (∀ d ∈ m.fraction, d.isDigit = true) ∧
      (∀ y ∈ m.exponent, y.IsLegal) ∧ c.rest = endChars m.fraction m.exponent ++ c'.rest ∧
      m.fits = true ∧ v = m.value := by
  obtain hle | hlt := (Nat.lt_or_ge maxWord (Nat.ofDigitChars 10 ds 0)).symm
  · rw [readAfter_of_le hle] at h
    obtain ⟨fraction, x, hfraction, hx, hrest, hend⟩ := isLegal_of_readNumberEnd h
    let m : Numeral := ⟨negative, ds, fraction, x⟩
    refine ⟨m, rfl, rfl, hfraction, hx, hrest, ?_⟩
    obtain ⟨hbare, rfl⟩ | ⟨hbare, hfits, rfl⟩ := hend
    · exact ⟨(fits_of_le (m := m) hle).mpr (.inl hbare),
        (value_of_bare (m := m) hbare.1 hbare.2 hle).symm⟩
    · exact ⟨(fits_of_le (m := m) hle).mpr (.inr hfits), (value_of_not_bare (m := m) hbare).symm⟩
  · rw [readAfter_of_lt hlt] at h
    obtain ⟨fraction, x, hfraction, hx, hrest, hfits, rfl⟩ := isLegal_of_readTail h
    let m : Numeral := ⟨negative, ds, fraction, x⟩
    exact ⟨m, rfl, rfl, hfraction, hx, hrest, (fits_of_lt (m := m) hlt).trans hfits,
      (value_of_lt (m := m) hlt).symm⟩

end Whole

theorem readNumber_eq_readAfter (h : AreDigits ds) (hzero : ds.head? = some '0' → ds = ['0'])
    (hrest : NoDigit rest) (negative : Bool) (i : Nat) :
    readNumber negative ⟨ds ++ rest, i⟩ = readAfter negative ds ⟨rest, i + ds.length⟩ := by
  have hdigits := digits_append h.2 hrest i
  obtain ⟨d, more, rfl, hd⟩ := h.exists_cons
  by_cases hd0 : d = '0'
  -- a zero in front is alone, and one digit always fits, so both ways to read it agree
  · subst hd0
    obtain rfl := (List.cons.inj (hzero rfl)).2
    cases rest with
    | nil => rfl
    | cons x rest =>
      have hx : x.isDigit = false := hrest x rfl
      simp only [readNumber, List.cons_append, List.nil_append, hx, Bool.false_eq_true, if_false]
      rfl
  · rw [readNumber]
    split
    · rename_i heq
      cases heq
    · rename_i heq
      exact absurd (List.head_eq_of_cons_eq heq) hd0
    · rename_i heq
      obtain rfl := List.head_eq_of_cons_eq heq
      rw [if_neg (by simp [hd]), hdigits]
      rfl

theorem exists_of_readNumber {negative : Bool} (h : readNumber negative c = .ok (v, c')) :
    ∃ ds behind, AreDigits ds ∧ (ds.head? = some '0' → ds = ['0']) ∧ c.rest = ds ++ behind.rest ∧
      readAfter negative ds behind = .ok (v, c') := by
  rw [readNumber] at h
  split at h
  · cases h
  · rename_i more hrest
    have hdigits : AreDigits ['0'] :=
      ⟨List.cons_ne_nil _ _, fun d hd => List.mem_singleton.mp hd ▸ rfl⟩
    refine ⟨['0'], c.next, hdigits, fun _ => rfl, by rw [rest_next hrest, hrest]; rfl, ?_⟩
    cases more with
    | nil => exact h
    | cons d more =>
      dsimp only at h
      split at h
      · cases h
      · exact h
  · rename_i d more hzero hrest
    split at h
    · cases h
    · rename_i hd
      obtain ⟨hbehind, hdigits⟩ := digits_spec c
      obtain ⟨ds, hds⟩ := digits_of_isDigit hrest (by simpa using hd)
      refine ⟨c.digits.1, c.digits.2, ⟨hds ▸ List.cons_ne_nil d ds, hdigits⟩, fun hhead => ?_,
        hbehind, h⟩
      rw [hds] at hhead
      exact absurd (Option.some_inj.mp hhead) hzero

section Whole

variable {m : Numeral}

/-- A numeral that is not too large is read to its end. -/
theorem readNumber_of_isLegal (h : m.IsLegal) (hfits : m.fits = true) (hrest : EndsNumeral rest)
    (i : Nat) :
    ∃ j, readNumber m.negative ⟨m.unsigned ++ rest, i⟩ = .ok (m.value, ⟨rest, j⟩) := by
  have hend : NoDigit (endChars m.fraction m.exponent ++ rest) := by
    rw [endChars]
    split
    · exact fun d hd => (head_elim_append h.exponent hrest d hd).1
    · rintro d hd
      obtain rfl : '.' = d := Option.some_inj.mp hd
      rfl
  rw [Numeral.unsigned, List.append_assoc, readNumber_eq_readAfter h.whole h.zero hend]
  exact readAfter_of_isLegal h hfits hrest _

/-- What is read as a number is a numeral that is not too large. -/
theorem isLegal_of_readNumber {negative : Bool} (h : readNumber negative c = .ok (v, c')) :
    ∃ m : Numeral, m.IsLegal ∧ m.negative = negative ∧ m.fits = true ∧
      c.rest = m.unsigned ++ c'.rest ∧ v = m.value := by
  obtain ⟨ds, behind, hds, hzero, hrest, hafter⟩ := exists_of_readNumber h
  obtain ⟨m, hnegative, rfl, hfraction, hexponent, hbehind, hfits, hv⟩ := exists_of_readAfter hafter
  exact ⟨m, ⟨hds, hzero, hfraction, hexponent⟩, hnegative, hfits,
    by rw [hrest, hbehind, Numeral.unsigned, List.append_assoc], hv⟩

end Whole

end ViewBinding.Json
