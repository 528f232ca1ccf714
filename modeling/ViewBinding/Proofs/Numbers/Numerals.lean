import ViewBinding.Proofs.Numbers.Digits
import ViewBinding.Proofs.Numbers.Longest

/-!
# Integer literals among the tokens

An integer literal of Java is a numeral of one of four kinds (`ViewBinding.Java.IsNumeral`) with or
without the suffix of a `long`. Its first two characters tell the kind
(`ViewBinding.Java.kindOf_numeral`), and no other token is like it: a literal that is read as one
number is read as one of its own kind (`ViewBinding.Java.Lexeme.number?_numeral`).

Java allows more underscores in numerals than the tokens do. Which literals are read as one number
is a matter of their underscores alone (`ViewBinding.Java.Lexeme.number?_numeral_iff`).
-/

namespace ViewBinding.Java

open Text Spelling

open Text.Pattern hiding none empty

variable {kind kind' : Literal} {c : Char} {cs numeral suffix rest : List Char} {p : Pattern}

/-! ### Literals -/

/-- **The numerals of integer literals.** A decimal numeral is zero or starts with another digit; a
zero with more digits behind it starts an octal one. -/
inductive IsNumeral : Literal → List Char → Prop
  | zero : IsNumeral .decimal ['0']
  | decimal {cs : List Char} (h : IsDigits 10 cs) (hhead : cs.head? ≠ some '0') :
    IsNumeral .decimal cs
  | hex {x : Char} {cs : List Char} (hx : x = 'x' ∨ x = 'X') (h : IsDigits 16 cs) :
    IsNumeral .hex ('0' :: x :: cs)
  | octal {cs : List Char} (h : IsDigits 8 ('0' :: cs)) (hne : cs ≠ []) :
    IsNumeral .octal ('0' :: cs)
  | binary {b : Char} {cs : List Char} (hb : b = 'b' ∨ b = 'B') (h : IsDigits 2 cs) :
    IsNumeral .binary ('0' :: b :: cs)

/-- The suffix of a `long` literal, or none. -/
def IsSuffix (cs : List Char) : Prop :=
  cs = [] ∨ cs = ['l'] ∨ cs = ['L']

theorem mem_longSuffix_iff : cs ∈ longSuffix.language ↔ IsSuffix cs := by
  simp [longSuffix, IsSuffix, or_comm]

theorem IsSuffix.length_eq_one (h : IsSuffix cs) (hne : cs ≠ []) : cs.length = 1 := by
  rcases h with rfl | rfl | rfl
  · contradiction
  · rfl
  · rfl

/-! ### The kind of a literal -/

/-- The kind of an integer literal, by its first two characters. -/
def kindOf : List Char → Literal
  | '0' :: c :: _ =>
    if c = 'x' ∨ c = 'X' then .hex
    else if c = 'b' ∨ c = 'B' then .binary
    else if c = 'l' ∨ c = 'L' then .decimal
    else .octal
  | _ => .decimal

theorem kindOf_of_head (h : cs.head? ≠ some '0') : kindOf cs = .decimal := by
  unfold kindOf
  split
  · exact absurd rfl h
  · rfl

theorem kindOf_zero (h : IsSuffix suffix) : kindOf ('0' :: suffix) = .decimal := by
  rcases h with rfl | rfl | rfl <;> rfl

theorem kindOf_hex (h : c = 'x' ∨ c = 'X') : kindOf ('0' :: c :: cs) = .hex :=
  if_pos h

theorem kindOf_binary (h : c = 'b' ∨ c = 'B') : kindOf ('0' :: c :: cs) = .binary := by
  rcases h with rfl | rfl <;> rfl

theorem kindOf_octal (h : isDigitOf 8 c = true ∨ c = '_') :
    kindOf ('0' :: c :: cs) = .octal := by
  have hne (d : Char) (hd : isDigitOf 8 d = false ∧ d ≠ '_') : c ≠ d := by
    rcases h with h | rfl
    · exact isDigitOf_ne h hd.1
    · exact hd.2.symm
  simp only [kindOf]
  rw [if_neg (not_or.mpr ⟨hne _ (by decide), hne _ (by decide)⟩),
    if_neg (not_or.mpr ⟨hne _ (by decide), hne _ (by decide)⟩),
    if_neg (not_or.mpr ⟨hne _ (by decide), hne _ (by decide)⟩)]

/-- **The first two characters of a literal tell its kind.** -/
theorem kindOf_numeral (h : IsNumeral kind numeral) (hs : IsSuffix suffix) :
    kindOf (numeral ++ suffix) = kind := by
  cases h with
  | zero => exact kindOf_zero hs
  | decimal h hhead =>
    refine kindOf_of_head ?_
    rwa [List.head?_append_of_ne_nil _ h.ne_nil]
  | hex hx => exact kindOf_hex hx
  | octal h hne =>
    obtain ⟨c, cs, rfl⟩ := List.exists_cons_of_ne_nil hne
    exact kindOf_octal (h.all c (by simp))
  | binary hb => exact kindOf_binary hb

/-! ### The patterns of literals -/

theorem mem_decimalInteger_iff :
    cs ∈ decimalInteger.language ↔
      ∃ a s, a ++ s = cs ∧ a ∈ wholeNumber.language ∧ IsSuffix s := by
  rw [decimalInteger, mem_language_seq]
  constructor
  · rintro ⟨a, ha, s, hs, rfl⟩
    exact ⟨a, s, rfl, ha, mem_longSuffix_iff.mp hs⟩
  · rintro ⟨a, s, rfl, ha, hs⟩
    exact ⟨a, ha, s, mem_longSuffix_iff.mpr hs, rfl⟩

/-- What starts with zero and a letter, as hexadecimal and binary numbers do. -/
theorem mem_zeroThen_iff {lower upper : Char} {p q : Pattern} :
    cs ∈ (chain [zeroThen lower upper, p, q]).language ↔
      ∃ c a b, '0' :: c :: (a ++ b) = cs ∧ (c = lower ∨ c = upper) ∧ a ∈ p.language ∧
        b ∈ q.language := by
  simp only [mem_language_chain_cons, mem_language_chain_nil, zeroThen, mem_language_seq,
    mem_language_char, mem_language_oneOf]
  constructor
  · rintro ⟨_, ⟨_, rfl, _, ⟨c, hc, rfl⟩, rfl⟩, _, ⟨a, ha, _, ⟨b, hb, _, rfl, rfl⟩, rfl⟩, rfl⟩
    exact ⟨c, a, b, by simp, by simpa using hc, ha, hb⟩
  · rintro ⟨c, a, b, rfl, hc, ha, hb⟩
    exact ⟨['0', c], ⟨['0'], rfl, [c], ⟨c, by simpa using hc, rfl⟩, rfl⟩, a ++ b,
      ⟨a, ha, b, ⟨b, hb, [], rfl, by simp⟩, rfl⟩, rfl⟩

theorem mem_octalInteger_iff :
    cs ∈ octalInteger.language ↔
      cs ∈ (chain [zeroThen 'o' 'O', grouped isOctalDigit, longSuffix]).language ∨
        ∃ a s, '0' :: (a ++ s) = cs ∧ a ∈ (grouped isOctalDigit).language ∧ IsSuffix s := by
  simp only [octalInteger, mem_language_chain_cons, mem_language_alt, mem_language_char,
    mem_language_chain_nil]
  constructor
  · rintro ⟨m, hm | rfl, _, ⟨a, ha, _, ⟨s, hs, _, rfl, rfl⟩, rfl⟩, rfl⟩
    · exact .inl ⟨m, hm, _, ⟨a, ha, _, ⟨s, hs, [], rfl, rfl⟩, rfl⟩, rfl⟩
    · exact .inr ⟨a, s, by simp, ha, mem_longSuffix_iff.mp hs⟩
  · rintro (⟨m, hm, b, hb, rfl⟩ | ⟨a, s, rfl, ha, hs⟩)
    · exact ⟨m, .inl hm, b, hb, rfl⟩
    · exact ⟨['0'], .inr rfl, a ++ s,
        ⟨a, ha, s, ⟨s, mem_longSuffix_iff.mpr hs, [], rfl, by simp⟩, rfl⟩, rfl⟩

/-- **What a pattern of integers matches is of its kind.** -/
theorem kindOf_of_mem (hp : (kind, p) ∈ Lexeme.numbers) (hkind : kind ≠ .real)
    (h : cs ∈ p.language) : kindOf cs = kind := by
  simp only [Lexeme.numbers, List.mem_cons, Prod.mk.injEq, List.not_mem_nil, or_false] at hp
  rcases hp with ⟨rfl, rfl⟩ | ⟨rfl, rfl⟩ | ⟨rfl, rfl⟩ | ⟨rfl, rfl⟩ | ⟨rfl, -⟩ | ⟨rfl, -⟩
  · obtain ⟨a, s, rfl, ha, hs⟩ := mem_decimalInteger_iff.mp h
    rcases mem_wholeNumber_iff.mp ha with rfl | ⟨hdigits, hhead, -⟩
    · exact kindOf_numeral .zero hs
    · exact kindOf_numeral (.decimal hdigits hhead) hs
  · obtain ⟨c, a, s, rfl, hc, -⟩ := mem_zeroThen_iff.mp h
    exact kindOf_hex hc
  · rcases mem_octalInteger_iff.mp h with h | ⟨a, s, rfl, ha, hs⟩
    · obtain ⟨c, a, s, rfl, hc, -⟩ := mem_zeroThen_iff.mp h
      rcases hc with rfl | rfl <;> rfl
    · rw [isOctalDigit_eq, mem_grouped_iff] at ha
      obtain ⟨c, hc, hdigit⟩ := ha.1.first
      obtain ⟨a, rfl⟩ := List.head?_eq_some_iff.mp hc
      exact kindOf_octal (.inl hdigit)
  · obtain ⟨c, a, s, rfl, hc, -⟩ := mem_zeroThen_iff.mp h
    exact kindOf_binary hc
  · contradiction
  · contradiction

/-! ### Other numbers -/

theorem usesOnly_grouped {A : Char → Prop} {base : Nat}
    (hdigit : ∀ c, isDigitOf base c = true → A c) (hgap : A '_') :
    (grouped (isDigitOf base)).UsesOnly A := by
  simpa [grouped] using ⟨hdigit, hgap⟩

theorem usesOnly_wholeNumber {A : Char → Prop} (hdigit : ∀ c, isDigitOf 10 c = true → A c)
    (hgap : A '_') : wholeNumber.UsesOnly A := by
  have hfirst : (Pattern.one fun c => '1' ≤ c && c ≤ '9').UsesOnly A :=
    fun c hc => hdigit c (isDigitOf_ten_iff.mp hc).1
  have hzero : A '0' := hdigit '0' (by decide)
  have hrest : (Pattern.one Char.isDigit).UsesOnly A := by
    rw [isDigit_eq]
    exact hdigit
  simp only [wholeNumber, usesOnly_alt, usesOnly_seq, usesOnly_char, usesOnly_optional,
    usesOnly_separated, usesOnly_plus]
  exact ⟨hzero, hfirst, hgap, hrest, hgap⟩

theorem usesOnly_decimalReal {A : Char → Prop} (hdigit : ∀ c, isDigitOf 10 c = true → A c)
    (hmarks : ∀ c ∈ ['_', '.', 'e', 'E', 'f', 'F', 'd', 'D', '+', '-'], A c) :
    decimalReal.UsesOnly A := by
  simp only [List.forall_mem_cons] at hmarks
  have hgrouped := usesOnly_grouped hdigit hmarks.1
  have hwhole := usesOnly_wholeNumber hdigit hmarks.1
  simp [decimalReal, exponent, realSuffix, isDigit_eq, hgrouped, hwhole, hmarks]

theorem needs_decimalReal : decimalReal.Needs fun c => c ∈ ['.', 'e', 'E', 'f', 'F', 'd', 'D'] := by
  simp [decimalReal, exponent, realSuffix]

/-- A hexadecimal number without a point and an exponent is an integer. -/
theorem mem_hexInteger_of_mem_hexReal (h : cs ∈ hexReal.language)
    (hmarks : ∀ c ∈ cs, c ∉ ['.', 'p', 'P']) : cs ∈ hexInteger.language := by
  obtain ⟨c, a, b, rfl, hc, ha, hb⟩ := mem_zeroThen_iff.mp h
  have hmarks (d : Char) (hd : d ∈ a ++ b) : d ∉ ['.', 'p', 'P'] :=
    hmarks d (.tail _ (.tail _ hd))
  have hpower : b = [] := by
    rcases mem_language_optional.mp hb with hb | hb
    · have hneeds : (Pattern.seq (exponent ['p', 'P'] wholeNumber)
          (Pattern.optional realSuffix)).Needs fun c => c ∈ ['.', 'p', 'P'] := by
        simp [exponent]
      obtain ⟨d, hd, hmark⟩ := hneeds.exists_mem hb
      exact absurd hmark (hmarks d (List.mem_append_right a hd))
    · exact hb
  have hdigits : a ∈ (grouped isHexDigit).language := by
    rcases mem_language_alt.mp ha with ha | ha
    · obtain ⟨d, hd, e, he, rfl⟩ := mem_language_seq.mp ha
      rcases mem_language_optional.mp he with he | rfl
      · rw [mem_language_char.mp he] at hmarks
        exact absurd (by simp) (hmarks '.' (by simp))
      · rwa [List.append_nil]
    · have hneeds : (chain [Pattern.optional (grouped isHexDigit), .char '.',
          grouped isHexDigit]).Needs fun c => c ∈ ['.', 'p', 'P'] := by
        simp
      obtain ⟨d, hd, hmark⟩ := hneeds.exists_mem ha
      exact absurd hmark (hmarks d (List.mem_append_left b hd))
  refine mem_zeroThen_iff.mpr ⟨c, a, b, rfl, hc, hdigits, ?_⟩
  rw [hpower]
  exact mem_longSuffix_iff.mpr (.inl rfl)

theorem IsDigits.forall_mem {A : Char → Prop} {base : Nat} (h : IsDigits base cs)
    (hs : IsSuffix suffix) (hdigit : ∀ c, isDigitOf base c = true → A c)
    (hmarks : ∀ c ∈ ['_', 'l', 'L'], A c) : ∀ c ∈ cs ++ suffix, A c := by
  refine List.forall_mem_append.mpr ⟨fun c hc => ?_, ?_⟩
  · rcases h.all c hc with hc | rfl
    · exact hdigit c hc
    · exact hmarks '_' (by decide)
  · rcases hs with rfl | rfl | rfl
    · exact fun c hc => (List.not_mem_nil hc).elim
    · exact List.forall_mem_singleton.mpr (hmarks 'l' (by decide))
    · exact List.forall_mem_singleton.mpr (hmarks 'L' (by decide))

/-- Digits stand in front of a suffix in one way only. -/
theorem IsDigits.append_inj {base base' : Nat} {as bs s t : List Char} (ha : IsDigits base as)
    (hb : IsDigits base' bs) (hbase : base ≤ 16) (hbase' : base' ≤ 16) (hs : IsSuffix s)
    (ht : IsSuffix t) (h : as ++ s = bs ++ t) : as = bs ∧ s = t := by
  have hend {base : Nat} {as bs t : List Char} (ha : IsDigits base as) (hle : base ≤ 16)
      (ht : IsSuffix t) (hne : t ≠ []) : as ≠ bs ++ t := by
    rintro rfl
    obtain ⟨c, hc, hdigit⟩ := ha.last
    have hdigit := isDigitOf_mono hle hdigit
    rcases ht with rfl | rfl | rfl
    · contradiction
    · rw [List.getLast?_concat] at hc
      exact isDigitOf_ne hdigit (by rfl) (Option.some.inj hc).symm
    · rw [List.getLast?_concat] at hc
      exact isDigitOf_ne hdigit (by rfl) (Option.some.inj hc).symm
  by_cases hnil : s = []
  · by_cases hnil' : t = []
    · rw [hnil, hnil', List.append_nil, List.append_nil] at h
      exact ⟨h, hnil.trans hnil'.symm⟩
    · rw [hnil, List.append_nil] at h
      exact absurd h (hend ha hbase ht hnil')
  · by_cases hnil' : t = []
    · rw [hnil', List.append_nil] at h
      exact absurd h.symm (hend hb hbase' hs hnil)
    · exact List.append_inj' h ((hs.length_eq_one hnil).trans (ht.length_eq_one hnil').symm)

/-- Hexadecimal numbers that are integer literals have no point and no exponent. -/
theorem IsNumeral.notMem_of_hex (h : IsNumeral .hex numeral) (hs : IsSuffix suffix) :
    ∀ c ∈ numeral ++ suffix, c ∉ ['.', 'p', 'P'] := by
  have hdigit : ∀ entry ∈ digitValues, entry.2 < 16 → entry.1 ∉ ['.', 'p', 'P'] := by
    decide +kernel
  cases h with
  | hex hx h =>
    have htail := h.forall_mem hs (A := fun c => c ∉ ['.', 'p', 'P'])
      (fun c hc => notMem_of_isDigitOf hdigit hc) (by simp)
    refine List.forall_mem_cons.mpr ⟨by decide, List.forall_mem_cons.mpr ⟨?_, htail⟩⟩
    rcases hx with rfl | rfl <;> decide

/-- **Integer literals are no numbers with a fraction**, an exponent or a suffix that says so. -/
theorem notMem_decimalReal (h : IsNumeral kind numeral) (hs : IsSuffix suffix) :
    numeral ++ suffix ∉ decimalReal.language := by
  intro hmem
  have hdigits {base : Nat} (hle : base ≤ 10) (h : IsDigits base numeral) : False := by
    have hdigit : ∀ entry ∈ digitValues, entry.2 < 10 →
        entry.1 ∉ ['.', 'e', 'E', 'f', 'F', 'd', 'D'] := by
      decide +kernel
    obtain ⟨c, hc, hmark⟩ := needs_decimalReal.exists_mem hmem
    exact h.forall_mem hs (A := fun c => c ∉ ['.', 'e', 'E', 'f', 'F', 'd', 'D'])
      (fun c hc => notMem_of_isDigitOf hdigit (isDigitOf_mono hle hc)) (by simp) c hc hmark
  have hletter {c : Char} {cs : List Char} (hc : c ∈ ['x', 'X', 'b', 'B'])
      (h : numeral = '0' :: c :: cs) : False := by
    have hdigit : ∀ entry ∈ digitValues, entry.2 < 10 → entry.1 ∉ ['x', 'X', 'b', 'B'] := by
      decide +kernel
    have huses := usesOnly_decimalReal (A := fun c => c ∉ ['x', 'X', 'b', 'B'])
      (fun c hc => notMem_of_isDigitOf hdigit hc) (by simp)
    exact huses.forall_mem hmem c (by simp [h]) hc
  cases h with
  | zero => exact hdigits (by decide) (.one (by decide : isDigitOf 10 '0' = true))
  | decimal h => exact hdigits (by decide) h
  | hex hx => exact hletter (by rcases hx with rfl | rfl <;> decide) rfl
  | octal h => exact hdigits (by decide) h
  | binary hb => exact hletter (by rcases hb with rfl | rfl <;> decide) rfl

/-! ### Literals as tokens -/

namespace Lexeme

/-- **A literal that is read as one number is read as one of its kind.** -/
theorem number?_numeral (h : IsNumeral kind numeral) (hs : IsSuffix suffix)
    (hread : number? (numeral ++ suffix) = some (kind', (numeral ++ suffix).length)) :
    kind' = kind ∧ ∃ p, (kind, p) ∈ numbers ∧ numeral ++ suffix ∈ p.language := by
  obtain ⟨⟨kind', p⟩, hp, rfl⟩ := Option.map_eq_some_iff.mp (number?_eq_length_iff.mp hread)
  have hmem : (kind', p) ∈ numbers := List.mem_of_find?_eq_some hp
  have hp' : numeral ++ suffix ∈ p.language :=
    longest?_eq_length_iff.mp (by simpa using List.find?_some hp)
  by_cases hreal : kind' = .real
  · exfalso
    subst hreal
    simp only [numbers, List.mem_cons, Prod.mk.injEq, reduceCtorEq, false_and, true_and,
      List.not_mem_nil, or_false, false_or] at hmem
    rcases hmem with rfl | rfl
    · exact notMem_decimalReal h hs hp'
    · -- hexadecimal integers are preferred
      obtain ⟨c, a, b, heq, hc, -⟩ := mem_zeroThen_iff.mp hp'
      obtain rfl : kind = .hex := by rw [← kindOf_numeral h hs, ← heq, kindOf_hex hc]
      have hhex := mem_hexInteger_of_mem_hexReal hp' (h.notMem_of_hex hs)
      rw [numbers, List.find?_cons] at hp
      split at hp
      · cases hp
      · rw [List.find?_cons, longest?_eq_length_iff.mpr hhex, beq_self_eq_true] at hp
        cases hp
  · obtain rfl : kind' = kind := by rw [← kindOf_of_mem hmem hreal hp', kindOf_numeral h hs]
    exact ⟨rfl, p, hmem, hp'⟩

/-- The underscores in the numeral are those that tokens may have: in a decimal numeral at most one
behind the first digit, in others none behind the zero and no two next to each other. -/
def IsGrouped : Literal → List Char → Prop
  | .decimal, cs => ¬['_', '_'] <+: cs.tail
  | _, cs => cs.tail.head? ≠ some '_' ∧ ¬['_', '_'] <:+: cs

theorem mem_decimalInteger_append_iff (h : IsDigits 10 cs) (hs : IsSuffix suffix) :
    cs ++ suffix ∈ decimalInteger.language ↔ cs ∈ wholeNumber.language := by
  rw [mem_decimalInteger_iff]
  constructor
  · rintro ⟨a, t, heq, ha, ht⟩
    have hdigits : IsDigits 10 a := by
      rcases mem_wholeNumber_iff.mp ha with rfl | ⟨hdigits, -⟩
      · exact .one (by decide)
      · exact hdigits
    rwa [← (hdigits.append_inj h (by decide) (by decide) ht hs heq).1]
  · exact fun hcs => ⟨cs, suffix, rfl, hcs, hs⟩

/-- Digits behind a zero and a letter are matched if no two underscores are next to each other. -/
theorem mem_zeroThen_append_iff {lower upper : Char} {base : Nat} (hbase : base ≤ 16)
    (hc : c = lower ∨ c = upper) (h : IsDigits base cs) (hs : IsSuffix suffix) :
    '0' :: c :: (cs ++ suffix) ∈
        (chain [zeroThen lower upper, grouped (isDigitOf base), longSuffix]).language ↔
      ¬['_', '_'] <:+: cs := by
  rw [mem_zeroThen_iff]
  constructor
  · rintro ⟨d, a, t, heq, hd, ha, ht⟩
    have heq := (List.cons.inj (List.cons.inj heq).2).2
    obtain ⟨hdigits, hnone⟩ := mem_grouped_iff.mp ha
    rwa [← (hdigits.append_inj h hbase hbase (mem_longSuffix_iff.mp ht) hs heq).1]
  · exact fun hnone => ⟨c, cs, suffix, rfl, hc, mem_grouped_iff.mpr ⟨h, hnone⟩,
      mem_longSuffix_iff.mpr hs⟩

/-- Octal digits behind a zero are matched if they also start with a digit. -/
theorem mem_octalInteger_append_iff (h : IsDigits 8 ('0' :: c :: cs)) (hs : IsSuffix suffix) :
    '0' :: c :: (cs ++ suffix) ∈ octalInteger.language ↔
      c ≠ '_' ∧ ¬['_', '_'] <:+: c :: cs := by
  have hfirst := h.all c (by simp)
  rw [mem_octalInteger_iff, isOctalDigit_eq]
  constructor
  · rintro (hmem | ⟨a, t, heq, ha, ht⟩)
    · -- the letter of the other spelling is no octal digit
      obtain ⟨d, a, t, heq, hd, -⟩ := mem_zeroThen_iff.mp hmem
      obtain rfl : d = c := (List.cons.inj (List.cons.inj heq).2).1
      rcases hd with rfl | rfl <;> exact absurd hfirst (by decide)
    · obtain ⟨hdigits, hnone⟩ := mem_grouped_iff.mp ha
      -- with the zero in front both are digits, and digits end where a suffix starts
      have hall : IsDigits 8 ('0' :: a) :=
        hdigits.cons_append (by decide) fun d hd => (List.not_mem_nil hd).elim
      obtain rfl := (List.cons.inj (hall.append_inj h (by decide) (by decide) ht hs heq).1).2
      obtain ⟨d, hd, hdigit⟩ := hdigits.first
      obtain rfl : c = d := Option.some.inj hd
      exact ⟨isDigitOf_ne hdigit (by rfl), hnone⟩
  · rintro ⟨hne, hnone⟩
    have hall : IsDigits 8 (['0'] ++ c :: cs) := h
    have hdigits : IsDigits 8 (c :: cs) := hall.of_append ⟨c, rfl, hfirst.resolve_right hne⟩
    exact .inr ⟨c :: cs, suffix, rfl, mem_grouped_iff.mpr ⟨hdigits, hnone⟩, hs⟩

/-- A zero in front takes no part in the underscores. -/
theorem isGrouped_zero_cons_iff (hkind : kind ≠ .decimal) :
    IsGrouped kind ('0' :: c :: cs) ↔ c ≠ '_' ∧ ¬['_', '_'] <:+: c :: cs := by
  have hzero : ['_', '_'] <:+: '0' :: c :: cs ↔ ['_', '_'] <:+: c :: cs :=
    infix_cons_iff_of_ne (by decide)
  cases kind with
  | decimal => contradiction
  | _ => simp [IsGrouped, hzero]

theorem isGrouped_letter_iff (hkind : kind ≠ .decimal) (hc : c ≠ '_') :
    IsGrouped kind ('0' :: c :: cs) ↔ ¬['_', '_'] <:+: cs := by
  rw [isGrouped_zero_cons_iff hkind, infix_cons_iff_of_ne hc]
  exact and_iff_right hc

/-- **A literal is matched by the pattern of its kind** if its underscores are those of tokens. -/
theorem mem_language_iff_isGrouped (h : IsNumeral kind numeral) (hs : IsSuffix suffix)
    (hp : (kind, p) ∈ numbers) : numeral ++ suffix ∈ p.language ↔ IsGrouped kind numeral := by
  cases h with
  | zero =>
    obtain rfl : p = decimalInteger := by simpa [numbers] using hp
    rw [mem_decimalInteger_append_iff (.one (by decide)) hs, mem_wholeNumber_iff]
    simp [IsGrouped]
  | decimal h hhead =>
    obtain rfl : p = decimalInteger := by simpa [numbers] using hp
    rw [mem_decimalInteger_append_iff h hs, mem_wholeNumber_iff]
    constructor
    · rintro (rfl | ⟨-, -, htail⟩)
      · exact absurd rfl hhead
      · exact htail
    · exact fun htail => .inr ⟨h, hhead, htail⟩
  | @hex x cs hx h =>
    obtain rfl : p = hexInteger := by simpa [numbers] using hp
    have hletter : x ≠ '_' := by rcases hx with rfl | rfl <;> decide
    rw [isGrouped_letter_iff (by decide) hletter, List.cons_append, List.cons_append, hexInteger,
      isHexDigit_eq, mem_zeroThen_append_iff (by decide) hx h hs]
  | @octal cs h hne =>
    obtain rfl : p = octalInteger := by simpa [numbers] using hp
    obtain ⟨c, ds, rfl⟩ := List.exists_cons_of_ne_nil hne
    rw [isGrouped_zero_cons_iff (by decide), List.cons_append, List.cons_append,
      mem_octalInteger_append_iff h hs]
  | @binary b cs hb h =>
    obtain rfl : p = binaryInteger := by simpa [numbers] using hp
    have hletter : b ≠ '_' := by rcases hb with rfl | rfl <;> decide
    rw [isGrouped_letter_iff (by decide) hletter, List.cons_append, List.cons_append, binaryInteger,
      isBinaryDigit_eq, mem_zeroThen_append_iff (by decide) hb h hs]

/-- **Which literals are read as one number**: those whose underscores are those of tokens. -/
theorem number?_numeral_iff (h : IsNumeral kind numeral) (hs : IsSuffix suffix) :
    number? (numeral ++ suffix) = some (kind', (numeral ++ suffix).length) ↔
      kind' = kind ∧ IsGrouped kind numeral := by
  constructor
  · intro hread
    obtain ⟨hkind, p, hp, hmem⟩ := number?_numeral h hs hread
    exact ⟨hkind, (mem_language_iff_isGrouped h hs hp).mp hmem⟩
  · rintro ⟨rfl, hgrouped⟩
    obtain ⟨p, hp⟩ : ∃ p, (kind', p) ∈ numbers := by cases h <;> exact ⟨_, by simp [numbers]; rfl⟩
    have hmem := (mem_language_iff_isGrouped h hs hp).mpr hgrouped
    have hfind : (numbers.find? fun e =>
        e.2.longest? (numeral ++ suffix) == some (numeral ++ suffix).length).isSome :=
      List.find?_isSome.mpr ⟨_, hp, by simpa using longest?_eq_length_iff.mpr hmem⟩
    obtain ⟨e, he⟩ := Option.isSome_iff_exists.mp hfind
    have hread := number?_eq_length_iff.mpr (congrArg (Option.map Prod.fst) he)
    rw [hread, (number?_numeral h hs hread).1]

end Lexeme

end ViewBinding.Java
