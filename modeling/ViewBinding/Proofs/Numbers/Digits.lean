import Mathlib.Data.List.Infix
import ViewBinding.Java.Spelling
import ViewBinding.Proofs.Text.Matching

/-!
# Digits with underscores between them

In the numbers of Java, underscores may stand between digits, any number of them
(`ViewBinding.Java.IsDigits`). The patterns of the tokens allow fewer: in most numbers no two
underscores are next to each other (`ViewBinding.Java.mem_grouped_iff`), and in a decimal number
only behind the first digit (`ViewBinding.Java.mem_wholeNumber_iff`).

Both kinds of patterns are digits with gaps between them (`ViewBinding.Java.Separated`), and differ
in what a gap is.
-/

namespace ViewBinding.Java

open Text Spelling

open Text.Pattern hiding none empty

/-! ### Digits -/

/-- The digits of all bases with their values. -/
def digitValues : List (Char × Nat) :=
  "0123456789".toList.zipIdx ++ "abcdef".toList.zipIdx 10 ++ "ABCDEF".toList.zipIdx 10

/-- The value of a digit. -/
def digitValue? (c : Char) : Option Nat :=
  digitValues.lookup c

/-- Whether the character is a digit of the base. -/
def isDigitOf (base : Nat) (c : Char) : Bool :=
  (digitValue? c).any (· < base)

theorem mem_digitValues_of_digitValue? {c : Char} {d : Nat} (h : digitValue? c = some d) :
    (c, d) ∈ digitValues := by
  rw [digitValue?, List.lookup_eq_some_iff] at h
  obtain ⟨front, back, heq, -⟩ := h
  simp [heq]

/-- What holds of the digits in the table holds of every digit. -/
theorem forall_isDigitOf {P : Char → Prop} {base : Nat}
    (h : ∀ entry ∈ digitValues, entry.2 < base → P entry.1) {c : Char}
    (hc : isDigitOf base c = true) : P c := by
  obtain ⟨d, hd, hlt⟩ := (Option.any_eq_true _ _).mp hc
  exact h (c, d) (mem_digitValues_of_digitValue? hd) (by simpa using hlt)

theorem notMem_of_isDigitOf {base : Nat} {marks : List Char}
    (h : ∀ entry ∈ digitValues, entry.2 < base → entry.1 ∉ marks) {c : Char}
    (hc : isDigitOf base c = true) : c ∉ marks :=
  forall_isDigitOf (P := fun c => c ∉ marks) h hc

theorem isDigitOf_ne {base : Nat} {c d : Char} (hc : isDigitOf base c = true)
    (hd : isDigitOf base d = false) : c ≠ d := by
  rintro rfl
  rw [hc] at hd
  cases hd

theorem isDigitOf_mono {base base' : Nat} (hle : base ≤ base') {c : Char}
    (h : isDigitOf base c = true) : isDigitOf base' c = true := by
  obtain ⟨d, hd, hlt⟩ := (Option.any_eq_true _ _).mp h
  refine (Option.any_eq_true _ _).mpr ⟨d, hd, decide_eq_true ?_⟩
  exact Nat.lt_of_lt_of_le (of_decide_eq_true hlt) hle

theorem toNat_lt_of_isDigitOf {base : Nat} {c : Char} (h : isDigitOf base c = true) :
    c.toNat < 128 := by
  have hall : ∀ entry ∈ digitValues, entry.1.toNat < 128 := by decide +kernel
  exact forall_isDigitOf (P := fun c => c.toNat < 128) (fun entry hmem _ => hall entry hmem) h

/-- Two properties that only ASCII characters have are the same if they agree on these. -/
theorem eq_of_ascii {p q : Char → Bool} (h : ∀ n < 128, p (.ofNat n) = q (.ofNat n))
    (hp : ∀ c, p c = true → c.toNat < 128) (hq : ∀ c, q c = true → c.toNat < 128) : p = q := by
  funext c
  by_cases hc : c.toNat < 128
  · have hn := h c.toNat hc
    rwa [Char.ofNat_toNat] at hn
  · rw [Bool.eq_false_iff.mpr fun hpc => hc (hp c hpc),
      Bool.eq_false_iff.mpr fun hqc => hc (hq c hqc)]

theorem toNat_lt_of_le {c d : Char} (h : c ≤ d) (hd : d.toNat < 128) : c.toNat < 128 :=
  Nat.lt_of_le_of_lt (UInt32.le_iff_toNat_le.mp (Char.le_def.mp h)) hd

theorem toNat_lt_of_isDigit {c : Char} (h : c.isDigit = true) : c.toNat < 128 := by
  rw [Char.isDigit, Bool.and_eq_true, decide_eq_true_eq, decide_eq_true_eq] at h
  exact toNat_lt_of_le (d := '9') (Char.le_def.mpr h.2) (by decide)

/-- On ASCII the digits of the tokens are those of the bases. -/
theorem digits_ascii : ∀ n < 128,
    Char.isDigit (.ofNat n) = isDigitOf 10 (.ofNat n) ∧
      isHexDigit (.ofNat n) = isDigitOf 16 (.ofNat n) ∧
      isOctalDigit (.ofNat n) = isDigitOf 8 (.ofNat n) ∧
      isBinaryDigit (.ofNat n) = isDigitOf 2 (.ofNat n) := by
  decide +kernel

theorem isDigit_eq : Char.isDigit = isDigitOf 10 :=
  eq_of_ascii (fun n hn => (digits_ascii n hn).1) (fun _ => toNat_lt_of_isDigit)
    fun _ => toNat_lt_of_isDigitOf

theorem isHexDigit_eq : isHexDigit = isDigitOf 16 := by
  refine eq_of_ascii (fun n hn => (digits_ascii n hn).2.1) (fun c hc => ?_)
    fun _ => toNat_lt_of_isDigitOf
  simp only [isHexDigit, Bool.or_eq_true, Bool.and_eq_true, decide_eq_true_eq] at hc
  rcases hc with (hc | ⟨-, hc⟩) | ⟨-, hc⟩
  · exact toNat_lt_of_isDigit hc
  · exact toNat_lt_of_le hc (by decide)
  · exact toNat_lt_of_le hc (by decide)

theorem isOctalDigit_eq : isOctalDigit = isDigitOf 8 := by
  refine eq_of_ascii (fun n hn => (digits_ascii n hn).2.2.1) (fun c hc => ?_)
    fun _ => toNat_lt_of_isDigitOf
  simp only [isOctalDigit, Bool.and_eq_true, decide_eq_true_eq] at hc
  exact toNat_lt_of_le hc.2 (by decide)

theorem isBinaryDigit_eq : isBinaryDigit = isDigitOf 2 := by
  refine eq_of_ascii (fun n hn => (digits_ascii n hn).2.2.2) (fun c hc => ?_)
    fun _ => toNat_lt_of_isDigitOf
  simp only [isBinaryDigit, Bool.or_eq_true, beq_iff_eq] at hc
  rcases hc with rfl | rfl <;> decide

/-! ### Digits with gaps -/

section Separated

variable {digit : Char → Bool} {gap : Pattern} {cs ds : List Char}

/-- **Digits with gaps between them**: whatever stands between two digits is a text of `gap`. -/
inductive Separated (digit : Char → Bool) (gap : Pattern) : List Char → Prop
  | one {c} (hc : digit c = true) : Separated digit gap [c]
  | more {c cs} (hc : digit c = true) (hcs : Separated digit gap cs) :
    Separated digit gap (c :: cs)
  | apart {c s cs} (hc : digit c = true) (hs : s ∈ gap.language)
    (hcs : Separated digit gap cs) : Separated digit gap (c :: (s ++ cs))

theorem mem_language_star_one :
    cs ∈ (star (one digit)).language ↔ ∀ c ∈ cs, digit c = true := by
  constructor
  · intro h
    exact UsesOnly.forall_mem (p := star (one digit)) (fun c hc => hc) h
  · intro h
    induction cs with
    | nil => exact Language.nil_mem_kstar _
    | cons c cs ih =>
      obtain ⟨hc, hcs⟩ := List.forall_mem_cons.mp h
      have hfirst : [c] ∈ (one digit).language := ⟨c, hc, rfl⟩
      exact append_mem_kstar hfirst (ih hcs)

theorem mem_language_plus_one :
    cs ∈ (plus (one digit)).language ↔ cs ≠ [] ∧ ∀ c ∈ cs, digit c = true := by
  rw [plus, mem_language_seq]
  constructor
  · rintro ⟨a, ⟨c, hc, rfl⟩, b, hb, rfl⟩
    exact ⟨List.cons_ne_nil c b, List.forall_mem_cons.mpr ⟨hc, mem_language_star_one.mp hb⟩⟩
  · rintro ⟨hne, h⟩
    obtain ⟨c, cs, rfl⟩ := List.exists_cons_of_ne_nil hne
    obtain ⟨hc, hcs⟩ := List.forall_mem_cons.mp h
    exact ⟨[c], ⟨c, hc, rfl⟩, cs, mem_language_star_one.mpr hcs, rfl⟩

/-- Digits in a row may stand in front of nothing, or of a gap with more digits behind it. -/
theorem Separated.of_append (hne : cs ≠ []) (hcs : ∀ c ∈ cs, digit c = true)
    (hds : ds = [] ∨ ∃ s ∈ gap.language, ∃ rest, Separated digit gap rest ∧ s ++ rest = ds) :
    Separated digit gap (cs ++ ds) := by
  induction cs with
  | nil => contradiction
  | cons c cs ih =>
    obtain ⟨hc, hcs⟩ := List.forall_mem_cons.mp hcs
    by_cases hnil : cs = []
    · rw [hnil, List.singleton_append]
      rcases hds with rfl | ⟨s, hs, rest, hrest, rfl⟩
      · exact .one hc
      · exact .apart hc hs hrest
    · exact .more hc (ih hnil hcs)

/-- **The pattern of what is separated by gaps**, for single digits. -/
theorem mem_separated_iff :
    cs ∈ (separated (plus (one digit)) gap).language ↔ Separated digit gap cs := by
  rw [separated, mem_language_seq]
  constructor
  · rintro ⟨a, ha, b, hb, rfl⟩
    obtain ⟨hne, hdigits⟩ := mem_language_plus_one.mp ha
    refine .of_append hne hdigits ?_
    obtain ⟨texts, rfl, htexts⟩ := Language.mem_kstar.mp hb
    clear ha hb hne hdigits
    -- by induction on the gaps, each with the digits behind it
    induction texts with
    | nil => exact .inl rfl
    | cons text texts ih =>
      obtain ⟨htext, hrest⟩ := List.forall_mem_cons.mp htexts
      obtain ⟨s, hs, ds, hds, rfl⟩ := mem_language_seq.mp htext
      obtain ⟨hne, hdigits⟩ := mem_language_plus_one.mp hds
      exact .inr ⟨s, hs, ds ++ texts.flatten, .of_append hne hdigits (ih hrest),
        by rw [List.flatten_cons, List.append_assoc]⟩
  · intro h
    have hdigit {c : Char} (hc : digit c = true) : [c] ∈ (plus (one digit)).language :=
      mem_language_plus_one.mpr ⟨List.cons_ne_nil c [], by simpa using hc⟩
    induction h with
    | @one c hc => exact ⟨[c], hdigit hc, [], Language.nil_mem_kstar _, rfl⟩
    | @more c cs hc _ ih =>
      obtain ⟨a, ha, b, hb, rfl⟩ := ih
      obtain ⟨-, hdigits⟩ := mem_language_plus_one.mp ha
      exact ⟨c :: a, mem_language_plus_one.mpr
        ⟨List.cons_ne_nil c a, List.forall_mem_cons.mpr ⟨hc, hdigits⟩⟩, b, hb, rfl⟩
    | @apart c s cs hc hs _ ih =>
      obtain ⟨a, ha, b, hb, rfl⟩ := ih
      have htext : s ++ a ∈ (seq gap (plus (one digit))).language :=
        mem_language_seq.mpr ⟨s, hs, a, ha, rfl⟩
      exact ⟨[c], hdigit hc, s ++ a ++ b, append_mem_kstar htext hb, by simp⟩

end Separated

/-! ### Digits with underscores -/

/-- **Digits of a base with underscores between them**: the first character and the last are
digits. -/
structure IsDigits (base : Nat) (cs : List Char) : Prop where
  all : ∀ c ∈ cs, isDigitOf base c = true ∨ c = '_'
  first : ∃ c ∈ cs.head?, isDigitOf base c = true
  last : ∃ c ∈ cs.getLast?, isDigitOf base c = true

instance (base : Nat) (cs : List Char) : Decidable (IsDigits base cs) :=
  decidable_of_iff ((cs.all fun c => isDigitOf base c || c == '_') = true ∧
      cs.head?.any (isDigitOf base) = true ∧ cs.getLast?.any (isDigitOf base) = true)
    ⟨fun ⟨h, h', h''⟩ => ⟨by simpa using h, (Option.any_eq_true _ _).mp h',
        (Option.any_eq_true _ _).mp h''⟩,
      fun h => ⟨by simpa using h.all, (Option.any_eq_true _ _).mpr h.first,
        (Option.any_eq_true _ _).mpr h.last⟩⟩

namespace IsDigits

variable {base : Nat} {c : Char} {cs ds : List Char} {gap : Pattern}

theorem ne_nil (h : IsDigits base cs) : cs ≠ [] := by
  rintro rfl
  obtain ⟨c, hc, -⟩ := h.first
  cases hc

theorem one (hc : isDigitOf base c = true) : IsDigits base [c] :=
  ⟨by simpa using .inl hc, ⟨c, rfl, hc⟩, ⟨c, rfl, hc⟩⟩

/-- A digit may be put in front, with underscores or without. -/
theorem cons_append (hc : isDigitOf base c = true) (hcs : ∀ d ∈ cs, d = '_')
    (hds : IsDigits base ds) : IsDigits base (c :: (cs ++ ds)) := by
  refine ⟨fun d hd => ?_, ⟨c, rfl, hc⟩, ?_⟩
  · rcases List.mem_cons.mp hd with rfl | hd
    · exact .inl hc
    · rcases List.mem_append.mp hd with hd | hd
      · exact .inr (hcs d hd)
      · exact hds.all d hd
  · rw [← List.cons_append, List.getLast?_append_of_ne_nil _ hds.ne_nil]
    exact hds.last

/-- What is left behind from a digit on are digits. -/
theorem of_append (h : IsDigits base (cs ++ ds))
    (hfirst : ∃ c ∈ ds.head?, isDigitOf base c = true) : IsDigits base ds := by
  have hne : ds ≠ [] := by
    rintro rfl
    obtain ⟨c, hc, -⟩ := hfirst
    cases hc
  refine ⟨fun d hd => h.all d (List.mem_append_right cs hd), hfirst, ?_⟩
  have hlast := h.last
  rwa [List.getLast?_append_of_ne_nil _ hne] at hlast

/-- Behind a digit more digits follow, with underscores in front or without. -/
theorem exists_gap (h : IsDigits base (c :: cs)) (hne : cs ≠ []) :
    ∃ s ds, s ++ ds = cs ∧ (∀ d ∈ s, d = '_') ∧ IsDigits base ds := by
  induction cs with
  | nil => contradiction
  | cons d cs ih =>
    rcases h.all d (by simp) with hd | rfl
    · have hrest : IsDigits base ([c] ++ (d :: cs)) := h
      exact ⟨[], d :: cs, rfl, by simp, hrest.of_append ⟨d, rfl, hd⟩⟩
    · have hlast := h.last
      have hcs : cs ≠ [] := by
        rintro rfl
        obtain ⟨e, he, hdigit⟩ := hlast
        exact isDigitOf_ne hdigit (by rfl) (Option.some.inj he).symm
      have hshort : IsDigits base (c :: cs) := by
        refine ⟨fun e he => h.all e ?_, h.first, ?_⟩
        · rcases List.mem_cons.mp he with rfl | he
          · exact .head _
          · exact .tail _ (.tail _ he)
        · rw [List.getLast?_cons_of_ne_nil hcs]
          rwa [List.getLast?_cons_of_ne_nil (List.cons_ne_nil _ _),
            List.getLast?_cons_of_ne_nil hcs] at hlast
      obtain ⟨s, ds, rfl, hs, hds⟩ := ih hshort hcs
      exact ⟨'_' :: s, ds, rfl, List.forall_mem_cons.mpr ⟨rfl, hs⟩, hds⟩

/-- Digits with gaps of underscores are digits with underscores between them. -/
theorem of_separated (hgap : ∀ s ∈ gap.language, ∀ c ∈ s, c = '_')
    (h : Separated (isDigitOf base) gap cs) : IsDigits base cs := by
  induction h with
  | one hc => exact .one hc
  | more hc _ ih =>
    have hnone : ∀ d ∈ ([] : List Char), d = '_' := by simp
    exact ih.cons_append hc hnone
  | apart hc hs _ ih => exact ih.cons_append hc (hgap _ hs)

/-- Digits with underscores between them are digits with gaps, if all their underscores are. -/
theorem separated (h : IsDigits base cs)
    (hgap : ∀ s, s <:+: cs → s ≠ [] → (∀ c ∈ s, c = '_') → s ∈ gap.language) :
    Separated (isDigitOf base) gap cs := by
  induction hn : cs.length using Nat.strong_induction_on generalizing cs with
  | _ n ih =>
    obtain ⟨c, hc, hdigit⟩ := h.first
    obtain ⟨cs, rfl⟩ := List.head?_eq_some_iff.mp hc
    by_cases hnil : cs = []
    · rw [hnil]
      exact .one hdigit
    · obtain ⟨s, ds, rfl, hs, hds⟩ := h.exists_gap hnil
      have hsuffix : ds <:+ c :: (s ++ ds) := ⟨c :: s, rfl⟩
      have hrest : Separated (isDigitOf base) gap ds := by
        refine ih ds.length ?_ hds (fun t ht => hgap t (ht.trans hsuffix.isInfix)) rfl
        rw [← hn, List.length_cons, List.length_append]
        omega
      by_cases hempty : s = []
      · rw [hempty]
        exact .more hdigit hrest
      · have hrow : s <:+: c :: (s ++ ds) := ⟨[c], ds, rfl⟩
        exact .apart hdigit (hgap s hrow hempty hs) hrest

end IsDigits

/-! ### The patterns of digits -/

section Patterns

variable {base : Nat} {c : Char} {cs ds : List Char} {gap : Pattern}

/-- Digits with gaps between them start with a digit. -/
theorem Separated.exists_head {digit : Char → Bool} (h : Separated digit gap cs) :
    ∃ c ds, cs = c :: ds ∧ digit c = true := by
  cases h with
  | one hc | more hc | apart hc => exact ⟨_, _, rfl, hc⟩

theorem infix_cons_iff_of_ne (hc : c ≠ '_') :
    ['_', '_'] <:+: c :: cs ↔ ['_', '_'] <:+: cs := by
  rw [List.infix_cons_iff]
  exact or_iff_right fun hfront => hc (List.cons_prefix_cons.mp hfront).1.symm

/-- **Digits grouped by single underscores** are digits with underscores between them, no two of
which are next to each other. -/
theorem mem_grouped_iff :
    cs ∈ (grouped (isDigitOf base)).language ↔
      IsDigits base cs ∧ ¬['_', '_'] <:+: cs := by
  rw [grouped, mem_separated_iff]
  constructor
  · intro h
    refine ⟨.of_separated (by simp) h, ?_⟩
    induction h with
    | one hc => exact fun hrow => absurd hrow.length_le (by simp)
    | more hc _ ih => rwa [infix_cons_iff_of_ne (isDigitOf_ne hc (by rfl))]
    | apart hc hs hcs ih =>
      obtain rfl := mem_language_char.mp hs
      obtain ⟨d, ds, rfl, hd⟩ := hcs.exists_head
      rw [infix_cons_iff_of_ne (isDigitOf_ne hc (by rfl)), List.singleton_append,
        List.infix_cons_iff, not_or]
      refine ⟨fun hfront => ?_, ih⟩
      have hsecond := (List.cons_prefix_cons.mp (List.cons_prefix_cons.mp hfront).2).1
      exact isDigitOf_ne hd (by rfl) hsecond.symm
  · rintro ⟨hdigits, hnone⟩
    refine hdigits.separated fun s hs hne hall => mem_language_char.mpr ?_
    obtain ⟨c, s, rfl⟩ := List.exists_cons_of_ne_nil hne
    obtain rfl := hall c (.head _)
    cases s with
    | nil => rfl
    | cons d s =>
      obtain rfl := hall d (.tail _ (.head _))
      have hfront : ['_', '_'] <+: '_' :: '_' :: s := ⟨s, rfl⟩
      exact absurd (hfront.isInfix.trans hs) hnone

theorem isDigitOf_ten_iff :
    ('1' ≤ c && c ≤ '9') = true ↔ isDigitOf 10 c = true ∧ c ≠ '0' := by
  have heq : (fun c : Char => '1' ≤ c && c ≤ '9') = fun c => isDigitOf 10 c && c != '0' := by
    refine eq_of_ascii (by decide +kernel) (fun c hc => ?_) fun c hc => ?_
    · exact toNat_lt_of_le (of_decide_eq_true (Bool.and_eq_true_iff.mp hc).2) (by decide)
    · exact toNat_lt_of_isDigitOf (Bool.and_eq_true_iff.mp hc).1
  rw [congrFun heq c, Bool.and_eq_true, bne_iff_ne]

theorem mem_language_underscores_iff :
    cs ∈ (plus (char '_')).language ↔ cs ≠ [] ∧ ∀ c ∈ cs, c = '_' := by
  rw [char, mem_language_plus_one]
  simp

/-- Behind the first digit of a whole number come its other digits, one underscore before them or
none. -/
theorem mem_behindFirst_iff :
    cs ∈ (seq (optional (char '_'))
        (separated (plus (one Char.isDigit)) (plus (char '_')))).language ↔
      ∃ s ds, s ++ ds = cs ∧ (s = ['_'] ∨ s = []) ∧
        Separated (isDigitOf 10) (plus (char '_')) ds := by
  simp only [mem_language_seq, mem_language_optional, mem_language_char, isDigit_eq,
    mem_separated_iff]
  constructor
  · rintro ⟨s, hs, ds, hds, rfl⟩
    exact ⟨s, ds, rfl, hs, hds⟩
  · rintro ⟨s, ds, rfl, hs, hds⟩
    exact ⟨s, hs, ds, hds, rfl⟩

/-- **A whole number** is zero, or it is made of digits with underscores between them, the first
digit not zero and at most one underscore behind it. -/
theorem mem_wholeNumber_iff :
    cs ∈ wholeNumber.language ↔
      cs = ['0'] ∨ IsDigits 10 cs ∧ cs.head? ≠ some '0' ∧ ¬['_', '_'] <+: cs.tail := by
  rw [wholeNumber, mem_language_alt, mem_language_char, mem_language_seq]
  refine or_congr_right ⟨?_, ?_⟩
  · rintro ⟨_, ⟨c, hc, rfl⟩, b, hb, rfl⟩
    obtain ⟨hdigit, hne⟩ := isDigitOf_ten_iff.mp hc
    rcases mem_language_optional.mp hb with hb | rfl
    · obtain ⟨s, ds, rfl, hs, hds⟩ := mem_behindFirst_iff.mp hb
      have hdigits : IsDigits 10 ds :=
        .of_separated (fun s hs => (mem_language_underscores_iff.mp hs).2) hds
      obtain ⟨d, ds, rfl, hd⟩ := hds.exists_head
      have hd' : '_' ≠ d := (isDigitOf_ne hd (by rfl)).symm
      have hall : ∀ c ∈ s, c = '_' := by rcases hs with rfl | rfl <;> simp
      have hdigits : IsDigits 10 (c :: (s ++ d :: ds)) := hdigits.cons_append hdigit hall
      refine ⟨hdigits, fun hhead => hne (Option.some.inj hhead), ?_⟩
      rcases hs with rfl | rfl <;> simp [hd']
    · exact ⟨.one hdigit, fun hhead => hne (Option.some.inj hhead),
        fun hfront => absurd hfront.length_le (by simp)⟩
  · rintro ⟨hdigits, hhead, htail⟩
    obtain ⟨c, hc, hdigit⟩ := hdigits.first
    obtain ⟨cs, rfl⟩ := List.head?_eq_some_iff.mp hc
    have hfirst : ('1' ≤ c && c ≤ '9') = true :=
      isDigitOf_ten_iff.mpr ⟨hdigit, fun heq => hhead (congrArg some heq)⟩
    refine ⟨[c], ⟨c, hfirst, rfl⟩, cs, mem_language_optional.mpr ?_, rfl⟩
    by_cases hnil : cs = []
    · exact .inr hnil
    · obtain ⟨s, ds, rfl, hs, hds⟩ := hdigits.exists_gap hnil
      have hseparated : Separated (isDigitOf 10) (plus (char '_')) ds :=
        hds.separated fun s _ hne hall => mem_language_underscores_iff.mpr ⟨hne, hall⟩
      refine .inl (mem_behindFirst_iff.mpr ⟨s, ds, rfl, ?_, hseparated⟩)
      -- a second underscore here would be next to the first
      cases s with
      | nil => exact .inr rfl
      | cons d s =>
        obtain rfl := hs d (.head _)
        cases s with
        | nil => exact .inl rfl
        | cons e s =>
          obtain rfl := hs e (.tail _ (.head _))
          exact absurd ⟨s ++ ds, rfl⟩ htail

end Patterns

end ViewBinding.Java
