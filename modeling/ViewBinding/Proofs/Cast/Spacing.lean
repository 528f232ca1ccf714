import ViewBinding.Proofs.Cast.TypeText
import ViewBinding.Proofs.Cast.Words

/-!
# The spacing of a type

Of the white space between two characters of a type it only counts whether there is any. What a tidy
text has between them follows from two facts about the pass over the characters: a stretch of white
space leaves nothing behind but an owed space
(`ViewBinding.Java.TypeText.tidyFrom_append_of_blank`), and behind any other character the pass goes
on in a way that this character alone decides
(`ViewBinding.Java.TypeText.exists_tidyFrom_append_cons`). So a space is written exactly where white
space or a comma asks for it and neither neighbour does without
(`ViewBinding.Java.TypeText.hasGap_tidy_iff`).

The pass leaves its own output as it is, because every space in it is one that was needed
(`ViewBinding.Java.TypeText.tidyFrom_tidyFrom`). A tidy text is therefore the one form of all the
texts that differ from it in the amount and the kind of their white space
(`ViewBinding.Java.TypeText.tidy_canonicalizes`).
-/

namespace ViewBinding.Java

open Text

/-! ### Letters -/

namespace Spelling

/-- Stretches of code points in which there is no white space. -/
def plainRanges : List (Nat × Nat) :=
  [(0x3001, 0x10FFFF), (0xA1, 0x167F), (0x1681, 0x1FFF), (0x200B, 0x2027), (0x2030, 0x205E),
    (0x2060, 0x2FFF)]

theorem isBlank_eq_false_of_plainRanges {c : Char} (h : inRanges plainRanges c) :
    isBlank c = false := by
  simp only [inRanges, plainRanges, List.any_cons, List.any_nil, Bool.or_false, Bool.or_eq_true,
    Bool.and_eq_true, decide_eq_true_eq] at h
  simp only [isBlank, Bool.or_eq_false_iff, Bool.and_eq_false_iff, decide_eq_false_iff_not,
    beq_eq_false_iff_ne]
  omega

theorem isBlank_eq_false_of_continuesName {c : Char} (h : continuesName c) :
    isBlank c = false := by
  by_cases hascii : c.toNat < 0x80
  · have hall : ∀ n < 0x80, continuesName (Char.ofNat n) → isBlank (Char.ofNat n) = false := by
      decide +kernel
    have hc := hall c.toNat hascii
    rw [Char.ofNat_toNat] at hc
    exact hc h
  · simp only [continuesName, isLetterExtend, if_neg hascii, Bool.or_eq_true, beq_iff_eq] at h
    apply isBlank_eq_false_of_plainRanges
    rcases h with ((h | h) | rfl) | rfl
    · exact inRanges_mono (by decide +kernel) h
    · exact inRanges_mono (by decide +kernel) h
    · exact absurd (by decide) hascii
    · decide

end Spelling

namespace TypeText

variable {cs ds front back gap gap' : List Char} {a b c : Char} {owed : Bool} {last : Option Char}

/-- Between two letters a space is never left out. -/
theorem needsSpace_of_continuesName (ha : Spelling.continuesName a)
    (hb : Spelling.continuesName b) : needsSpace (some a) b = true := by
  have hright : hugsRight a = false := by
    rw [← Bool.not_eq_true]
    intro h
    simp only [hugsRight, Bool.or_eq_true, beq_iff_eq] at h
    rcases h with ((rfl | rfl) | rfl) | rfl <;> exact absurd ha (by decide)
  have hleft : hugsLeft b = false := by
    rw [← Bool.not_eq_true]
    intro h
    simp only [hugsLeft, Bool.or_eq_true, beq_iff_eq] at h
    rcases h with ((((rfl | rfl) | rfl) | rfl) | rfl) | rfl <;> exact absurd hb (by decide)
  rw [needsSpace, hleft, hright]
  rfl

/-! ### White space between two characters -/

/-- The characters `a` and `b` have nothing between them but the white space `gap`. Which of the
characters of the text they are is told by what stands in front of `a` and behind `b` when white
space is left out. -/
def HasGap (cs front : List Char) (a : Char) (gap : List Char) (b : Char) (back : List Char) :
    Prop :=
  (∀ c ∈ gap, isBlank c) ∧
    ∃ x y, compact x = front ∧ compact y = back ∧ cs = x ++ a :: (gap ++ b :: y)

/-- A text is divided at a character that is not white space in one way only, if the white space in
front of it does not count. -/
theorem append_cons_inj_of_compact {x y xs ys : List Char} (ha : isBlank a = false)
    (hxy : compact x = compact y) (h : x ++ a :: xs = y ++ a :: ys) : x = y ∧ xs = ys := by
  -- what one of the fronts has more than the other is white space, so it does not begin with `a`
  have hmore : ∀ {more xs ys : List Char}, compact more = [] → a :: xs = more ++ a :: ys →
      more = [] ∧ xs = ys := by
    intro more xs ys hblank heq
    cases more with
    | nil => exact ⟨rfl, (List.cons.inj heq).2⟩
    | cons d more =>
      obtain ⟨rfl, -⟩ := List.cons.inj heq
      rw [compact_eq_nil_iff.mp hblank a List.mem_cons_self] at ha
      cases ha
  rcases List.append_eq_append_iff.mp h with ⟨more, rfl, hrest⟩ | ⟨more, rfl, hrest⟩
  · obtain ⟨rfl, htails⟩ := hmore (by simpa using hxy) hrest
    exact ⟨(List.append_nil x).symm, htails⟩
  · obtain ⟨rfl, htails⟩ := hmore (by simpa using hxy) hrest
    exact ⟨List.append_nil y, htails.symm⟩

/-- Two characters of a text have one gap. -/
theorem HasGap.unique (ha : isBlank a = false) (hb : isBlank b = false)
    (h : HasGap cs front a gap b back) (h' : HasGap cs front a gap' b back) : gap = gap' := by
  obtain ⟨hgap, x, y, hfront, -, rfl⟩ := h
  obtain ⟨hgap', x', y', hfront', -, heq⟩ := h'
  obtain ⟨-, hrest⟩ := append_cons_inj_of_compact ha (hfront.trans hfront'.symm) heq
  have hblank : compact gap = compact gap' := by
    rw [compact_eq_nil_iff.mpr hgap, compact_eq_nil_iff.mpr hgap']
  exact (append_cons_inj_of_compact hb hblank hrest).1

/-! ### The pass -/

/-- What is written in front of `c`. -/
def spaceBefore (owed : Bool) (last : Option Char) (c : Char) : List Char :=
  if owed && needsSpace last c then [' '] else []

theorem isBlank_of_mem_spaceBefore (h : a ∈ spaceBefore owed last c) : isBlank a := by
  rw [spaceBefore] at h
  split at h
  · rw [List.mem_singleton.mp h]
    rfl
  · cases h

theorem compact_spaceBefore : compact (spaceBefore owed last c) = [] :=
  compact_eq_nil_iff.mpr fun _ => isBlank_of_mem_spaceBefore

theorem tidyFrom_cons (hc : isBlank c = false) (owed : Bool) (last : Option Char)
    (cs : List Char) : tidyFrom owed last (c :: cs) =
      spaceBefore owed last c ++ c :: tidyFrom (c == ',') (some c) cs := by
  rw [tidyFrom, if_neg (Bool.eq_false_iff.mp hc), spaceBefore]
  split <;> rfl

/-- Of a stretch of white space it only counts whether it is empty. -/
theorem tidyFrom_append_of_blank (hgap : ∀ c ∈ gap, isBlank c) (owed : Bool)
    (last : Option Char) (cs : List Char) :
    tidyFrom owed last (gap ++ cs) = tidyFrom (owed || !gap.isEmpty) last cs := by
  induction gap generalizing owed with
  | nil => simp
  | cons c gap ih =>
    obtain ⟨hc, hgap⟩ := List.forall_mem_cons.mp hgap
    rw [List.cons_append, tidyFrom_blank hc, ih hgap]
    simp

/-- Behind a character that is not white space it does not matter what comes before it. -/
theorem exists_tidyFrom_append_cons (ha : isBlank a = false) (front cs : List Char) (owed : Bool)
    (last : Option Char) : ∃ x, compact x = compact front ∧
      tidyFrom owed last (front ++ a :: cs) = x ++ a :: tidyFrom (a == ',') (some a) cs := by
  induction front generalizing owed last with
  | nil =>
    exact ⟨spaceBefore owed last a, compact_spaceBefore, tidyFrom_cons ha owed last cs⟩
  | cons c front ih =>
    cases hc : isBlank c with
    | true =>
      obtain ⟨x, hx, hrest⟩ := ih true last
      refine ⟨x, ?_, ?_⟩
      · rw [hx, compact_cons, if_pos hc]
      · rw [List.cons_append, tidyFrom_blank hc, hrest]
    | false =>
      obtain ⟨x, hx, hrest⟩ := ih (c == ',') (some c)
      refine ⟨spaceBefore owed last c ++ c :: x, ?_, ?_⟩
      · rw [compact_append, compact_spaceBefore, List.nil_append, compact_cons, compact_cons, hx]
      · rw [List.cons_append, tidyFrom_cons hc, hrest, List.append_assoc, List.cons_append]

/-- Texts that are tidied up alike from every state are so behind any other text. -/
theorem tidyFrom_append_congr
    (h : ∀ owed last, tidyFrom owed last cs = tidyFrom owed last ds) (front : List Char)
    (owed : Bool) (last : Option Char) :
    tidyFrom owed last (front ++ cs) = tidyFrom owed last (front ++ ds) := by
  induction front generalizing owed last with
  | nil => exact h owed last
  | cons c front ih => simp only [List.cons_append, tidyFrom, ih]

/-- **A space is written between two characters** exactly if white space or a comma asks for it and
neither of the two does without. -/
theorem hasGap_tidy_iff {s : String} (ha : isBlank a = false) (hb : isBlank b = false)
    (h : HasGap s.toList front a gap b back) :
    HasGap (tidy s).toList front a gap' b back ↔
      gap' = spaceBefore (a == ',' || !gap.isEmpty) (some a) b := by
  have hwritten : HasGap (tidy s).toList front a
      (spaceBefore (a == ',' || !gap.isEmpty) (some a) b) b back := by
    obtain ⟨hgap, x, y, rfl, rfl, hs⟩ := h
    obtain ⟨z, hz, hrest⟩ := exists_tidyFrom_append_cons ha x (gap ++ b :: y) false none
    have hy := compact_tidyFrom (b == ',') (some b) y
    refine ⟨fun _ => isBlank_of_mem_spaceBefore, z, _, hz, hy, ?_⟩
    rw [tidy, String.toList_ofList, hs, hrest, tidyFrom_append_of_blank hgap, tidyFrom_cons hb]
  constructor
  · exact fun h' => h'.unique ha hb hwritten
  · rintro rfl
    exact hwritten

/-! ### Single spaces -/

/-- The only white space are single spaces between other characters. -/
structure HasSingleSpaces (cs : List Char) : Prop where
  head : cs.head? ≠ some ' '
  last : cs.getLast? ≠ some ' '
  apart : ¬[' ', ' '] <:+: cs
  blank : ∀ c ∈ cs, isBlank c → c = ' '

/-- At the beginning no space is written. -/
theorem isBlank_eq_false_of_mem_head?_tidyFrom (h : c ∈ (tidyFrom owed none cs).head?) :
    isBlank c = false := by
  induction cs generalizing owed with
  | nil => cases h
  | cons d ds ih =>
    cases hd : isBlank d with
    | true =>
      rw [tidyFrom_blank hd] at h
      exact ih h
    | false =>
      rw [tidyFrom_cons hd] at h
      simp only [spaceBefore, needsSpace, Bool.and_false, Bool.false_eq_true, if_false,
        List.nil_append, List.head?_cons, Option.mem_some_iff] at h
      rw [← h, hd]

/-- Behind a space that is written comes a character. -/
theorem exists_head_of_suffix_tidyFrom (h : c :: ds <:+ tidyFrom owed last cs) (hc : isBlank c) :
    ∃ d ∈ ds.head?, isBlank d = false := by
  induction cs generalizing owed last with
  | nil => cases List.suffix_nil.mp h
  | cons d cs ih =>
    cases hd : isBlank d with
    | true =>
      rw [tidyFrom_blank hd] at h
      exact ih h
    | false =>
      have hkept (h : c :: ds <:+ d :: tidyFrom (d == ',') (some d) cs) :
          ∃ d ∈ ds.head?, isBlank d = false := by
        rcases List.suffix_cons_iff.mp h with heq | h
        · obtain ⟨rfl, -⟩ := List.cons.inj heq
          rw [hd] at hc
          cases hc
        · exact ih h
      rw [tidyFrom_cons hd, spaceBefore] at h
      split at h
      · rcases List.suffix_cons_iff.mp h with heq | h
        · obtain ⟨-, rfl⟩ := List.cons.inj heq
          exact ⟨d, rfl, hd⟩
        · exact hkept h
      · exact hkept h

theorem hasSingleSpaces_tidy (s : String) : HasSingleSpaces (tidy s).toList where
  head h := by
    rw [tidy, String.toList_ofList] at h
    cases isBlank_eq_false_of_mem_head?_tidyFrom h
  last h := by
    obtain ⟨cs, hcs⟩ := List.getLast?_eq_some_iff.mp h
    rw [tidy, String.toList_ofList] at hcs
    obtain ⟨d, hd, -⟩ := exists_head_of_suffix_tidyFrom ⟨cs, hcs.symm⟩ rfl
    cases hd
  apart h := by
    obtain ⟨cs, ds, hcs⟩ := h
    rw [tidy, String.toList_ofList, List.append_assoc] at hcs
    obtain ⟨d, hd, hblank⟩ := exists_head_of_suffix_tidyFrom ⟨cs, hcs⟩ rfl
    cases hd
    cases hblank
  blank _ hc hblank := eq_space_of_mem_tidy hc hblank

/-! ### The one form of a text -/

/-- A space that has been written is owed again, and nothing else is. -/
theorem spaceBefore_spaceBefore {owed' : Bool} (h : owed' → owed) :
    spaceBefore (owed' || !(spaceBefore owed last c).isEmpty) last c =
      spaceBefore owed last c := by
  unfold spaceBefore
  cases needsSpace last c with
  | false => simp
  | true =>
    cases owed with
    | true => simp
    | false => simpa using h

/-- A tidy text is kept as it is, if nothing is owed that was not owed before. -/
theorem tidyFrom_tidyFrom {owed' : Bool} (h : owed' → owed) :
    tidyFrom owed' last (tidyFrom owed last cs) = tidyFrom owed last cs := by
  -- behind a character that is written both passes owe the same, until the text has white space
  induction cs generalizing owed owed' last with
  | nil => rfl
  | cons c cs ih =>
    cases hc : isBlank c with
    | true =>
      rw [tidyFrom_blank hc]
      exact ih fun _ => rfl
    | false =>
      rw [tidyFrom_cons hc, tidyFrom_append_of_blank fun _ => isBlank_of_mem_spaceBefore,
        tidyFrom_cons hc, ih id, spaceBefore_spaceBefore h]

theorem tidy_tidy (s : String) : tidy (tidy s) = tidy s := by
  rw [tidy, tidy, String.toList_ofList, tidyFrom_tidyFrom id]

/-- The texts differ in one stretch of white space, which is there in both of them. -/
def Respaced (cs ds : List Char) : Prop :=
  ∃ front back gap gap', gap ≠ [] ∧ gap' ≠ [] ∧ (∀ c ∈ gap, isBlank c) ∧
    (∀ c ∈ gap', isBlank c) ∧ cs = front ++ (gap ++ back) ∧ ds = front ++ (gap' ++ back)

theorem tidy_eq_of_respaced {s t : String} (h : Respaced s.toList t.toList) :
    tidy s = tidy t := by
  obtain ⟨front, back, gap, gap', hne, hne', hgap, hgap', hs, ht⟩ := h
  have howed : ∀ {gap : List Char}, gap ≠ [] → (∀ c ∈ gap, isBlank c) → ∀ owed last,
      tidyFrom owed last (gap ++ back) = tidyFrom true last back := by
    intro gap hne hgap owed last
    rw [tidyFrom_append_of_blank hgap, List.isEmpty_eq_false_iff.mpr hne, Bool.not_false,
      Bool.or_true]
  rw [tidy, tidy, hs, ht, tidyFrom_append_congr fun owed last => ?_]
  rw [howed hne hgap, howed hne' hgap']

/-- `ds` is `cs` with its white space put in order: two letters are parted by one space if they are
parted at all, and where there is no white space none is put in but behind a comma. -/
structure IsTidyForm (cs ds : List Char) : Prop where
  compact : compact ds = compact cs
  single : HasSingleSpaces ds
  parted : ∀ front a gap b back, HasGap cs front a gap b back → gap ≠ [] →
    Spelling.continuesName a → Spelling.continuesName b →
      ∀ gap', HasGap ds front a gap' b back ↔ gap' = [' ']
  joined : ∀ front a b back, HasGap cs front a [] b back → isBlank a = false →
    isBlank b = false → a ≠ ',' → ∀ gap', HasGap ds front a gap' b back ↔ gap' = []

/-- **A type has one tidy form**, whatever its white space is like, and nothing but white space is
changed on the way to it. -/
theorem tidy_canonicalizes (s : String) :
    tidy (tidy s) = tidy s ∧ IsTidyForm s.toList (tidy s).toList ∧
      ∀ t : String, Respaced s.toList t.toList → tidy t = tidy s := by
  refine ⟨tidy_tidy s, ⟨compact_tidy s, hasSingleSpaces_tidy s, ?_, ?_⟩,
    fun t h => (tidy_eq_of_respaced h).symm⟩
  · intro front a gap b back hgap hne ha hb gap'
    have hblank := Spelling.isBlank_eq_false_of_continuesName ha
    have hblank' := Spelling.isBlank_eq_false_of_continuesName hb
    rw [hasGap_tidy_iff hblank hblank' hgap, spaceBefore, needsSpace_of_continuesName ha hb,
      List.isEmpty_eq_false_iff.mpr hne]
    simp
  · intro front a b back hgap ha hb hcomma gap'
    rw [hasGap_tidy_iff ha hb hgap, spaceBefore]
    simp [hcomma]

/-- White space in front of a bracket, two spaces, and white space between letters, in whose place
there may be any other. -/
theorem tidy_canonicalizes_bound :
    let s := "List <?  extends\u00a0View>"
    let t := "List <?  extends\n\tView>"
    tidy s = "List<? extends View>" ∧ Respaced s.toList t.toList ∧ tidy t = tidy s ∧
      (∀ gap, HasGap (tidy s).toList "List<?extend".toList 's' gap 'V' "iew>".toList ↔
        gap = [' ']) ∧
      ∀ gap, HasGap (tidy s).toList "List<?extendsVie".toList 'w' gap '>' [] ↔ gap = [] := by
  intro s t
  obtain ⟨-, hform, hsame⟩ := tidy_canonicalizes s
  have hrespaced : Respaced s.toList t.toList :=
    ⟨"List <?  extends".toList, "View>".toList, ['\u00a0'], ['\n', '\t'], nofun, nofun,
      List.all_eq_true.mp rfl, List.all_eq_true.mp rfl, by decide, by decide⟩
  have hparted : HasGap s.toList "List<?extend".toList 's' ['\u00a0'] 'V' "iew>".toList :=
    ⟨List.all_eq_true.mp rfl, "List <?  extend".toList, "iew>".toList, by decide⟩
  have hjoined : HasGap s.toList "List<?extendsVie".toList 'w' [] '>' [] :=
    ⟨nofun, "List <?  extends\u00a0Vie".toList, [], by decide⟩
  exact ⟨by decide, hrespaced, hsame t hrespaced,
    hform.parted _ _ _ _ _ hparted nofun (by decide) (by decide),
    hform.joined _ _ _ _ hjoined (by decide) (by decide) (by decide)⟩

end TypeText

end ViewBinding.Java
