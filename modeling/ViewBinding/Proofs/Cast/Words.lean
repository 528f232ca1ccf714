import Mathlib
import ViewBinding.Java.Spelling
import ViewBinding.Java.TypeScope

/-!
# The words of a type

The text of a type is made of dotted names and of characters that belong to no name; these are its
words (`ViewBinding.Java.TypeText.words`). The cast goes by runs, which are cut in the same way but
for a name know only the letters of ASCII (`ViewBinding.Java.TypeScope.runs_eq_cutBy`). So the
runs of a text are those of its words (`ViewBinding.Java.TypeScope.runs_eq_flatMap_words`), and a
word that has no other letters is a run (`ViewBinding.Java.TypeScope.runs_of_mem_words`).

Tidying up a text changes nothing but white space (`ViewBinding.Java.TypeText.compact_tidy`).
-/

namespace ViewBinding.Java

open Text

/-! ### Letters -/

theorem toNat_lt_of_isNamePart {c : Char} (h : isNamePart c) : c.toNat < 0x80 := by
  simp only [isNamePart, Char.isAlphanum, Char.isAlpha, Char.isUpper, Char.isLower, Char.isDigit,
    Bool.or_eq_true, Bool.and_eq_true, decide_eq_true_eq, beq_iff_eq, UInt32.le_iff_toNat_le] at h
  change (((65 ≤ c.toNat ∧ c.toNat ≤ 90 ∨ 97 ≤ c.toNat ∧ c.toNat ≤ 122) ∨
    48 ≤ c.toNat ∧ c.toNat ≤ 57) ∨ c = '_') ∨ c = '$' at h
  rcases h with (h | rfl) | rfl
  · omega
  · decide
  · decide

/-- The characters of generated names may stand in any name of Java. -/
theorem Spelling.continuesName_of_isNamePart {c : Char} (h : isNamePart c) :
    continuesName c := by
  have hascii := toNat_lt_of_isNamePart h
  simp only [isNamePart, Bool.or_eq_true] at h
  simp only [continuesName, isLetterExtend, if_pos hascii, Bool.or_eq_true]
  exact .inl h

namespace TypeText

/-! ### Cutting a text -/

/-- The text cut wherever not both neighbours have the property: into the longest stretches of
characters that have it, and single characters. -/
def cutBy (p : Char → Bool) (cs : List Char) : List (List Char) :=
  cs.splitBy fun c d => p c && p d

variable {p q : Char → Bool} {c d : Char} {cs piece : List Char} {pieces : List (List Char)}

theorem flatten_cutBy (p : Char → Bool) (cs : List Char) : (cutBy p cs).flatten = cs :=
  List.flatten_splitBy _ cs

theorem cutBy_cons_of_not (h : (p c && p d) = false) :
    cutBy p (c :: d :: cs) = [c] :: cutBy p (d :: cs) :=
  List.splitBy_append_cons (l := [c]) cs (by simpa using h)

/-- In front of a stretch a character that has the property makes it longer. -/
theorem cutBy_cons_of_and (h : cutBy p (d :: cs) = (d :: piece) :: pieces)
    (hboth : (p c && p d) = true) :
    cutBy p (c :: d :: cs) = (c :: d :: piece) :: pieces := by
  obtain ⟨hflatten, hne, hchains, hbetween⟩ := List.splitBy_eq_iff.mp h
  obtain ⟨hchain, hrest⟩ := List.forall_mem_cons.mp hchains
  refine List.splitBy_eq_iff.mpr ⟨?_, ?_, List.forall_mem_cons.mpr ⟨?_, hrest⟩, ?_⟩
  · rw [hflatten]
    rfl
  · simpa using hne
  · exact List.isChain_cons_cons.mpr ⟨hboth, hchain⟩
  · -- the last character of the first stretch is still the same
    cases pieces with
    | nil => exact List.isChain_singleton _
    | cons next pieces =>
      obtain ⟨⟨hpiece, hnext, hlast⟩, htail⟩ := List.isChain_cons_cons.mp hbetween
      refine List.isChain_cons_cons.mpr ⟨⟨List.cons_ne_nil _ _, hnext, ?_⟩, htail⟩
      rw [List.getLast_cons hpiece]
      exact hlast

/-- Where the one text ends and the other begins, not both neighbours have the property. -/
def Apart (p : Char → Bool) (ds cs : List Char) : Prop :=
  ∀ d ∈ ds.getLast?, ∀ c ∈ cs.head?, (p d && p c) = false

instance (p : Char → Bool) (ds cs : List Char) : Decidable (Apart p ds cs) :=
  decidable_of_iff (ds.getLast?.all fun d => cs.head?.all fun c => (p d && p c) == false) (by
    simp only [Apart, Option.all_eq_true, Option.mem_def, beq_iff_eq])

theorem Apart.imp {ds : List Char} (hapart : Apart p ds cs) (h : ∀ c, q c → p c) :
    Apart q ds cs := by
  intro d hd c hc
  have hneighbours := hapart d hd c hc
  cases hboth : q d && q c with
  | false => rfl
  | true =>
    obtain ⟨hd', hc'⟩ := (Bool.and_eq_true _ _).mp hboth
    rw [h d hd', h c hc'] at hneighbours
    cases hneighbours

theorem nil_notMem_cutBy (p : Char → Bool) (cs : List Char) : [] ∉ cutBy p cs :=
  List.nil_notMem_splitBy _ cs

theorem isChain_apart_cutBy (p : Char → Bool) (cs : List Char) :
    (cutBy p cs).IsChain (Apart p) := by
  refine (List.isChain_getLast_head_splitBy _ cs).imp fun ds cs ⟨hds, hcs, h⟩ d hd c hc => ?_
  rw [← List.getLast_of_mem_getLast? hd, ← List.head_of_mem_head? hc]
  exact h

/-- Pieces that are apart are cut one by one. -/
theorem cutBy_flatten (hne : [] ∉ pieces) (hapart : pieces.IsChain (Apart p)) :
    cutBy p pieces.flatten = pieces.flatMap (cutBy p) := by
  induction pieces with
  | nil => rfl
  | cons piece pieces ih =>
    obtain ⟨-, hnil⟩ := not_or.mp (List.mem_cons.not.mp hne)
    rw [List.flatten_cons, List.flatMap_cons, ← ih hnil hapart.tail]
    refine List.splitBy_append fun d hd c hc => ?_
    cases pieces with
    | nil => cases hc
    | cons next pieces =>
      have hnext : next ≠ [] := fun h => hnil (h ▸ List.mem_cons_self)
      rw [List.flatten_cons, List.head?_append_of_ne_nil _ hnext] at hc
      exact (List.isChain_cons_cons.mp hapart).1 d hd c hc

/-- **A finer cut cuts the pieces of a coarser one.** -/
theorem cutBy_eq_flatMap (h : ∀ c, q c → p c) (cs : List Char) :
    cutBy q cs = (cutBy p cs).flatMap (cutBy q) := by
  rw [← cutBy_flatten (nil_notMem_cutBy p cs), flatten_cutBy]
  exact (isChain_apart_cutBy p cs).imp fun _ _ hapart => hapart.imp h

/-- A piece stays whole if its characters have the one property where they have the other. -/
theorem cutBy_of_mem (hpiece : piece ∈ cutBy p cs) (h : ∀ c ∈ piece, p c → q c) :
    cutBy q piece = [piece] := by
  have hchain := List.isChain_of_mem_splitBy hpiece
  refine List.splitBy_of_isChain (List.ne_nil_of_mem_splitBy hpiece) ?_
  refine hchain.imp_of_mem_imp fun x y hx hy hboth => ?_
  obtain ⟨hpx, hpy⟩ := (Bool.and_eq_true _ _).mp hboth
  rw [h x hx hpx, h y hy hpy]
  rfl

/-! ### Words -/

/-- Whether `c` belongs to a dotted name. -/
def isWordPart (c : Char) : Bool :=
  Spelling.continuesName c || c == '.'

/-- The text cut into its dotted names and the single characters between them. -/
def words (cs : List Char) : List (List Char) :=
  cutBy isWordPart cs

/-- Whether the letters of a word are all of ASCII. -/
def isAscii (word : List Char) : Bool :=
  word.all fun c => !Spelling.continuesName c || isNamePart c

theorem isNamePart_of_isAscii {word : List Char} (h : isAscii word) {c : Char} (hc : c ∈ word)
    (hletter : Spelling.continuesName c) : isNamePart c := by
  have hpart := List.all_eq_true.mp h c hc
  simpa [hletter] using hpart

/-! ### Tidy texts -/

theorem compact_tidyFrom (owed : Bool) (last : Option Char) (cs : List Char) :
    compact (tidyFrom owed last cs) = compact cs := by
  induction cs generalizing owed last with
  | nil => rfl
  | cons c cs ih =>
    rw [tidyFrom, compact_cons c cs]
    split
    · exact ih true last
    · rename_i hblank
      have hkept : compact (c :: tidyFrom (c == ',') (some c) cs) = c :: compact cs := by
        rw [compact_cons, if_neg hblank, ih]
      split
      · rw [compact_cons, if_pos (by decide), hkept]
      · exact hkept

/-- A tidy text is the text but for the white space. -/
theorem compact_tidy (text : String) : compact (tidy text).toList = compact text.toList := by
  rw [tidy, String.toList_ofList, compact_tidyFrom]

end TypeText

/-! ### Runs -/

namespace TypeScope

open TypeText

theorem exists_runs_cons (c : Char) (cs : List Char) :
    ∃ run rest, runs (c :: cs) = (c :: run) :: rest := by
  rw [runs]
  split
  · split
    · exact ⟨_, _, rfl⟩
    · exact ⟨_, _, rfl⟩
  · exact ⟨_, _, rfl⟩

theorem runs_eq_cutBy (cs : List Char) : runs cs = cutBy isRunPart cs := by
  induction cs with
  | nil => rfl
  | cons c cs ih =>
    cases cs with
    | nil => rfl
    | cons d ds =>
      obtain ⟨run, rest, hruns⟩ := exists_runs_cons d ds
      have hcut := ih.symm.trans hruns
      rw [runs, hruns]
      dsimp only
      split
      · rename_i hboth
        exact (cutBy_cons_of_and hcut hboth).symm
      · rename_i hboth
        rw [cutBy_cons_of_not (by simpa using hboth), hcut]

theorem isWordPart_of_isRunPart {c : Char} (h : isRunPart c) : isWordPart c := by
  simp only [isRunPart, isWordPart, Bool.or_eq_true] at *
  exact h.imp_left Spelling.continuesName_of_isNamePart

theorem isRunPart_of_isAscii {word : List Char} (h : isAscii word) {c : Char} (hc : c ∈ word)
    (hpart : isWordPart c) : isRunPart c := by
  simp only [isRunPart, isWordPart, Bool.or_eq_true] at *
  exact hpart.imp_left (isNamePart_of_isAscii h hc)

/-- The runs of a text are those of its words. -/
theorem runs_eq_flatMap_words (cs : List Char) : runs cs = (words cs).flatMap runs := by
  rw [funext runs_eq_cutBy, words, ← cutBy_eq_flatMap fun _ => isWordPart_of_isRunPart]

variable {cs word : List Char}

/-- **A word is a run** if it has no letters but those of ASCII. -/
theorem runs_of_mem_words (hword : word ∈ words cs) (h : isAscii word) : runs word = [word] := by
  rw [runs_eq_cutBy]
  exact cutBy_of_mem hword fun c hc => isRunPart_of_isAscii h hc

/-- Such a word is a name for the cast exactly if it is one. -/
theorem any_isRunPart_eq (h : isAscii word) : word.any isRunPart = word.any isWordPart := by
  rw [Bool.eq_iff_iff, List.any_eq_true, List.any_eq_true]
  exact exists_congr fun c => and_congr_right fun hc =>
    ⟨isWordPart_of_isRunPart, isRunPart_of_isAscii h hc⟩

end TypeScope

end ViewBinding.Java
