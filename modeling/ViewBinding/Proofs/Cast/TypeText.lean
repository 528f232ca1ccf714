import ViewBinding.Java.TypeScope
import ViewBinding.Proofs.Cast.LineState

/-!
# The text of a type stays whole

Between the declaration of a field and the cast in a companion the text of a type is changed twice:
its white space is tidied up, and names in it are replaced. Neither makes a difference to whether
the text can stand between two parentheses (`ViewBinding.Java.isWhole_tidy_iff`,
`ViewBinding.Java.TypeScope.isWhole_cast_iff`), and what comes out is on one line.

White space that is taken out does not join what it has separated into a comment or an escape, for
it is only taken out next to characters that are in neither. A name that is replaced by names is as
good as them, for most characters are read alike: they end what the character before has begun, and
nothing else (`ViewBinding.Java.LineState.step_of_isInert`).
-/

namespace ViewBinding.Java

open Text

/-! ### Characters that are read alike -/

/-- The characters that open or close something. -/
def activeChars : List Char :=
  ['/', '*', ';', '\'', '"', '(', ')', '\\']

/-- Whether the character opens and closes nothing, wherever it stands. -/
def isInert (c : Char) : Bool :=
  !activeChars.contains c

/-- What holds of no character that opens or closes something. -/
theorem isInert_of {p : Char → Bool} (hp : activeChars.any p = false) {c : Char}
    (h : p c = true) : isInert c := by
  simp only [isInert, Bool.not_eq_true', List.contains_eq_mem, decide_eq_false_iff_not]
  exact fun hc => List.any_eq_false.mp hp c hc h

theorem isInert_of_isBlank {c : Char} (h : isBlank c) : isInert c :=
  isInert_of rfl h

theorem isInert_of_isRunPart {c : Char} (h : TypeScope.isRunPart c) : isInert c :=
  isInert_of rfl h

theorem isInert_of_hugsLeft {c : Char} (h : TypeText.hugsLeft c) : isInert c :=
  isInert_of rfl h

namespace LineState

variable {s t : LineState} {c : Char} {cs : List Char}

theorem step_of_isInert (h : isInert c) (s : LineState) : s.step c = some s.settle := by
  simp only [isInert, activeChars, Bool.not_eq_true', List.contains_eq_mem,
    decide_eq_false_iff_not, List.mem_cons, List.not_mem_nil, or_false, not_or] at h
  obtain ⟨hslash, hstar, hsemicolon, hsingle, hdouble, hopen, hclose, hbackslash⟩ := h
  obtain ⟨mode, depth⟩ := s
  cases mode with
  | code | slash =>
    simp [step, stepCode, settle, hslash, hstar, hsemicolon, hsingle, hdouble, hopen, hclose]
  | quoted quote =>
    have hmark : c ≠ quote.mark := by cases quote <;> assumption
    simp [step, settle, hmark, hbackslash]
  | escaped quote => rfl

theorem settle_of_stepCode {slashed : Bool} {depth : Nat} (hslash : c ≠ '/')
    (h : stepCode slashed depth c = some t) : t.settle = t := by
  unfold stepCode at h
  rw [if_neg hslash] at h
  split at h
  · split at h <;> cases h
    rfl
  split at h
  · cases h
  split at h
  · cases h
    rfl
  split at h
  · cases h
    rfl
  split at h
  · cases h
    rfl
  split at h
  · split at h <;> cases h
    rfl
  · cases h
    rfl

/-- Only a slash and a backslash leave something to be ended. -/
theorem settle_of_step (hslash : c ≠ '/') (hbackslash : c ≠ '\\') (h : s.step c = some t) :
    t.settle = t := by
  obtain ⟨mode, depth⟩ := s
  cases mode with
  | code => exact settle_of_stepCode hslash h
  | slash => exact settle_of_stepCode hslash h
  | quoted quote =>
    rw [step] at h
    dsimp only at h
    rw [if_neg hbackslash] at h
    split at h <;> cases h <;> rfl
  | escaped quote =>
    cases h
    rfl

theorem read_of_isInert (hne : cs ≠ []) (h : ∀ c ∈ cs, isInert c) (s : LineState) :
    s.read cs = some s.settle := by
  induction cs generalizing s with
  | nil => exact absurd rfl hne
  | cons c cs ih =>
    rw [read_cons, step_of_isInert (h c List.mem_cons_self), Option.bind_some]
    cases cs with
    | nil => rfl
    | cons d ds =>
      rw [ih (List.cons_ne_nil d ds) (fun e he => h e (List.mem_cons_of_mem c he)), settle_settle]

/-! ### White space -/

/-- Whether something may be left to be ended depends on the character written last. -/
def IsAfter (s : LineState) : Option Char → Prop
  | none => s.settle = s
  | some c => c ≠ '/' → c ≠ '\\' → s.settle = s

theorem isAfter_of_step (h : s.step c = some t) : t.IsAfter (some c) :=
  fun hslash hbackslash => settle_of_step hslash hbackslash h

/-- Where no space is written for white space, the next character is read as if there were one. -/
theorem step_settle_of_not_needsSpace {last : Option Char} (hs : s.IsAfter last)
    (h : TypeText.needsSpace last c = false) : s.settle.step c = s.step c := by
  cases last with
  | none => rw [show s.settle = s from hs]
  | some l =>
    -- no space is needed next to a character that is inert, or behind one that leaves nothing open
    rw [TypeText.needsSpace, Bool.and_eq_false_iff] at h
    rcases h with hleft | hright
    · have hinert := isInert_of_hugsLeft (by simpa using hleft)
      rw [step_of_isInert hinert, step_of_isInert hinert, settle_settle]
    · have hl : TypeText.hugsRight l = true := by simpa using hright
      rw [show s.settle = s from hs (by rintro rfl; cases hl) (by rintro rfl; cases hl)]

/-- A tidy text is read like the text itself, from a state in which owed white space has been
read. -/
theorem read_tidyFrom {owed : Bool} {last : Option Char} (hs : s.IsAfter last) (cs : List Char) :
    (s.read (TypeText.tidyFrom owed last cs)).map settle =
      ((if owed then s.settle else s).read cs).map settle := by
  induction cs generalizing owed last s with
  | nil => cases owed <;> simp
  | cons c cs ih =>
    rw [TypeText.tidyFrom]
    split
    · rename_i hblank
      have hstep := step_of_isInert (isInert_of_isBlank hblank)
      rw [ih hs, if_pos rfl, read_cons, hstep, Option.bind_some]
      cases owed <;> simp
    · -- the character itself is read from the same state, and what follows by induction
      have hrest : ∀ t : LineState, t.step c = (if owed then s.settle else s).step c →
          (t.read (c :: TypeText.tidyFrom (c == ',') (some c) cs)).map settle =
            ((if owed then s.settle else s).read (c :: cs)).map settle := by
        intro t ht
        rw [read_cons, read_cons, ht]
        cases hstep : (if owed then s.settle else s).step c with
        | none => rfl
        | some u =>
          rw [Option.bind_some, Option.bind_some, ih (isAfter_of_step hstep)]
          split
          · rename_i hcomma
            obtain rfl := beq_iff_eq.mp hcomma
            rw [settle_of_step (by decide) (by decide) hstep]
          · rfl
      split
      · rename_i howed
        obtain ⟨rfl, -⟩ := (Bool.and_eq_true _ _).mp howed
        rw [read_cons, step_of_isInert (by decide), Option.bind_some]
        exact hrest s.settle rfl
      · rename_i howed
        refine hrest s ?_
        cases owed with
        | false => rfl
        | true =>
          rw [Bool.true_and, Bool.not_eq_true] at howed
          exact (step_settle_of_not_needsSpace hs howed).symm

end LineState

namespace LineState

variable {s : LineState}

/-- A tidy text is read like the text itself where nothing is left to be ended. -/
theorem read_tidy (hs : s.settle = s) (text : String) :
    (s.read (TypeText.tidy text).toList).map settle = (s.read text.toList).map settle := by
  have hafter : s.IsAfter none := hs
  rw [TypeText.tidy, String.toList_ofList, read_tidyFrom hafter]
  rfl

end LineState

/-- **Tidying up keeps a text whole**, and makes none whole that was not. -/
theorem isWhole_tidy_iff (text : String) :
    IsWhole (TypeText.tidy text).toList ↔ IsWhole text.toList := by
  rw [IsWhole, IsWhole, LineState.read_tidy rfl]

theorem eq_space_of_mem_tidyFrom {owed : Bool} {last : Option Char} {cs : List Char} {c : Char}
    (hc : c ∈ TypeText.tidyFrom owed last cs) (hblank : isBlank c) : c = ' ' := by
  induction cs generalizing owed last with
  | nil => cases hc
  | cons d ds ih =>
    rw [TypeText.tidyFrom] at hc
    split at hc
    · exact ih hc
    · rename_i hd
      have hne : c ≠ d := fun heq => hd (heq ▸ hblank)
      split at hc
      · rcases List.mem_cons.mp hc with rfl | hc
        · rfl
        · exact ih ((List.mem_cons.mp hc).resolve_left hne)
      · exact ih ((List.mem_cons.mp hc).resolve_left hne)

/-- The only white space in a tidy text are spaces. -/
theorem eq_space_of_mem_tidy {text : String} {c : Char} (hc : c ∈ (TypeText.tidy text).toList)
    (hblank : isBlank c) : c = ' ' := by
  rw [TypeText.tidy, String.toList_ofList] at hc
  exact eq_space_of_mem_tidyFrom hc hblank

/-! ### Names -/

/-- The name has characters, and they are neither white space nor do they open or close
anything. -/
def IsPlainName (name : String) : Prop :=
  name ≠ "" ∧ name.toList.all fun c => isInert c && !isBlank c

instance (name : String) : Decidable (IsPlainName name) :=
  inferInstanceAs (Decidable (_ ∧ _))

namespace TypeScope

variable {scope : TypeScope} {nesting : List String}

theorem flatten_runs (cs : List Char) : (runs cs).flatten = cs := by
  induction cs with
  | nil => rfl
  | cons c cs ih =>
    rw [runs]
    split
    · rename_i d run rest hruns
      rw [hruns] at ih
      split
      · rw [← ih]
        rfl
      · rw [← ih]
        rfl
    · rw [List.flatten_cons, ih]
      rfl

/-- A run is one character, or it is made of the characters of dotted names. -/
theorem of_mem_runs {cs run : List Char} (h : run ∈ runs cs) :
    run ≠ [] ∧ (run.any isRunPart → ∀ c ∈ run, isRunPart c) := by
  induction cs generalizing run with
  | nil => cases h
  | cons c cs ih =>
    have hsingle : [c] ≠ [] ∧ ([c].any isRunPart → ∀ d ∈ [c], isRunPart d) := by simp
    rw [runs] at h
    split at h
    · rename_i d tail rest hruns
      split at h
      · rename_i hparts
        obtain ⟨hc, hd⟩ := (Bool.and_eq_true _ _).mp hparts
        rcases List.mem_cons.mp h with rfl | h
        · have hall := (ih (hruns ▸ List.mem_cons_self)).2 (by simp [hd])
          exact ⟨nofun, fun _ => List.forall_mem_cons.mpr ⟨hc, hall⟩⟩
        · exact ih (hruns ▸ List.mem_cons_of_mem _ h)
      · rcases List.mem_cons.mp h with rfl | h
        · exact hsingle
        · exact ih (hruns ▸ h)
    · rcases List.mem_cons.mp h with rfl | h
      · exact hsingle
      · exact ih h

/-- All names that a name in a type may be replaced by are plain. -/
structure IsPlain (scope : TypeScope) : Prop where
  imports : ∀ entry ∈ scope.header.imports, IsPlainName entry.2
  types : ∀ type ∈ scope.types, IsPlainName (dotted type)

instance (scope : TypeScope) : Decidable scope.IsPlain :=
  decidable_of_iff ((∀ entry ∈ scope.header.imports, IsPlainName entry.2) ∧
      ∀ type ∈ scope.types, IsPlainName (dotted type))
    ⟨fun ⟨imports, types⟩ => ⟨imports, types⟩, fun ⟨imports, types⟩ => ⟨imports, types⟩⟩

theorem IsPlain.replacement (h : scope.IsPlain) {simple name : String}
    (hname : scope.replacement? nesting simple = some name) : IsPlainName name := by
  rcases Option.or_eq_some_iff.mp hname with himported | ⟨-, hdeclared⟩
  · obtain ⟨entry, hentry, rfl⟩ := Option.map_eq_some_iff.mp himported
    exact h.imports entry (List.mem_of_find?_eq_some hentry)
  · obtain ⟨type, htype, rfl⟩ := Option.map_eq_some_iff.mp hdeclared
    exact h.types type (by simpa using List.find?_some htype)

/-- A run is read like what it is replaced by. -/
theorem read_rewriteRun (h : scope.IsPlain) {cs run : List Char} (hrun : run ∈ runs cs)
    (s : LineState) : s.read (scope.rewriteRun nesting run) = s.read run := by
  rw [rewriteRun]
  split
  · rename_i hany
    obtain ⟨hne, hparts⟩ := of_mem_runs hrun
    split
    · rename_i name hname
      obtain ⟨hnonempty, hplain⟩ := h.replacement hname
      have hinert : ∀ c ∈ run, isInert c := fun c hc => isInert_of_isRunPart (hparts hany c hc)
      rw [LineState.read_of_isInert hne hinert, LineState.read_of_isInert]
      · exact fun hnil => hnonempty (by simpa using (List.append_eq_nil_iff.mp hnil).1)
      · intro c hc
        rcases List.mem_append.mp hc with hc | hc
        · exact ((Bool.and_eq_true _ _).mp (List.all_eq_true.mp hplain c hc)).1
        · exact hinert c (List.dropWhile_subset _ hc)
    · rfl
  · rfl

theorem read_flatMap_rewriteRun (h : scope.IsPlain) {cs : List Char} {parts : List (List Char)}
    (hparts : parts ⊆ runs cs) (s : LineState) :
    s.read (parts.flatMap (scope.rewriteRun nesting)) = s.read parts.flatten := by
  induction parts generalizing s with
  | nil => rfl
  | cons run parts ih =>
    obtain ⟨hrun, hparts⟩ := List.cons_subset.mp hparts
    rw [List.flatMap_cons, List.flatten_cons, LineState.read_append, LineState.read_append,
      read_rewriteRun h hrun]
    exact Option.bind_congr fun t _ => ih hparts t

/-- The type to cast to is read like the type itself, for it only differs in white space and in
names. -/
theorem read_cast (h : scope.IsPlain) (nesting : List String) (raw : String) :
    (LineState.start.read (scope.cast nesting raw).text.toList).map LineState.settle =
      (LineState.start.read raw.toList).map LineState.settle := by
  rw [cast, String.toList_ofList, read_flatMap_rewriteRun h (List.Subset.refl _), flatten_runs,
    LineState.read_tidy rfl]

/-- **The type to cast to is whole exactly if the type is.** -/
theorem isWhole_cast_iff (h : scope.IsPlain) (nesting : List String) (raw : String) :
    IsWhole (scope.cast nesting raw).text.toList ↔ IsWhole raw.toList := by
  rw [IsWhole, IsWhole, read_cast h]

/-- The only white space in the type to cast to are spaces. -/
theorem eq_space_of_mem_cast (h : scope.IsPlain) {raw : String} {c : Char}
    (hc : c ∈ (scope.cast nesting raw).text.toList) (hblank : isBlank c) : c = ' ' := by
  rw [cast, String.toList_ofList] at hc
  obtain ⟨run, hrun, hc⟩ := List.mem_flatMap.mp hc
  have hkept : c ∈ run → c = ' ' := by
    intro hmem
    have htidy : c ∈ (TypeText.tidy raw).toList := by
      rw [← flatten_runs (TypeText.tidy raw).toList]
      exact List.mem_flatten_of_mem hrun hmem
    exact eq_space_of_mem_tidy htidy hblank
  rw [rewriteRun] at hc
  split at hc
  · split at hc
    · rename_i name hname
      rcases List.mem_append.mp hc with hc | hc
      · have hplain := List.all_eq_true.mp (h.replacement hname).2 c hc
        simp [hblank] at hplain
      · exact hkept (List.dropWhile_subset _ hc)
    · exact hkept hc
  · exact hkept hc

end TypeScope

/-! ### Brackets behind a name -/

/-- The text starts with a character that is not white space and opens and closes nothing. -/
def startsPlain (text : String) : Bool :=
  text.toList.head?.any fun c => isInert c && !isBlank c

namespace LineState

/-- In front of such a text nothing is left to be ended. -/
theorem read_settle {text : String} (h : startsPlain text) (s : LineState) :
    s.settle.read text.toList = s.read text.toList := by
  unfold startsPlain at h
  cases hcs : text.toList with
  | nil =>
    rw [hcs] at h
    cases h
  | cons c cs =>
    rw [hcs] at h
    have hc : isInert c := ((Bool.and_eq_true _ _).mp h).1
    rw [read_cons, read_cons, step_of_isInert hc, step_of_isInert hc, settle_settle]

theorem read_append_of_startsPlain {text : String} (h : startsPlain text) (cs : List Char) :
    start.read (cs ++ text.toList) =
      ((start.read cs).map settle).bind fun s => s.read text.toList := by
  rw [read_append, Option.bind_map]
  exact Option.bind_congr fun s _ => (read_settle h s).symm

end LineState

theorem startsPlain_tidy {text : String} (h : startsPlain text) :
    startsPlain (TypeText.tidy text) := by
  unfold startsPlain at *
  rw [TypeText.tidy, String.toList_ofList]
  cases hcs : text.toList with
  | nil =>
    rw [hcs] at h
    cases h
  | cons c cs =>
    rw [hcs] at h
    have hblank : isBlank c = false := by
      simpa using ((Bool.and_eq_true _ _).mp h).2
    rw [TypeText.tidyFrom, if_neg (by simp [hblank]), Bool.false_and, if_neg Bool.false_ne_true]
    exact h

/-- **The type to cast to, with tidy brackets behind it, is whole exactly if the type is with its
brackets.** -/
theorem TypeScope.isWhole_cast_append_iff {scope : TypeScope} (h : scope.IsPlain)
    (nesting : List String) (raw : String) {brackets : String} (hbrackets : startsPlain brackets) :
    IsWhole ((scope.cast nesting raw).text ++ TypeText.tidy brackets).toList ↔
      IsWhole (raw ++ brackets).toList := by
  rw [IsWhole, IsWhole, String.toList_append, String.toList_append,
    LineState.read_append_of_startsPlain (startsPlain_tidy hbrackets),
    LineState.read_append_of_startsPlain hbrackets, read_cast h]
  cases LineState.start.read raw.toList with
  | none => exact Iff.rfl
  | some s =>
    rw [Option.map_some, Option.bind_some, Option.bind_some, LineState.read_tidy s.settle_settle]

end ViewBinding.Java
