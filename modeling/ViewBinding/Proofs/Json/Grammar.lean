import ViewBinding.Proofs.Json.Numbers

/-!
# The grammar of JSON

`ViewBinding.Json.Spells` says how the characters of a value, or of what is left of an array or an
object, are written, with values nested up to a given depth, and `ViewBinding.Json.IsText` that a
text is one value with white space around it.

All integers of a text fit into 64 bits (`ViewBinding.Json.IsText.fits`): a number that is written
as an integer and does not fit is kept as one without a value.
-/

namespace ViewBinding.Json

/-! ### How values are written -/

/-- White space. -/
def isBlank (x : Char) : Bool :=
  x == ' ' || x == '\n' || x == '\t' || x == '\r'

/-- The characters spell a value, the elements of an array up to its bracket, or the members of an
object up to its brace. Values are nested in it up to `depth` deep. -/
inductive Spells : Nat → Pending → Found → List Char → Prop
  | blank {depth : Nat} {p : Pending} {f : Found} {x : Char} {cs : List Char}
      (blank : isBlank x = true) (rest : Spells depth p f cs) : Spells depth p f (x :: cs)
  | null {depth : Nat} : Spells depth .value (.value .null) ['n', 'u', 'l', 'l']
  | isTrue {depth : Nat} : Spells depth .value (.value (.bool true)) ['t', 'r', 'u', 'e']
  | isFalse {depth : Nat} : Spells depth .value (.value (.bool false)) ['f', 'a', 'l', 's', 'e']
  | number {depth : Nat} {m : Numeral} (legal : m.IsLegal) (fits : m.fits = true) :
      Spells depth .value (.value m.value) m.chars
  | string {depth : Nat} {cs s : List Char} (string : SpellsString cs s) :
      Spells depth .value (.value (.string (String.ofList s))) ('"' :: (cs ++ ['"']))
  | array {depth : Nat} {vs : List Json} {cs : List Char}
      (elements : Spells depth (.elements true) (.elements vs) cs) :
      Spells (depth + 1) .value (.value (.array vs)) ('[' :: cs)
  | object {depth : Nat} {ms : List (String × Json)} {cs : List Char}
      (members : Spells depth (.members true) (.members ms) cs) :
      Spells (depth + 1) .value (.value (.object ms)) ('\x7b' :: cs)
  | endArray {depth : Nat} {first : Bool} : Spells depth (.elements first) (.elements []) [']']
  | element {depth : Nat} {v : Json} {vs : List Json} {cs ds : List Char}
      (head : Spells depth .value (.value v) cs)
      (tail : Spells depth (.elements false) (.elements vs) ds) :
      Spells depth (.elements true) (.elements (v :: vs)) (cs ++ ds)
  /-- After a comma an element has to follow. -/
  | nextElement {depth : Nat} {v : Json} {vs : List Json} {cs : List Char}
      (elements : Spells depth (.elements true) (.elements (v :: vs)) cs) :
      Spells depth (.elements false) (.elements (v :: vs)) (',' :: cs)
  | endObject {depth : Nat} {first : Bool} : Spells depth (.members first) (.members []) ['\x7d']
  | member {depth : Nat} {key ks blank cs ds : List Char} {v : Json} {ms : List (String × Json)}
      (string : SpellsString ks key) (blank_all : blank.all isBlank = true)
      (head : Spells depth .value (.value v) cs)
      (tail : Spells depth (.members false) (.members ms) ds) :
      Spells depth (.members true) (.members ((String.ofList key, v) :: ms))
        ('"' :: (ks ++ '"' :: (blank ++ ':' :: (cs ++ ds))))
  /-- After a comma a member has to follow. -/
  | nextMember {depth : Nat} {m : String × Json} {ms : List (String × Json)} {cs : List Char}
      (members : Spells depth (.members true) (.members (m :: ms)) cs) :
      Spells depth (.members false) (.members (m :: ms)) (',' :: cs)

/-- The text is that of one value, nested at most 127 deep. -/
def IsText (value : Json) (text : String) : Prop :=
  ∃ cs blank, text.toList = cs ++ blank ∧ blank.all isBlank = true ∧
    Spells (depthLimit - 1) .value (.value value) cs

/-! ### Shape -/

section Shape

variable {depth : Nat} {p : Pending} {f : Found} {cs blank : List Char}

theorem Spells.append_blank (h : Spells depth p f cs) (hblank : blank.all isBlank = true) :
    Spells depth p f (blank ++ cs) := by
  induction blank with
  | nil => exact h
  | cons x blank ih =>
    rw [List.all_cons, Bool.and_eq_true] at hblank
    exact .blank hblank.1 (ih hblank.2)

/-- What was found is of the kind that was pending. -/
def Matches : Pending → Found → Prop
  | .value, f => ∃ v, f = .value v
  | .elements _, f => ∃ vs, f = .elements vs
  | .members _, f => ∃ ms, f = .members ms

theorem Spells.matches_pending (h : Spells depth p f cs) : Matches p f := by
  induction h with
  | blank _ _ ih => exact ih
  | _ => exact ⟨_, rfl⟩

theorem Spells.length_pos (h : Spells depth p f cs) : 0 < cs.length := by
  induction h with
  | @number _ m legal fits =>
    obtain ⟨d, more, hwhole, _⟩ := legal.whole.exists_cons
    rw [Numeral.chars, Numeral.unsigned, hwhole]
    split <;> exact Nat.succ_pos _
  | element _ _ ih _ =>
    rw [List.length_append]
    omega
  | _ => exact Nat.succ_pos _

end Shape

/-! ### Integers -/

/-- All integers in the value fit into 64 bits, those below zero with a sign. -/
inductive Fits : Json → Prop
  | null : Fits .null
  | bool (b : Bool) : Fits (.bool b)
  | int {n : Int} (lower : -0x8000000000000000 ≤ n) (upper : n ≤ maxWord) : Fits (.int n)
  | real : Fits .real
  | string (s : String) : Fits (.string s)
  | array {vs : List Json} (elements : ∀ v ∈ vs, Fits v) : Fits (.array vs)
  | object {ms : List (String × Json)} (members : ∀ m ∈ ms, Fits m.2) : Fits (.object ms)

/-- All integers in what was found fit into 64 bits. -/
def Found.Fits : Found → Prop
  | value v => Json.Fits v
  | elements vs => ∀ v ∈ vs, Json.Fits v
  | members ms => ∀ m ∈ ms, Json.Fits m.2

theorem fits_numeral (m : Numeral) : Fits m.value := by
  rw [Numeral.value]
  split
  · rename_i hinteger
    have hbounds := hinteger.2.2
    split at hbounds <;> rename_i hnegative <;> simp only [hnegative]
    · exact .int (by simp; omega) (by simp)
    · exact .int (by simp) (by simpa using hbounds)
  · exact .real

theorem Spells.found_fits {depth : Nat} {p : Pending} {f : Found} {cs : List Char}
    (h : Spells depth p f cs) : f.Fits := by
  induction h with
  | blank _ _ ih => exact ih
  | null => exact .null
  | isTrue => exact .bool _
  | isFalse => exact .bool _
  | number => exact fits_numeral _
  | string => exact .string _
  | array _ ih => exact .array ih
  | object _ ih => exact .object ih
  | endArray => exact fun _ hv => absurd hv List.not_mem_nil
  | element _ _ ihHead ihTail => exact List.forall_mem_cons.mpr ⟨ihHead, ihTail⟩
  | nextElement _ ih => exact ih
  | endObject => exact fun _ hm => absurd hm List.not_mem_nil
  | member _ _ _ _ ihHead ihTail => exact List.forall_mem_cons.mpr ⟨ihHead, ihTail⟩
  | nextMember _ ih => exact ih

theorem IsText.fits {value : Json} {text : String} (h : IsText value text) : Fits value := by
  obtain ⟨_, _, _, _, hspells⟩ := h
  exact hspells.found_fits

end ViewBinding.Json
