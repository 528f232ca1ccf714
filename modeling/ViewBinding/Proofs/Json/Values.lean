import ViewBinding.Proofs.Json.Grammar

/-!
# Values of JSON

The reader accepts the texts of the grammar and no others, and reads them as the value that they
spell (`ViewBinding.Json.isText_iff`); so a text spells one value at most
(`ViewBinding.Json.IsText.unique`). That what is read follows the grammar is shown by induction on
the fuel, and that what follows the grammar is read by induction on how it is spelled, with fuel for
two steps a character.
-/

namespace ViewBinding.Json

/-! ### White space -/

section Blank

variable {c : Cursor} {x : Char} {cs blank : List Char} {i : Nat}

theorem skipBlank_eq (c : Cursor) : c.skipBlank =
    ⟨c.rest.drop (c.rest.takeWhile isBlank).length,
      c.index + (c.rest.takeWhile isBlank).length⟩ := rfl

theorem skipBlank_of_isBlank (h : isBlank x = true) (cs : List Char) (i : Nat) :
    Cursor.skipBlank ⟨x :: cs, i⟩ = Cursor.skipBlank ⟨cs, i + 1⟩ := by
  simp only [skipBlank_eq, List.takeWhile_cons_of_pos h, List.length_cons, List.drop_succ_cons]
  congr 1
  omega

/-- Where no white space is ahead, none is skipped. -/
theorem skipBlank_of_head (h : ∀ x ∈ c.rest.head?, isBlank x = false) : c.skipBlank = c := by
  have htake : c.rest.takeWhile isBlank = [] := by
    cases hrest : c.rest with
    | nil => rfl
    | cons x rest => exact List.takeWhile_cons_of_neg (by simp [h x (by rw [hrest]; rfl)])
  rw [skipBlank_eq, htake]
  rfl

theorem skipBlank_spec (c : Cursor) :
    ∃ blank, c.rest = blank ++ c.skipBlank.rest ∧ blank.all isBlank = true ∧
      ∀ x ∈ c.skipBlank.rest.head?, isBlank x = false := by
  have hsplit : c.rest = c.rest.takeWhile isBlank ++ c.skipBlank.rest :=
    List.prefix_append_drop (List.takeWhile_prefix _)
  refine ⟨_, hsplit, List.all_takeWhile, ?_⟩
  have hdrop : c.skipBlank.rest = c.rest.dropWhile isBlank :=
    List.append_cancel_left (hsplit.symm.trans List.takeWhile_append_dropWhile.symm)
  rw [hdrop]
  intro x hx
  have hhead := List.head?_dropWhile_not isBlank c.rest
  rw [hx] at hhead
  simpa using hhead

theorem skipBlank_skipBlank (c : Cursor) : c.skipBlank.skipBlank = c.skipBlank := by
  obtain ⟨_, _, _, hhead⟩ := skipBlank_spec c
  exact skipBlank_of_head hhead

theorem skipBlank_append (h : blank.all isBlank = true) (cs : List Char) (i : Nat) :
    Cursor.skipBlank ⟨blank ++ cs, i⟩ = Cursor.skipBlank ⟨cs, i + blank.length⟩ := by
  induction blank generalizing i with
  | nil => rfl
  | cons x blank ih =>
    rw [List.all_cons, Bool.and_eq_true] at h
    rw [List.cons_append, skipBlank_of_isBlank h.1, ih h.2, List.length_cons, Nat.add_assoc,
      Nat.add_comm 1]

end Blank

/-! ### Steps of the reader -/

section Steps

variable {c c' : Cursor} {fuel depth : Nat} {p : Pending} {f : Found} {v : Json} {x : Char}
  {rest : List Char} {r : Found × Cursor} {first : Bool}

theorem read_skipBlank (fuel depth : Nat) (p : Pending) (c : Cursor) :
    read (fuel + 1) depth p c.skipBlank = read (fuel + 1) depth p c := by
  cases p <;> simp only [read, skipBlank_skipBlank]

/-- Reads an element and those behind it. -/
def readElement (fuel depth : Nat) (c : Cursor) : Except Fault (Found × Cursor) := do
  let (v, c) ← read fuel depth .value c
  let (vs, c) ← read fuel depth (.elements false) c
  .ok (.elements (v.toValue :: vs.toElements), c)

theorem read_elements (fuel depth : Nat) (first : Bool) (c : Cursor) :
    read (fuel + 1) depth (.elements first) c =
      match c.skipBlank.rest with
      | [] => c.skipBlank.faultAhead .endInArray
      | ']' :: _ => .ok (.elements [], c.skipBlank.next)
      | ',' :: _ =>
        if first then readElement fuel depth c.skipBlank
        else
          match c.skipBlank.next.skipBlank.rest with
          | [] => c.skipBlank.next.skipBlank.faultAhead .endInValue
          | ']' :: _ => c.skipBlank.next.skipBlank.faultAhead .trailingComma
          | _ => readElement fuel depth c.skipBlank.next.skipBlank
      | _ =>
        if first then readElement fuel depth c.skipBlank
        else c.skipBlank.faultAhead .noArrayCommaOrEnd := rfl

/-- An element does not start with the bracket that ends the array. -/
theorem ne_of_readElement (h : readElement fuel depth c.skipBlank = .ok r) :
    ∃ x rest, c.skipBlank.rest = x :: rest ∧ x ≠ ']' := by
  obtain ⟨v, hv, _⟩ := bind_eq_ok_iff.mp h
  cases fuel with
  | zero => cases hv
  | succ fuel =>
    rw [read] at hv
    simp only [skipBlank_skipBlank] at hv
    cases hrest : c.skipBlank.rest with
    | nil =>
      rw [hrest] at hv
      cases hv
    | cons x rest =>
      refine ⟨x, rest, rfl, ?_⟩
      rintro rfl
      rw [hrest] at hv
      cases hv

/-- An array goes on with its bracket, with an element, or with a comma and an element. -/
theorem read_elements_eq_ok_iff : read (fuel + 1) depth (.elements first) c = .ok r ↔
    (∃ rest, c.skipBlank.rest = ']' :: rest ∧ r = (.elements [], c.skipBlank.next)) ∨
    (first = true ∧ readElement fuel depth c.skipBlank = .ok r) ∨
    first = false ∧ ∃ rest, c.skipBlank.rest = ',' :: rest ∧
      readElement fuel depth c.skipBlank.next.skipBlank = .ok r := by
  rw [read_elements]
  constructor
  · intro h
    split at h
    · cases h
    · exact .inl ⟨_, ‹_›, (Except.ok.inj h).symm⟩
    · split at h
      · exact .inr (.inl ⟨‹_›, h⟩)
      · split at h
        · cases h
        · cases h
        · exact .inr (.inr ⟨by simpa using ‹¬first = true›, _, ‹_›, h⟩)
    · split at h
      · exact .inr (.inl ⟨‹_›, h⟩)
      · cases h
  · rintro (⟨rest, hrest, rfl⟩ | ⟨rfl, h⟩ | ⟨rfl, rest, hrest, h⟩)
    · simp only [hrest]
    · -- no element starts with the bracket that ends the array
      obtain ⟨x, rest, hrest, hx⟩ := ne_of_readElement h
      rw [hrest]
      split
      · rename_i heq
        cases heq
      · rename_i heq
        exact absurd (List.head_eq_of_cons_eq heq) hx
      · exact h
      · exact h
    · obtain ⟨x, more, hmore, hx⟩ := ne_of_readElement h
      simp only [hrest, hmore, Bool.false_eq_true, if_false]
      split
      · rename_i heq
        cases heq
      · rename_i heq
        exact absurd (List.head_eq_of_cons_eq heq) hx
      · exact h

/-- Reads a member and those behind it. -/
def readMember (fuel depth : Nat) (c : Cursor) : Except Fault (Found × Cursor) := do
  let (key, c) ← readString (c.rest.length + 1) [] c.next
  let c := c.skipBlank
  match c.rest with
  | [] => c.faultAhead .endInObject
  | ':' :: _ =>
    let (v, c) ← read fuel depth .value c.next
    let (ms, c) ← read fuel depth (.members false) c
    .ok (.members ((key, v.toValue) :: ms.toMembers), c)
  | _ => c.faultAhead .noColon

theorem read_members (fuel depth : Nat) (first : Bool) (c : Cursor) :
    read (fuel + 1) depth (.members first) c =
      match c.skipBlank.rest with
      | [] => c.skipBlank.faultAhead .endInObject
      | '\x7d' :: _ => .ok (.members [], c.skipBlank.next)
      | '"' :: _ =>
        if first then readMember fuel depth c.skipBlank
        else c.skipBlank.faultAhead .noObjectCommaOrEnd
      | ',' :: _ =>
        if first then c.skipBlank.faultAhead .keyNotString
        else
          match c.skipBlank.next.skipBlank.rest with
          | [] => c.skipBlank.next.skipBlank.faultAhead .endInValue
          | '"' :: _ => readMember fuel depth c.skipBlank.next.skipBlank
          | '\x7d' :: _ => c.skipBlank.next.skipBlank.faultAhead .trailingComma
          | _ => c.skipBlank.next.skipBlank.faultAhead .keyNotString
      | _ => c.skipBlank.faultAhead (if first then .keyNotString else .noObjectCommaOrEnd) := rfl

/-- An object goes on with its brace, with a member, or with a comma and a member. -/
theorem read_members_eq_ok_iff : read (fuel + 1) depth (.members first) c = .ok r ↔
    (∃ rest, c.skipBlank.rest = '\x7d' :: rest ∧ r = (.members [], c.skipBlank.next)) ∨
    (first = true ∧ ∃ rest, c.skipBlank.rest = '"' :: rest ∧
      readMember fuel depth c.skipBlank = .ok r) ∨
    first = false ∧ ∃ rest more, c.skipBlank.rest = ',' :: rest ∧
      c.skipBlank.next.skipBlank.rest = '"' :: more ∧
      readMember fuel depth c.skipBlank.next.skipBlank = .ok r := by
  rw [read_members]
  constructor
  · intro h
    split at h
    · cases h
    · exact .inl ⟨_, ‹_›, (Except.ok.inj h).symm⟩
    · split at h
      · exact .inr (.inl ⟨‹_›, _, ‹_›, h⟩)
      · cases h
    · split at h
      · cases h
      · split at h
        · cases h
        · exact .inr (.inr ⟨by simpa using ‹¬first = true›, _, _, ‹_›, ‹_›, h⟩)
        · cases h
        · cases h
    · cases h
  · rintro (⟨rest, hrest, rfl⟩ | ⟨rfl, rest, hrest, h⟩ | ⟨rfl, rest, more, hrest, hmore, h⟩)
    · simp only [hrest]
    · simp only [hrest]
      exact h
    · simp only [hrest, hmore]
      exact h

theorem rest_of_readWord {value : Json} {word : List Char}
    (h : readWord value word c = .ok (v, c')) : c.rest = word ++ c'.rest ∧ v = value := by
  induction word generalizing c with
  | nil =>
    cases h
    exact ⟨rfl, rfl⟩
  | cons expected more ih =>
    rw [readWord] at h
    split at h
    · cases h
    · rename_i d rest hrest
      split at h
      · rename_i hd
        obtain ⟨hmore, hv⟩ := ih h
        rw [rest_next hrest] at hmore
        exact ⟨by rw [hrest, hd, hmore]; rfl, hv⟩
      · cases h

end Steps

/-! ### What is read follows the grammar -/

section Soundness

variable {c c' : Cursor} {fuel depth : Nat} {f : Found} {first : Bool}

/-- What is read with that fuel follows the grammar. -/
def ReadsSpelled (fuel : Nat) : Prop :=
  ∀ depth p c f c', read fuel depth p c = .ok (f, c') →
    ∃ cs, c.rest = cs ++ c'.rest ∧ Spells (depth - 1) p f cs

theorem ReadsSpelled.value (ih : ReadsSpelled fuel)
    (h : read (fuel + 1) depth .value c = .ok (f, c')) :
    ∃ cs, c.rest = cs ++ c'.rest ∧ Spells (depth - 1) .value f cs := by
  obtain ⟨blank, hc, hblank, _⟩ := skipBlank_spec c
  -- the reader skips white space once and then goes by the next character
  suffices hspells : ∃ cs, c.skipBlank.rest = cs ++ c'.rest ∧ Spells (depth - 1) .value f cs by
    obtain ⟨cs, hcs, hspells⟩ := hspells
    exact ⟨blank ++ cs, by rw [hc, hcs, List.append_assoc], hspells.append_blank hblank⟩
  have hword {x : Char} {word rest : List Char} {value : Json}
      (hrest : c.skipBlank.rest = x :: rest)
      (hspells : Spells (depth - 1) .value (.value value) (x :: word))
      (hread : (readWord value word c.skipBlank.next >>= fun r => .ok (.value r.1, r.2)) =
        Except.ok (f, c')) :
      ∃ cs, c.skipBlank.rest = cs ++ c'.rest ∧ Spells (depth - 1) .value f cs := by
    obtain ⟨⟨v, behind⟩, hword, hfound⟩ := bind_eq_ok_iff.mp hread
    obtain ⟨hbehind, rfl⟩ := rest_of_readWord hword
    obtain ⟨rfl, rfl⟩ := Prod.mk.inj (Except.ok.inj hfound)
    rw [rest_next hrest] at hbehind
    exact ⟨x :: word, by rw [hrest, hbehind]; rfl, hspells⟩
  rw [read] at h
  split at h
  · cases h
  · exact hword ‹_› .null h
  · exact hword ‹_› .isTrue h
  · exact hword ‹_› .isFalse h
  · rename_i rest hrest
    obtain ⟨⟨v, behind⟩, hnumber, h⟩ := bind_eq_ok_iff.mp h
    obtain ⟨m, hlegal, hnegative, hfits, hbehind, rfl⟩ := isLegal_of_readNumber hnumber
    obtain ⟨rfl, rfl⟩ := Prod.mk.inj (Except.ok.inj h)
    rw [rest_next hrest] at hbehind
    exact ⟨m.chars, by rw [hrest, hbehind, Numeral.chars, hnegative]; rfl, .number hlegal hfits⟩
  · rename_i rest hrest
    obtain ⟨⟨s, behind⟩, hstring, h⟩ := bind_eq_ok_iff.mp h
    obtain ⟨cs, ds, hbehind, hspells, rfl⟩ := spellsString_of_readString hstring
    obtain ⟨rfl, rfl⟩ := Prod.mk.inj (Except.ok.inj h)
    rw [rest_next hrest] at hbehind
    exact ⟨'"' :: (cs ++ ['"']), by rw [hrest, hbehind]; simp, .string hspells⟩
  · rename_i rest hrest
    split at h
    · cases h
    · obtain ⟨⟨found, behind⟩, helements, h⟩ := bind_eq_ok_iff.mp h
      obtain ⟨rfl, rfl⟩ := Prod.mk.inj (Except.ok.inj h)
      obtain ⟨cs, hcs, hspells⟩ := ih _ _ _ _ _ helements
      obtain ⟨vs, rfl⟩ := hspells.matches_pending
      rw [rest_next hrest] at hcs
      obtain ⟨k, rfl⟩ : ∃ k, depth = k + 2 := ⟨depth - 2, by omega⟩
      exact ⟨'[' :: cs, by rw [hrest, hcs]; rfl, .array hspells⟩
  · rename_i rest hrest
    split at h
    · cases h
    · obtain ⟨⟨found, behind⟩, hmembers, h⟩ := bind_eq_ok_iff.mp h
      obtain ⟨rfl, rfl⟩ := Prod.mk.inj (Except.ok.inj h)
      obtain ⟨cs, hcs, hspells⟩ := ih _ _ _ _ _ hmembers
      obtain ⟨ms, rfl⟩ := hspells.matches_pending
      rw [rest_next hrest] at hcs
      obtain ⟨k, rfl⟩ : ∃ k, depth = k + 2 := ⟨depth - 2, by omega⟩
      exact ⟨'\x7b' :: cs, by rw [hrest, hcs]; rfl, .object hspells⟩
  · split at h
    · obtain ⟨⟨v, behind⟩, hnumber, h⟩ := bind_eq_ok_iff.mp h
      obtain ⟨m, hlegal, hnegative, hfits, hbehind, rfl⟩ := isLegal_of_readNumber hnumber
      obtain ⟨rfl, rfl⟩ := Prod.mk.inj (Except.ok.inj h)
      exact ⟨m.chars, by rw [hbehind, Numeral.chars, hnegative]; rfl, .number hlegal hfits⟩
    · cases h

theorem ReadsSpelled.element (ih : ReadsSpelled fuel)
    (h : readElement fuel depth c = .ok (f, c')) :
    ∃ cs v vs, c.rest = cs ++ c'.rest ∧ f = .elements (v :: vs) ∧
      Spells (depth - 1) (.elements true) (.elements (v :: vs)) cs := by
  obtain ⟨⟨found, behind⟩, hvalue, h⟩ := bind_eq_ok_iff.mp h
  obtain ⟨⟨more, last⟩, helements, h⟩ := bind_eq_ok_iff.mp h
  obtain ⟨rfl, rfl⟩ := Prod.mk.inj (Except.ok.inj h)
  obtain ⟨cs, hcs, hhead⟩ := ih _ _ _ _ _ hvalue
  obtain ⟨ds, hds, htail⟩ := ih _ _ _ _ _ helements
  obtain ⟨v, rfl⟩ := hhead.matches_pending
  obtain ⟨vs, rfl⟩ := htail.matches_pending
  exact ⟨cs ++ ds, v, vs, by rw [hcs, hds, List.append_assoc], rfl, .element hhead htail⟩

theorem ReadsSpelled.elements (ih : ReadsSpelled fuel)
    (h : read (fuel + 1) depth (.elements first) c = .ok (f, c')) :
    ∃ cs, c.rest = cs ++ c'.rest ∧ Spells (depth - 1) (.elements first) f cs := by
  obtain ⟨blank, hc, hblank, _⟩ := skipBlank_spec c
  obtain ⟨rest, hrest, heq⟩ | ⟨rfl, hread⟩ | ⟨rfl, rest, hrest, hread⟩ :=
    read_elements_eq_ok_iff.mp h
  · obtain ⟨rfl, rfl⟩ := Prod.mk.inj heq
    exact ⟨blank ++ [']'], by rw [hc, hrest, rest_next hrest]; simp,
      Spells.endArray.append_blank hblank⟩
  · obtain ⟨cs, v, vs, hcs, rfl, hspells⟩ := ih.element hread
    exact ⟨blank ++ cs, by rw [hc, hcs, List.append_assoc], hspells.append_blank hblank⟩
  · obtain ⟨cs, v, vs, hcs, rfl, hspells⟩ := ih.element hread
    obtain ⟨inner, hinner, hinnerBlank, _⟩ := skipBlank_spec c.skipBlank.next
    rw [rest_next hrest, hcs] at hinner
    exact ⟨blank ++ ',' :: (inner ++ cs), by rw [hc, hrest, hinner]; simp,
      (Spells.nextElement (hspells.append_blank hinnerBlank)).append_blank hblank⟩

theorem ReadsSpelled.member {rest : List Char} (ih : ReadsSpelled fuel) (hc : c.rest = '"' :: rest)
    (h : readMember fuel depth c = .ok (f, c')) :
    ∃ cs m ms, c.rest = cs ++ c'.rest ∧ f = .members (m :: ms) ∧
      Spells (depth - 1) (.members true) (.members (m :: ms)) cs := by
  obtain ⟨⟨key, behind⟩, hkey, h⟩ := bind_eq_ok_iff.mp h
  obtain ⟨ks, ds, hks, hstring, rfl⟩ := spellsString_of_readString hkey
  obtain ⟨blank, hbehind, hblank, _⟩ := skipBlank_spec behind
  dsimp only at h hks
  split at h
  · cases h
  · rename_i colon hcolon
    obtain ⟨⟨found, last⟩, hvalue, h⟩ := bind_eq_ok_iff.mp h
    obtain ⟨⟨more, final⟩, hmembers, h⟩ := bind_eq_ok_iff.mp h
    obtain ⟨rfl, rfl⟩ := Prod.mk.inj (Except.ok.inj h)
    obtain ⟨cs, hcs, hhead⟩ := ih _ _ _ _ _ hvalue
    obtain ⟨es, hes, htail⟩ := ih _ _ _ _ _ hmembers
    obtain ⟨v, rfl⟩ := hhead.matches_pending
    obtain ⟨ms, rfl⟩ := htail.matches_pending
    rw [rest_next hc] at hks
    rw [rest_next hcolon, hes] at hcs
    refine ⟨_, _, _, ?_, rfl, .member hstring hblank hhead htail⟩
    rw [hc, hks, hbehind, hcolon, hcs]
    simp
  · cases h

theorem ReadsSpelled.members (ih : ReadsSpelled fuel)
    (h : read (fuel + 1) depth (.members first) c = .ok (f, c')) :
    ∃ cs, c.rest = cs ++ c'.rest ∧ Spells (depth - 1) (.members first) f cs := by
  obtain ⟨blank, hc, hblank, _⟩ := skipBlank_spec c
  obtain ⟨rest, hrest, heq⟩ | ⟨rfl, rest, hrest, hread⟩ | ⟨rfl, rest, more, hrest, hmore, hread⟩ :=
    read_members_eq_ok_iff.mp h
  · obtain ⟨rfl, rfl⟩ := Prod.mk.inj heq
    exact ⟨blank ++ ['\x7d'], by rw [hc, hrest, rest_next hrest]; simp,
      Spells.endObject.append_blank hblank⟩
  · obtain ⟨cs, m, ms, hcs, rfl, hspells⟩ := ih.member hrest hread
    exact ⟨blank ++ cs, by rw [hc, hcs, List.append_assoc], hspells.append_blank hblank⟩
  · obtain ⟨cs, m, ms, hcs, rfl, hspells⟩ := ih.member hmore hread
    obtain ⟨inner, hinner, hinnerBlank, _⟩ := skipBlank_spec c.skipBlank.next
    rw [rest_next hrest, hcs] at hinner
    exact ⟨blank ++ ',' :: (inner ++ cs), by rw [hc, hrest, hinner]; simp,
      (Spells.nextMember (hspells.append_blank hinnerBlank)).append_blank hblank⟩

theorem readsSpelled (fuel : Nat) : ReadsSpelled fuel := by
  induction fuel with
  | zero =>
    -- without fuel nothing is read
    intro depth p c f c' h
    cases h
  | succ fuel ih =>
    rintro depth (_ | first | first) c f c' h
    · exact ih.value h
    · exact ih.elements h
    · exact ih.members h

end Soundness

/-! ### What follows the grammar is read -/

section Completeness

variable {c c' : Cursor} {fuel depth : Nat} {p : Pending} {f : Found} {v : Json} {m : Numeral}
  {x : Char} {cs ds rest : List Char} {i : Nat}

theorem endsNumeral_cons (hdigit : x.isDigit = false) (hx : x ≠ '.' ∧ x ≠ 'e' ∧ x ≠ 'E')
    (cs : List Char) : EndsNumeral (x :: cs) := by
  rintro d hd
  obtain rfl : x = d := Option.some_inj.mp hd
  exact ⟨hdigit, hx⟩

theorem endsNumeral_of_isBlank (h : isBlank x = true) (cs : List Char) : EndsNumeral (x :: cs) := by
  simp only [isBlank, Bool.or_eq_true, beq_iff_eq, or_assoc] at h
  rcases h with rfl | rfl | rfl | rfl <;> exact endsNumeral_cons (by decide) (by decide) cs

/-- A numeral ends where an array or an object goes on. -/
theorem Spells.endsNumeral (h : Spells depth p f cs)
    (hp : p = .elements false ∨ p = .members false) (rest : List Char) :
    EndsNumeral (cs ++ rest) := by
  cases h with
  | blank hblank _ => exact endsNumeral_of_isBlank hblank _
  | endArray => exact endsNumeral_cons (by decide) (by decide) _
  | nextElement => exact endsNumeral_cons (by decide) (by decide) _
  | endObject => exact endsNumeral_cons (by decide) (by decide) _
  | nextMember => exact endsNumeral_cons (by decide) (by decide) _
  | _ => simp at hp

theorem read_blank (h : isBlank x = true) (fuel depth : Nat) (p : Pending) (cs : List Char)
    (i : Nat) : read (fuel + 1) depth p ⟨x :: cs, i⟩ = read (fuel + 1) depth p ⟨cs, i + 1⟩ := by
  rw [← read_skipBlank, skipBlank_of_isBlank h, read_skipBlank]

theorem read_digit (hx : x.isDigit = true) (fuel depth : Nat) (cs : List Char) (i : Nat) :
    read (fuel + 1) depth .value ⟨x :: cs, i⟩ =
      (do let (v, c) ← readNumber false ⟨x :: cs, i⟩; .ok (.value v, c)) := by
  have hblank : isBlank x = false := by
    by_contra h
    simp only [isBlank, Bool.not_eq_false, Bool.or_eq_true, beq_iff_eq, or_assoc] at h
    rcases h with rfl | rfl | rfl | rfl <;> cases hx
  have hskip : Cursor.skipBlank ⟨x :: cs, i⟩ = ⟨x :: cs, i⟩ :=
    skipBlank_of_head fun d hd => Option.some_inj.mp hd ▸ hblank
  rw [read, hskip]
  dsimp only
  split
  case h_1 heq => cases heq
  case h_9 heq =>
    obtain rfl := List.head_eq_of_cons_eq heq
    exact if_pos hx
  all_goals
    rename_i heq
    exact absurd (List.head_eq_of_cons_eq heq) (ne_of_isDigit hx (by decide))

theorem read_number (h : m.IsLegal) (hfits : m.fits = true) (hrest : EndsNumeral rest)
    (fuel depth i : Nat) :
    ∃ j, read (fuel + 1) depth .value ⟨m.chars ++ rest, i⟩ = .ok (.value m.value, ⟨rest, j⟩) := by
  rw [Numeral.chars]
  cases hnegative : m.negative with
  | false =>
    obtain ⟨j, hj⟩ := readNumber_of_isLegal h hfits hrest i
    obtain ⟨d, more, hwhole, hd⟩ := h.whole.exists_cons
    rw [hnegative] at hj
    rw [if_neg Bool.false_ne_true]
    simp only [Numeral.unsigned, hwhole, List.cons_append] at hj ⊢
    exact ⟨j, by rw [read_digit hd, hj]; rfl⟩
  | true =>
    obtain ⟨j, hj⟩ := readNumber_of_isLegal h hfits hrest (i + '-'.utf8Size)
    refine ⟨j, ?_⟩
    rw [hnegative] at hj
    have hstep : read (fuel + 1) depth .value ⟨'-' :: (m.unsigned ++ rest), i⟩ =
        (do let (v, c) ← readNumber true ⟨m.unsigned ++ rest, i + '-'.utf8Size⟩
            .ok (.value v, c)) := rfl
    rw [if_pos rfl, List.cons_append, hstep, hj]
    rfl

theorem read_string (h : SpellsString cs ds) (fuel depth : Nat) (rest : List Char) (i : Nat) :
    ∃ j, read (fuel + 1) depth .value ⟨'"' :: (cs ++ ['"']) ++ rest, i⟩ =
      .ok (.value (.string (String.ofList ds)), ⟨rest, j⟩) := by
  have hfuel : cs.length < (cs ++ '"' :: rest).length + 2 := by
    rw [List.length_append]
    omega
  obtain ⟨j, hj⟩ := readString_of_spellsString h [] rest (i + '"'.utf8Size) hfuel
  refine ⟨j, ?_⟩
  have hstep : read (fuel + 1) depth .value ⟨'"' :: (cs ++ '"' :: rest), i⟩ =
      (do let (s, c) ← readString ((cs ++ '"' :: rest).length + 2) []
            ⟨cs ++ '"' :: rest, i + '"'.utf8Size⟩
          .ok (.value (.string s), c)) := rfl
  rw [List.cons_append, List.append_assoc, List.singleton_append, hstep, hj]
  rfl

theorem read_array (fuel depth : Nat) (cs : List Char) (i : Nat) :
    read (fuel + 1) (depth + 2) .value ⟨'[' :: cs, i⟩ =
      (do let (found, c) ← read fuel (depth + 1) (.elements true) ⟨cs, i + '['.utf8Size⟩
          .ok (.value found.toValue, c)) := rfl

theorem read_object (fuel depth : Nat) (cs : List Char) (i : Nat) :
    read (fuel + 1) (depth + 2) .value ⟨'\x7b' :: cs, i⟩ =
      (do let (found, c) ← read fuel (depth + 1) (.members true) ⟨cs, i + '\x7b'.utf8Size⟩
          .ok (.value found.toValue, c)) := rfl

/-- A member is read where its value and the members behind it are. -/
theorem readMember_of_spells {key ks blank : List Char} {ms : List (String × Json)}
    (string : SpellsString ks key) (hblank : blank.all isBlank = true)
    (hhead : ∀ i, ∃ j, read fuel depth .value ⟨cs ++ (ds ++ rest), i⟩ =
      .ok (.value v, ⟨ds ++ rest, j⟩))
    (htail : ∀ i, ∃ j, read fuel depth (.members false) ⟨ds ++ rest, i⟩ =
      .ok (.members ms, ⟨rest, j⟩)) (i : Nat) :
    ∃ j, readMember fuel depth
      ⟨'"' :: (ks ++ '"' :: (blank ++ ':' :: (cs ++ ds))) ++ rest, i⟩ =
      .ok (.members ((String.ofList key, v) :: ms), ⟨rest, j⟩) := by
  have hfuel : ks.length <
      ('"' :: (ks ++ '"' :: (blank ++ ':' :: (cs ++ (ds ++ rest))))).length + 1 := by
    rw [List.length_cons, List.length_append]
    omega
  obtain ⟨k, hk⟩ := readString_of_spellsString string []
    (blank ++ ':' :: (cs ++ (ds ++ rest))) (i + '"'.utf8Size) hfuel
  obtain ⟨l, hl⟩ := hhead (k + blank.length + ':'.utf8Size)
  obtain ⟨j, hj⟩ := htail l
  refine ⟨j, ?_⟩
  have hskip : Cursor.skipBlank ⟨blank ++ ':' :: (cs ++ (ds ++ rest)), k⟩ =
      ⟨':' :: (cs ++ (ds ++ rest)), k + blank.length⟩ := by
    rw [skipBlank_append hblank]
    rfl
  simp only [List.cons_append, List.append_assoc]
  rw [readMember]
  simp only [Cursor.next]
  rw [hk, ok_bind]
  simp only [hskip]
  rw [hl, ok_bind]
  dsimp only
  rw [hj]
  rfl

/-- What the grammar spells is read, where nothing that belongs to a number follows. -/
theorem read_of_spells (h : Spells depth p f cs) (hfuel : 2 * cs.length ≤ fuel + 1)
    (hrest : EndsNumeral rest) (i : Nat) :
    ∃ j, read (fuel + 1) (depth + 1) p ⟨cs ++ rest, i⟩ = .ok (f, ⟨rest, j⟩) := by
  -- each part takes at least one character, which pays for a step of its own and one of the list
  induction h generalizing fuel rest i with
  | blank hblank _ ih =>
    rw [List.cons_append, read_blank hblank]
    exact ih (by rw [List.length_cons] at hfuel; omega) hrest (i + 1)
  | null => exact ⟨_, rfl⟩
  | isTrue => exact ⟨_, rfl⟩
  | isFalse => exact ⟨_, rfl⟩
  | number legal fits => exact read_number legal fits hrest fuel _ i
  | string string => exact read_string string fuel _ rest i
  | @array depth vs cs _ ih =>
    rw [List.length_cons] at hfuel
    obtain ⟨k, rfl⟩ : ∃ k, fuel = k + 1 := ⟨fuel - 1, by omega⟩
    have hfuel : 2 * cs.length ≤ k + 1 := by omega
    obtain ⟨j, hj⟩ := ih hfuel hrest (i + '['.utf8Size)
    exact ⟨j, by rw [List.cons_append, read_array, hj]; rfl⟩
  | @object depth ms cs _ ih =>
    rw [List.length_cons] at hfuel
    obtain ⟨k, rfl⟩ : ∃ k, fuel = k + 1 := ⟨fuel - 1, by omega⟩
    have hfuel : 2 * cs.length ≤ k + 1 := by omega
    obtain ⟨j, hj⟩ := ih hfuel hrest (i + '\x7b'.utf8Size)
    exact ⟨j, by rw [List.cons_append, read_object, hj]; rfl⟩
  | endArray => exact ⟨_, rfl⟩
  | @element depth v vs cs ds head tail ihHead ihTail =>
    have hcs := head.length_pos
    have hds := tail.length_pos
    rw [List.length_append] at hfuel
    obtain ⟨k, rfl⟩ : ∃ k, fuel = k + 1 := ⟨fuel - 1, by omega⟩
    have hfuelHead : 2 * cs.length ≤ k + 1 := by omega
    have hfuelTail : 2 * ds.length ≤ k + 1 := by omega
    obtain ⟨l, hl⟩ := ihHead hfuelHead (tail.endsNumeral (.inl rfl) rest) i
    obtain ⟨j, hj⟩ := ihTail hfuelTail hrest l
    refine ⟨j, read_elements_eq_ok_iff.mpr (.inr (.inl ⟨rfl, ?_⟩))⟩
    rw [readElement, read_skipBlank, List.append_assoc, hl, ok_bind]
    dsimp only
    rw [hj]
    rfl
  | @nextElement depth v vs cs _ ih =>
    have hfuel : 2 * cs.length ≤ fuel + 1 := by
      rw [List.length_cons] at hfuel
      omega
    obtain ⟨j, hj⟩ := ih hfuel hrest (i + ','.utf8Size)
    refine ⟨j, read_elements_eq_ok_iff.mpr (.inr (.inr ⟨rfl, cs ++ rest, rfl, ?_⟩))⟩
    -- behind the comma the list is not at its end, so it was read as from its start on
    obtain ⟨_, _, heq⟩ | ⟨_, h⟩ | ⟨hfirst, _⟩ := read_elements_eq_ok_iff.mp hj
    · cases heq
    · exact h
    · cases hfirst
  | endObject => exact ⟨_, rfl⟩
  | @member depth key ks blank cs ds v ms string blank_all head tail ihHead ihTail =>
    have hds := tail.length_pos
    simp only [List.length_cons, List.length_append] at hfuel
    obtain ⟨k, rfl⟩ : ∃ k, fuel = k + 1 := ⟨fuel - 1, by omega⟩
    have hfuelHead : 2 * cs.length ≤ k + 1 := by omega
    have hfuelTail : 2 * ds.length ≤ k + 1 := by omega
    obtain ⟨j, hj⟩ := readMember_of_spells string blank_all
      (ihHead hfuelHead (tail.endsNumeral (.inr rfl) rest)) (ihTail hfuelTail hrest) i
    exact ⟨j, read_members_eq_ok_iff.mpr (.inr (.inl ⟨rfl, _, rfl, hj⟩))⟩
  | @nextMember depth m ms cs _ ih =>
    have hfuel : 2 * cs.length ≤ fuel + 1 := by
      rw [List.length_cons] at hfuel
      omega
    obtain ⟨j, hj⟩ := ih hfuel hrest (i + ','.utf8Size)
    obtain ⟨_, _, heq⟩ | ⟨_, more, hmore, h⟩ | ⟨hfirst, _⟩ := read_members_eq_ok_iff.mp hj
    · cases heq
    · exact ⟨j, read_members_eq_ok_iff.mpr (.inr (.inr ⟨rfl, cs ++ rest, more, rfl, hmore, h⟩))⟩
    · cases hfirst

end Completeness

/-! ### Texts -/

section Texts

variable {text : String} {value other : Json} {c : Cursor} {blank : List Char} {i : Nat}

theorem readEnd_of_blank (h : blank.all isBlank = true) (i : Nat) :
    readEnd ⟨blank, i⟩ = .ok () := by
  have hskip := skipBlank_append h [] i
  rw [List.append_nil] at hskip
  rw [readEnd, hskip]
  rfl

theorem blank_of_readEnd (h : readEnd c = .ok ()) : c.rest.all isBlank = true := by
  obtain ⟨blank, hc, hblank, _⟩ := skipBlank_spec c
  rw [readEnd] at h
  split at h
  · rename_i hnil
    rw [hc, List.isEmpty_iff.mp hnil, List.append_nil]
    exact hblank
  · cases h

/-- The reader accepts just the texts of the grammar. -/
theorem isText_iff :
    IsText value text ↔ ∃ c, readPrefix text = .ok (value, c) ∧ readEnd c = .ok () := by
  constructor
  · rintro ⟨cs, blank, htext, hblank, hspells⟩
    have hends : EndsNumeral blank := by
      cases blank with
      | nil => simp [EndsNumeral]
      | cons x blank =>
        rw [List.all_cons, Bool.and_eq_true] at hblank
        exact endsNumeral_of_isBlank hblank.1 blank
    have hfuel : 2 * cs.length ≤ 2 * (cs ++ blank).length + 1 + 1 := by
      rw [List.length_append]
      omega
    obtain ⟨j, hj⟩ := read_of_spells hspells hfuel hends 0
    refine ⟨⟨blank, j⟩, ?_, readEnd_of_blank hblank j⟩
    rw [readPrefix, htext]
    exact bind_eq_ok_iff.mpr ⟨_, hj, rfl⟩
  · rintro ⟨c, hprefix, hend⟩
    obtain ⟨⟨found, behind⟩, hread, h⟩ := bind_eq_ok_iff.mp hprefix
    obtain ⟨rfl, rfl⟩ := Prod.mk.inj (Except.ok.inj h)
    obtain ⟨cs, hcs, hspells⟩ := readsSpelled _ _ _ _ _ _ hread
    obtain ⟨v, rfl⟩ := hspells.matches_pending
    exact ⟨cs, behind.rest, hcs, blank_of_readEnd hend, hspells⟩

/-- A text spells one value at most. -/
theorem IsText.unique (h : IsText value text) (hother : IsText other text) : value = other := by
  obtain ⟨c, hc, _⟩ := isText_iff.mp h
  obtain ⟨c', hc', _⟩ := isText_iff.mp hother
  exact congrArg Prod.fst (Except.ok.inj (hc.symm.trans hc'))

end Texts

end ViewBinding.Json
