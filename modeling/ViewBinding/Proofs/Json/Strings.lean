import Mathlib.Data.List.Forall2
import ViewBinding.Json.Reader

/-!
# Strings of JSON

How the characters of a JSON string are written (`ViewBinding.Json.SpellsString`), and that
`ViewBinding.Json.readString` reads exactly the texts that are written so, up to the closing quote
(`ViewBinding.Json.readString_of_spellsString`, `ViewBinding.Json.spellsString_of_readString`).
-/

namespace ViewBinding.Json

open Text

theorem mapM_eq_some_iff {α β : Type} {f : α → Option β} {xs : List α} {ys : List β} :
    xs.mapM f = some ys ↔ List.Forall₂ (fun x y => f x = some y) xs ys := by
  induction xs generalizing ys with
  | nil =>
    rw [List.mapM_nil, List.forall₂_nil_left_iff]
    exact ⟨fun h => (Option.some_inj.mp h).symm, fun h => congrArg some h.symm⟩
  | cons x xs ih =>
    simp only [List.mapM_cons, Option.pure_def, Option.bind_eq_bind, Option.bind_eq_some_iff, ih,
      List.forall₂_cons_left_iff, Option.some_inj]
    constructor
    · rintro ⟨y, hy, ys, hys, rfl⟩
      exact ⟨y, ys, hy, hys, rfl⟩
    · rintro ⟨y, ys, hy, hys, rfl⟩
      exact ⟨y, hy, ys, hys, rfl⟩

section Steps

variable {ε α β : Type}

theorem ok_bind (a : α) (f : α → Except ε β) : (Except.ok a >>= f) = f a := rfl

/-- A step that succeeds is followed by one that does. -/
theorem bind_eq_ok_iff {x : Except ε α} {f : α → Except ε β} {b : β} :
    (x >>= f) = .ok b ↔ ∃ a, x = .ok a ∧ f a = .ok b := by
  cases x with
  | error e =>
    refine ⟨fun h => ?_, fun ⟨a, ha, _⟩ => ?_⟩
    · cases h
    · cases ha
  | ok a =>
    rw [ok_bind]
    exact ⟨fun h => ⟨a, rfl, h⟩, fun ⟨a', ha, h⟩ => (Except.ok.inj ha) ▸ h⟩

end Steps

/-! ### How strings are written -/

/-- Four hexadecimal digits write a number. -/
inductive SpellsCode : List Char → Nat → Prop
  | mk {a b c d : Char} {i j k l : Nat} (first : hexValue? a = some i)
      (second : hexValue? b = some j) (third : hexValue? c = some k)
      (fourth : hexValue? d = some l) :
      SpellsCode [a, b, c, d] (((i * 16 + j) * 16 + k) * 16 + l)

/-- The characters that are written as a backslash and one letter, with these letters. -/
def letters : List (Char × Char) := [
  ('"', '"'), ('\\', '\\'), ('/', '/'), ('b', '\x08'), ('f', '\x0c'), ('n', '\n'), ('r', '\r'),
  ('t', '\t')]

/-- What follows a backslash writes a character: a letter, its code, or the codes of two surrogates
of which the second has a backslash of its own. -/
inductive SpellsEscape : List Char → Char → Prop
  | letter {x c : Char} (mem : (x, c) ∈ letters) : SpellsEscape [x] c
  | code {cs : List Char} {n : Nat} (code : SpellsCode cs n) (low : ¬(0xDC00 ≤ n ∧ n ≤ 0xDFFF))
      (high : ¬(0xD800 ≤ n ∧ n ≤ 0xDBFF)) : SpellsEscape ('u' :: cs) (Char.ofNat n)
  | pair {cs ds : List Char} {m n : Nat} (first : SpellsCode cs m) (high : 0xD800 ≤ m ∧ m ≤ 0xDBFF)
      (second : SpellsCode ds n) (low : 0xDC00 ≤ n ∧ n ≤ 0xDFFF) :
      SpellsEscape ('u' :: (cs ++ '\\' :: 'u' :: ds))
        (Char.ofNat ((m - 0xD800) * 0x400 + (n - 0xDC00) + 0x10000))

/-- The characters between the quotes write a string. -/
inductive SpellsString : List Char → List Char → Prop
  | nil : SpellsString [] []
  | plain {c : Char} {cs s : List Char} (quote : c ≠ '"') (backslash : c ≠ '\\')
      (control : 0x20 ≤ c.toNat) (rest : SpellsString cs s) : SpellsString (c :: cs) (c :: s)
  | escape {es cs s : List Char} {c : Char} (escape : SpellsEscape es c)
      (rest : SpellsString cs s) : SpellsString ('\\' :: (es ++ cs)) (c :: s)

/-! ### Reading escapes -/

variable {c c' : Cursor} {cs ds es rest known : List Char} {n fuel : Nat} {x : Char} {s : String}

theorem rest_next (h : c.rest = x :: rest) : c.next.rest = rest := by
  rw [Cursor.next, h]

theorem readHex_of_spellsCode (h : SpellsCode ds n) (rest : List Char) (i : Nat) :
    readHex ⟨ds ++ rest, i⟩ = .ok (n, ⟨rest, i + 4⟩) := by
  obtain @⟨a, b, c, d, _, _, _, _, ha, hb, hc, hd⟩ := h
  have hlong : ¬byteLength ([a, b, c, d] ++ rest) < 4 := by
    have hfirst := a.utf8Size_pos
    have hsecond := b.utf8Size_pos
    have hthird := c.utf8Size_pos
    have hfourth := d.utf8Size_pos
    simp only [List.cons_append, List.nil_append, byteLength_cons]
    omega
  rw [readHex, if_neg hlong]
  simp [ha, hb, hc, hd]

theorem spellsCode_of_readHex (h : readHex c = .ok (n, c')) :
    ∃ ds, c.rest = ds ++ c'.rest ∧ SpellsCode ds n := by
  rw [readHex] at h
  split at h
  · cases h
  · split at h
    · rename_i hvalues
      cases h
      refine ⟨c.rest.take 4, (List.take_append_drop 4 c.rest).symm, ?_⟩
      have hdigits := mapM_eq_some_iff.mp hvalues
      generalize c.rest.take 4 = ds at hdigits
      obtain _ | ⟨ha, _ | ⟨hb, _ | ⟨hc, _ | ⟨hd, _ | _⟩⟩⟩⟩ := hdigits
      exact .mk ha hb hc hd
    · cases h

theorem readEscape_of_spellsEscape (h : SpellsEscape es x) (rest : List Char) (i : Nat) :
    ∃ j, readEscape ⟨es ++ rest, i⟩ = .ok (x, ⟨rest, j⟩) := by
  cases h with
  | letter mem =>
    simp only [letters, List.mem_cons, Prod.mk.injEq, List.not_mem_nil, or_false] at mem
    rcases mem with ⟨rfl, rfl⟩ | ⟨rfl, rfl⟩ | ⟨rfl, rfl⟩ | ⟨rfl, rfl⟩ | ⟨rfl, rfl⟩ | ⟨rfl, rfl⟩ |
      ⟨rfl, rfl⟩ | ⟨rfl, rfl⟩ <;> exact ⟨_, rfl⟩
  | code code low high =>
    simp only [readEscape, Cursor.next, List.cons_append, readHex_of_spellsCode code, ok_bind]
    rw [if_neg (by simpa using low), if_neg (by simpa using high)]
    exact ⟨_, rfl⟩
  | pair first high second low =>
    simp only [readEscape, Cursor.next, List.cons_append, List.append_assoc,
      readHex_of_spellsCode first, ok_bind]
    rw [if_neg (by simp; omega), if_pos (by simpa using high)]
    simp only [readLowSurrogate, Cursor.next, readHex_of_spellsCode second, ok_bind]
    rw [if_neg (by simp; omega)]
    exact ⟨_, rfl⟩

theorem spellsEscape_of_readLowSurrogate (hcs : SpellsCode cs n) (hn : 0xD800 ≤ n ∧ n ≤ 0xDBFF)
    (h : readLowSurrogate n c = .ok (x, c')) :
    ∃ es, c.rest = es ++ c'.rest ∧ SpellsEscape ('u' :: (cs ++ es)) x := by
  rw [readLowSurrogate] at h
  split at h
  · cases h
  · cases h
  · rename_i rest hrest
    obtain ⟨⟨m, behind⟩, hhex, h⟩ := bind_eq_ok_iff.mp h
    obtain ⟨ds, hds, hcode⟩ := spellsCode_of_readHex hhex
    rw [rest_next (rest_next hrest)] at hds
    dsimp only at h hds
    split at h
    · cases h
    · rename_i hlow
      obtain ⟨rfl, rfl⟩ := Prod.mk.inj (Except.ok.inj h)
      refine ⟨'\\' :: 'u' :: ds, ?_, .pair hcs hn hcode (by simp at hlow; omega)⟩
      rw [hrest, hds]
      rfl
  · cases h
  · cases h

theorem spellsEscape_of_readEscape (h : readEscape c = .ok (x, c')) :
    ∃ es, c.rest = es ++ c'.rest ∧ SpellsEscape es x := by
  have hletter {y z : Char} {rest : List Char} (hrest : c.rest = y :: rest)
      (h : Except.ok (z, c.next) = Except.ok (ε := Fault) (x, c')) (hmem : (y, z) ∈ letters) :
      ∃ es, c.rest = es ++ c'.rest ∧ SpellsEscape es x := by
    cases h
    exact ⟨[y], by rw [hrest, rest_next hrest]; rfl, .letter hmem⟩
  -- there is a branch for each letter, and one for the code of a character
  rw [readEscape] at h
  split at h
  · cases h
  · exact hletter ‹_› h (by decide)
  · exact hletter ‹_› h (by decide)
  · exact hletter ‹_› h (by decide)
  · exact hletter ‹_› h (by decide)
  · exact hletter ‹_› h (by decide)
  · exact hletter ‹_› h (by decide)
  · exact hletter ‹_› h (by decide)
  · exact hletter ‹_› h (by decide)
  · rename_i rest hrest
    obtain ⟨⟨n, behind⟩, hhex, h⟩ := bind_eq_ok_iff.mp h
    obtain ⟨ds, hds, hcode⟩ := spellsCode_of_readHex hhex
    rw [rest_next hrest] at hds
    dsimp only at h hds
    split at h
    · cases h
    · rename_i hlow
      split at h
      · rename_i hhigh
        obtain ⟨es, hes, hspells⟩ :=
          spellsEscape_of_readLowSurrogate hcode (by simpa using hhigh) h
        exact ⟨'u' :: (ds ++ es), by rw [hrest, hds, hes]; simp, hspells⟩
      · rename_i hhigh
        cases h
        exact ⟨'u' :: ds, by rw [hrest, hds]; rfl,
          .code hcode (by simpa using hlow) (by simpa using hhigh)⟩
  · cases h

/-! ### Reading strings -/

theorem readString_plain (hquote : x ≠ '"') (hbackslash : x ≠ '\\') (hcontrol : 0x20 ≤ x.toNat)
    (fuel : Nat) (known rest : List Char) (i : Nat) :
    readString (fuel + 1) known ⟨x :: rest, i⟩ =
      readString fuel (x :: known) ⟨rest, i + x.utf8Size⟩ := by
  rw [readString]
  split
  · rename_i hnil
    cases hnil
  · rename_i heq
    exact absurd (List.head_eq_of_cons_eq heq) hquote
  · rename_i heq
    exact absurd (List.head_eq_of_cons_eq heq) hbackslash
  · rename_i heq
    obtain ⟨rfl, rfl⟩ := List.cons.inj heq
    rw [if_neg (by omega)]
    rfl

theorem readString_of_spellsString (h : SpellsString cs ds) (known rest : List Char) (i : Nat)
    (hfuel : cs.length < fuel) :
    ∃ j, readString fuel known ⟨cs ++ '"' :: rest, i⟩ =
      .ok (String.ofList (known.reverse ++ ds), ⟨rest, j⟩) := by
  induction h generalizing known i fuel with
  | nil =>
    obtain ⟨fuel, rfl⟩ := Nat.exists_eq_add_of_lt hfuel
    simp [readString, Cursor.next]
  | @plain c cs s quote backslash control _ ih =>
    cases fuel with
    | zero => omega
    | succ fuel =>
      rw [List.cons_append, readString_plain quote backslash control]
      obtain ⟨j, hj⟩ := ih (c :: known) (i + c.utf8Size) (Nat.lt_of_succ_lt_succ hfuel)
      exact ⟨j, by rw [hj]; simp⟩
  | @escape es cs s c escape _ ih =>
    cases fuel with
    | zero => omega
    | succ fuel =>
      obtain ⟨k, hk⟩ := readEscape_of_spellsEscape escape (cs ++ '"' :: rest) (i + 1)
      have hlength : cs.length < fuel := by
        rw [List.length_cons, List.length_append] at hfuel
        omega
      obtain ⟨j, hj⟩ := ih (c :: known) k hlength
      refine ⟨j, ?_⟩
      have hstep : readString (fuel + 1) known ⟨'\\' :: (es ++ (cs ++ '"' :: rest)), i⟩ =
          (readEscape ⟨es ++ (cs ++ '"' :: rest), i + 1⟩ >>= fun p =>
            readString fuel (p.1 :: known) p.2) := rfl
      rw [List.cons_append, List.append_assoc, hstep, hk, ok_bind, hj]
      simp

theorem spellsString_of_readString (h : readString fuel known c = .ok (s, c')) :
    ∃ cs ds, c.rest = cs ++ '"' :: c'.rest ∧ SpellsString cs ds ∧
      s = String.ofList (known.reverse ++ ds) := by
  induction fuel generalizing known c with
  | zero => cases h
  | succ fuel ih =>
    rw [readString] at h
    split at h
    · cases h
    · rename_i hrest
      cases h
      exact ⟨[], [], by rw [hrest, rest_next hrest]; rfl, .nil, by rw [List.append_nil]⟩
    · rename_i hrest
      obtain ⟨⟨d, behind⟩, hescape, h⟩ := bind_eq_ok_iff.mp h
      obtain ⟨es, hes, hspells⟩ := spellsEscape_of_readEscape hescape
      obtain ⟨cs, ds, hcs, hstring, rfl⟩ := ih h
      rw [rest_next hrest] at hes
      exact ⟨'\\' :: (es ++ cs), d :: ds, by rw [hrest, hes, hcs]; simp, .escape hspells hstring,
        by simp⟩
    · rename_i d rest hquote hbackslash hrest
      split at h
      · cases h
      · rename_i hcontrol
        obtain ⟨cs, ds, hcs, hstring, rfl⟩ := ih h
        rw [rest_next hrest] at hcs
        exact ⟨d :: cs, d :: ds, by rw [hrest, hcs]; rfl,
          .plain (by simpa using hquote) (by simpa using hbackslash) (by omega) hstring, by simp⟩

end ViewBinding.Json
