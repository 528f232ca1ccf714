import Mathlib.Computability.Language
import ViewBinding.Text.Pattern

/-!
# What patterns match

A pattern stands for a language (`ViewBinding.Text.Pattern.language`), and derivatives do what they
are for: `ViewBinding.Text.Pattern.after` takes the first character off the texts of the language
(`ViewBinding.Text.Pattern.mem_language_after`). So following a text by derivatives finds its
longest beginning in the language (`ViewBinding.Text.Pattern.longest?_eq_some_iff`).

Two things can be told from a pattern without matching anything: which characters its texts are made
of (`ViewBinding.Text.Pattern.UsesOnly`), and that none of its texts is without a certain mark
(`ViewBinding.Text.Pattern.Needs`).
-/

namespace ViewBinding.Text.Pattern

open Computability

variable {p q : Pattern} {c : Char} {cs ds : List Char}

/-! ### The language of a pattern -/

/-- **The texts that a pattern matches.** -/
def language : Pattern → Language Char
  | none => 0
  | empty => 1
  | one accepts => {cs | ∃ c, accepts c = true ∧ cs = [c]}
  | seq p q => p.language * q.language
  | alt p q => p.language + q.language
  | star p => p.language∗

@[simp] theorem mem_language_empty : cs ∈ empty.language ↔ cs = [] := Language.mem_one cs

@[simp] theorem mem_language_one {accepts : Char → Bool} :
    cs ∈ (one accepts).language ↔ ∃ c, accepts c = true ∧ cs = [c] := Iff.rfl

theorem mem_language_seq :
    cs ∈ (seq p q).language ↔ ∃ a ∈ p.language, ∃ b ∈ q.language, a ++ b = cs :=
  Language.mem_mul

@[simp] theorem mem_language_alt :
    cs ∈ (alt p q).language ↔ cs ∈ p.language ∨ cs ∈ q.language :=
  Language.mem_add _ _ _

@[simp] theorem mem_language_char : cs ∈ (char c).language ↔ cs = [c] := by
  simp [char]

@[simp] theorem mem_language_oneOf : cs ∈ (oneOf ds).language ↔ ∃ c ∈ ds, cs = [c] := by
  simp [oneOf]

@[simp] theorem mem_language_optional :
    cs ∈ (optional p).language ↔ cs ∈ p.language ∨ cs = [] := by
  simp [optional]

theorem mem_language_chain_nil : cs ∈ (chain []).language ↔ cs = [] :=
  mem_language_empty

theorem mem_language_chain_cons {ps : List Pattern} :
    cs ∈ (chain (p :: ps)).language ↔ ∃ a ∈ p.language, ∃ b ∈ (chain ps).language, a ++ b = cs :=
  mem_language_seq

theorem append_mem_kstar {l : Language Char} (hcs : cs ∈ l) (hds : ds ∈ l∗) : cs ++ ds ∈ l∗ := by
  rw [← Language.one_add_self_mul_kstar_eq_kstar]
  exact .inr (Language.mem_mul.mpr ⟨cs, hcs, ds, hds, rfl⟩)

/-- A text that starts with `c` is one of the star if a text that starts with `c` comes first. -/
theorem cons_mem_kstar_iff {l : Language Char} :
    c :: cs ∈ l∗ ↔ ∃ a b, a ++ b = cs ∧ c :: a ∈ l ∧ b ∈ l∗ := by
  constructor
  · intro h
    obtain ⟨texts, hall, htexts⟩ := Language.mem_kstar_iff_exists_nonempty.mp h
    cases texts with
    | nil => cases hall
    | cons first rest =>
      obtain ⟨hfirst, hne⟩ := htexts first (.head _)
      obtain ⟨d, a, rfl⟩ := List.exists_cons_of_ne_nil hne
      rw [List.flatten_cons, List.cons_append] at hall
      obtain ⟨rfl, rfl⟩ := List.cons.inj hall
      exact ⟨a, rest.flatten, rfl, hfirst,
        Language.join_mem_kstar fun b hb => (htexts b (.tail _ hb)).1⟩
  · rintro ⟨a, b, rfl, ha, hb⟩
    exact append_mem_kstar ha hb

/-! ### Derivatives -/

theorem nullable_iff : p.nullable = true ↔ [] ∈ p.language := by
  induction p with
  | none => simp [nullable, language]
  | empty => simp [nullable]
  | one accepts => simp [nullable]
  | seq p q ihp ihq =>
    rw [nullable, Bool.and_eq_true, ihp, ihq, mem_language_seq]
    constructor
    · rintro ⟨hp, hq⟩
      exact ⟨[], hp, [], hq, rfl⟩
    · rintro ⟨a, ha, b, hb, hab⟩
      obtain ⟨rfl, rfl⟩ := List.append_eq_nil_iff.mp hab
      exact ⟨ha, hb⟩
  | alt p q ihp ihq => simp [nullable, ihp, ihq]
  | star p ih => simp [nullable, language, Language.nil_mem_kstar]

theorem language_joined (p q : Pattern) : (joined p q).language = p.language * q.language := by
  unfold joined
  split
  · exact (zero_mul _).symm
  · exact (one_mul _).symm
  · rfl

theorem language_merged (p q : Pattern) : (merged p q).language = p.language + q.language := by
  unfold merged
  split
  · exact (zero_add _).symm
  · exact (add_zero _).symm
  · rfl

/-- The first character of a sequence is that of the first part, or of the second if the first part
is empty. -/
theorem cons_mem_mul_iff {l m : Language Char} :
    c :: cs ∈ l * m ↔
      (∃ a b, a ++ b = cs ∧ c :: a ∈ l ∧ b ∈ m) ∨ [] ∈ l ∧ c :: cs ∈ m := by
  rw [Language.mem_mul]
  constructor
  · rintro ⟨a, ha, b, hb, hab⟩
    cases a with
    | nil => exact .inr ⟨ha, hab ▸ hb⟩
    | cons d a =>
      obtain ⟨rfl, rfl⟩ := List.cons.inj hab
      exact .inl ⟨a, b, rfl, ha, hb⟩
  · rintro (⟨a, b, rfl, ha, hb⟩ | ⟨hnil, hm⟩)
    · exact ⟨c :: a, ha, b, hb, rfl⟩
    · exact ⟨[], hnil, c :: cs, hm, rfl⟩

/-- **A derivative takes the first character off** the texts of a pattern. -/
theorem mem_language_after : cs ∈ (p.after c).language ↔ c :: cs ∈ p.language := by
  induction p generalizing cs with
  | none => simp [after, language]
  | empty => simp [after, language]
  | one accepts =>
    rw [after]
    split
    · rename_i h
      simp [h]
    · rename_i h
      refine iff_of_false (Language.notMem_zero cs) fun hmem => ?_
      obtain ⟨d, hd, heq⟩ := mem_language_one.mp hmem
      obtain ⟨rfl, -⟩ := List.cons.inj heq
      exact h hd
  | seq p q ihp ihq =>
    have hfirst : cs ∈ (p.after c).language * q.language ↔
        ∃ a b, a ++ b = cs ∧ c :: a ∈ p.language ∧ b ∈ q.language := by
      rw [Language.mem_mul]
      constructor
      · rintro ⟨a, ha, b, hb, hab⟩
        exact ⟨a, b, hab, ihp.mp ha, hb⟩
      · rintro ⟨a, b, hab, ha, hb⟩
        exact ⟨a, ihp.mpr ha, b, hb, hab⟩
    -- the character is the first of the front, or of the back if the front may be empty
    rw [after, language, cons_mem_mul_iff, ← nullable_iff]
    split
    · rename_i hnull
      rw [language_merged, language_joined, Language.mem_add, hfirst, ihq]
      simp [hnull]
    · rename_i hnull
      rw [language_joined, hfirst]
      simp [hnull]
  | alt p q ihp ihq => rw [after, language_merged, Language.mem_add, ihp, ihq, mem_language_alt]
  | star p ih =>
    rw [after, language_joined, language, cons_mem_kstar_iff, Language.mem_mul]
    constructor
    · rintro ⟨a, ha, b, hb, hab⟩
      exact ⟨a, b, hab, ih.mp ha, hb⟩
    · rintro ⟨a, b, hab, ha, hb⟩
      exact ⟨a, ih.mpr ha, b, hb, hab⟩

theorem notMem_of_isNone (h : p.isNone = true) : cs ∉ p.language := by
  unfold isNone at h
  split at h
  · exact Language.notMem_zero cs
  · cases h

/-! ### The longest match -/

/-- **So many characters from the start are the longest match** of the pattern. -/
structure IsLongest (p : Pattern) (cs : List Char) (n : Nat) : Prop where
  le : n ≤ cs.length
  mem : cs.take n ∈ p.language
  longest : ∀ m ≤ cs.length, cs.take m ∈ p.language → m ≤ n

theorem take_succ_mem_language_iff {n : Nat} :
    (c :: cs).take (n + 1) ∈ p.language ↔ cs.take n ∈ (p.after c).language := by
  rw [List.take_succ_cons, mem_language_after]

/-- Either there is a longest match, or nothing matches and the best match so far remains. -/
theorem longestFrom_cases (p : Pattern) (length : Nat) (best : Option Nat) (cs : List Char) :
    (∃ n, p.IsLongest cs n ∧ p.longestFrom length best cs = some (length + n)) ∨
      (∀ n ≤ cs.length, cs.take n ∉ p.language) ∧ p.longestFrom length best cs = best := by
  induction cs generalizing p length best with
  | nil =>
    rw [longestFrom]
    split
    · rename_i hnull
      exact .inl ⟨0, ⟨Nat.le_refl 0, nullable_iff.mp hnull, fun m hm _ => hm⟩, rfl⟩
    · rename_i hnull
      refine .inr ⟨fun n _ hn => hnull (nullable_iff.mpr ?_), rfl⟩
      rwa [List.take_nil] at hn
  | cons c cs ih =>
    have hzero : p.nullable = true ↔ (c :: cs).take 0 ∈ p.language := nullable_iff
    -- what holds of all shorter matches holds of the match of no characters
    have hnone (h : ∀ n ≤ cs.length, cs.take n ∉ (p.after c).language) :
        ∀ n ≤ (c :: cs).length, (c :: cs).take n ∈ p.language → n = 0 := by
      intro n hn hmem
      cases n with
      | zero => rfl
      | succ n =>
        exact absurd (take_succ_mem_language_iff.mp hmem) (h n (Nat.le_of_succ_le_succ hn))
    have hbest (h : ∀ n ≤ cs.length, cs.take n ∉ (p.after c).language) :
        (∃ n, p.IsLongest (c :: cs) n ∧
          (if p.nullable then some length else best) = some (length + n)) ∨
        (∀ n ≤ (c :: cs).length, (c :: cs).take n ∉ p.language) ∧
          (if p.nullable then some length else best) = best := by
      split
      · rename_i hnull
        exact .inl ⟨0, ⟨Nat.zero_le _, hzero.mp hnull,
          fun m hm hmem => Nat.le_of_eq (hnone h m hm hmem)⟩, rfl⟩
      · rename_i hnull
        refine .inr ⟨fun n hn hmem => hnull (hzero.mpr ?_), rfl⟩
        obtain rfl := hnone h n hn hmem
        exact hmem
    rw [longestFrom]
    split
    · rename_i hisNone
      exact hbest fun n _ => notMem_of_isNone hisNone
    · rcases ih (p.after c) (length + 1) (if p.nullable then some length else best) with
        ⟨n, hn, heq⟩ | ⟨h, heq⟩
      · refine .inl ⟨n + 1, ⟨Nat.succ_le_succ hn.le, take_succ_mem_language_iff.mpr hn.mem,
          fun m hm hmem => ?_⟩, by rw [heq, Nat.add_right_comm, Nat.add_assoc]⟩
        cases m with
        | zero => exact Nat.zero_le _
        | succ m =>
          exact Nat.succ_le_succ
            (hn.longest m (Nat.le_of_succ_le_succ hm) (take_succ_mem_language_iff.mp hmem))
      · rw [heq]
        exact hbest h

/-- **Following a text by derivatives finds the longest match.** -/
theorem longest?_eq_some_iff {n : Nat} : p.longest? cs = some n ↔ p.IsLongest cs n := by
  rw [longest?]
  rcases p.longestFrom_cases 0 .none cs with ⟨m, hm, heq⟩ | ⟨hnone, heq⟩
  · rw [heq, Nat.zero_add, Option.some_inj]
    constructor
    · rintro rfl
      exact hm
    · intro hn
      exact Nat.le_antisymm (hn.longest m hm.le hm.mem) (hm.longest n hn.le hn.mem)
  · rw [heq]
    exact ⟨fun h => (nomatch h), fun hn => absurd hn.mem (hnone n hn.le)⟩

/-- A match is no longer than the longest one. -/
theorem exists_longest?_of_mem (h : cs ∈ p.language) (rest : List Char) :
    ∃ n, p.longest? (cs ++ rest) = some n ∧ cs.length ≤ n := by
  have hle : cs.length ≤ (cs ++ rest).length := by simp
  have hmem : (cs ++ rest).take cs.length ∈ p.language := by simpa using h
  rcases p.longestFrom_cases 0 .none (cs ++ rest) with ⟨n, hn, heq⟩ | ⟨hnone, -⟩
  · exact ⟨n, by rw [longest?, heq, Nat.zero_add], hn.longest _ hle hmem⟩
  · exact absurd hmem (hnone _ hle)

theorem longest?_eq_length_iff : p.longest? cs = some cs.length ↔ cs ∈ p.language := by
  rw [longest?_eq_some_iff]
  constructor
  · intro h
    simpa using h.mem
  · intro h
    exact ⟨Nat.le_refl _, by simpa using h, fun m hm _ => hm⟩

/-! ### Characters of matches -/

/-- All texts of the pattern are made of characters in `A`. -/
def UsesOnly (A : Char → Prop) : Pattern → Prop
  | none | empty => True
  | one accepts => ∀ c, accepts c = true → A c
  | seq p q | alt p q => p.UsesOnly A ∧ q.UsesOnly A
  | star p => p.UsesOnly A

section UsesOnly

variable {A : Char → Prop} {accepts : Char → Bool} {ps : List Pattern}

@[simp] theorem usesOnly_none : none.UsesOnly A := trivial

@[simp] theorem usesOnly_empty : empty.UsesOnly A := trivial

@[simp] theorem usesOnly_one : (one accepts).UsesOnly A ↔ ∀ c, accepts c = true → A c := Iff.rfl

@[simp] theorem usesOnly_seq : (seq p q).UsesOnly A ↔ p.UsesOnly A ∧ q.UsesOnly A := Iff.rfl

@[simp] theorem usesOnly_alt : (alt p q).UsesOnly A ↔ p.UsesOnly A ∧ q.UsesOnly A := Iff.rfl

@[simp] theorem usesOnly_star : (star p).UsesOnly A ↔ p.UsesOnly A := Iff.rfl

@[simp] theorem usesOnly_char : (char c).UsesOnly A ↔ A c := by
  simp [char]

@[simp] theorem usesOnly_oneOf : (oneOf cs).UsesOnly A ↔ ∀ c ∈ cs, A c := by
  simp [oneOf]

@[simp] theorem usesOnly_optional : (optional p).UsesOnly A ↔ p.UsesOnly A := by
  simp [optional]

@[simp] theorem usesOnly_plus : (plus p).UsesOnly A ↔ p.UsesOnly A := by
  simp [plus]

@[simp] theorem usesOnly_separated :
    (separated p q).UsesOnly A ↔ p.UsesOnly A ∧ q.UsesOnly A := by
  rw [separated, usesOnly_seq, usesOnly_star, usesOnly_seq]
  exact ⟨fun h => ⟨h.1, h.2.1⟩, fun h => ⟨h.1, h.2, h.1⟩⟩

@[simp] theorem usesOnly_chain : (chain ps).UsesOnly A ↔ ∀ p ∈ ps, p.UsesOnly A := by
  induction ps with
  | nil => simp [chain]
  | cons p ps ih => rw [List.forall_mem_cons, ← ih]; rfl

@[simp] theorem usesOnly_choice : (choice ps).UsesOnly A ↔ ∀ p ∈ ps, p.UsesOnly A := by
  induction ps with
  | nil => simp [choice]
  | cons p ps ih => rw [List.forall_mem_cons, ← ih]; rfl

end UsesOnly

theorem UsesOnly.forall_mem {A : Char → Prop} (h : p.UsesOnly A) (hcs : cs ∈ p.language) :
    ∀ c ∈ cs, A c := by
  induction p generalizing cs with
  | none => exact absurd hcs (Language.notMem_zero cs)
  | empty =>
    rw [mem_language_empty.mp hcs]
    exact fun c hc => (List.not_mem_nil hc).elim
  | one accepts =>
    obtain ⟨c, hc, rfl⟩ := hcs
    intro d hd
    rw [List.mem_singleton.mp hd]
    exact h c hc
  | seq p q ihp ihq =>
    obtain ⟨a, ha, b, hb, rfl⟩ := mem_language_seq.mp hcs
    intro c hc
    rcases List.mem_append.mp hc with hc | hc
    · exact ihp h.1 ha c hc
    · exact ihq h.2 hb c hc
  | alt p q ihp ihq =>
    rcases mem_language_alt.mp hcs with hcs | hcs
    · exact ihp h.1 hcs
    · exact ihq h.2 hcs
  | star p ih =>
    obtain ⟨texts, rfl, htexts⟩ := Language.mem_kstar.mp hcs
    intro c hc
    obtain ⟨text, htext, hc⟩ := List.mem_flatten.mp hc
    exact ih h (htexts text htext) c hc

/-- Every text of the pattern has a character in `A`. -/
def Needs (A : Char → Prop) : Pattern → Prop
  | none => True
  | empty | star _ => False
  | one accepts => ∀ c, accepts c = true → A c
  | seq p q => p.Needs A ∨ q.Needs A
  | alt p q => p.Needs A ∧ q.Needs A

section Needs

variable {A : Char → Prop} {accepts : Char → Bool} {ps : List Pattern}

@[simp] theorem needs_none : none.Needs A := trivial

@[simp] theorem not_needs_empty : ¬empty.Needs A := id

@[simp] theorem not_needs_star : ¬(star p).Needs A := id

@[simp] theorem needs_one : (one accepts).Needs A ↔ ∀ c, accepts c = true → A c := Iff.rfl

@[simp] theorem needs_seq : (seq p q).Needs A ↔ p.Needs A ∨ q.Needs A := Iff.rfl

@[simp] theorem needs_alt : (alt p q).Needs A ↔ p.Needs A ∧ q.Needs A := Iff.rfl

@[simp] theorem needs_char : (char c).Needs A ↔ A c := by
  simp [char]

@[simp] theorem needs_oneOf : (oneOf cs).Needs A ↔ ∀ c ∈ cs, A c := by
  simp [oneOf]

@[simp] theorem needs_chain : (chain ps).Needs A ↔ ∃ p ∈ ps, p.Needs A := by
  induction ps with
  | nil => simp [chain]
  | cons p ps ih => rw [List.exists_mem_cons_iff, ← ih]; rfl

@[simp] theorem needs_choice : (choice ps).Needs A ↔ ∀ p ∈ ps, p.Needs A := by
  induction ps with
  | nil => simp [choice]
  | cons p ps ih => rw [List.forall_mem_cons, ← ih]; rfl

end Needs

theorem Needs.exists_mem {A : Char → Prop} (h : p.Needs A) (hcs : cs ∈ p.language) :
    ∃ c ∈ cs, A c := by
  induction p generalizing cs with
  | none => exact absurd hcs (Language.notMem_zero cs)
  | empty | star => exact h.elim
  | one accepts =>
    obtain ⟨c, hc, rfl⟩ := hcs
    exact ⟨c, .head _, h c hc⟩
  | seq p q ihp ihq =>
    obtain ⟨a, ha, b, hb, rfl⟩ := mem_language_seq.mp hcs
    rcases h with h | h
    · obtain ⟨c, hc, hA⟩ := ihp h ha
      exact ⟨c, List.mem_append_left b hc, hA⟩
    · obtain ⟨c, hc, hA⟩ := ihq h hb
      exact ⟨c, List.mem_append_right a hc, hA⟩
  | alt p q ihp ihq =>
    rcases mem_language_alt.mp hcs with hcs | hcs
    · exact ihp h.1 hcs
    · exact ihq h.2 hcs

end ViewBinding.Text.Pattern
