import Mathlib.Data.List.Find
import ViewBinding.Java.Lexeme
import ViewBinding.Proofs.Text.Matching

/-!
# The longest number

What a text starts with is read as the longest number, and as one of the first kind if several are
as long (`ViewBinding.Java.Lexeme.isChoice_number?`). So what is one number is of the kind of the
first pattern that matches it (`ViewBinding.Java.Lexeme.number?_eq_length_iff`), whatever stands
behind it (`ViewBinding.Java.Lexeme.number?_of_append`).
-/

namespace ViewBinding.Java.Lexeme

open Text

open Text.Pattern hiding none empty

variable {kind : Literal} {cs rest : List Char}

/-- The choice between the best number so far and the next one. -/
def longer (cs : List Char) (best : Option (Literal × Nat)) (entry : Literal × Pattern) :
    Option (Literal × Nat) :=
  match entry.2.longest? cs with
  | none => best
  | some length =>
    match best with
    | none => some (entry.1, length)
    | some (_, known) => if known < length then some (entry.1, length) else best

theorem number?_eq (cs : List Char) : number? cs = numbers.foldl (longer cs) none := rfl

/-- **The first of the longest numbers** among those given. -/
def IsChoice (cs : List Char) (entries : List (Literal × Pattern)) :
    Option (Literal × Nat) → Prop
  | none => ∀ e ∈ entries, e.2.longest? cs = none
  | some (kind, n) =>
    (∀ e ∈ entries, ∀ m, e.2.longest? cs = some m → m ≤ n) ∧
      ∃ p, entries.find? (fun e => e.2.longest? cs == some n) = some (kind, p)

theorem IsChoice.longer {entries : List (Literal × Pattern)} {best : Option (Literal × Nat)}
    (h : IsChoice cs entries best) (e : Literal × Pattern) :
    IsChoice cs (entries ++ [e]) (longer cs best e) := by
  have hall {Q : Literal × Pattern → Prop} (hentries : ∀ d ∈ entries, Q d) (he : Q e) :
      ∀ d ∈ entries ++ [e], Q d :=
    List.forall_mem_append.mpr ⟨hentries, List.forall_mem_singleton.mpr he⟩
  unfold Lexeme.longer
  cases hlength : e.2.longest? cs with
  | none =>
    match best, h with
    | none, hnone => exact hall hnone hlength
    | some (kind, n), ⟨hbound, p, hp⟩ =>
      refine ⟨hall hbound fun m hm => ?_, p, by rw [List.find?_append, hp]; rfl⟩
      rw [hlength] at hm
      cases hm
  | some length =>
    -- the next number is taken if none of those before it is as long
    have htaken (hnone : ∀ d ∈ entries, ∀ m, d.2.longest? cs = some m → m < length) :
        IsChoice cs (entries ++ [e]) (some (e.1, length)) := by
      have hfind : entries.find? (fun d => d.2.longest? cs == some length) = none := by
        refine List.find?_eq_none.mpr fun d hd heq => ?_
        exact Nat.lt_irrefl _ (hnone d hd length (beq_iff_eq.mp heq))
      refine ⟨hall (fun d hd m hm => Nat.le_of_lt (hnone d hd m hm)) fun m hm => ?_, e.2, ?_⟩
      · rw [hlength] at hm
        exact Nat.le_of_eq (Option.some.inj hm).symm
      · rw [List.find?_append, hfind]
        simp [hlength]
    match best, h with
    | none, hnone =>
      refine htaken fun d hd m hm => ?_
      rw [hnone d hd] at hm
      cases hm
    | some (kind, n), ⟨hbound, p, hp⟩ =>
      by_cases hlt : n < length
      · simp only [if_pos hlt]
        exact htaken fun d hd m hm => Nat.lt_of_le_of_lt (hbound d hd m hm) hlt
      · simp only [if_neg hlt]
        refine ⟨hall hbound fun m hm => ?_, p, by rw [List.find?_append, hp]; rfl⟩
        rw [hlength] at hm
        rw [← Option.some.inj hm]
        exact Nat.le_of_not_lt hlt

theorem isChoice_number? (cs : List Char) : IsChoice cs numbers (number? cs) := by
  rw [number?_eq]
  generalize numbers = entries
  induction entries using List.reverseRecOn with
  | nil => exact fun _ h => (List.not_mem_nil h).elim
  | append_singleton entries e ih =>
    rw [List.foldl_append]
    exact ih.longer e

theorem length_le_of_number? {length : Nat} (h : number? cs = some (kind, length)) :
    length ≤ cs.length := by
  have hchoice := isChoice_number? cs
  rw [h] at hchoice
  obtain ⟨-, p, hp⟩ := hchoice
  have hlongest : p.longest? cs = some length := by simpa using List.find?_some hp
  exact (longest?_eq_some_iff.mp hlongest).le

/-- What is read as one number is of the kind of the first pattern that matches it. -/
theorem number?_eq_length_iff :
    number? cs = some (kind, cs.length) ↔
      (numbers.find? fun e => e.2.longest? cs == some cs.length).map Prod.fst = some kind := by
  have hchoice := isChoice_number? cs
  constructor
  · intro h
    rw [h] at hchoice
    obtain ⟨-, p, hp⟩ := hchoice
    rw [hp, Option.map_some]
  · intro h
    obtain ⟨⟨_, p⟩, hp, rfl⟩ := Option.map_eq_some_iff.mp h
    have hlongest : p.longest? cs = some cs.length := by simpa using List.find?_some hp
    have hmem := List.mem_of_find?_eq_some hp
    cases hnumber : number? cs with
    | none =>
      rw [hnumber] at hchoice
      rw [hchoice _ hmem] at hlongest
      cases hlongest
    | some best =>
      obtain ⟨kind', n⟩ := best
      rw [hnumber] at hchoice
      obtain ⟨hbound, q, hq⟩ := hchoice
      have hle : n ≤ cs.length := by
        refine (longest?_eq_some_iff (p := q)).mp ?_ |>.le
        simpa using List.find?_some hq
      obtain rfl := Nat.le_antisymm hle (hbound _ hmem _ hlongest)
      rw [hp] at hq
      cases hq
      rfl

/-- **What is read as one number in front of other text** is read as one by itself. -/
theorem number?_of_append (h : number? (cs ++ rest) = some (kind, cs.length)) :
    number? cs = some (kind, cs.length) := by
  have hchoice := isChoice_number? (cs ++ rest)
  rw [h] at hchoice
  obtain ⟨hbound, p, hp⟩ := hchoice
  have hsame : ∀ e ∈ numbers, (e.2.longest? cs == some cs.length) =
      (e.2.longest? (cs ++ rest) == some cs.length) := by
    intro e he
    rw [Bool.eq_iff_iff, beq_iff_eq, beq_iff_eq, longest?_eq_length_iff]
    constructor
    · intro hmem
      obtain ⟨n, hn, hle⟩ := exists_longest?_of_mem hmem rest
      rw [hn, Nat.le_antisymm (hbound e he n hn) hle]
    · intro hlongest
      have hmem := (longest?_eq_some_iff.mp hlongest).mem
      rwa [List.take_left] at hmem
  rw [number?_eq_length_iff, List.find?_congr hsame, hp, Option.map_some]

end ViewBinding.Java.Lexeme
