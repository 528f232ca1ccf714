import Mathlib.Data.List.Basic
import ViewBinding.Files.Path

/-!
# Paths that stay inside

A path is `ViewBinding.Files.Path.IsInside` if all its components are names, so that from any
directory it leads to something below that directory, which is
`ViewBinding.Files.Path.IsBelow`. What a path is made of shows in two parts of its components: its
`ViewBinding.Files.Path.opening`, which is the root or a full stop at the start, and the rest of
them, `ViewBinding.Files.Path.inner`. Pushing a relative text leaves the opening alone and adds to
the rest (`ViewBinding.Files.Path.inner_push`); pushing an absolute one throws all away.
-/

namespace ViewBinding.Files

open Text

namespace Component

/-- The component is a name, and the name is not empty. -/
def IsNormal : Component → Prop
  | name text => text ≠ ""
  | _ => False

theorem isNormal_of_ofPiece? {piece : List Char} {c : Component} (h : ofPiece? piece = some c)
    (hup : c ≠ up) : c.IsNormal := by
  unfold ofPiece? at h
  split at h
  · cases h
  · cases h
  · cases h
    exact absurd rfl hup
  · rename_i hne _ _
    cases h
    exact fun hempty => hne (String.ofList_eq_empty_iff.mp hempty)

end Component

namespace Path

variable {p q : Path} {next : String}

/-- The components before the first name or step up: the root, a full stop, or none. -/
def opening (p : Path) : List Component :=
  if p.isAbsolute then [.root] else if p.body.head? = some ['.'] then [.here] else []

/-- The components from the first name or step up on. -/
def inner (p : Path) : List Component :=
  p.body.filterMap Component.ofPiece?

theorem components_eq (p : Path) : p.components = p.opening ++ p.inner := by
  unfold components opening inner
  split
  · rfl
  · split
    · rename_i rest h
      simp [h, Component.ofPiece?]
    · rename_i h
      cases hb : p.body with
      | nil => rfl
      | cons piece rest =>
        have hne : piece ≠ ['.'] := fun hp => h rest (hp ▸ hb)
        simp [hne]

theorem isNormal_of_mem_inner {c : Component} (h : c ∈ p.inner) (hup : c ≠ .up) :
    c.IsNormal := by
  obtain ⟨piece, -, hpiece⟩ := List.mem_filterMap.mp h
  exact Component.isNormal_of_ofPiece? hpiece hup

theorem eq_of_mem_opening {c : Component} (h : c ∈ p.opening) : c = .root ∨ c = .here := by
  unfold opening at h
  split at h
  · exact .inl (List.mem_singleton.mp h)
  · split at h
    · exact .inr (List.mem_singleton.mp h)
    · cases h

theorem here_not_mem_inner (p : Path) : .here ∉ p.inner :=
  fun h => isNormal_of_mem_inner h (by decide)

theorem up_mem_components_iff : .up ∈ p.components ↔ .up ∈ p.inner := by
  rw [components_eq, List.mem_append, or_iff_right]
  intro h
  rcases eq_of_mem_opening h with h | h <;> cases h

theorem here_mem_components_iff (h : p.isAbsolute = false) :
    .here ∈ p.components ↔ p.opening ≠ [] := by
  rw [components_eq, List.mem_append, or_iff_left p.here_not_mem_inner, opening,
    if_neg (by simp [h])]
  split <;> simp

/-- **The path stays inside**: it leads through names only, and through at least one. -/
def IsInside (p : Path) : Prop :=
  p.components ≠ [] ∧ ∀ c ∈ p.components, c.IsNormal

/-- The path leads on from `base` through names only, and through at least one. -/
def IsBelow (base p : Path) : Prop :=
  ∃ names, names ≠ [] ∧ (∀ c ∈ names, c.IsNormal) ∧ p.components = base.components ++ names

theorem isInside_iff : p.IsInside ↔ p.opening = [] ∧ .up ∉ p.inner ∧ p.inner ≠ [] := by
  rw [IsInside, components_eq]
  constructor
  · rintro ⟨hne, hnormal⟩
    have hopening : p.opening = [] := by
      refine List.eq_nil_iff_forall_not_mem.mpr fun c hc => ?_
      have hc' := hnormal c (List.mem_append_left _ hc)
      rcases eq_of_mem_opening hc with rfl | rfl <;> exact hc'
    rw [hopening, List.nil_append] at hne hnormal
    exact ⟨hopening, fun hup => hnormal _ hup, hne⟩
  · rintro ⟨hopening, hup, hne⟩
    rw [hopening, List.nil_append]
    exact ⟨hne, fun c hc => isNormal_of_mem_inner hc fun heq => hup (heq ▸ hc)⟩

/-! ### Pushing -/

/-- What the pieces of a text stand for. -/
def named (cs : List Char) : List Component :=
  (pieces '/' cs).filterMap Component.ofPiece?

@[simp] theorem named_nil : named [] = [] := rfl

theorem named_append (cs ds : List Char) : named (cs ++ '/' :: ds) = named cs ++ named ds := by
  rw [named, pieces_append, List.filterMap_append]
  rfl

/-- A leading slash starts an empty piece, which stands for nothing. -/
theorem inner_eq (p : Path) : p.inner = named p.text.toList := by
  unfold inner body isAbsolute
  split
  · rename_i h
    obtain ⟨t, ht⟩ : ∃ t, p.text.toList = '/' :: t := by
      rw [← List.head?_eq_some_iff]
      simpa using h
    rw [ht]
    exact (named_append [] t).symm
  · rfl

@[simp] theorem push_empty (next : String) : (Path.mk "").push next = ⟨next⟩ := by
  unfold push
  split <;> simp

/-- Pushing a relative text puts one slash in between. -/
theorem text_push (hp : p.text ≠ "") (h : (Path.mk next).isAbsolute = false) :
    ∃ front, (p.text.toList = front ∨ p.text.toList = front ++ ['/']) ∧
      (p.push next).text.toList = front ++ '/' :: next.toList := by
  unfold push
  rw [if_neg (by simp [h])]
  split
  · -- the path ends in a slash, so none is put in between
    rename_i hslash
    have hne : p.text.toList ≠ [] := fun hnil => hp (String.toList_eq_nil_iff.mp hnil)
    rw [List.getLast?_eq_some_getLast hne] at hslash
    have hlast : p.text.toList.getLast hne = '/' := by simpa using hslash
    refine ⟨p.text.toList.dropLast, .inr ?_, ?_⟩
    · rw [← hlast, List.dropLast_append_getLast]
    · rw [String.toList_append, ← List.singleton_append, ← List.append_assoc, ← hlast,
        List.dropLast_append_getLast]
  · exact ⟨p.text.toList, .inl rfl, by simp⟩

theorem isAbsolute_push (p : Path) (next : String) :
    (p.push next).isAbsolute = (p.isAbsolute || (Path.mk next).isAbsolute) := by
  by_cases h : (Path.mk next).isAbsolute
  · rw [push, if_pos h, h, Bool.or_true]
  · have h : (Path.mk next).isAbsolute = false := by simpa using h
    rw [h, Bool.or_false]
    by_cases hp : p.text = ""
    · obtain ⟨text⟩ := p
      obtain rfl : text = "" := hp
      rw [push_empty, h]
      rfl
    · obtain ⟨front, hfront, hpush⟩ := text_push hp h
      have hne : p.text.toList ≠ [] := fun hnil => hp (String.toList_eq_nil_iff.mp hnil)
      rw [isAbsolute, isAbsolute, hpush]
      cases front with
      | nil =>
        -- the path is the root alone
        rcases hfront with hfront | hfront
        · exact absurd hfront hne
        · rw [hfront]
          rfl
      | cons c front => rcases hfront with hfront | hfront <;> rw [hfront] <;> rfl

theorem inner_push (p : Path) (h : (Path.mk next).isAbsolute = false) :
    (p.push next).inner = p.inner ++ (Path.mk next).inner := by
  by_cases hp : p.text = ""
  · obtain ⟨text⟩ := p
    obtain rfl : text = "" := hp
    rw [push_empty]
    rfl
  · obtain ⟨front, hfront, hpush⟩ := text_push hp h
    rw [inner_eq, inner_eq, inner_eq, hpush, named_append]
    rcases hfront with hfront | hfront <;> simp [hfront, named_append]

theorem body_of_relative (h : p.isAbsolute = false) : p.body = pieces '/' p.text.toList := by
  rw [body, if_neg (by simp [h])]

/-- The opening of a path that has begun does not change. -/
theorem opening_push (hp : p.text ≠ "") (h : (Path.mk next).isAbsolute = false) :
    (p.push next).opening = p.opening := by
  have hpushed : (p.push next).isAbsolute = p.isAbsolute := by
    rw [isAbsolute_push, h, Bool.or_false]
  rw [opening, opening, hpushed]
  cases hroot : p.isAbsolute with
  | true => rfl
  | false =>
    obtain ⟨front, hfront, hpush⟩ := text_push hp h
    have hhead (ds : List Char) :
        (pieces '/' (front ++ '/' :: ds)).head? = (pieces '/' front).head? := by
      rw [pieces_append, List.head?_append_of_ne_nil _ (pieces_ne_nil front)]
    rw [body_of_relative (hpushed.trans hroot), body_of_relative hroot, hpush, hhead]
    rcases hfront with hfront | hfront <;> rw [hfront]
    rw [hhead]

theorem text_push_ne_empty (hp : p.text ≠ "") (h : (Path.mk next).isAbsolute = false) :
    (p.push next).text ≠ "" := by
  obtain ⟨front, -, hpush⟩ := text_push hp h
  intro hempty
  rw [hempty] at hpush
  cases front <;> cases hpush

/-! ### Pushing one text after the other -/

section Chain

variable {texts : List String}

theorem isAbsolute_foldl_push (p : Path) (texts : List String) :
    (texts.foldl push p).isAbsolute =
      (p.isAbsolute || texts.any fun text => (Path.mk text).isAbsolute) := by
  induction texts generalizing p with
  | nil => simp
  | cons text texts ih => rw [List.foldl_cons, ih, isAbsolute_push, List.any_cons, Bool.or_assoc]

theorem inner_foldl_push (p : Path) (h : ∀ text ∈ texts, (Path.mk text).isAbsolute = false) :
    (texts.foldl push p).inner = p.inner ++ texts.flatMap fun text => (Path.mk text).inner := by
  induction texts generalizing p with
  | nil => simp
  | cons text texts ih =>
    obtain ⟨htext, htexts⟩ := List.forall_mem_cons.mp h
    rw [List.foldl_cons, ih _ htexts, inner_push _ htext, List.flatMap_cons, List.append_assoc]

theorem text_foldl_push_ne_empty (hp : p.text ≠ "")
    (h : ∀ text ∈ texts, (Path.mk text).isAbsolute = false) :
    (texts.foldl push p).text ≠ "" := by
  induction texts generalizing p with
  | nil => exact hp
  | cons text texts ih =>
    obtain ⟨htext, htexts⟩ := List.forall_mem_cons.mp h
    exact ih (text_push_ne_empty hp htext) htexts

theorem opening_foldl_push (hp : p.text ≠ "")
    (h : ∀ text ∈ texts, (Path.mk text).isAbsolute = false) :
    (texts.foldl push p).opening = p.opening := by
  induction texts generalizing p with
  | nil => rfl
  | cons text texts ih =>
    obtain ⟨htext, htexts⟩ := List.forall_mem_cons.mp h
    rw [List.foldl_cons, ih (text_push_ne_empty hp htext) htexts, opening_push hp htext]

end Chain

/-! ### What stays inside -/

theorem isAbsolute_of_opening (h : p.opening = []) : p.isAbsolute = false := by
  unfold opening at h
  split at h
  · cases h
  · rename_i hroot
    simpa using hroot

/-- **From any directory, a path that stays inside leads to below that directory.** -/
theorem IsInside.isBelow_push (h : p.IsInside) (base : Path) :
    base.IsBelow (base.push p.text) := by
  obtain ⟨hopening, -, -⟩ := isInside_iff.mp h
  have hroot := isAbsolute_of_opening hopening
  refine ⟨p.components, h.1, h.2, ?_⟩
  by_cases hbase : base.text = ""
  · obtain ⟨text⟩ := base
    obtain rfl : text = "" := hbase
    rw [push_empty]
    rfl
  · rw [components_eq, components_eq base, components_eq p, opening_push hbase hroot,
      inner_push base hroot, hopening, List.nil_append, List.append_assoc]

/-- A text without full stops leads through names only. -/
theorem up_not_mem_inner (h : '.' ∉ p.text.toList) : .up ∉ p.inner := by
  intro hup
  rw [inner_eq] at hup
  obtain ⟨piece, hmem, hpiece⟩ := List.mem_filterMap.mp hup
  unfold Component.ofPiece? at hpiece
  split at hpiece
  · cases hpiece
  · cases hpiece
  · exact h (exists_mem_pieces_iff.mp ⟨_, hmem, List.mem_cons_self⟩).1
  · cases hpiece

theorem opening_eq_nil (h : '.' ∉ p.text.toList) (hroot : p.isAbsolute = false) :
    p.opening = [] := by
  rw [opening, if_neg (by simp [hroot]), if_neg]
  intro hhead
  rw [body_of_relative hroot] at hhead
  exact h (exists_mem_pieces_iff.mp ⟨_, List.mem_of_mem_head? hhead, List.mem_cons_self⟩).1

/-- A text leads somewhere if it has any other characters than slashes and full stops. -/
theorem inner_ne_nil {c : Char} (h : c ∈ p.text.toList) (hslash : c ≠ '/') (hdot : c ≠ '.') :
    p.inner ≠ [] := by
  obtain ⟨piece, hmem, hc⟩ := exists_mem_pieces_iff.mpr ⟨h, hslash⟩
  intro hnil
  rw [inner_eq] at hnil
  have hpiece := List.filterMap_eq_nil_iff.mp hnil piece hmem
  unfold Component.ofPiece? at hpiece
  split at hpiece
  · cases hc
  · exact hdot (List.mem_singleton.mp hc)
  · cases hpiece
  · cases hpiece

theorem isAbsolute_of_not_mem (h : '/' ∉ p.text.toList) : p.isAbsolute = false := by
  rw [isAbsolute, beq_eq_false_iff_ne]
  exact fun hhead => h (List.mem_of_mem_head? hhead)

/-- A text without slashes is a name if it has any other characters than full stops. -/
theorem components_of_not_mem {c : Char} (h : '/' ∉ p.text.toList) (hc : c ∈ p.text.toList)
    (hdot : c ≠ '.') : p.components = [.name p.text] := by
  have hroot := isAbsolute_of_not_mem h
  have hbody : p.body = [p.text.toList] := by rw [body_of_relative hroot, pieces_of_not_mem h]
  have hopening : p.opening = [] := by
    rw [opening, if_neg (by simp [hroot]), if_neg]
    intro hhead
    rw [hbody, List.head?_cons, Option.some.injEq] at hhead
    rw [hhead] at hc
    exact hdot (List.mem_singleton.mp hc)
  have hpiece : Component.ofPiece? p.text.toList = some (.name p.text) := by
    unfold Component.ofPiece?
    split <;> simp_all
  rw [components_eq, hopening, inner, hbody, List.filterMap_cons_some hpiece]
  rfl

end Path

end ViewBinding.Files
