import Mathlib.Data.List.Nodup
import ViewBinding.Proofs.Files.Below

/-!
# Names in a tree of files

In a file system the entries of a directory have names of their own, each a single piece of a path
(`ViewBinding.Files.Entry.IsWellNamed`). Everything below an entry can then be listed by the chains
of names that lead to it (`ViewBinding.Files.Entry.descendants`): each of them is there once
(`ViewBinding.Files.Entry.nodup_descendants`), with what it leads to
(`ViewBinding.Files.Entry.mem_descendants_iff`).
-/

namespace ViewBinding.Files

instance (text : String) : Decidable (IsProperName text) :=
  decidable_of_iff
    ((text ≠ "" ∧ text ≠ "." ∧ text ≠ "..") ∧ '/' ∉ text.toList ∧ '\x00' ∉ text.toList)
    ⟨fun ⟨⟨hempty, hhere, hup⟩, hslash, hnull⟩ => ⟨⟨hempty, hhere, hup⟩, hslash, hnull⟩,
      fun h => ⟨⟨h.ne_empty, h.ne_here, h.ne_up⟩, h.slash, h.null⟩⟩

namespace Entry

/-- **The entries of every directory have proper names**, no two of them the same. -/
inductive IsWellNamed : Entry → Prop
  | file (name : String) (bytes : ByteArray) : IsWellNamed (.file name bytes)
  | link (name target : String) : IsWellNamed (.link name target)
  | directory (name : String) {entries : List Entry}
      (names : ∀ e ∈ entries, IsProperName e.name) (nodup : (entries.map Entry.name).Nodup)
      (below : ∀ e ∈ entries, IsWellNamed e) : IsWellNamed (.directory name entries)

mutual

/-- An entry and everything below it, with the names that lead there. -/
def descendants : Entry → List (List String × Entry)
  | .directory name entries => ([], .directory name entries) :: descendantsAmong entries
  | .file name bytes => [([], .file name bytes)]
  | .link name target => [([], .link name target)]

/-- Entries and everything below them, with the names that lead there. -/
def descendantsAmong : List Entry → List (List String × Entry)
  | [] => []
  | e :: es => (e.descendants.map fun x => (e.name :: x.1, x.2)) ++ descendantsAmong es

end

variable {e c : Entry} {entries : List Entry} {names : List String} {name : String}

theorem mem_descendantsAmong_iff :
    (names, c) ∈ descendantsAmong entries ↔
      ∃ e ∈ entries, ∃ rest, names = e.name :: rest ∧ (rest, c) ∈ e.descendants := by
  induction entries with
  | nil => simp [descendantsAmong]
  | cons e entries ih =>
    rw [descendantsAmong, List.mem_append, ih, List.exists_mem_cons_iff]
    refine or_congr_left ?_
    simp only [List.mem_map, Prod.exists, Prod.mk.injEq]
    constructor
    · rintro ⟨rest, c', hmem, rfl, rfl⟩
      exact ⟨rest, rfl, hmem⟩
    · rintro ⟨rest, rfl, hmem⟩
      exact ⟨rest, c, hmem, rfl, rfl⟩

theorem mem_descendants_directory_iff :
    (names, c) ∈ (directory name entries).descendants ↔
      (names = [] ∧ c = directory name entries) ∨ (names, c) ∈ descendantsAmong entries := by
  rw [descendants, List.mem_cons, Prod.mk.injEq]

/-- The entry of a name, where no other entry has it. -/
theorem child?_eq_some_iff (h : (entries.map Entry.name).Nodup) :
    (directory name entries).child? c.name = some c ↔ c ∈ entries := by
  rw [child?, Entry.entries]
  constructor
  · exact fun hfind => List.mem_of_find?_eq_some hfind
  · intro hc
    have hsome : (entries.find? fun e => e.name == c.name).isSome = true :=
      List.find?_isSome.mpr ⟨c, hc, beq_self_eq_true c.name⟩
    obtain ⟨c', hfind⟩ := Option.isSome_iff_exists.mp hsome
    have hname : c'.name = c.name := name_of_child? (e := directory name entries) hfind
    rw [hfind, List.inj_on_of_nodup_map h (List.mem_of_find?_eq_some hfind) hc hname]

theorem at?_cons_eq_some_iff (h : (entries.map Entry.name).Nodup) :
    (directory name entries).at? names = some c ↔
      (names = [] ∧ c = directory name entries) ∨
        ∃ e ∈ entries, ∃ rest, names = e.name :: rest ∧ e.at? rest = some c := by
  cases names with
  | nil =>
    rw [at?, Option.some_inj, eq_comm]
    simp
  | cons first rest =>
    rw [at?, Option.bind_eq_some_iff]
    simp only [reduceCtorEq, false_and, false_or, List.cons.injEq]
    constructor
    · rintro ⟨e, hchild, hat⟩
      have hname := name_of_child? hchild
      rw [← hname] at hchild
      exact ⟨e, (child?_eq_some_iff h).mp hchild, rest, ⟨hname.symm, rfl⟩, hat⟩
    · rintro ⟨e, he, _, ⟨rfl, rfl⟩, hat⟩
      exact ⟨e, (child?_eq_some_iff h).mpr he, hat⟩

/-- **What is listed below an entry is what its names lead to.** -/
theorem mem_descendants_iff (h : e.IsWellNamed) :
    (names, c) ∈ e.descendants ↔ e.at? names = some c := by
  induction h generalizing names with
  | file name bytes | link name target =>
    cases names with
    | nil => simp [descendants, at?, eq_comm]
    | cons first rest => simp [descendants, at?, child?, Entry.entries]
  | directory name hnames hnodup _ ih =>
    rw [mem_descendants_directory_iff, at?_cons_eq_some_iff hnodup, mem_descendantsAmong_iff]
    refine or_congr_right (exists_congr fun e => and_congr_right fun he => ?_)
    exact exists_congr fun rest => and_congr_right fun _ => ih e he

/-- The names that lead on from an entry are proper. -/
theorem isProperName_of_mem_descendants (h : e.IsWellNamed) (hmem : (names, c) ∈ e.descendants) :
    ∀ name ∈ names, IsProperName name := by
  induction h generalizing names with
  | file name bytes | link name target =>
    obtain ⟨rfl, -⟩ := Prod.mk.inj (List.mem_singleton.mp hmem)
    simp
  | directory name hnames hnodup _ ih =>
    rcases mem_descendants_directory_iff.mp hmem with ⟨rfl, -⟩ | hmem
    · simp
    · obtain ⟨e, he, rest, rfl, hrest⟩ := mem_descendantsAmong_iff.mp hmem
      exact List.forall_mem_cons.mpr ⟨hnames e he, ih e he hrest⟩

theorem nodup_descendantsAmong (hnodup : (entries.map Entry.name).Nodup)
    (h : ∀ e ∈ entries, (e.descendants.map Prod.fst).Nodup) :
    ((descendantsAmong entries).map Prod.fst).Nodup := by
  induction entries with
  | nil => exact List.nodup_nil
  | cons e entries ih =>
    obtain ⟨hfirst, hrest⟩ := List.forall_mem_cons.mp h
    obtain ⟨hnew, hnodup⟩ := List.nodup_cons.mp hnodup
    rw [descendantsAmong, List.map_append, List.map_map, List.nodup_append]
    refine ⟨?_, ih hnodup hrest, ?_⟩
    · rw [show Prod.fst ∘ (fun x : List String × Entry => (e.name :: x.1, x.2)) =
        List.cons e.name ∘ Prod.fst from rfl, ← List.map_map]
      exact hfirst.map (List.cons_injective)
    · rintro names hmem names' hmem' rfl
      obtain ⟨x, -, rfl⟩ := List.mem_map.mp hmem
      obtain ⟨⟨_, c⟩, hc, rfl⟩ := List.mem_map.mp hmem'
      obtain ⟨e', he', rest, heq, -⟩ := mem_descendantsAmong_iff.mp hc
      exact hnew (List.mem_map.mpr ⟨e', he', (List.cons.inj heq).1.symm⟩)

/-- **Everything below an entry is listed once.** -/
theorem nodup_descendants (h : e.IsWellNamed) : (e.descendants.map Prod.fst).Nodup := by
  induction h with
  | file | link => exact List.nodup_singleton _
  | directory name hnames hnodup _ ih =>
    rw [descendants, List.map_cons, List.nodup_cons]
    refine ⟨fun hmem => ?_, nodup_descendantsAmong hnodup ih⟩
    obtain ⟨⟨_, c⟩, hc, rfl⟩ := List.mem_map.mp hmem
    obtain ⟨e, -, rest, heq, -⟩ := mem_descendantsAmong_iff.mp hc
    cases heq

theorem IsWellNamed.of_mem (h : (Entry.directory name entries).IsWellNamed) (he : e ∈ entries) :
    e.IsWellNamed := by
  cases h with
  | directory own hnames hnodup hbelow => exact hbelow e he

theorem IsWellNamed.of_child? (h : e.IsWellNamed) (hchild : e.child? name = some c) :
    c.IsWellNamed := by
  cases e with
  | file | link => cases hchild
  | directory own entries => exact h.of_mem (List.mem_of_find?_eq_some hchild)

/-- What is below a well-named entry is well named. -/
theorem IsWellNamed.of_at? (h : e.IsWellNamed) (hat : e.at? names = some c) : c.IsWellNamed := by
  induction names generalizing e with
  | nil =>
    cases hat
    exact h
  | cons name names ih =>
    obtain ⟨e', hchild, hat⟩ := Option.bind_eq_some_iff.mp hat
    exact ih (h.of_child? hchild) hat

end Entry

end ViewBinding.Files
