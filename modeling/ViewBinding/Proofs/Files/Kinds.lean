import Mathlib.Data.List.Basic
import ViewBinding.Files.Tree

/-!
# What is where in a tree of files

A tree of files can be read as a function from chains of names to what they lead to: a directory, a
file with its bytes, a link with its target, or nothing. This is `ViewBinding.Files.Entry.kindAt`.
Putting an entry that has nothing below it into a directory changes this function at one chain only
(`ViewBinding.Files.Entry.kindAt_putAt`), so a writer of files can be followed by what its steps do
to it.

A tree `ViewBinding.Files.Tree.Extends` another one if it has everything that the other has. It
`ViewBinding.Files.Tree.KeepsShape` if it has that but for the contents of files.
-/

namespace ViewBinding.Files

/-- What an entry is, without what is below it. -/
inductive Kind
  | file (bytes : ByteArray)
  | directory
  | link (target : String)

/-- The kind without the content of a file. -/
def Kind.shape : Kind → Kind
  | file _ => file ByteArray.empty
  | k => k

theorem Kind.ne_link_of_shape {k k' : Kind} (h : k'.shape = k.shape)
    (hlink : ∀ target, k ≠ .link target) (target : String) : k' ≠ .link target := by
  rintro rfl
  cases k with
  | file bytes => cases h
  | directory => cases h
  | link target' => exact hlink target' rfl

namespace Entry

/-- The kind of an entry. -/
def kind : Entry → Kind
  | file _ bytes => .file bytes
  | directory _ _ => .directory
  | link _ target => .link target

/-- The kind of the entry that a chain of names leads to. -/
def kindAt (e : Entry) (names : List String) : Option Kind :=
  (e.at? names).map kind

variable {e new : Entry} {names chain : List String} {name : String} {k : Kind}

theorem kind_eq_directory_iff : e.kind = .directory ↔ e.isDirectory = true := by
  cases e <;> simp [kind, isDirectory]

theorem kind_eq_file_iff {bytes : ByteArray} :
    e.kind = .file bytes ↔ ∃ name, e = .file name bytes := by
  cases e <;> simp [kind]

theorem entries_eq_nil_of_kind (h : e.kind ≠ .directory) : e.entries = [] := by
  cases e with
  | directory name entries => exact absurd rfl h
  | file name bytes => rfl
  | link name target => rfl

theorem child?_eq_none_of_entries (h : e.entries = []) (name : String) : e.child? name = none := by
  rw [child?, h, List.find?_nil]

theorem name_of_child? {c : Entry} (h : e.child? name = some c) : c.name = name := by
  have hname := List.find?_some h
  exact eq_of_beq hname

theorem at?_append (e : Entry) (names more : List String) :
    e.at? (names ++ more) = (e.at? names).bind fun c => c.at? more := by
  induction names generalizing e with
  | nil => rfl
  | cons name names ih =>
    rw [List.cons_append, at?, at?, Option.bind_assoc]
    exact congrArg _ (funext ih)

@[simp] theorem kindAt_nil (e : Entry) : e.kindAt [] = some e.kind := rfl

theorem kindAt_cons (e : Entry) (name : String) (names : List String) :
    e.kindAt (name :: names) = (e.child? name).bind fun c => c.kindAt names := by
  rw [kindAt, at?, Option.map_bind]
  rfl

theorem kindAt_append (e : Entry) (names more : List String) :
    e.kindAt (names ++ more) = (e.at? names).bind fun c => c.kindAt more := by
  rw [kindAt, at?_append, Option.map_bind]
  rfl

theorem kindAt_eq_some_iff : e.kindAt names = some k ↔ ∃ c, e.at? names = some c ∧ c.kind = k :=
  Option.map_eq_some_iff

theorem kindAt_eq_none_iff : e.kindAt names = none ↔ e.at? names = none :=
  Option.map_eq_none_iff

/-- There is nothing below what is not a directory. -/
theorem kindAt_append_of_ne (h : e.kindAt names ≠ some .directory) {more : List String}
    (hmore : more ≠ []) : e.kindAt (names ++ more) = none := by
  rw [kindAt_append]
  cases hat : e.at? names with
  | none => rfl
  | some c =>
    have hkind : c.kind ≠ .directory := fun hdir => h (kindAt_eq_some_iff.mpr ⟨c, hat, hdir⟩)
    obtain ⟨first, rest, rfl⟩ := List.exists_cons_of_ne_nil hmore
    rw [Option.bind_some, kindAt_cons, child?_eq_none_of_entries (entries_eq_nil_of_kind hkind)]
    rfl

theorem kindAt_append_of_none (h : e.kindAt names = none) (more : List String) :
    e.kindAt (names ++ more) = none := by
  rw [kindAt_append, kindAt_eq_none_iff.mp h]
  rfl

/-! ### Putting an entry somewhere -/

theorem find?_putAmong (new : Entry) (entries : List Entry) (name : String) :
    (putAmong new entries).find? (fun c => c.name == name) =
      if name = new.name then some new else entries.find? fun c => c.name == name := by
  induction entries with
  | nil =>
    rw [putAmong, List.find?_cons]
    by_cases h : name = new.name
    · simp [h]
    · simp [h, beq_eq_false_iff_ne.mpr (Ne.symm h)]
  | cons c entries ih =>
    rw [putAmong]
    split
    · rename_i hc
      by_cases h : name = new.name
      · simp [h]
      · have hne : c.name ≠ name := fun heq => h (heq.symm.trans hc)
        simp [h, hne, Ne.symm h]
    · rename_i hc
      rw [List.find?_cons, List.find?_cons, ih]
      by_cases h : c.name = name
      · have hne : name ≠ new.name := fun heq => hc (h.trans heq)
        simp [h, hne]
      · rw [beq_eq_false_iff_ne.mpr h]

theorem child?_putAt_nil (h : e.isDirectory = true) (new : Entry) (name : String) :
    (putAt new [] e).child? name = if name = new.name then some new else e.child? name := by
  cases e with
  | directory own entries => exact find?_putAmong new entries name
  | file own bytes => cases h
  | link own target => cases h

theorem name_putAt (new : Entry) (chain : List String) (e : Entry) :
    (putAt new chain e).name = e.name := by
  cases chain <;> cases e <;> rfl

theorem kind_putAt (new : Entry) (chain : List String) (e : Entry) :
    (putAt new chain e).kind = e.kind := by
  cases chain <;> cases e <;> rfl

theorem child?_putAt_cons (new : Entry) (next : String) (chain : List String) (e : Entry)
    (name : String) :
    (putAt new (next :: chain) e).child? name =
      if name = next then (e.child? name).map (putAt new chain) else e.child? name := by
  cases e with
  | file own bytes => simp [putAt, child?, entries]
  | link own target => simp [putAt, child?, entries]
  | directory own all =>
    -- only the entries called `next` change, and none of them changes its name
    have hsame : ((fun c : Entry => c.name == name) ∘
        fun c => if c.name = next then putAt new chain c else c) = fun c => c.name == name := by
      funext c
      rw [Function.comp_apply]
      split
      · rw [name_putAt]
      · rfl
    rw [putAt, child?, entries, List.find?_map, hsame]
    change Option.map _ (child? (.directory own all) name) = _
    cases hc : child? (.directory own all) name with
    | none => simp
    | some c =>
      have hname := name_of_child? hc
      by_cases h : name = next
      · simp [h, hname]
      · simp [h, hname]

/-- **Putting an entry with nothing below it changes what is at one chain**, if nothing is lost. -/
theorem kindAt_putAt (hchain : e.kindAt chain = some .directory) (hnew : new.entries = [])
    (hold : e.kindAt (chain ++ [new.name]) ≠ some .directory) (names : List String) :
    (putAt new chain e).kindAt names =
      if names = chain ++ [new.name] then some new.kind else e.kindAt names := by
  induction chain generalizing e names with
  | nil =>
    have hdir : e.isDirectory = true := by
      rw [kindAt_nil, Option.some_inj] at hchain
      exact kind_eq_directory_iff.mp hchain
    cases names with
    | nil => simp [kind_putAt]
    | cons name rest =>
      rw [kindAt_cons, child?_putAt_nil hdir]
      by_cases hname : name = new.name
      · subst hname
        rw [if_pos rfl, Option.bind_some]
        cases rest with
        | nil => simp
        | cons next rest =>
          -- neither the new entry nor the old one has anything below it
          have hbelow := kindAt_append_of_ne hold (List.cons_ne_nil next rest)
          rw [kindAt_cons, child?_eq_none_of_entries hnew, if_neg (by simp)]
          exact hbelow.symm
      · rw [if_neg hname, if_neg (by simp [hname]), kindAt_cons]
  | cons next chain ih =>
    cases names with
    | nil => simp [kind_putAt]
    | cons name rest =>
      rw [kindAt_cons, child?_putAt_cons]
      by_cases hname : name = next
      · subst hname
        rw [kindAt_cons] at hchain
        rw [List.cons_append, kindAt_cons] at hold
        obtain ⟨c, hc, hchain⟩ := Option.bind_eq_some_iff.mp hchain
        rw [hc, Option.bind_some] at hold
        rw [if_pos rfl, hc, Option.map_some, Option.bind_some, ih hchain hold, kindAt_cons, hc]
        simp
      · rw [if_neg hname, if_neg (by simp [hname]), kindAt_cons]

end Entry

namespace Tree

variable {t t' t'' : Tree} {chain names : List String} {name : String}

/-- The kind of what a chain of names from the root leads to. -/
def kindAt (t : Tree) (chain : List String) : Option Kind :=
  t.root.kindAt chain

/-- Everything that `t` has is in `t'` as well. -/
structure Extends (t t' : Tree) : Prop where
  current : t'.current = t.current
  kindAt : ∀ {chain k}, t.kindAt chain = some k → t'.kindAt chain = some k

theorem Extends.refl (t : Tree) : t.Extends t :=
  ⟨rfl, id⟩

theorem Extends.trans (h : t.Extends t') (h' : t'.Extends t'') : t.Extends t'' :=
  ⟨h'.current.trans h.current, fun hk => h'.kindAt (h.kindAt hk)⟩

/-- Everything that `t` has is in `t'` as well, but a file may have another content there. -/
structure KeepsShape (t t' : Tree) : Prop where
  current : t'.current = t.current
  kindAt : ∀ {chain k}, t.kindAt chain = some k →
    ∃ k', t'.kindAt chain = some k' ∧ k'.shape = k.shape

theorem Extends.keepsShape (h : t.Extends t') : t.KeepsShape t' :=
  ⟨h.current, fun hk => ⟨_, h.kindAt hk, rfl⟩⟩

namespace KeepsShape

theorem refl (t : Tree) : t.KeepsShape t :=
  (Extends.refl t).keepsShape

theorem trans (h : t.KeepsShape t') (h' : t'.KeepsShape t'') : t.KeepsShape t'' := by
  refine ⟨h'.current.trans h.current, fun hk => ?_⟩
  obtain ⟨k', hk', hshape⟩ := h.kindAt hk
  obtain ⟨k'', hk'', hshape'⟩ := h'.kindAt hk'
  exact ⟨k'', hk'', hshape'.trans hshape⟩

theorem directory (h : t.KeepsShape t') (hdir : t.kindAt chain = some .directory) :
    t'.kindAt chain = some .directory := by
  obtain ⟨k', hk', hshape⟩ := h.kindAt hdir
  cases k' with
  | directory => exact hk'
  | file bytes => cases hshape
  | link target => cases hshape

theorem link {target : String} (h : t.KeepsShape t')
    (hlink : t.kindAt chain = some (.link target)) : t'.kindAt chain = some (.link target) := by
  obtain ⟨k', hk', hshape⟩ := h.kindAt hlink
  cases k' with
  | directory => cases hshape
  | file bytes => cases hshape
  | link target' =>
    cases hshape
    exact hk'

theorem file {bytes : ByteArray} (h : t.KeepsShape t')
    (hfile : t.kindAt chain = some (.file bytes)) :
    ∃ bytes', t'.kindAt chain = some (.file bytes') := by
  obtain ⟨k', hk', hshape⟩ := h.kindAt hfile
  cases k' with
  | directory => cases hshape
  | file bytes' => exact ⟨bytes', hk'⟩
  | link target => cases hshape

end KeepsShape

/-- The tree with an entry put into the directory at `chain`. -/
def putAt (t : Tree) (new : Entry) (chain : List String) : Tree :=
  { t with root := Entry.putAt new chain t.root }

/-- A new directory is the only thing that is new. -/
theorem kindAt_putAt_directory (hchain : t.kindAt chain = some .directory)
    (hfree : t.kindAt (chain ++ [name]) = none) (names : List String) :
    (t.putAt (.directory name []) chain).kindAt names =
      if names = chain ++ [name] then some .directory else t.kindAt names :=
  Entry.kindAt_putAt hchain rfl (fun hdir => by cases hfree.symm.trans hdir) names

/-- A new file is the only thing that is new. -/
theorem kindAt_putAt_file (bytes : ByteArray) (hchain : t.kindAt chain = some .directory)
    (hfree : t.kindAt (chain ++ [name]) = none) (names : List String) :
    (t.putAt (.file name bytes) chain).kindAt names =
      if names = chain ++ [name] then some (.file bytes) else t.kindAt names :=
  Entry.kindAt_putAt hchain rfl (fun hdir => by cases hfree.symm.trans hdir) names

theorem extends_putAt_file (bytes : ByteArray) (hchain : t.kindAt chain = some .directory)
    (hfree : t.kindAt (chain ++ [name]) = none) : t.Extends (t.putAt (.file name bytes) chain) where
  current := rfl
  kindAt {names k} hk := by
    rw [kindAt_putAt_file bytes hchain hfree, if_neg, hk]
    rintro rfl
    cases hfree.symm.trans hk

end Tree

end ViewBinding.Files
