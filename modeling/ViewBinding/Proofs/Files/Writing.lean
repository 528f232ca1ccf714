import ViewBinding.Proofs.Emission.InTurn
import ViewBinding.Proofs.Files.Below

/-!
# Writing below a directory

What becomes of a tree of files when directories are made and files are written in it, on a disk
without limits (`ViewBinding.Files.Tree.idealDisk`). The path of a directory is reached from one
that is there (`ViewBinding.Files.Tree.Reaches`); it may be missing itself. From there directories
are made one below the other (`ViewBinding.Files.Tree.Makes`), as long as none of their names is
that of a file, and a file is put into the last of them
(`ViewBinding.Files.Tree.Reaches.writeFile`).
-/

namespace ViewBinding.Files

open Text

namespace Tree

variable {t t' t'' : Tree} {root p above : Path} {base pre names chain front : List String}
  {name text : String} {fuel links : Nat} {fault : Fault} {e : Entry}

/-- The disk whose state is a tree, where names and paths may be of any length. -/
def idealDisk : Disk (StateM Tree) :=
  diskWithin .unbounded

/-! ### Single operations -/

theorem attempt_ok {change : Tree → Except Fault Tree} (h : change t = .ok t') :
    attempt change t = (.ok (), t') := by
  have hget : (get : StateM Tree Tree) t = (t, t) := rfl
  rw [attempt, bind_apply hget, h]
  rfl

theorem attempt_error {change : Tree → Except Fault Tree} (h : change t = .error fault) :
    attempt change t = (.error fault, t) := by
  have hget : (get : StateM Tree Tree) t = (t, t) := rfl
  rw [attempt, bind_apply hget, h]
  rfl

theorem makeDirectory_of_free (h : t.find false p .unbounded = .ok (.free chain name false)) :
    idealDisk.makeDirectory p t = (.ok (), t.putAt (.directory name []) chain) :=
  attempt_ok (by rw [makeDirectory, h]; rfl)

theorem makeDirectory_of_entry (h : t.find false p .unbounded = .ok (.entry chain e)) :
    idealDisk.makeDirectory p t = (.error .alreadyExists, t) :=
  attempt_error (by rw [makeDirectory, h])

theorem makeDirectory_of_error (h : t.find false p .unbounded = .error fault) :
    idealDisk.makeDirectory p t = (.error fault, t) :=
  attempt_error (by rw [makeDirectory, h])

theorem write_of_free (h : t.find true p .unbounded = .ok (.free chain name false))
    (text : String) :
    idealDisk.write p text t = (.ok (), t.putAt (.file name text.toUTF8) chain) :=
  attempt_ok (by rw [write, h]; rfl)

/-- That something is already there is excused if it is a directory. -/
theorem excuse_of_find (h : t.find true p .unbounded = .ok (.entry chain e)) :
    idealDisk.excuse p fault t = (if e.isDirectory then .ok () else .error fault, t) := by
  have hask : idealDisk.isDirectory p t = (e.isDirectory, t) := by
    have hget : (get : StateM Tree Tree) t = (t, t) := rfl
    have his : t.isDirectory p .unbounded = e.isDirectory := by rw [isDirectory, h]
    change ((do return (← get).isDirectory p .unbounded) : StateM Tree Bool) t = _
    rw [bind_apply hget, his]
    rfl
  rw [Disk.excuse, bind_apply hask]
  cases e.isDirectory <;> rfl

theorem makeUpward_of_parent?_none (h : p.parent? = none) :
    idealDisk.makeUpward fuel p t = (.ok (), t) := by
  cases fuel with
  | zero => rfl
  | succ fuel =>
    rw [Disk.makeUpward, h]
    rfl

theorem makeUpward_of_made (habove : p.parent? = some above)
    (h : idealDisk.makeDirectory p t = (.ok (), t')) :
    idealDisk.makeUpward (fuel + 1) p t = (.ok (), t') := by
  rw [Disk.makeUpward, habove]
  dsimp only
  rw [bind_apply h]
  rfl

/-- Where something is already there, it has to be a directory. -/
theorem makeUpward_of_there (habove : p.parent? = some above)
    (h : idealDisk.makeDirectory p t = (.error .alreadyExists, t))
    (hfind : t.find true p .unbounded = .ok (.entry chain e)) :
    idealDisk.makeUpward (fuel + 1) p t =
      (if e.isDirectory then .ok () else .error .alreadyExists, t) := by
  rw [Disk.makeUpward, habove]
  dsimp only
  rw [bind_apply h]
  exact excuse_of_find hfind

theorem makeUpward_of_missing (habove : p.parent? = some above)
    (h : idealDisk.makeDirectory p t = (.error .noSuchFile, t))
    (hmake : idealDisk.makeUpward fuel above t = (.ok (), t'))
    (hmade : idealDisk.makeDirectory p t' = (.ok (), t'')) :
    idealDisk.makeUpward (fuel + 1) p t = (.ok (), t'') := by
  rw [Disk.makeUpward, habove]
  dsimp only
  rw [bind_apply h]
  dsimp only
  rw [bind_apply hmake]
  dsimp only
  rw [bind_apply hmade]
  rfl

/-! ### Making directories -/

/-- **The directories along the names are made** from `base` on, and nothing else changes. -/
structure Makes (t t' : Tree) (base names : List String) : Prop where
  current : t'.current = t.current
  made : ∀ {front}, front <+: names → t'.kindAt (base ++ front) = some .directory
  same : ∀ {chain}, (∀ front, front <+: names → chain ≠ base ++ front) →
    t'.kindAt chain = t.kindAt chain

/-- Nothing but directories stands along the names, as far as there is anything. -/
def IsOpen (t : Tree) (base names : List String) : Prop :=
  ∀ front, front <+: names →
    t.kindAt (base ++ front) = some .directory ∨ t.kindAt (base ++ front) = none

theorem IsOpen.of_append {more : List String} (h : t.IsOpen base (names ++ more)) :
    t.IsOpen base names :=
  fun front hfront => h front (hfront.trans (List.prefix_append names more))

theorem Makes.extends (h : t.Makes t' base names) (hopen : t.IsOpen base names) :
    t.Extends t' where
  current := h.current
  kindAt {chain k} hk := by
    by_cases hon : ∃ front, front <+: names ∧ chain = base ++ front
    · obtain ⟨front, hfront, rfl⟩ := hon
      rcases hopen front hfront with hdir | hnone
      · rw [h.made hfront, ← hdir, hk]
      · rw [hnone] at hk
        cases hk
    · rw [h.same fun front hfront heq => hon ⟨front, hfront, heq⟩, hk]

/-- Nothing is made beyond the names. -/
theorem Makes.kindAt_concat (h : t.Makes t' base names) (name : String) :
    t'.kindAt (base ++ names ++ [name]) = t.kindAt (base ++ names ++ [name]) := by
  refine h.same fun front hfront heq => ?_
  rw [List.append_assoc, List.append_cancel_left_eq] at heq
  have hlength := hfront.length_le
  rw [← heq, List.length_append, List.length_singleton] at hlength
  omega

/-- Nothing is to be done where all directories are there. -/
theorem makes_refl (h : t.kindAt (base ++ names) = some .directory) : t.Makes t base names where
  current := rfl
  same _ := rfl
  made {front} hfront := by
    obtain ⟨rest, rfl⟩ := hfront
    by_cases hrest : rest = []
    · rwa [hrest, List.append_nil] at h
    · rw [← List.append_assoc] at h
      exact kindAt_of_append h hrest

/-- A directory is made in the one above it. -/
theorem Makes.concat (h : t.Makes t' base names)
    (hfree : t'.kindAt (base ++ names ++ [name]) = none) :
    t.Makes (t'.putAt (.directory name []) (base ++ names)) base (names ++ [name]) := by
  have hput := kindAt_putAt_directory (h.made List.prefix_rfl) hfree
  refine ⟨h.current, fun {front} hfront => ?_, fun {chain} hchain => ?_⟩
  · rw [hput]
    rcases List.prefix_concat_iff.mp hfront with rfl | hfront
    · exact if_pos (List.append_assoc ..).symm
    · rw [h.made hfront]
      exact ite_self _
  · rw [hput, if_neg]
    · exact h.same fun front hfront => hchain front (hfront.trans (List.prefix_append names [name]))
    · rw [List.append_assoc]
      exact hchain _ List.prefix_rfl

/-! ### Making a directory -/

/-- **The path is found along the names** from `base` on, in this tree and in every one that has
more. -/
structure FindsAlong (t : Tree) (p : Path) (base names : List String) : Prop where
  find : ∀ {s : Tree}, t.Extends s → ∀ follow, ∃ links,
    s.find follow p .unbounded = s.walk .unbounded follow links base names

theorem FindsAlong.extend (h : t.FindsAlong p base names) (hx : t.Extends t') :
    t'.FindsAlong p base names :=
  ⟨fun hs => h.find (hx.trans hs)⟩

section Making

variable (hnames : ∀ n ∈ names, IsName n) (hname : IsName name)
  (hfind : t.FindsAlong p base (names ++ [name]))

include hnames hname hfind

theorem find_of_entry {k : Kind} (h : t.kindAt (base ++ (names ++ [name])) = some k)
    (hlink : ∀ target, k ≠ .link target) (follow : Bool) :
    ∃ e, t.find follow p .unbounded = .ok (.entry (base ++ (names ++ [name])) e) ∧
      e.kind = k := by
  obtain ⟨links, hwalk⟩ := hfind.find (.refl t) follow
  have hall : ∀ n ∈ names ++ [name], IsName n := by simpa [or_imp, forall_and] using ⟨hnames, hname⟩
  rw [hwalk]
  exact walk_names hall h hlink

theorem find_of_free (hdir : t.kindAt (base ++ names) = some .directory)
    (hfree : t.kindAt (base ++ names ++ [name]) = none) (follow : Bool) :
    t.find follow p .unbounded = .ok (.free (base ++ names) name false) := by
  obtain ⟨links, hwalk⟩ := hfind.find (.refl t) follow
  rw [hwalk]
  exact walk_free hnames hname hdir hfree

theorem find_of_missing (hopen : t.IsOpen base names) (hmissing : t.kindAt (base ++ names) = none)
    (follow : Bool) : t.find follow p .unbounded = .error .noSuchFile := by
  obtain ⟨links, hwalk⟩ := hfind.find (.refl t) follow
  rw [hwalk]
  exact walk_missing hnames hname hopen hmissing

/-- What is there already will do if it is a directory. -/
theorem makeUpward_of_kindAt {k : Kind} (h : t.kindAt (base ++ (names ++ [name])) = some k)
    (hlink : ∀ target, k ≠ .link target) (habove : p.parent? = some above) :
    ∃ e : Entry, e.kind = k ∧ idealDisk.makeUpward (fuel + 1) p t =
      (if e.isDirectory then .ok () else .error .alreadyExists, t) := by
  obtain ⟨e, hfalse, -⟩ := find_of_entry hnames hname hfind h hlink false
  obtain ⟨e', htrue, hkind⟩ := find_of_entry hnames hname hfind h hlink true
  exact ⟨e', hkind, makeUpward_of_there habove (makeDirectory_of_entry hfalse) htrue⟩

/-- Nothing is written below a file: the error names what was to be the directory. -/
theorem writeFile_of_file {path : Path} {bytes : ByteArray} (hparent : path.parent? = some p)
    (habove : p.parent? = some above)
    (hfile : t.kindAt (base ++ (names ++ [name])) = some (.file bytes)) (text : String) :
    idealDisk.writeFile path text t = (.error ⟨p, .alreadyExists⟩, t) := by
  obtain ⟨e, hkind, hmake⟩ :=
    makeUpward_of_kindAt hnames hname hfind hfile (by simp) habove
  obtain ⟨own, rfl⟩ := Entry.kind_eq_file_iff.mp hkind
  rw [Disk.writeFile, hparent]
  dsimp only
  rw [Disk.makeDirectories, bind_apply hmake]
  rfl

/-- A directory is there already, or it is made in the one above it, which is made first. -/
theorem makeUpward_concat (hopen : t.IsOpen base (names ++ [name]))
    (habove : p.parent? = some above)
    (hmake : t.kindAt (base ++ names) = none → ∃ t', idealDisk.makeUpward fuel above t =
      (.ok (), t') ∧ t.Makes t' base names) :
    ∃ t', idealDisk.makeUpward (fuel + 1) p t = (.ok (), t') ∧
      t.Makes t' base (names ++ [name]) := by
  rcases hopen _ List.prefix_rfl with hthere | hfree
  · obtain ⟨e, hkind, hmake⟩ :=
      makeUpward_of_kindAt hnames hname hfind hthere (by simp) habove
    refine ⟨t, ?_, makes_refl hthere⟩
    rw [hmake, Entry.kind_eq_directory_iff.mp hkind]
    rfl
  · rw [← List.append_assoc] at hfree
    rcases hopen names (List.prefix_append _ _) with hdir | hmissing
    · have hmade := makeDirectory_of_free (find_of_free hnames hname hfind hdir hfree false)
      exact ⟨_, makeUpward_of_made habove hmade, (makes_refl hdir).concat hfree⟩
    · -- first the directory above is made, and then this one in it
      have herror := makeDirectory_of_error
        (find_of_missing hnames hname hfind hopen.of_append hmissing false)
      obtain ⟨t', hmake, hmakes⟩ := hmake hmissing
      have hfree' := (hmakes.kindAt_concat name).trans hfree
      have hmade := makeDirectory_of_free (find_of_free hnames hname
        (hfind.extend (hmakes.extends hopen.of_append)) (hmakes.made List.prefix_rfl) hfree' false)
      exact ⟨_, makeUpward_of_missing habove herror hmake hmade, hmakes.concat hfree'⟩

end Making

/-! ### Reaching a directory -/

/-- **The path `root` leads from `base`, which is there, through `pre`**, and the directory that it
is itself in can be made. So it is in every tree that has more. -/
structure Reaches (t : Tree) (root : Path) (base pre : List String) : Prop where
  directory : t.kindAt base = some .directory
  names : ∀ name ∈ pre, IsName name
  find : ∀ {names}, names ≠ [] → (∀ name ∈ names, IsProperName name) →
    t.FindsAlong (root.push (Path.spelled names)) base (pre ++ names)
  bottom : ∀ {s name fuel}, t.Extends s → s.IsOpen base pre → IsProperName name →
    ∃ above s', (root.push (Path.spelled [name])).parent? = some above ∧
      idealDisk.makeUpward (fuel + 1) above s = (.ok (), s') ∧ s.Makes s' base pre

theorem isProperName_concat (hnames : ∀ name ∈ names, IsProperName name)
    (hname : IsProperName name) : ∀ n ∈ names ++ [name], IsProperName n := by
  simpa [or_imp, forall_and] using ⟨hnames, hname⟩

section Reaching

variable (h : t.Reaches root base pre)

include h

theorem Reaches.isName (hnames : ∀ name ∈ names, IsProperName name) :
    ∀ n ∈ pre ++ names, IsName n := by
  intro n hn
  rcases List.mem_append.mp hn with hn | hn
  · exact h.names n hn
  · exact (hnames n hn).toIsName

/-- **The directory of a name can be made.** The induction is on the names above it, from the last
on. -/
theorem Reaches.makeUpward (hx : t.Extends t') (hnames : ∀ name ∈ names, IsProperName name)
    (hname : IsProperName name) (hopen : t'.IsOpen base (pre ++ names)) (fuel : Nat) :
    ∃ above t'', (root.push (Path.spelled (names ++ [name]))).parent? = some above ∧
      idealDisk.makeUpward (fuel + names.length + 1) above t' = (.ok (), t'') ∧
        t'.Makes t'' base (pre ++ names) := by
  obtain ⟨stem, hstem⟩ := root.exists_stem
  induction names using List.reverseRecOn generalizing name with
  | nil =>
    rw [List.append_nil] at hopen ⊢
    exact h.bottom hx hopen hname
  | append_singleton names last ih =>
    have hlast : IsProperName last := hnames last (by simp)
    have hinit : ∀ n ∈ names, IsProperName n := fun n hn => hnames n (List.mem_append_left _ hn)
    have hfind := (h.find (by simp) hnames).extend hx
    rw [← List.append_assoc] at hopen hfind ⊢
    obtain ⟨above, t'', habove, hmake, hmakes⟩ := ih hinit hlast hopen.of_append
    obtain ⟨t₃, hmade⟩ := makeUpward_concat (h.isName hinit) hlast.toIsName hfind hopen habove
      fun _ => ⟨t'', hmake, hmakes⟩
    rw [List.length_append]
    exact ⟨_, t₃, hstem.parent?_push hnames (by simp) hname, hmade⟩

/-- **A file is stored below the directory**, in directories that are made for it. -/
theorem Reaches.writeFile (hx : t.Extends t') (hnames : ∀ name ∈ names, IsProperName name)
    (hname : IsProperName name) (hopen : t'.IsOpen base (pre ++ names))
    (hfree : t'.kindAt (base ++ (pre ++ names) ++ [name]) = none) (text : String) :
    ∃ t'', t'.Makes t'' base (pre ++ names) ∧
      t''.kindAt (base ++ (pre ++ names) ++ [name]) = none ∧
      idealDisk.writeFile (root.push (Path.spelled (names ++ [name]))) text t' =
        (.ok (root.push (Path.spelled (names ++ [name]))),
          t''.putAt (.file name text.toUTF8) (base ++ (pre ++ names))) := by
  have hall := isProperName_concat hnames hname
  have hfind := (h.find (by simp) hall).extend hx
  rw [← List.append_assoc] at hfind
  -- the directory has at least as many components as there are names to make
  obtain ⟨above, -, habove, -⟩ := h.makeUpward hx hnames hname hopen 0
  have hlength : names.length ≤ above.components.length := by
    by_cases hne : names = []
    · simp [hne]
    · obtain ⟨stem, hstem⟩ := root.exists_stem
      obtain rfl := Option.some_inj.mp (habove.symm.trans (hstem.parent?_push hnames hne hname))
      exact Path.length_le_components_push hnames hne root
  obtain ⟨fuel, hfuel⟩ := Nat.exists_eq_add_of_le' hlength
  obtain ⟨above', t'', habove', hmake, hmakes⟩ := h.makeUpward hx hnames hname hopen fuel
  obtain rfl := Option.some_inj.mp (habove.symm.trans habove')
  rw [← hfuel] at hmake
  have hfree' := (hmakes.kindAt_concat name).trans hfree
  have hwrite := write_of_free (find_of_free (h.isName hnames) hname.toIsName
    (hfind.extend (hmakes.extends hopen)) (hmakes.made List.prefix_rfl) hfree' true) text
  refine ⟨t'', hmakes, hfree', ?_⟩
  rw [Disk.writeFile, habove]
  dsimp only
  rw [bind_apply (show idealDisk.makeDirectories above t' = _ from hmake)]
  dsimp only
  rw [bind_apply hwrite]
  rfl

end Reaching

end Tree

end ViewBinding.Files
