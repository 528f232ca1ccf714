import ViewBinding.Proofs.Files.Apart
import ViewBinding.Proofs.Files.Inside

/-!
# Where an emission stops

An emission stores companions in turn and stops at the first that cannot be stored; what was stored
before stays, and of what comes after nothing is tried (`ViewBinding.emit_ok_or_stops`).

On a disk this can be said of the files. A disk may fail at any call: it
`ViewBinding.Files.Disk.WorksOn` a tree if each call does to the tree what it should, or fails and
leaves the tree as it is, but for the content of the file that was to be written. Then a failure
names the path of the companion or its directory, the files of all companions before it are there
in full, and the files of those after it are as they were, as long as no two of the paths lead to
one file (`ViewBinding.Files.Disk.emit_stops`).
-/

namespace ViewBinding

open Files

/-! ### Any way of storing -/

section Store

variable {σ : Type} {store : Store (StateM σ)} {l : Layout} {companions : List Companion}
  {before after : σ} {paths : List Path}

theorem StoresAll.length_eq (h : StoresAll store l companions before paths after) :
    paths.length = companions.length := by
  induction h with
  | nil => rfl
  | cons _ _ ih => rw [List.length_cons, List.length_cons, ih]

/-- **An emission stores all companions, or all up to the first that cannot be stored**, and then it
comes to the error of this one and to the files that it has left behind. -/
theorem emit_ok_or_stops (store : Store (StateM σ)) (l : Layout) (companions : List Companion)
    (before : σ) :
    (∃ paths after, StoresAll store l companions before paths after ∧
      emit store l companions before = (.ok paths, after)) ∨
    ∃ done c rest paths between e after, companions = done ++ c :: rest ∧
      StoresAll store l done before paths between ∧
      store c (c.render l) between = (.error e, after) ∧
      emit store l companions before = (.error e, after) := by
  induction companions generalizing before with
  | nil => exact .inl ⟨[], before, .nil before, rfl⟩
  | cons c companions ih =>
    rcases hstore : store c (c.render l) before with ⟨out, between⟩
    cases out with
    | error e =>
      exact .inr ⟨[], c, companions, [], before, e, between, rfl, .nil before, hstore,
        emit_cons_of_error hstore companions⟩
    | ok path =>
      have hemit := emit_cons_of_ok hstore companions
      rcases ih between with ⟨paths, after, hall, hrest⟩ |
        ⟨done, c', rest, paths, between', e, after, rfl, hdone, hfail, hrest⟩
      · exact .inl ⟨path :: paths, after, .cons hstore hall, by rw [hemit, hrest]; rfl⟩
      · exact .inr ⟨c :: done, c', rest, path :: paths, between', e, after, rfl,
          .cons hstore hdone, hfail, by rw [hemit, hrest]; rfl⟩

end Store

/-! ### Disks that may fail -/

namespace Files.Disk

variable {σ : Type} {tree : σ → Tree} {limits : Limits} {d : Disk (StateM σ)} {root p path : Path}
  {text : String} {s s' : σ} {e : WriteError}

/-- **The disk works on a tree, or fails**: a call that succeeds does to the tree what it should;
one that fails leaves the tree as it is, but whatever was to be written may be there in part. -/
structure WorksOn (tree : σ → Tree) (limits : Limits) (d : Disk (StateM σ)) : Prop where
  isDirectory : ∀ p s, tree (d.isDirectory p s).2 = tree s
  made : ∀ {p s s'}, d.makeDirectory p s = (.ok (), s') →
    (tree s).makeDirectory p limits = .ok (tree s')
  notMade : ∀ {p s fault s'}, d.makeDirectory p s = (.error fault, s') → tree s' = tree s
  written : ∀ {p text s s'}, d.write p text s = (.ok (), s') →
    (tree s).write p text limits = .ok (tree s')
  notWritten : ∀ {p text s fault s'}, d.write p text s = (.error fault, s') →
    tree s' = tree s ∨ ∃ chain name bytes, (tree s).Opens limits p chain name ∧
      tree s' = (tree s).putAt (.file name bytes) chain

/-- A tree works on itself. -/
theorem worksOn_diskWithin (limits : Limits) : WorksOn id limits (Tree.diskWithin limits) := by
  have hattempt {change : Tree → Except Fault Tree} {t t' : Tree} {out : Except Fault Unit}
      (h : Tree.attempt change t = (out, t')) :
      (∃ fault, out = .error fault ∧ t' = t) ∨ out = .ok () ∧ change t = .ok t' := by
    cases hchange : change t with
    | error fault =>
      rw [Tree.attempt_error hchange] at h
      cases h
      exact .inl ⟨fault, rfl, rfl⟩
    | ok changed =>
      rw [Tree.attempt_ok hchange] at h
      cases h
      exact .inr ⟨rfl, rfl⟩
  refine ⟨fun p s => rfl, fun h => ?_, fun h => ?_, fun h => ?_, fun h => ?_⟩
  · rcases hattempt h with ⟨fault, hout, -⟩ | ⟨-, hmade⟩
    · cases hout
    · exact hmade
  · rcases hattempt h with ⟨fault, -, hsame⟩ | ⟨hout, -⟩
    · exact hsame
    · cases hout
  · rcases hattempt h with ⟨fault, hout, -⟩ | ⟨-, hwritten⟩
    · cases hout
    · exact hwritten
  · rcases hattempt h with ⟨fault, -, hsame⟩ | ⟨hout, -⟩
    · exact .inl hsame
    · cases hout

/-! ### Making directories -/

/-- The action changes no file. -/
def ChangesNoFile (tree : σ → Tree) {α : Type} (action : StateM σ α) : Prop :=
  ∀ s, (tree s).Changes (tree (action s).2) []

theorem changesNoFile_pure {α : Type} (a : α) : ChangesNoFile tree (pure a : StateM σ α) :=
  fun s => .refl (tree s)

theorem ChangesNoFile.bind {α β : Type} {action : StateM σ α} {next : α → StateM σ β}
    (h : ChangesNoFile tree action) (hnext : ∀ a, ChangesNoFile tree (next a)) :
    ChangesNoFile tree (action >>= next) := by
  intro s
  rcases hs : action s with ⟨a, s'⟩
  have hfirst := h s
  rw [hs] at hfirst
  rw [bind_apply hs]
  exact hfirst.trans (hnext a s')

namespace WorksOn

variable (h : d.WorksOn tree limits)

include h

theorem changesNoFile_makeDirectory (p : Path) : ChangesNoFile tree (d.makeDirectory p) := by
  intro s
  rcases hs : d.makeDirectory p s with ⟨out, s'⟩
  cases out with
  | ok => exact Tree.changes_of_makeDirectory (h.made hs)
  | error fault =>
    rw [h.notMade hs]
    exact .refl _

theorem changesNoFile_excuse (p : Path) (fault : Fault) :
    ChangesNoFile tree (d.excuse p fault) := by
  refine .bind (fun s => ?_) fun there => ?_
  · rw [h.isDirectory]
    exact .refl _
  · cases there <;> exact changesNoFile_pure _

/-- **Making directories changes no file**, whether it succeeds or not. -/
theorem changesNoFile_makeUpward (fuel : Nat) (p : Path) :
    ChangesNoFile tree (d.makeUpward fuel p) := by
  induction fuel generalizing p with
  | zero => exact changesNoFile_pure _
  | succ fuel ih =>
    unfold makeUpward
    split
    · exact changesNoFile_pure _
    · rename_i above _
      refine (h.changesNoFile_makeDirectory p).bind fun out => ?_
      split
      · exact changesNoFile_pure _
      · -- the directories above are made first, and then this one is tried again
        refine (ih above).bind fun out => ?_
        split
        · exact changesNoFile_pure _
        · refine (h.changesNoFile_makeDirectory p).bind fun out => ?_
          split
          · exact changesNoFile_pure _
          · exact h.changesNoFile_excuse p _
      · exact h.changesNoFile_excuse p _

end WorksOn

/-! ### Writing one file -/

/-- **What comes of writing a file** in a tree `t` that then is `t'`: it is there in full, or an
error names its path or its directory. In both cases no other file has changed. -/
inductive Outcome (limits : Limits) (path : Path) (text : String) (t t' : Tree) :
    Except WriteError Path → Prop
  | stored {chain : List String} (changes : t.Changes t' [chain])
    (file : t'.HasFile limits path chain text.toUTF8) : Outcome limits path text t t' (.ok path)
  | failed {e : WriteError} {places : List (List String)}
    (named : e.path = path ∨ path.parent? = some e.path) (changes : t.Changes t' places)
    (files : ∀ chain ∈ places, ∃ bytes, t'.HasFile limits path chain bytes) :
    Outcome limits path text t t' (.error e)

theorem Outcome.after {t t' t'' : Tree} {out : Except WriteError Path} (h : t.Changes t' [])
    (hout : Outcome limits path text t' t'' out) : Outcome limits path text t t'' out := by
  cases hout with
  | stored changes file => exact .stored (h.trans changes) file
  | failed named changes files => exact .failed named (h.trans changes) files

/-- The action writes the file, or fails to. -/
def Writes (tree : σ → Tree) (limits : Limits) (path : Path) (text : String)
    (action : StateM σ (Except WriteError Path)) : Prop :=
  ∀ s, Outcome limits path text (tree s) (tree (action s).2) (action s).1

theorem writes_error {fault : Fault} (hnamed : p = path ∨ path.parent? = some p) :
    Writes tree limits path text (pure (.error ⟨p, fault⟩) : StateM σ (Except WriteError Path)) :=
  fun s => .failed hnamed (.refl (tree s)) (by simp)

/-- The file is written after an action that changes no file. -/
theorem ChangesNoFile.writes {α : Type} {action : StateM σ α}
    {next : α → StateM σ (Except WriteError Path)} (h : ChangesNoFile tree action)
    (hnext : ∀ a, Writes tree limits path text (next a)) :
    Writes tree limits path text (action >>= next) := by
  intro s
  rcases hs : action s with ⟨a, s'⟩
  have hfirst := h s
  rw [hs] at hfirst
  rw [bind_apply hs]
  exact (hnext a s').after hfirst

/-- The call that writes, and what is made of its answer. -/
theorem WorksOn.writes_write (h : d.WorksOn tree limits) (path : Path) (text : String)
    {next : Except Fault Unit → StateM σ (Except WriteError Path)}
    (hok : next (.ok ()) = pure (.ok path))
    (herror : ∀ fault, next (.error fault) = pure (.error ⟨path, fault⟩)) :
    Writes tree limits path text (d.write path text >>= next) := by
  intro s
  rcases hs : d.write path text s with ⟨out, s'⟩
  rw [bind_apply hs]
  cases out with
  | ok =>
    rw [hok]
    obtain ⟨chain, name, hopens, hput⟩ := Tree.of_write (h.written hs)
    have hchanges : (tree s).Changes (tree s') [chain ++ [name]] := hput ▸ hopens.changes _
    exact .stored hchanges (hput ▸ hopens.hasFile _)
  | error fault =>
    rw [herror]
    rcases h.notWritten hs with hsame | ⟨chain, name, bytes, hopens, hput⟩
    · have hchanges : (tree s).Changes (tree s') [] := hsame ▸ .refl _
      exact .failed (.inl rfl) hchanges (by simp)
    · refine .failed (.inl rfl) (hput ▸ hopens.changes bytes) fun place hplace => ⟨bytes, ?_⟩
      rw [List.mem_singleton.mp hplace]
      exact hput ▸ hopens.hasFile bytes

/-- **A file is written, or the error names it or its directory.** -/
theorem WorksOn.writes_writeFile (h : d.WorksOn tree limits) (path : Path) (text : String) :
    Writes tree limits path text (d.writeFile path text) := by
  unfold writeFile
  dsimp only
  split
  · exact h.writes_write path text rfl fun _ => rfl
  · rename_i directory hparent
    refine (h.changesNoFile_makeUpward _ directory).writes fun out => ?_
    split
    · exact writes_error (.inr hparent)
    · exact h.writes_write path text rfl fun _ => rfl

/-! ### Writing files in turn -/

/-- The path at which a companion is stored. -/
def target (root : Path) (c : Companion) : Path :=
  root.push c.path.text

variable {l : Layout} {done others companions : List Companion} {c : Companion} {paths : List Path}
  {before between after : σ} {t : Tree} {places : List (List String)}

section Run

variable (h : d.WorksOn tree limits)

include h

theorem WorksOn.outcome_of_store (root : Path) (c : Companion) (text : String) (s : σ) :
    Outcome limits (target root c) text (tree s) (tree (d.store root c text s).2)
      (d.store root c text s).1 :=
  h.writes_writeFile (target root c) text s

/-- **Storing companions in turn changes their files only**, in whatever the tree becomes by changes
to the files of others. -/
theorem WorksOn.changes_of_storesAll
    (hall : StoresAll (d.store root) l done before paths between)
    (hafter : (tree between).Changes t places)
    (hplaces : ∀ chain ∈ places, ∃ c ∈ others, ∃ bytes,
      t.HasFile limits (target root c) chain bytes) :
    ∃ all, (tree before).Changes t all ∧
      ∀ chain ∈ all, ∃ c ∈ done ++ others, ∃ bytes,
        t.HasFile limits (target root c) chain bytes := by
  induction hall with
  | nil => exact ⟨places, hafter, hplaces⟩
  | @cons c companions path paths before middle between first rest ih =>
    obtain ⟨all, hchanges, hown⟩ := ih hafter
    have hout := h.outcome_of_store root c (c.render l) before
    rw [first] at hout
    cases hout with
    | @stored chain hfirst hfile =>
      refine ⟨[chain] ++ all, hfirst.trans hchanges, fun place hplace => ?_⟩
      rcases List.mem_cons.mp hplace with rfl | hplace
      · exact ⟨c, List.mem_cons_self, hfile.exists_keep hchanges.shape⟩
      · obtain ⟨c', hc', hfile'⟩ := hown place hplace
        exact ⟨c', List.mem_cons_of_mem c hc', hfile'⟩

/-- **What was stored is there in full**, as long as no companion that is stored afterwards shares
its file. -/
theorem WorksOn.files_of_storesAll
    (hall : StoresAll (d.store root) l done before paths between)
    (hafter : (tree between).Changes t places)
    (hplaces : ∀ chain ∈ places, ∃ c ∈ others, ∃ bytes,
      t.HasFile limits (target root c) chain bytes)
    (hapart : (done ++ others).Pairwise fun c c' =>
      t.LeadApart limits (target root c) (target root c')) :
    ∀ c ∈ done, ∃ chain, t.HasFile limits (target root c) chain (c.render l).toUTF8 := by
  induction hall with
  | nil => simp
  | @cons c companions path paths before middle between first rest ih =>
    obtain ⟨hc, hrest⟩ := List.pairwise_cons.mp hapart
    obtain ⟨all, hchanges, hown⟩ := h.changes_of_storesAll rest hafter hplaces
    have hout := h.outcome_of_store root c (c.render l) before
    rw [first] at hout
    refine List.forall_mem_cons.mpr ⟨?_, ih hafter hrest⟩
    cases hout with
    | @stored chain _ hfile =>
      have hnot : chain ∉ all := by
        intro hmem
        obtain ⟨c', hc', bytes, hfile'⟩ := hown chain hmem
        obtain ⟨bytes', hkept⟩ := hfile.exists_keep hchanges.shape
        exact hc c' hc' chain bytes' bytes hkept hfile'
      exact ⟨chain, hfile.keep hchanges.shape ((hchanges.same hnot).mpr hfile.kindAt)⟩

/-- **An emission stops at the first companion that cannot be stored.** For any way of storing, the
companions are stored in turn, each with its own text: all of them, and then the paths are theirs
in order, or those before one that cannot be stored, and then the error is that of this one, and
the files are those that its attempt has left behind.

On a disk that works on a tree and may fail at any call, the error names the path of this companion
or its directory. If no two of the paths lead to one file, the files of the companions before it
are there in full, and whatever file the path of one after it leads to, before or after, is there
before and after and is the same. No two paths lead to one file if they stay inside, have different
components, and there is no link below the directory that they lead on from. -/
theorem emit_stops (root : Path) (l : Layout) (companions : List Companion) (before : σ) :
    (∀ {τ : Type} (store : Store (StateM τ)) (start : τ),
      (∃ paths after, StoresAll store l companions start paths after ∧
        paths.length = companions.length ∧ emit store l companions start = (.ok paths, after)) ∨
      ∃ done c rest paths between e after, companions = done ++ c :: rest ∧
        StoresAll store l done start paths between ∧
        store c (c.render l) between = (.error e, after) ∧
        emit store l companions start = (.error e, after)) ∧
    ∀ done c rest paths between e after, companions = done ++ c :: rest →
      StoresAll (d.store root) l done before paths between →
      d.store root c (c.render l) between = (.error e, after) →
        (e.path = target root c ∨ (target root c).parent? = some e.path) ∧
        (companions.Pairwise (fun c c' =>
            (tree after).LeadApart limits (target root c) (target root c')) →
          (∀ c' ∈ done, ∃ chain,
            (tree after).HasFile limits (target root c') chain (c'.render l).toUTF8) ∧
          ∀ c' ∈ rest, ∀ chain bytes,
            (tree before).HasFile limits (target root c') chain bytes ∨
              (tree after).HasFile limits (target root c') chain bytes →
            (tree before).kindAt chain = some (.file bytes) ∧
              (tree after).kindAt chain = some (.file bytes)) ∧
        ((∀ c ∈ companions, c.path.IsInside) →
          companions.Pairwise (fun c c' => c.path.same c'.path = false) →
          (∀ base, (tree after).StartsAt limits root base → (tree before).HasNoLink base) →
          companions.Pairwise fun c c' =>
            (tree after).LeadApart limits (target root c) (target root c')) := by
  refine ⟨fun store start => (emit_ok_or_stops store l companions start).imp_left
    fun ⟨paths, after, hall, hemit⟩ => ⟨paths, after, hall, hall.length_eq, hemit⟩, ?_⟩
  rintro done c rest paths between e after rfl hall hfail
  have hout := h.outcome_of_store root c (c.render l) between
  rw [hfail] at hout
  cases hout with
  | @failed _ places hnamed hlast hfiles =>
    have hplaces : ∀ chain ∈ places, ∃ c' ∈ [c], ∃ bytes,
        (tree after).HasFile limits (target root c') chain bytes :=
      fun chain hchain => ⟨c, List.mem_singleton_self c, hfiles chain hchain⟩
    obtain ⟨all, hchanges, hown⟩ := h.changes_of_storesAll hall hlast hplaces
    refine ⟨hnamed, fun hapart => ?_, fun hinside hsame hlinks => ?_⟩
    · rw [List.append_cons] at hapart
      obtain ⟨hfront, -, hlater⟩ := List.pairwise_append.mp hapart
      refine ⟨h.files_of_storesAll hall hlast hplaces hfront, fun c' hc' chain bytes hfile => ?_⟩
      -- a path that leads to a file before does so after as well
      have hnot : chain ∉ all := by
        intro hmem
        obtain ⟨other, hother, bytes', hfile'⟩ := hown chain hmem
        rcases hfile with hfile | hfile
        · obtain ⟨bytes'', hkept⟩ := hfile.exists_keep hchanges.shape
          exact hlater other hother c' hc' chain bytes' bytes'' hfile' hkept
        · exact hlater other hother c' hc' chain bytes' bytes hfile' hfile
      rcases hfile with hfile | hfile
      · exact ⟨hfile.kindAt, (hchanges.same hnot).mpr hfile.kindAt⟩
      · exact ⟨(hchanges.same hnot).mp hfile.kindAt, hfile.kindAt⟩
    · -- no link is made on the way
      have hlinks' : ∀ base, (tree after).StartsAt limits root base → (tree after).HasNoLink base :=
        fun base hbase names goal hlink => hlinks base hbase names goal (hchanges.link hlink)
      exact hsame.imp_of_mem fun hc hc' hne =>
        Tree.leadApart_push (hinside _ hc) (hinside _ hc') hne hlinks'

end Run

/-- A file stands where the directory of the second companion is to be. The first is there in full,
and an older file of the third is as it was. -/
theorem emit_stops_at_file :
    let t : Tree := ⟨.directory "" [.file "app" ByteArray.empty, .file "Last.java" ByteArray.empty],
      []⟩
    let c (package name : String) : Companion :=
      ⟨package, name, ⟨package, [], name⟩, [], ⟨"bind", ⟨name, "target"⟩, []⟩⟩
    ∃ after, emit (Tree.idealDisk.store ⟨""⟩) .default
        [c "" "Home", c "app" "Main", c "" "Last"] t =
          (.error ⟨⟨"app"⟩, .alreadyExists⟩, after) ∧
      (∃ chain, after.HasFile .unbounded ⟨"Home.java"⟩ chain
        ((c "" "Home").render .default).toUTF8) ∧
      after.kindAt ["Last.java"] = some (.file ByteArray.empty) := by
  intro t c
  obtain ⟨hhome, happ, hlast⟩ :
      IsProperName "Home.java" ∧ IsProperName "app" ∧ IsProperName "Last.java" := by
    refine ⟨⟨⟨?_, ?_, ?_⟩, ?_, ?_⟩, ⟨⟨?_, ?_, ?_⟩, ?_, ?_⟩, ⟨⟨?_, ?_, ?_⟩, ?_, ?_⟩⟩ <;> decide
  obtain ⟨hhomePath, hmainPath, hlastPath, hmainParent, happParent⟩ :
      target ⟨""⟩ (c "" "Home") = ⟨"Home.java"⟩ ∧ target ⟨""⟩ (c "app" "Main") = ⟨"app/Main.java"⟩ ∧
        target ⟨""⟩ (c "" "Last") = ⟨"Last.java"⟩ ∧
        (Path.mk "app/Main.java").parent? = some ⟨"app"⟩ ∧
        (Path.mk "app").parent? = some ⟨""⟩ := by decide +kernel
  have hspelled (name : String) : (Path.mk "").push (Path.spelled [name]) = ⟨name⟩ := by
    rw [Path.push_empty, Path.spelled, List.map_singleton, Text.joinPieces, String.ofList_toList]
  have hreaches : t.Reaches ⟨""⟩ [] [] :=
    Tree.reaches_of_leads rfl (.stay rfl (.inl rfl) (.done (Option.some_ne_none _))) rfl
  have hfind {name : String} (hname : IsProperName name) :
      t.FindsAlong ⟨name⟩ [] ([] ++ [name]) := by
    rw [← hspelled name]
    exact hreaches.find (by simp) (by simpa using hname)
  have hnoNames : ∀ n ∈ ([] : List String), IsName n := by simp
  -- the first companion is stored next to the two files
  obtain ⟨between, hstored, hx⟩ : ∃ between, Tree.idealDisk.store ⟨""⟩ (c "" "Home")
      ((c "" "Home").render .default) t = (.ok ⟨"Home.java"⟩, between) ∧ t.Extends between := by
    have hopen : t.IsOpen [] ([] ++ []) := by
      intro front hfront
      rw [List.prefix_nil.mp hfront]
      exact .inl rfl
    obtain ⟨made, hmakes, hfree, hwrite⟩ := hreaches.writeFile (.refl t) (by simp) hhome hopen rfl
      ((c "" "Home").render .default)
    rw [List.nil_append, hspelled] at hwrite
    have hput := Tree.extends_putAt_file ((c "" "Home").render .default).toUTF8
      (hmakes.made List.prefix_rfl) hfree
    refine ⟨_, ?_, (hmakes.extends hopen).trans hput⟩
    rw [Disk.store, ← target, hhomePath]
    exact hwrite
  -- what is called `app` is there, but it is no directory
  have hfails (text : String) : Tree.idealDisk.store ⟨""⟩ (c "app" "Main") text between =
      (.error ⟨⟨"app"⟩, .alreadyExists⟩, between) := by
    have happThere : between.kindAt ([] ++ ([] ++ ["app"])) = some (.file ByteArray.empty) :=
      hx.kindAt rfl
    rw [Disk.store, ← target, hmainPath]
    exact Tree.writeFile_of_file hnoNames happ.toIsName ((hfind happ).extend hx) hmainParent
      happParent happThere text
  have hlastFile : t.HasFile .unbounded ⟨"Last.java"⟩ ["Last.java"] ByteArray.empty :=
    (hfind hlast).hasFile hnoNames hlast.toIsName rfl
  have hnoLink (base : List String) : t.HasNoLink base := by
    intro names target hlink
    cases hchain : base ++ names with
    | nil =>
      rw [hchain] at hlink
      cases hlink
    | cons name more =>
      rw [hchain, Tree.kindAt, Entry.kindAt_cons] at hlink
      obtain ⟨entry, hentry, hbelow⟩ := Option.bind_eq_some_iff.mp hlink
      have hmem := List.mem_of_find?_eq_some hentry
      simp only [t, Entry.entries, List.mem_cons, List.not_mem_nil, or_false] at hmem
      rcases hmem with rfl | rfl <;> cases more <;> cases hbelow
  obtain ⟨-, hfiles, hapart⟩ := (emit_stops (worksOn_diskWithin .unbounded) ⟨""⟩ .default
    [c "" "Home", c "app" "Main", c "" "Last"] t).2 [c "" "Home"] (c "app" "Main") [c "" "Last"]
    [⟨"Home.java"⟩] between _ between rfl (.cons hstored (.nil _)) (hfails _)
  have hinside : ∀ c' ∈ [c "" "Home", c "app" "Main", c "" "Last"], c'.path.IsInside := by
    simp only [List.forall_mem_cons, Path.isInside_iff]
    decide +kernel
  obtain ⟨hdone, hrest⟩ := hfiles (hapart hinside (by decide +kernel) fun base _ => hnoLink base)
  refine ⟨between, ?_, hhomePath ▸ hdone _ (List.mem_singleton_self _), ?_⟩
  · rw [emit_cons_of_ok hstored, emit_cons_of_error (hfails _)]
    rfl
  · exact (hrest _ (List.mem_singleton_self _) _ _ (.inl (hlastPath ▸ hlastFile))).2

end Files.Disk

end ViewBinding
