import ViewBinding.Proofs.Files.Changing

/-!
# Paths that lead to different files

Two paths with different components may lead to one file: a link below the directory that they lead
on from, or a step up, can bring them together. If there is neither, they never do
(`ViewBinding.Files.Tree.leadApart_push`): each path that stays inside leads from where the
directory is along its own names, and so the place where it ends has its components.
-/

namespace ViewBinding.Files

open Text

namespace Path

variable {p q : Path}

/-- The names that a path leads through, if it stays inside. -/
def innerNames (p : Path) : List String :=
  (p.body.map String.ofList).filter fun piece => piece ≠ "" ∧ piece ≠ "."

theorem exists_toList (piece : List Char) : ∃ text : String, piece = text.toList :=
  ⟨String.ofList piece, String.toList_ofList.symm⟩

theorem ofPiece?_eq_up_iff {piece : List Char} :
    Component.ofPiece? piece = some .up ↔ String.ofList piece = ".." := by
  obtain ⟨text, rfl⟩ := exists_toList piece
  rw [String.ofList_toList]
  by_cases hup : text = ".."
  · subst hup
    exact iff_of_true rfl rfl
  · by_cases hneutral : text = "" ∨ text = "."
    · rcases hneutral with rfl | rfl <;> exact iff_of_false nofun (by decide)
    · rw [not_or] at hneutral
      rw [ofPiece?_toList ⟨hneutral.1, hneutral.2, hup⟩]
      exact iff_of_false nofun hup

/-- Pieces that do not lead up stand for their names. -/
theorem filterMap_ofPiece? {all : List (List Char)} (h : .up ∉ all.filterMap Component.ofPiece?) :
    all.filterMap Component.ofPiece? =
      ((all.map String.ofList).filter fun piece => piece ≠ "" ∧ piece ≠ ".").map
        Component.name := by
  induction all with
  | nil => rfl
  | cons piece all ih =>
    obtain ⟨text, rfl⟩ := exists_toList piece
    rw [List.map_cons, String.ofList_toList]
    by_cases hneutral : text = "" ∨ text = "."
    · have hnone : Component.ofPiece? text.toList = none := by
        rcases hneutral with rfl | rfl <;> rfl
      rw [List.filterMap_cons_none hnone] at h ⊢
      rw [List.filter_cons_of_neg (by simpa using fun hne => hneutral.resolve_left hne), ih h]
    · rw [not_or] at hneutral
      have hup : text ≠ ".." := by
        rintro rfl
        exact h (List.mem_filterMap.mpr ⟨_, List.mem_cons_self, rfl⟩)
      have hname := ofPiece?_toList ⟨hneutral.1, hneutral.2, hup⟩
      rw [List.filterMap_cons_some hname] at h ⊢
      rw [List.filter_cons_of_pos (by simpa using hneutral), List.map_cons,
        ih fun hmem => h (List.mem_cons_of_mem _ hmem)]

/-- A path that stays inside has its names for components. -/
theorem IsInside.components_eq_innerNames (h : p.IsInside) :
    p.components = p.innerNames.map Component.name := by
  obtain ⟨hopening, hup, -⟩ := isInside_iff.mp h
  rw [components_eq, hopening, List.nil_append]
  exact filterMap_ofPiece? hup

end Path

namespace Tree

variable {t : Tree} {limits : Limits} {links links' : Nat} {root p q : Path}
  {chain base pieces : List String} {bytes : ByteArray}

/-- **The two paths never lead to one file.** -/
def LeadApart (t : Tree) (limits : Limits) (p q : Path) : Prop :=
  ∀ chain bytes bytes', t.HasFile limits p chain bytes → ¬t.HasFile limits q chain bytes'

/-- The pieces of the path lead to the entry at `base`: from there a longer path goes on. -/
def StartsAt (t : Tree) (limits : Limits) (root : Path) (base : List String) : Prop :=
  ∃ e, t.walk limits true maxLinks (root.startFrom t.current) root.allPieces = .ok (.entry base e)

/-- There is no link from the place on. -/
def HasNoLink (t : Tree) (base : List String) : Prop :=
  ∀ names target, t.kindAt (base ++ names) ≠ some (.link target)

/-- Without links and steps up, the pieces lead along their names. -/
theorem Leads.base_eq (h : t.Leads limits links chain pieces links' base) (hup : ".." ∉ pieces)
    (hlinks : t.HasNoLink chain) :
    base = chain ++ pieces.filter fun piece => piece ≠ "" ∧ piece ≠ "." := by
  induction h with
  | done => simp
  | stay _ hpiece _ ih =>
    rw [ih (fun hmem => hup (List.mem_cons_of_mem _ hmem)) hlinks, List.filter_cons_of_neg]
    rcases hpiece with rfl | rfl <;> simp
  | up => exact absurd List.mem_cons_self hup
  | @down _ _ chain rest _ piece _ _ hname _ _ _ _ ih =>
    have hbelow : t.HasNoLink (chain ++ [piece]) := by
      intro names target
      rw [List.append_assoc]
      exact hlinks ([piece] ++ names) target
    rw [ih (fun hmem => hup (List.mem_cons_of_mem _ hmem)) hbelow, List.filter_cons_of_pos,
      List.append_assoc, List.singleton_append]
    simp [hname.ne_empty, hname.ne_here]
  | follow _ _ _ hentry => exact absurd hentry (hlinks [_] _)

/-- **A path that stays inside leads along its names** from where the directory is. -/
theorem exists_base_of_hasFile (hq : q.IsInside)
    (hlinks : ∀ base, t.StartsAt limits root base → t.HasNoLink base)
    (h : t.HasFile limits (root.push q.text) chain bytes) :
    ∃ base, t.StartsAt limits root base ∧ chain = base ++ q.innerNames := by
  obtain ⟨stem, hstem⟩ := root.exists_stem
  obtain ⟨-, -, links, hleads⟩ := hasFile_iff.mp h
  have hrelative : q.isAbsolute = false := Path.isAbsolute_of_opening (Path.isInside_iff.mp hq).1
  have habsolute : (root.push q.text).isAbsolute = root.isAbsolute := by
    rw [Path.isAbsolute_push, show (Path.mk q.text).isAbsolute = false from hrelative,
      Bool.or_false]
  have hpieces : (root.push q.text).allPieces =
      (if root.isAbsolute then [""] else []) ++ stem.map String.ofList ++
        q.body.map String.ofList := by
    rw [Path.allPieces_eq, habsolute, hstem.push hrelative, List.map_append, ← List.append_assoc,
      Path.body_of_relative hrelative]
  have hstart : (root.push q.text).startFrom t.current = root.startFrom t.current := by
    rw [Path.startFrom, Path.startFrom, habsolute]
  rw [hpieces, hstart] at hleads
  -- the pieces of the root lead to a directory, and those of the path go on from there
  obtain ⟨links', mid, hroot, hlast⟩ := hleads.split
  have hdir : t.kindAt mid = some .directory := hlast.directory (by simp [q.body_ne_nil])
  obtain ⟨e, hat, -⟩ := exists_at?_of_kindAt hdir
  have hstarts : t.StartsAt limits root mid := by
    refine ⟨e, ?_⟩
    rw [Path.allPieces_eq]
    rcases hstem.body with hbody | hbody
    · rw [hbody]
      exact walk_of_leads hroot hat
    · rw [hbody, List.map_append, ← List.append_assoc, hroot.walk_append fun _ => rfl,
        List.map_singleton, walk_stay hdir (.inl rfl), walk_nil hat]
  refine ⟨mid, hstarts, hlast.base_eq ?_ (hlinks mid hstarts)⟩
  intro hup
  obtain ⟨piece, hpiece, heq⟩ := List.mem_map.mp hup
  exact (Path.isInside_iff.mp hq).2.1
    (List.mem_filterMap.mpr ⟨piece, hpiece, Path.ofPiece?_eq_up_iff.mpr heq⟩)

/-- **Where there are no links, paths that stay inside lead to different files** unless they have
the same components. -/
theorem leadApart_push (hp : p.IsInside) (hq : q.IsInside) (hsame : p.same q = false)
    (hlinks : ∀ base, t.StartsAt limits root base → t.HasNoLink base) :
    t.LeadApart limits (root.push p.text) (root.push q.text) := by
  intro chain bytes bytes' hfile hfile'
  obtain ⟨base, ⟨e, hbase⟩, rfl⟩ := exists_base_of_hasFile hp hlinks hfile
  obtain ⟨base', ⟨e', hbase'⟩, heq⟩ := exists_base_of_hasFile hq hlinks hfile'
  obtain ⟨rfl, -⟩ := Goal.entry.inj (Except.ok.inj (hbase.symm.trans hbase'))
  have hnames : p.innerNames = q.innerNames := List.append_cancel_left heq
  rw [Path.same, hp.components_eq_innerNames, hq.components_eq_innerNames, hnames, beq_self_eq_true]
    at hsame
  cases hsame

end Tree

end ViewBinding.Files
