import ViewBinding.Proofs.Files.Kinds

/-!
# Walking through a tree of files

`ViewBinding.Files.Tree.walk` follows the pieces of a path. The relation
`ViewBinding.Files.Tree.Leads` says what it does when it ends at an entry, one constructor for each
sort of piece: it stays, goes up or down, or goes on with the target of a link
(`ViewBinding.Files.Tree.leads_of_walk`). From there a longer path goes on
(`ViewBinding.Files.Tree.Leads.walk_append`), and in a tree that has more, or other contents of
files, the same path leads to the same place (`ViewBinding.Files.Tree.Leads.keep`).

Where there are no links, a walk does what its names say: it finds what is there
(`ViewBinding.Files.Tree.walk_names`), a name that is free (`ViewBinding.Files.Tree.walk_free`), or
that a directory is missing (`ViewBinding.Files.Tree.walk_missing`).
-/

namespace ViewBinding.Files

/-- The pieces of a path between slashes. -/
def Path.allPieces (p : Path) : List String :=
  (Text.pieces '/' p.text.toList).map String.ofList

/-- Where a path starts that is found in the directory at `chain`. -/
def Path.startFrom (p : Path) (chain : List String) : List String :=
  if p.isAbsolute then [] else chain

/-- The text is the name of an entry: as a piece of a path it leads down. -/
structure IsName (text : String) : Prop where
  ne_empty : text ≠ ""
  ne_here : text ≠ "."
  ne_up : text ≠ ".."

namespace Tree

variable {t t' : Tree} {limits : Limits} {follow : Bool} {links links' : Nat} {e : Entry}
  {chain base names pieces trail rest : List String} {name piece target : String} {k : Kind}

theorem exists_at?_of_kindAt (h : t.kindAt chain = some k) :
    ∃ e, t.root.at? chain = some e ∧ e.kind = k :=
  Entry.kindAt_eq_some_iff.mp h

theorem kindAt_of_at? (h : t.root.at? chain = some e) : t.kindAt chain = some e.kind :=
  Entry.kindAt_eq_some_iff.mpr ⟨e, h, rfl⟩

/-- The entries of a directory are one name further on. -/
theorem at?_concat (h : t.root.at? chain = some e) (piece : String) :
    t.root.at? (chain ++ [piece]) = e.child? piece := by
  rw [Entry.at?_append, h, Option.bind_some, Entry.at?]
  cases e.child? piece <;> rfl

/-- Above what is there stand directories. -/
theorem kindAt_of_append (h : t.kindAt (base ++ names) = some k) (hnames : names ≠ []) :
    t.kindAt base = some .directory := by
  by_contra hdir
  have hnone := Entry.kindAt_append_of_ne hdir hnames
  exact absurd (h.symm.trans hnone) (Option.some_ne_none k)

/-! ### Single steps -/

theorem walk_nil (h : t.root.at? chain = some e) :
    t.walk limits follow links chain [] = .ok (.entry chain e) := by
  rw [walk, h]

theorem walk_of_none (h : t.kindAt chain = none) :
    t.walk limits follow links chain pieces = .error .noSuchFile := by
  have hat : t.root.at? chain = none := Entry.kindAt_eq_none_iff.mp h
  cases pieces with
  | nil => rw [walk, hat]
  | cons piece rest => rw [walk, hat]

theorem walk_stay (hdir : t.kindAt chain = some .directory) (hpiece : piece = "" ∨ piece = ".") :
    t.walk limits follow links chain (piece :: rest) = t.walk limits follow links chain rest := by
  obtain ⟨e, hat, hkind⟩ := exists_at?_of_kindAt hdir
  rw [walk, hat]
  dsimp only
  rw [if_neg (by simp [Entry.kind_eq_directory_iff.mp hkind]), if_pos (by simpa using hpiece)]

theorem walk_up (hdir : t.kindAt chain = some .directory) :
    t.walk limits follow links chain (".." :: rest) =
      t.walk limits follow links chain.dropLast rest := by
  obtain ⟨e, hat, hkind⟩ := exists_at?_of_kindAt hdir
  rw [walk, hat]
  dsimp only
  rw [if_neg (by simp [Entry.kind_eq_directory_iff.mp hkind]), if_neg (by decide), if_pos rfl]

theorem walk_of_exceeds (hdir : t.kindAt chain = some .directory) (hname : IsName piece)
    (hsize : Limits.exceeds limits.name piece = true) :
    t.walk limits follow links chain (piece :: rest) = .error .nameTooLong := by
  obtain ⟨e, hat, hkind⟩ := exists_at?_of_kindAt hdir
  rw [walk, hat]
  dsimp only
  rw [if_neg (by simp [Entry.kind_eq_directory_iff.mp hkind]),
    if_neg (by simp [hname.ne_empty, hname.ne_here]), if_neg hname.ne_up, if_pos hsize]

/-- What is asked of an entry by its name. -/
theorem walk_name (hat : t.root.at? chain = some e) (hkind : e.kind = .directory)
    (hname : IsName piece) (hsize : Limits.exceeds limits.name piece = false) :
    t.walk limits follow links chain (piece :: rest) =
      match e.child? piece with
      | none =>
        if rest.all (· == "") then .ok (.free chain piece (!rest.isEmpty)) else .error .noSuchFile
      | some (.link _ target) =>
        if rest.isEmpty && !follow then .ok (.entry (chain ++ [piece]) (.link piece target))
        else
          match links with
          | 0 => .error .tooManyLinks
          | links + 1 =>
            t.walk limits follow links ((Path.mk target).startFrom chain)
              ((Path.mk target).allPieces ++ rest)
      | some _ => t.walk limits follow links (chain ++ [piece]) rest := by
  rw [walk, hat]
  dsimp only
  rw [if_neg (by simp [Entry.kind_eq_directory_iff.mp hkind]),
    if_neg (by simp [hname.ne_empty, hname.ne_here]), if_neg hname.ne_up, if_neg (by simp [hsize])]
  rfl

theorem walk_down (hdir : t.kindAt chain = some .directory) (hname : IsName piece)
    (hsize : Limits.exceeds limits.name piece = false)
    (hpiece : t.kindAt (chain ++ [piece]) = some k) (hlink : ∀ target, k ≠ .link target) :
    t.walk limits follow links chain (piece :: rest) =
      t.walk limits follow links (chain ++ [piece]) rest := by
  obtain ⟨e, hat, hkind⟩ := exists_at?_of_kindAt hdir
  obtain ⟨c, hc, rfl⟩ := exists_at?_of_kindAt hpiece
  rw [at?_concat hat] at hc
  rw [walk_name hat hkind hname hsize, hc]
  cases c with
  | link own target => exact absurd rfl (hlink target)
  | file own bytes => rfl
  | directory own entries => rfl

theorem walk_link (hdir : t.kindAt chain = some .directory) (hname : IsName piece)
    (hsize : Limits.exceeds limits.name piece = false)
    (hpiece : t.kindAt (chain ++ [piece]) = some (.link target))
    (hfollow : rest = [] → follow = true) :
    t.walk limits follow (links + 1) chain (piece :: rest) =
      t.walk limits follow links ((Path.mk target).startFrom chain)
        ((Path.mk target).allPieces ++ rest) := by
  obtain ⟨e, hat, hkind⟩ := exists_at?_of_kindAt hdir
  obtain ⟨c, hc, hck⟩ := exists_at?_of_kindAt hpiece
  rw [at?_concat hat] at hc
  rw [walk_name hat hkind hname hsize, hc]
  cases c with
  | link own target' =>
    obtain rfl : target' = target := by simpa [Entry.kind] using hck
    have hlast : (rest.isEmpty && !follow) = false := by
      cases rest with
      | nil => simp [hfollow rfl]
      | cons next rest => rfl
    dsimp only
    rw [hlast]
    rfl
  | file own bytes => cases hck
  | directory own entries => cases hck

theorem walk_of_child_none (hdir : t.kindAt chain = some .directory) (hname : IsName piece)
    (hsize : Limits.exceeds limits.name piece = false)
    (hpiece : t.kindAt (chain ++ [piece]) = none) :
    t.walk limits follow links chain (piece :: rest) =
      if rest.all (· == "") then .ok (.free chain piece (!rest.isEmpty))
      else .error .noSuchFile := by
  obtain ⟨e, hat, hkind⟩ := exists_at?_of_kindAt hdir
  have hc := Entry.kindAt_eq_none_iff.mp hpiece
  rw [at?_concat hat] at hc
  rw [walk_name hat hkind hname hsize, hc]

/-! ### Walks that end at an entry -/

/-- **The pieces lead to an entry**: with so many links left they lead from the first chain to the
second, and so many links are left then. -/
inductive Leads (t : Tree) (limits : Limits) :
    Nat → List String → List String → Nat → List String → Prop
  /-- Nothing is left of the path. -/
  | done {links : Nat} {chain : List String} (here : t.kindAt chain ≠ none) :
      Leads t limits links chain [] links chain
  /-- An empty piece or a full stop stays. -/
  | stay {links links' : Nat} {chain rest base : List String} {piece : String}
      (dir : t.kindAt chain = some .directory) (neutral : piece = "" ∨ piece = ".")
      (more : Leads t limits links chain rest links' base) :
      Leads t limits links chain (piece :: rest) links' base
  /-- Two full stops lead up. -/
  | up {links links' : Nat} {chain rest base : List String}
      (dir : t.kindAt chain = some .directory)
      (more : Leads t limits links chain.dropLast rest links' base) :
      Leads t limits links chain (".." :: rest) links' base
  /-- A name leads down. -/
  | down {links links' : Nat} {chain rest base : List String} {piece : String} {k : Kind}
      (dir : t.kindAt chain = some .directory) (name : IsName piece)
      (size : Limits.exceeds limits.name piece = false)
      (entry : t.kindAt (chain ++ [piece]) = some k) (link : ∀ target, k ≠ .link target)
      (more : Leads t limits links (chain ++ [piece]) rest links' base) :
      Leads t limits links chain (piece :: rest) links' base
  /-- The name of a link leads to where its target does. -/
  | follow {links links' : Nat} {chain rest base : List String} {piece target : String}
      (dir : t.kindAt chain = some .directory) (name : IsName piece)
      (size : Limits.exceeds limits.name piece = false)
      (entry : t.kindAt (chain ++ [piece]) = some (.link target))
      (more : Leads t limits links ((Path.mk target).startFrom chain)
        ((Path.mk target).allPieces ++ rest) links' base) :
      Leads t limits (links + 1) chain (piece :: rest) links' base

theorem kindAt_of_isDirectory (h : t.root.at? chain = some e) (hdir : ¬(!e.isDirectory) = true) :
    t.kindAt chain = some .directory := by
  have hkind : e.kind = .directory := Entry.kind_eq_directory_iff.mpr (by simpa using hdir)
  rw [← hkind]
  exact kindAt_of_at? h

theorem isName_of_not (hplain : ¬(decide (piece = "") || decide (piece = ".")) = true)
    (hup : ¬piece = "..") : IsName piece := by
  obtain ⟨hempty, hhere⟩ : piece ≠ "" ∧ piece ≠ "." := by simpa using hplain
  exact ⟨hempty, hhere, hup⟩

theorem leads_of_walk (h : t.walk limits true links chain pieces = .ok (.entry base e)) :
    ∃ links', t.Leads limits links chain pieces links' base ∧ t.root.at? base = some e := by
  fun_induction t.walk limits true links chain pieces with
  | case1 links chain e' hat =>
    cases h
    exact ⟨links, .done (by simp [kindAt_of_at? hat]), hat⟩
  | case5 links chain piece rest e' hat hdir hpiece ih =>
    obtain ⟨links', hleads, hbase⟩ := ih h
    exact ⟨links', .stay (kindAt_of_isDirectory hat hdir) (by simpa using hpiece) hleads, hbase⟩
  | case6 links chain rest e' hat hdir _ ih =>
    obtain ⟨links', hleads, hbase⟩ := ih h
    exact ⟨links', .up (kindAt_of_isDirectory hat hdir) hleads, hbase⟩
  | case12 chain piece rest e' hat hdir hplain hup hsize own target hc _ links start all ih =>
    obtain ⟨links', hleads, hbase⟩ := ih h
    have hentry := kindAt_of_at? ((at?_concat hat piece).trans hc)
    exact ⟨links', .follow (kindAt_of_isDirectory hat hdir) (isName_of_not hplain hup)
      (by simpa using hsize)
      hentry hleads, hbase⟩
  | case13 links chain piece rest e' hat hdir hplain hup hsize c hlink hc ih =>
    obtain ⟨links', hleads, hbase⟩ := ih h
    have hentry := kindAt_of_at? ((at?_concat hat piece).trans hc)
    refine ⟨links', .down (kindAt_of_isDirectory hat hdir) (isName_of_not hplain hup)
      (by simpa using hsize)
      hentry (fun target heq => ?_) hleads, hbase⟩
    cases c with
    | link own target' => exact hlink own target' rfl
    | file own bytes => cases heq
    | directory own entries => cases heq
  | case10 links chain piece rest e' hat hdir hplain hup hsize own target hc hlast => simp at hlast
  | _ => cases h

/-- **A longer path goes on where the shorter one leads.** -/
theorem Leads.walk_append (h : t.Leads limits links chain pieces links' base)
    (hrest : rest = [] → follow = true) :
    t.walk limits follow links chain (pieces ++ rest) =
      t.walk limits follow links' base rest := by
  induction h with
  | done => rfl
  | stay hdir hpiece _ ih => rw [List.cons_append, walk_stay hdir hpiece, ih]
  | up hdir _ ih => rw [List.cons_append, walk_up hdir, ih]
  | down hdir hname hsize hentry hlink _ ih =>
    rw [List.cons_append, walk_down hdir hname hsize hentry hlink, ih]
  | follow hdir hname hsize hentry _ ih =>
    rw [List.cons_append, walk_link hdir hname hsize hentry (fun hnil => ?_), ← List.append_assoc,
      ih]
    exact hrest (List.append_eq_nil_iff.mp hnil).2

/-- **A path leads to the same place in a tree that keeps the shape.** -/
theorem Leads.keep (h : t.Leads limits links chain pieces links' base) (hx : t.KeepsShape t') :
    t'.Leads limits links chain pieces links' base := by
  induction h with
  | done hhere =>
    obtain ⟨k, hk⟩ := Option.ne_none_iff_exists'.mp hhere
    obtain ⟨k', hk', -⟩ := hx.kindAt hk
    exact .done (by simp [hk'])
  | stay hdir hpiece _ ih => exact .stay (hx.directory hdir) hpiece ih
  | up hdir _ ih => exact .up (hx.directory hdir) ih
  | down hdir hname hsize hentry hlink _ ih =>
    obtain ⟨k', hk', hshape⟩ := hx.kindAt hentry
    exact .down (hx.directory hdir) hname hsize hk' (Kind.ne_link_of_shape hshape hlink) ih
  | follow hdir hname hsize hentry _ ih =>
    exact .follow (hx.directory hdir) hname hsize (hx.link hentry) ih

/-- A path leads to the same place in a tree that has more. -/
theorem Leads.extend (h : t.Leads limits links chain pieces links' base) (hx : t.Extends t') :
    t'.Leads limits links chain pieces links' base :=
  h.keep hx.keepsShape

/-- Pieces that stay lead nowhere else. -/
theorem Leads.of_neutral (h : t.Leads limits links chain trail links' base)
    (htrail : ∀ piece ∈ trail, piece = "" ∨ piece = ".") :
    t.Leads limits links chain [] links' base := by
  induction h with
  | done hhere => exact .done hhere
  | stay _ _ _ ih => exact ih fun piece hpiece => htrail piece (List.mem_cons_of_mem _ hpiece)
  | up => exact absurd (htrail ".." List.mem_cons_self) (by decide)
  | down _ hname | follow _ hname =>
    rcases htrail _ List.mem_cons_self with hempty | hhere
    · exact absurd hempty hname.ne_empty
    · exact absurd hhere hname.ne_here

/-- A piece is followed from a directory only. -/
theorem Leads.directory (h : t.Leads limits links chain pieces links' base) (hne : pieces ≠ []) :
    t.kindAt chain = some .directory := by
  cases h with
  | done => exact absurd rfl hne
  | stay hdir | up hdir | down hdir | follow hdir => exact hdir

/-- **The pieces lead on from where the first of them lead.** -/
theorem Leads.split (h : t.Leads limits links chain (pieces ++ rest) links' base) :
    ∃ links'' mid, t.Leads limits links chain pieces links'' mid ∧
      t.Leads limits links'' mid rest links' base := by
  -- where none of the first pieces is left, the rest leads on from here
  generalize hall : pieces ++ rest = all at h
  induction h generalizing pieces with
  | done hhere =>
    obtain ⟨rfl, rfl⟩ := List.append_eq_nil_iff.mp hall
    exact ⟨_, _, .done hhere, .done hhere⟩
  | stay hdir hpiece hmore ih =>
    cases pieces with
    | nil =>
      cases hall
      exact ⟨_, _, .done (by simp [hdir]), .stay hdir hpiece hmore⟩
    | cons first pieces =>
      obtain ⟨rfl, hrest⟩ := List.cons.inj hall
      obtain ⟨_, mid, hfirst, hlast⟩ := ih hrest
      exact ⟨_, mid, .stay hdir hpiece hfirst, hlast⟩
  | up hdir hmore ih =>
    cases pieces with
    | nil =>
      cases hall
      exact ⟨_, _, .done (by simp [hdir]), .up hdir hmore⟩
    | cons first pieces =>
      obtain ⟨rfl, hrest⟩ := List.cons.inj hall
      obtain ⟨_, mid, hfirst, hlast⟩ := ih hrest
      exact ⟨_, mid, .up hdir hfirst, hlast⟩
  | down hdir hname hsize hentry hlink hmore ih =>
    cases pieces with
    | nil =>
      cases hall
      exact ⟨_, _, .done (by simp [hdir]), .down hdir hname hsize hentry hlink hmore⟩
    | cons first pieces =>
      obtain ⟨rfl, hrest⟩ := List.cons.inj hall
      obtain ⟨_, mid, hfirst, hlast⟩ := ih hrest
      exact ⟨_, mid, .down hdir hname hsize hentry hlink hfirst, hlast⟩
  | follow hdir hname hsize hentry hmore ih =>
    cases pieces with
    | nil =>
      cases hall
      exact ⟨_, _, .done (by simp [hdir]), .follow hdir hname hsize hentry hmore⟩
    | cons first pieces =>
      obtain ⟨rfl, rfl⟩ := List.cons.inj hall
      -- the pieces of the link come before those that are left
      obtain ⟨_, mid, hfirst, hlast⟩ := ih (List.append_assoc ..)
      exact ⟨_, mid, .follow hdir hname hsize hentry hfirst, hlast⟩

/-- Pieces that stay can be left out at the end. -/
theorem Leads.of_append (h : t.Leads limits links chain (pieces ++ trail) links' base)
    (htrail : ∀ piece ∈ trail, piece = "" ∨ piece = ".") :
    t.Leads limits links chain pieces links' base := by
  obtain ⟨links'', mid, hfirst, hlast⟩ := h.split
  cases hlast.of_neutral htrail
  exact hfirst

/-- If the last link is not followed, there is an entry as well. -/
theorem Leads.exists_walk (h : t.Leads limits links chain pieces links' base) :
    ∃ chain' e, t.walk limits false links chain pieces = .ok (.entry chain' e) := by
  induction h with
  | done hhere =>
    obtain ⟨k, hk⟩ := Option.ne_none_iff_exists'.mp hhere
    obtain ⟨e, hat, -⟩ := exists_at?_of_kindAt hk
    exact ⟨_, e, walk_nil hat⟩
  | stay hdir hpiece _ ih => rwa [walk_stay hdir hpiece]
  | up hdir _ ih => rwa [walk_up hdir]
  | down hdir hname hsize hentry hlink _ ih => rwa [walk_down hdir hname hsize hentry hlink]
  | @follow links links' chain rest base piece target hdir hname hsize hentry _ ih =>
    by_cases hrest : rest = []
    · -- the link itself
      subst hrest
      obtain ⟨e, hat, hkind⟩ := exists_at?_of_kindAt hdir
      obtain ⟨c, hc, hck⟩ := exists_at?_of_kindAt hentry
      rw [at?_concat hat] at hc
      rw [walk_name hat hkind hname hsize, hc]
      cases c with
      | link own target' => exact ⟨_, _, rfl⟩
      | file own bytes => cases hck
      | directory own entries => cases hck
    · rwa [walk_link hdir hname hsize hentry fun hnil => absurd hnil hrest]

/-- Where a walk ends at a name that is free, the pieces before the name lead to a directory. -/
theorem exists_leads_of_free
    (h : t.walk limits false links chain pieces = .ok (.free base name false)) :
    ∃ front links', pieces = front ++ [name] ∧ IsName name ∧
      t.Leads limits links chain front links' base ∧ t.kindAt base = some .directory ∧
        t.kindAt (base ++ [name]) = none := by
  fun_induction t.walk limits false links chain pieces with
  | case5 links chain piece rest e hat hdir hpiece ih =>
    obtain ⟨front, links', rfl, hname, hleads, hbase⟩ := ih h
    exact ⟨piece :: front, links', rfl, hname,
      .stay (kindAt_of_isDirectory hat hdir) (by simpa using hpiece) hleads, hbase⟩
  | case6 links chain rest e hat hdir _ ih =>
    obtain ⟨front, links', rfl, hname, hleads, hbase⟩ := ih h
    exact ⟨".." :: front, links', rfl, hname, .up (kindAt_of_isDirectory hat hdir) hleads, hbase⟩
  | case8 links chain piece rest e hat hdir hplain hup hsize hc hall =>
    simp only [Except.ok.injEq, Goal.free.injEq, Bool.not_eq_false', List.isEmpty_iff] at h
    obtain ⟨rfl, rfl, rfl⟩ := h
    have hdir' := kindAt_of_isDirectory hat hdir
    exact ⟨[], links, rfl, (isName_of_not hplain hup), .done (by simp [hdir']), hdir',
      Entry.kindAt_eq_none_iff.mpr ((at?_concat hat piece).trans hc)⟩
  | case12 chain piece rest e hat hdir hplain hup hsize own target hc hrest links start all ih =>
    obtain ⟨front, links', hpieces, hname, hleads, hbase⟩ := ih h
    have hentry := kindAt_of_at? ((at?_concat hat piece).trans hc)
    -- the link is not the last piece, so the name is what it was before
    obtain ⟨more, last, rfl⟩ := (List.eq_nil_or_concat rest).resolve_left (by simpa using hrest)
    rw [List.concat_eq_append, ← List.append_assoc] at hpieces
    obtain ⟨rfl, hlast⟩ := List.append_inj' hpieces rfl
    obtain rfl := List.singleton_inj.mp hlast
    exact ⟨piece :: more, links', by rw [List.concat_eq_append]; rfl, hname,
      .follow (kindAt_of_isDirectory hat hdir) (isName_of_not hplain hup) (by simpa using hsize)
        hentry hleads,
      hbase⟩
  | case13 links chain piece rest e hat hdir hplain hup hsize c hlink hc ih =>
    obtain ⟨front, links', rfl, hname, hleads, hbase⟩ := ih h
    have hentry := kindAt_of_at? ((at?_concat hat piece).trans hc)
    refine ⟨piece :: front, links', rfl, hname, .down (kindAt_of_isDirectory hat hdir)
      (isName_of_not hplain hup) (by simpa using hsize) hentry (fun target heq => ?_) hleads, hbase⟩
    cases c with
    | link own target' => exact hlink own target' rfl
    | file own bytes => cases heq
    | directory own entries => cases heq
  | _ => cases h

/-! ### Walks along names -/

/-- The first of several names leads to the entry or to a directory, not to a link. -/
theorem exists_kindAt_first (h : t.kindAt (base ++ [name] ++ names) = some k)
    (hlink : ∀ target, k ≠ .link target) :
    ∃ k', t.kindAt (base ++ [name]) = some k' ∧ ∀ target, k' ≠ .link target := by
  by_cases hlast : names = []
  · subst hlast
    exact ⟨k, by simpa using h, hlink⟩
  · exact ⟨.directory, kindAt_of_append h hlast, fun target heq => by cases heq⟩

theorem walk_names_within (hnames : ∀ name ∈ names, IsName name)
    (hsizes : ∀ name ∈ names, Limits.exceeds limits.name name = false)
    (h : t.kindAt (base ++ names) = some k) (hlink : ∀ target, k ≠ .link target) :
    ∃ e, t.walk limits follow links base names = .ok (.entry (base ++ names) e) ∧
      e.kind = k := by
  induction names generalizing base with
  | nil =>
    rw [List.append_nil] at h ⊢
    obtain ⟨e, hat, hkind⟩ := exists_at?_of_kindAt h
    exact ⟨e, walk_nil hat, hkind⟩
  | cons name names ih =>
    obtain ⟨hname, hnames⟩ := List.forall_mem_cons.mp hnames
    obtain ⟨hsize, hsizes⟩ := List.forall_mem_cons.mp hsizes
    have hdir := kindAt_of_append h (List.cons_ne_nil name names)
    rw [List.append_cons] at h ⊢
    obtain ⟨k', hk', hlink'⟩ := exists_kindAt_first h hlink
    rw [walk_down hdir hname hsize hk' hlink']
    exact ih hnames hsizes h

theorem walk_names (hnames : ∀ name ∈ names, IsName name) (h : t.kindAt (base ++ names) = some k)
    (hlink : ∀ target, k ≠ .link target) :
    ∃ e, t.walk .unbounded follow links base names = .ok (.entry (base ++ names) e) ∧
      e.kind = k :=
  walk_names_within hnames (fun _ _ => rfl) h hlink

/-- No walk passes a name that is too long. -/
theorem walk_names_of_exceeds (hnames : ∀ name ∈ names, IsName name)
    (hlong : ∃ name ∈ names, Limits.exceeds limits.name name = true)
    (h : t.kindAt (base ++ names) = some k) (hlink : ∀ target, k ≠ .link target) :
    t.walk limits follow links base names = .error .nameTooLong := by
  induction names generalizing base with
  | nil =>
    obtain ⟨name, hname, -⟩ := hlong
    cases hname
  | cons name names ih =>
    obtain ⟨hname, hnames⟩ := List.forall_mem_cons.mp hnames
    have hdir := kindAt_of_append h (List.cons_ne_nil name names)
    by_cases hsize : Limits.exceeds limits.name name = true
    · exact walk_of_exceeds hdir hname hsize
    · rw [Bool.not_eq_true] at hsize
      rw [List.append_cons] at h
      obtain ⟨k', hk', hlink'⟩ := exists_kindAt_first h hlink
      rw [walk_down hdir hname hsize hk' hlink']
      obtain ⟨long, hmem, hlong⟩ := hlong
      rcases List.mem_cons.mp hmem with rfl | hmem
      · rw [hlong] at hsize
        cases hsize
      · exact ih hnames ⟨long, hmem, hlong⟩ h

theorem walk_free (hnames : ∀ name ∈ names, IsName name) (hname : IsName name)
    (hdir : t.kindAt (base ++ names) = some .directory)
    (hfree : t.kindAt (base ++ names ++ [name]) = none) :
    t.walk .unbounded follow links base (names ++ [name]) =
      .ok (.free (base ++ names) name false) := by
  induction names generalizing base with
  | nil =>
    rw [List.append_nil] at hdir hfree ⊢
    rw [List.nil_append, walk_of_child_none hdir hname rfl hfree]
    rfl
  | cons next names ih =>
    obtain ⟨hnext, hnames⟩ := List.forall_mem_cons.mp hnames
    have hbase := kindAt_of_append hdir (List.cons_ne_nil next names)
    rw [List.append_cons base next names] at hdir hfree ⊢
    have hstep : t.kindAt (base ++ [next]) = some .directory := by
      by_cases hlast : names = []
      · subst hlast
        simpa using hdir
      · exact kindAt_of_append hdir hlast
    rw [List.cons_append, walk_down hbase hnext rfl hstep (fun target heq => by cases heq)]
    exact ih hnames hdir hfree

theorem walk_missing (hnames : ∀ name ∈ names, IsName name) (hname : IsName name)
    (hinitial : ∀ front, front <+: names →
      t.kindAt (base ++ front) = some .directory ∨ t.kindAt (base ++ front) = none)
    (hmissing : t.kindAt (base ++ names) = none) :
    t.walk .unbounded follow links base (names ++ [name]) = .error .noSuchFile := by
  induction names generalizing base with
  | nil =>
    rw [List.append_nil] at hmissing
    exact walk_of_none hmissing
  | cons next names ih =>
    obtain ⟨hnext, hnames⟩ := List.forall_mem_cons.mp hnames
    rcases hinitial [] List.nil_prefix with hbase | hbase
    · rw [List.append_nil] at hbase
      have hfront : [next] <+: next :: names := List.cons_prefix_cons.mpr ⟨rfl, List.nil_prefix⟩
      rcases hinitial [next] hfront with hstep | hstep
      · rw [List.cons_append, walk_down hbase hnext rfl hstep (fun target heq => by cases heq)]
        refine ih hnames (fun front hfront => ?_) (by rwa [List.append_cons] at hmissing)
        have hmore := hinitial (next :: front) (List.cons_prefix_cons.mpr ⟨rfl, hfront⟩)
        rwa [List.append_cons] at hmore
      · -- the name is still to come, so what is missing is a directory
        rw [List.cons_append, walk_of_child_none hbase hnext rfl hstep, if_neg]
        intro hall
        have hlast := List.all_eq_true.mp hall name (by simp)
        exact hname.ne_empty (eq_of_beq hlast)
    · rw [List.append_nil] at hbase
      exact walk_of_none hbase

end Tree

end ViewBinding.Files
