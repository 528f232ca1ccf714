import Mathlib.Data.List.DropRight
import ViewBinding.Proofs.Files.Inside
import ViewBinding.Proofs.Files.Walks

/-!
# Paths below a directory

A path that names of directories are pushed to, one after the other, is written with a slash between
them: it is `ViewBinding.Files.Path.spelled`. Pushed to a directory in turn, it adds its names to
the stem of that directory, which is what the directory is written with up to a slash at its end
(`ViewBinding.Files.Path.Stem`). Going up again takes the names away one by one
(`ViewBinding.Files.Path.Stem.parent?_push`), down to the directory itself, of whose path no more is
left than what counts (`ViewBinding.Files.Path.Stem.parent?_push_single`).
-/

namespace ViewBinding.Files

open Text

/-- The text is a name, and it stands in a path as one piece. -/
structure IsProperName (text : String) : Prop extends IsName text where
  slash : '/' ∉ text.toList
  null : '\x00' ∉ text.toList

namespace Path

variable {p q : Path} {names : List String} {name next : String} {stem : List (List Char)}

/-- Names with a slash between each two neighbours. -/
def spelled (names : List String) : String :=
  String.ofList (joinPieces '/' (names.map String.toList))

/-! ### Pieces -/

/-- A path is its pieces, with a slash in front if it is absolute. -/
theorem text_eq (p : Path) :
    p.text.toList = (if p.isAbsolute then ['/'] else []) ++ joinPieces '/' p.body := by
  rw [body, joinPieces_pieces]
  split
  · rename_i h
    rw [isAbsolute, beq_iff_eq, List.head?_eq_some_iff] at h
    obtain ⟨rest, hrest⟩ := h
    rw [hrest]
    rfl
  · rfl

theorem eq_of_body (habsolute : p.isAbsolute = q.isAbsolute) (hbody : p.body = q.body) :
    p = q := by
  have htext : p.text.toList = q.text.toList := by rw [text_eq p, text_eq q, habsolute, hbody]
  exact congrArg Path.mk (String.toList_inj.mp htext)

/-- The pieces of the whole path are those of its body, after an empty one if it is absolute. -/
theorem allPieces_eq (p : Path) :
    p.allPieces = (if p.isAbsolute then [""] else []) ++ p.body.map String.ofList := by
  rw [allPieces, body]
  split
  · rename_i h
    rw [isAbsolute, beq_iff_eq, List.head?_eq_some_iff] at h
    obtain ⟨rest, hrest⟩ := h
    rw [hrest, List.tail_cons, pieces, if_pos rfl]
    rfl
  · rfl

theorem body_ne_nil (p : Path) : p.body ≠ [] :=
  pieces_ne_nil _

/-! ### Names -/

theorem toList_spelled (names : List String) :
    (spelled names).toList = joinPieces '/' (names.map String.toList) :=
  String.toList_ofList

section Plain

variable (hnames : ∀ name ∈ names, IsProperName name) (hne : names ≠ [])

include hnames hne

theorem pieces_spelled : pieces '/' (spelled names).toList = names.map String.toList := by
  rw [toList_spelled]
  refine pieces_joinPieces (by simpa using hne) fun piece hpiece => ?_
  obtain ⟨name, hname, rfl⟩ := List.mem_map.mp hpiece
  exact (hnames name hname).slash

theorem isAbsolute_spelled : (Path.mk (spelled names)).isAbsolute = false := by
  by_contra habsolute
  have hpieces := pieces_spelled hnames hne
  rw [Bool.not_eq_false, isAbsolute, beq_iff_eq, List.head?_eq_some_iff] at habsolute
  obtain ⟨rest, hrest⟩ := habsolute
  -- a leading slash would follow an empty name
  obtain ⟨first, more, rfl⟩ := List.exists_cons_of_ne_nil hne
  rw [show (Path.mk (spelled (first :: more))).text = spelled (first :: more) from rfl] at hrest
  rw [hrest, pieces, if_pos rfl, List.map_cons, List.cons.injEq] at hpieces
  exact (hnames first List.mem_cons_self).ne_empty (String.toList_eq_nil_iff.mp hpieces.1.symm)

theorem body_spelled : (Path.mk (spelled names)).body = names.map String.toList := by
  rw [body_of_relative (isAbsolute_spelled hnames hne)]
  exact pieces_spelled hnames hne

theorem null_not_mem_spelled : '\x00' ∉ (spelled names).toList := by
  intro hmem
  obtain ⟨piece, hpiece, hnull⟩ := exists_mem_pieces_iff.mpr ⟨hmem, show '\x00' ≠ '/' by decide⟩
  rw [pieces_spelled hnames hne] at hpiece
  obtain ⟨name, hname, rfl⟩ := List.mem_map.mp hpiece
  exact (hnames name hname).null hnull

end Plain

theorem ofPiece?_toList (h : IsName name) : Component.ofPiece? name.toList = some (.name name) := by
  have hne {s : String} (h : name ≠ s) : name.toList ≠ s.toList := fun heq =>
    h (String.toList_inj.mp heq)
  have hempty := hne h.ne_empty
  have hhere := hne h.ne_here
  have hup := hne h.ne_up
  unfold Component.ofPiece?
  split
  · exact absurd ‹_› hempty
  · exact absurd ‹_› hhere
  · exact absurd ‹_› hup
  · rw [String.ofList_toList]

section Plain

variable (hnames : ∀ name ∈ names, IsProperName name) (hne : names ≠ [])

include hnames hne

theorem opening_spelled : (Path.mk (spelled names)).opening = [] := by
  rw [opening, isAbsolute_spelled hnames hne, body_spelled hnames hne]
  obtain ⟨first, more, rfl⟩ := List.exists_cons_of_ne_nil hne
  have hhere : first.toList ≠ ".".toList := fun heq =>
    (hnames first List.mem_cons_self).ne_here (String.toList_inj.mp heq)
  simp only [Bool.false_eq_true, if_false, List.map_cons, List.head?_cons, Option.some_inj]
  exact if_neg hhere

theorem inner_spelled : (Path.mk (spelled names)).inner = names.map Component.name := by
  rw [inner, body_spelled hnames hne, List.filterMap_map]
  calc names.filterMap (Component.ofPiece? ∘ String.toList)
      = names.filterMap (some ∘ Component.name) :=
        List.filterMap_congr fun name hname => ofPiece?_toList (hnames name hname).toIsName
    _ = names.map Component.name := by rw [List.filterMap_eq_map]

/-- The components of a path that is spelled by names. -/
theorem components_spelled : (Path.mk (spelled names)).components = names.map Component.name := by
  rw [components_eq, opening_spelled hnames hne, inner_spelled hnames hne, List.nil_append]

/-- Pushed to a directory, the names are among the components. -/
theorem length_le_components_push (p : Path) :
    names.length ≤ (p.push (spelled names)).components.length := by
  rw [components_eq, inner_push p (isAbsolute_spelled hnames hne), inner_spelled hnames hne,
    List.length_append, List.length_append, List.length_map]
  omega

end Plain

/-! ### The stem of a directory -/

/-- What pushing a relative path keeps of the pieces of `p`: all of them but an empty one at the
end. -/
structure Stem (p : Path) (stem : List (List Char)) : Prop where
  body : p.body = stem ∨ p.body = stem ++ [[]]
  push : ∀ {next}, (Path.mk next).isAbsolute = false →
    (p.push next).body = stem ++ pieces '/' next.toList

/-- The characters after the root directory. -/
def afterRoot (p : Path) : List Char :=
  if p.isAbsolute then p.text.toList.tail else p.text.toList

theorem body_eq_afterRoot (p : Path) : p.body = pieces '/' p.afterRoot := rfl

theorem text_eq_afterRoot (p : Path) :
    p.text.toList = (if p.isAbsolute then ['/'] else []) ++ p.afterRoot := by
  rw [text_eq, body_eq_afterRoot, joinPieces_pieces]

theorem afterRoot_append {s : String} (h : (Path.mk (p.text ++ s)).isAbsolute = p.isAbsolute) :
    (Path.mk (p.text ++ s)).afterRoot = p.afterRoot ++ s.toList := by
  have htext := text_eq_afterRoot ⟨p.text ++ s⟩
  rw [h, String.toList_append, text_eq_afterRoot p, List.append_assoc] at htext
  exact (List.append_cancel_left htext).symm

theorem exists_stem (p : Path) : ∃ stem, p.Stem stem := by
  have hroot {next : String} (h : (Path.mk next).isAbsolute = false) :
      (p.push next).isAbsolute = p.isAbsolute := by rw [isAbsolute_push, h, Bool.or_false]
  -- a text that ends in a slash, or an empty one, gets no slash of its own
  by_cases hslash : p.text.toList.getLast?.all (· == '/') = true
  · have hpush {next : String} (h : (Path.mk next).isAbsolute = false) :
        p.push next = ⟨p.text ++ next⟩ := by rw [push, if_neg (by simp [h]), if_pos hslash]
    have hafter {next : String} (h : (Path.mk next).isAbsolute = false) :
        (p.push next).afterRoot = p.afterRoot ++ next.toList := by
      rw [hpush h]
      exact afterRoot_append (hpush h ▸ hroot h)
    rcases List.eq_nil_or_concat p.afterRoot with hnil | ⟨front, c, hconcat⟩
    · refine ⟨[], .inr ?_, fun h => ?_⟩
      · rw [body_eq_afterRoot, hnil]
        rfl
      · rw [body_eq_afterRoot, hafter h, hnil]
        rfl
    · obtain rfl : c = '/' := by
        rw [text_eq_afterRoot, hconcat, List.concat_eq_append, ← List.append_assoc,
          List.getLast?_concat] at hslash
        simpa using hslash
      rw [List.concat_eq_append] at hconcat
      refine ⟨pieces '/' front, .inr ?_, fun h => ?_⟩
      · rw [body_eq_afterRoot, hconcat, pieces_append]
        rfl
      · rw [body_eq_afterRoot, hafter h, hconcat, List.append_assoc, List.singleton_append,
          pieces_append]
  · refine ⟨p.body, .inl rfl, fun {next} h => ?_⟩
    have hpush : p.push next = ⟨p.text ++ ("/" ++ next)⟩ := by
      rw [push, if_neg (by simp [h]), if_neg hslash, String.append_assoc]
    rw [body_eq_afterRoot, hpush, afterRoot_append (hpush ▸ hroot h), String.toList_append,
      body_eq_afterRoot, ← pieces_append]
    rfl

/-- Names that are pushed one after the other spell a path. -/
theorem foldl_push_eq_spelled (hnames : ∀ name ∈ names, IsProperName name) (hne : names ≠ []) :
    names.foldl push ⟨""⟩ = ⟨spelled names⟩ := by
  induction names using List.reverseRecOn with
  | nil => contradiction
  | append_singleton names name ih =>
    have hname : IsProperName name := hnames name (by simp)
    have hinit : ∀ n ∈ names, IsProperName n := fun n hn => hnames n (List.mem_append_left _ hn)
    have hrelative : (Path.mk name).isAbsolute = false := isAbsolute_of_not_mem hname.slash
    rw [List.foldl_append, List.foldl_cons, List.foldl_nil]
    by_cases hnil : names = []
    · subst hnil
      rw [List.foldl_nil, push_empty, List.nil_append, spelled, List.map_singleton, joinPieces,
        String.ofList_toList]
    · rw [ih hinit hnil]
      obtain ⟨stem, hstem⟩ := (Path.mk (spelled names)).exists_stem
      -- the last name is not empty, so the stem is the whole path
      have hbody : (Path.mk (spelled names)).body = stem := by
        refine hstem.body.resolve_right fun hempty => ?_
        rw [body_spelled hinit hnil] at hempty
        obtain ⟨last, hlast, hnone⟩ := List.mem_map.mp
          (show ([] : List Char) ∈ names.map String.toList by simp [hempty])
        exact (hinit last hlast).ne_empty (String.toList_eq_nil_iff.mp hnone)
      refine eq_of_body ?_ ?_
      · rw [isAbsolute_push, isAbsolute_spelled hinit hnil, hrelative,
          isAbsolute_spelled hnames hne]
        rfl
      · rw [hstem.push hrelative, ← hbody, body_spelled hinit hnil, body_spelled hnames hne,
          pieces_of_not_mem hname.slash, List.map_append, List.map_singleton]

/-! ### Going up -/

/-- Whether the piece stands for no component, but perhaps at the start of a path. -/
def isNeutral (piece : List Char) : Bool :=
  piece == [] || piece == ['.']

theorem isNeutral_toList (h : IsName name) : isNeutral name.toList = false := by
  rw [isNeutral, Bool.or_eq_false_iff, beq_eq_false_iff_ne, beq_eq_false_iff_ne]
  exact ⟨fun heq => h.ne_empty (String.toList_eq_nil_iff.mp heq),
    fun heq => h.ne_here (String.toList_inj.mp heq)⟩

/-- Trimming drops the neutral pieces at the end, but for a full stop at the start. -/
theorem trimmed_cases (absolute : Bool) (all : List (List Char)) :
    trimmed absolute all = all.rdropWhile isNeutral ∨
      ∃ rest, all = ['.'] :: rest ∧
        trimmed absolute all = ['.'] :: rest.rdropWhile isNeutral := by
  unfold trimmed
  dsimp only
  split
  · rename_i rest
    exact .inr ⟨rest, rfl, rfl⟩
  · exact .inl rfl

theorem exists_trimmed_append (absolute : Bool) (all : List (List Char)) :
    ∃ trail, all = trimmed absolute all ++ trail ∧ ∀ piece ∈ trail, isNeutral piece = true := by
  rcases trimmed_cases absolute all with h | ⟨rest, hall, h⟩
  · exact ⟨all.rtakeWhile isNeutral, by rw [h, List.rdropWhile_append_rtakeWhile],
      fun piece => List.mem_rtakeWhile_imp⟩
  · exact ⟨rest.rtakeWhile isNeutral,
      by rw [h, List.cons_append, List.rdropWhile_append_rtakeWhile, hall],
      fun piece => List.mem_rtakeWhile_imp⟩

theorem trimmed_concat (absolute : Bool) (all : List (List Char)) {piece : List Char}
    (h : isNeutral piece = false) : trimmed absolute (all ++ [piece]) = all ++ [piece] := by
  have hneg : ¬isNeutral piece = true := by simp [h]
  rcases trimmed_cases absolute (all ++ [piece]) with htrim | ⟨rest, hall, htrim⟩
  · rw [htrim, List.rdropWhile_concat_neg _ _ _ hneg]
  · cases all with
    | nil =>
      obtain ⟨rfl, -⟩ := List.cons.inj hall
      cases h
    | cons first all =>
      rw [List.cons_append] at hall
      obtain ⟨rfl, rfl⟩ := List.cons.inj hall
      rw [htrim, List.rdropWhile_concat_neg _ _ _ hneg, List.cons_append]

/-- What is left does not end in an empty piece. -/
theorem getLast?_trimmed_ne (absolute : Bool) (all : List (List Char)) :
    (trimmed absolute all).getLast? ≠ some [] := by
  have hdrop (ps : List (List Char)) : (ps.rdropWhile isNeutral).getLast? ≠ some [] := by
    intro hlast
    have hne : ps.rdropWhile isNeutral ≠ [] := fun hnil => by rw [hnil] at hlast; cases hlast
    rw [List.getLast?_eq_some_getLast hne, Option.some_inj] at hlast
    exact List.rdropWhile_last_not isNeutral ps hne (by rw [hlast]; rfl)
  rcases trimmed_cases absolute all with h | ⟨rest, -, h⟩
  · rw [h]
    exact hdrop all
  · rw [h, List.getLast?_cons]
    cases hk : (rest.rdropWhile isNeutral).getLast? with
    | none => simp
    | some last => exact fun heq => hdrop rest (hk.trans heq)

/-- The path with these pieces. -/
def ofPieces (absolute : Bool) (all : List (List Char)) : Path :=
  let text := String.ofList (joinPieces '/' all)
  ⟨if absolute then "/" ++ text else text⟩

theorem ofPieces_body (p : Path) : ofPieces p.isAbsolute p.body = p := by
  refine congrArg Path.mk (String.toList_inj.mp ?_)
  rw [text_eq p]
  split <;> simp

theorem parent?_eq_some (h : trimmed p.isAbsolute p.body ≠ []) :
    p.parent? = some (ofPieces p.isAbsolute
      (trimmed p.isAbsolute (trimmed p.isAbsolute p.body).dropLast)) := by
  rw [parent?]
  split
  · contradiction
  · rfl

theorem parent?_of_body_concat {piece : List Char} (hbody : p.body = stem ++ [piece])
    (hpiece : isNeutral piece = false) :
    p.parent? = some (ofPieces p.isAbsolute (trimmed p.isAbsolute stem)) := by
  have htrim : trimmed p.isAbsolute p.body = stem ++ [piece] := by
    rw [hbody, trimmed_concat _ _ hpiece]
  rw [parent?_eq_some (by simp [htrim]), htrim, List.dropLast_concat]

section Push

variable (hstem : p.Stem stem)

include hstem

/-- **The directory of a name is the path without it.** -/
theorem Stem.parent?_push (hnames : ∀ name ∈ names, IsProperName name) (hne : names ≠ [])
    (hname : IsProperName name) :
    (p.push (spelled (names ++ [name]))).parent? = some (p.push (spelled names)) := by
  have hall : ∀ n ∈ names ++ [name], IsProperName n := by
    intro n hn
    rcases List.mem_append.mp hn with hn | hn
    · exact hnames n hn
    · rw [List.mem_singleton.mp hn]
      exact hname
  have habove := isAbsolute_spelled hnames hne
  have hbelow := isAbsolute_spelled hall (by simp)
  have hroot : (p.push (spelled names)).isAbsolute =
      (p.push (spelled (names ++ [name]))).isAbsolute := by
    rw [isAbsolute_push, isAbsolute_push, habove, hbelow]
  have hbody : (p.push (spelled (names ++ [name]))).body =
      (p.push (spelled names)).body ++ [name.toList] := by
    rw [hstem.push hbelow, hstem.push habove, pieces_spelled hall (by simp),
      pieces_spelled hnames hne, List.map_append, List.append_assoc]
    rfl
  -- the last of the other names is no neutral piece either
  obtain ⟨front, last, rfl⟩ := (List.eq_nil_or_concat names).resolve_left hne
  have hlast : IsProperName last := hnames last (by simp)
  have htrim (absolute : Bool) : trimmed absolute (p.push (spelled (front.concat last))).body =
      (p.push (spelled (front.concat last))).body := by
    rw [hstem.push habove, pieces_spelled hnames hne, List.concat_eq_append, List.map_append,
      ← List.append_assoc]
    exact trimmed_concat _ _ (isNeutral_toList hlast.toIsName)
  rw [parent?_of_body_concat hbody (isNeutral_toList hname.toIsName), ← hroot, htrim, ofPieces_body]

/-- The directory of a single name is the path without what does not count at its end. -/
theorem Stem.parent?_push_single (hname : IsProperName name) :
    (p.push (spelled [name])).parent? =
      some (ofPieces p.isAbsolute (trimmed p.isAbsolute stem)) := by
  have hall : ∀ n ∈ [name], IsProperName n := by simpa using hname
  have hrelative := isAbsolute_spelled hall (by simp)
  have hbody : (p.push (spelled [name])).body = stem ++ [name.toList] := by
    rw [hstem.push hrelative, pieces_spelled hall (by simp)]
    rfl
  rw [parent?_of_body_concat hbody (isNeutral_toList hname.toIsName), isAbsolute_push, hrelative,
    Bool.or_false]

/-! ### The path of the directory itself -/

/-- The pieces of a path without what does not count at its end lead as far as the path does. -/
theorem Stem.trimmed_stem_append :
    ∃ trail, p.body = trimmed p.isAbsolute stem ++ trail ∧
      ∀ piece ∈ trail, isNeutral piece = true := by
  obtain ⟨trail, htrail, hneutral⟩ := exists_trimmed_append p.isAbsolute stem
  rcases hstem.body with hbody | hbody
  · exact ⟨trail, hbody.trans htrail, hneutral⟩
  · refine ⟨trail ++ [[]], ?_, fun piece hpiece => ?_⟩
    · rw [hbody, ← List.append_assoc, ← htrail]
    · rcases List.mem_append.mp hpiece with hpiece | hpiece
      · exact hneutral piece hpiece
      · rw [List.mem_singleton.mp hpiece]
        rfl

end Push

theorem slash_not_mem_of_mem_body {piece : List Char} (h : piece ∈ p.body) : '/' ∉ piece :=
  fun hmem => (exists_mem_pieces_iff.mp ⟨piece, h, hmem⟩).2 rfl

theorem joinPieces_ne_nil {sep : Char} {all : List (List Char)} (hne : all ≠ [])
    (hlast : all.getLast? ≠ some []) : joinPieces sep all ≠ [] := by
  obtain ⟨front, last, rfl⟩ := (List.eq_nil_or_concat all).resolve_left hne
  rw [List.concat_eq_append] at hlast ⊢
  rw [List.getLast?_concat] at hlast
  by_cases hfront : front = []
  · subst hfront
    exact fun hnil => hlast (congrArg some hnil)
  · rw [joinPieces_append hfront (by simp)]
    simp

/-- A path made of the first pieces of another one starts at the root if the other does. -/
theorem ofPieces_of_append {front back : List (List Char)} (hbody : p.body = front ++ back)
    (hne : front ≠ []) (hlast : front.getLast? ≠ some []) :
    (ofPieces p.isAbsolute front).isAbsolute = p.isAbsolute ∧
      (ofPieces p.isAbsolute front).body = front ∧
        (ofPieces p.isAbsolute front).text ≠ "" ∧
          (ofPieces p.isAbsolute front).text.toList <+: p.text.toList := by
  have htext : (ofPieces p.isAbsolute front).text.toList =
      (if p.isAbsolute then ['/'] else []) ++ joinPieces '/' front := by
    rw [ofPieces]
    split <;> simp
  have hinitial : (ofPieces p.isAbsolute front).text.toList <+: p.text.toList := by
    rw [htext, text_eq p, hbody]
    refine (List.prefix_append_right_inj _).mpr ?_
    by_cases hback : back = []
    · simp [hback]
    · rw [joinPieces_append hne hback]
      exact List.prefix_append _ _
  have hjoined : joinPieces '/' front ≠ [] := joinPieces_ne_nil hne hlast
  have hfirst : (ofPieces p.isAbsolute front).text.toList ≠ [] := by simp [htext, hjoined]
  have hroot : (ofPieces p.isAbsolute front).isAbsolute = p.isAbsolute := by
    obtain ⟨rest, hrest⟩ := hinitial
    have hhead : (ofPieces p.isAbsolute front).text.toList.head? = p.text.toList.head? := by
      rw [← hrest, List.head?_append_of_ne_nil _ hfirst]
    exact congrArg (· == some '/') hhead
  refine ⟨hroot, ?_, fun hempty => hfirst (String.toList_eq_nil_iff.mpr hempty), hinitial⟩
  have hafter : (ofPieces p.isAbsolute front).afterRoot = joinPieces '/' front := by
    have h := text_eq_afterRoot (ofPieces p.isAbsolute front)
    rw [htext, hroot] at h
    exact (List.append_cancel_left h).symm
  rw [body_eq_afterRoot, hafter]
  exact pieces_joinPieces hne fun piece hpiece =>
    slash_not_mem_of_mem_body (p := p) (hbody ▸ List.mem_append_left _ hpiece)

/-- The root directory and the empty path have no directory. -/
theorem parent?_ofPieces_nil (absolute : Bool) : (ofPieces absolute []).parent? = none := by
  cases absolute <;> decide

end Path

end ViewBinding.Files
