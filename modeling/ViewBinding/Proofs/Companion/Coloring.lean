import ViewBinding.Proofs.Companion.Location
import ViewBinding.Proofs.Emission.Memory
import ViewBinding.Proofs.Text.Decimal

/-!
# Colors are decoration

Coloring a text puts control sequences around its pieces and does nothing else. To say so, the
sequences are deleted again (`ViewBinding.Palette.deleteCodes`), in one pass from left to right. As
they all start with an escape character, nothing else is deleted from a text that has none itself,
so a text fades to the plain one piece by piece (`ViewBinding.Fades`).

A listing of companions is then compared with an emission: it shows, under the path of each
companion, the text that an emission with the same layout stores there
(`ViewBinding.Companion.listing_shows_emission`).
-/

namespace ViewBinding

open Files Text

/-! ### Deleting words -/

/-- The characters without the words: at each place the first word that starts there is deleted.
The first `skip` characters belong to a word that is being deleted. -/
def deleteWords (words : List (List Char)) : (skip : Nat) → List Char → List Char
  | _, [] => []
  | skip + 1, _ :: cs => deleteWords words skip cs
  | 0, c :: cs =>
    match words.find? fun word => word.isPrefixOf (c :: cs) with
    | some word => deleteWords words (word.length - 1) cs
    | none => c :: deleteWords words 0 cs

namespace Palette

/-- The control sequences of the colors. -/
def codes : List (List Char) :=
  [Ink.keyword, .type, .literal, .dim, .reset].map fun ink => (colored.code ink).toList

/-- The characters without the control sequences of the colors. -/
def deleteCodes (cs : List Char) : List Char :=
  deleteWords codes 0 cs

/-- The text without the control sequences of the colors. -/
def uncolored (s : String) : String :=
  String.ofList (deleteCodes s.toList)

theorem deleteCodes_code (ink : Ink) (rest : List Char) :
    deleteCodes ((colored.code ink).toList ++ rest) = deleteCodes rest := by
  cases ink <;> rfl

theorem deleteCodes_cons {c : Char} (h : c ≠ '\x1b') (cs : List Char) :
    deleteCodes (c :: cs) = c :: deleteCodes cs := by
  -- every control sequence starts with an escape character
  have hfind : (codes.find? fun word => word.isPrefixOf (c :: cs)) = none := by
    refine List.find?_eq_none.mpr fun word hword => ?_
    obtain ⟨ink, -, rfl⟩ := List.mem_map.mp hword
    cases ink <;> simp [code, List.isPrefixOf, h.symm]
  rw [deleteCodes, deleteWords, hfind]
  rfl

theorem deleteCodes_append {front : List Char} (h : '\x1b' ∉ front) (rest : List Char) :
    deleteCodes (front ++ rest) = front ++ deleteCodes rest := by
  induction front with
  | nil => rfl
  | cons c front ih =>
    rw [List.mem_cons, not_or] at h
    rw [List.cons_append, deleteCodes_cons (Ne.symm h.1), ih h.2, List.cons_append]

end Palette

/-! ### Fading -/

/-- The text has no escape character. -/
def HasNoEscape (s : String) : Prop :=
  '\x1b' ∉ s.toList

instance (s : String) : Decidable (HasNoEscape s) :=
  inferInstanceAs (Decidable (¬_))

@[simp] theorem hasNoEscape_append {s t : String} :
    HasNoEscape (s ++ t) ↔ HasNoEscape s ∧ HasNoEscape t := by
  simp [HasNoEscape]

theorem hasNoEscape_empty : HasNoEscape "" := by
  decide

theorem hasNoEscape_toString (n : Int) : HasNoEscape (toString n) := by
  intro hmem
  rcases Decimal.isDigit_or_minus hmem with hdigit | hminus
  · cases hdigit
  · cases hminus

/-- **A text fades to another one**: this is what is left of it, wherever it stands, when the
control sequences are deleted. -/
def Fades (s t : String) : Prop :=
  ∀ rest, Palette.deleteCodes (s.toList ++ rest) = t.toList ++ Palette.deleteCodes rest

variable {s t s' t' : String}

theorem fades_self (h : HasNoEscape s) : Fades s s :=
  Palette.deleteCodes_append h

theorem Fades.append (h : Fades s t) (h' : Fades s' t') : Fades (s ++ s') (t ++ t') := by
  intro rest
  rw [String.toList_append, String.toList_append, List.append_assoc, h, h', List.append_assoc]

theorem Fades.uncolored (h : Fades s t) : Palette.uncolored s = t := by
  have hall := h []
  rw [List.append_nil, show Palette.deleteCodes [] = [] from rfl, List.append_nil] at hall
  rw [Palette.uncolored, hall, String.ofList_toList]

/-- A color fades. -/
theorem fades_paint (ink : Ink) (h : HasNoEscape s) : Fades (Palette.colored.paint ink s) s := by
  intro rest
  rw [Palette.paint, if_pos (show Palette.colored.isColored = true from rfl),
    String.toList_append, String.toList_append, List.append_assoc, List.append_assoc,
    Palette.deleteCodes_code, Palette.deleteCodes_append h, Palette.deleteCodes_code]

theorem fades_join {α : Type} {f g : α → String} {xs : List α} (h : ∀ x ∈ xs, Fades (f x) (g x)) :
    Fades (String.join (xs.map f)) (String.join (xs.map g)) := by
  induction xs with
  | nil => exact fades_self hasNoEscape_empty
  | cons x xs ih =>
    rw [List.forall_mem_cons] at h
    rw [List.map_cons, List.map_cons, String.join_cons, String.join_cons]
    exact h.1.append (ih h.2)

theorem fades_intercalate {α : Type} {f g : α → String} {separator : String} {xs : List α}
    (hseparator : HasNoEscape separator) (h : ∀ x ∈ xs, Fades (f x) (g x)) :
    Fades (separator.intercalate (xs.map f)) (separator.intercalate (xs.map g)) := by
  induction xs with
  | nil => exact fades_self hasNoEscape_empty
  | cons x xs ih =>
    rw [List.forall_mem_cons] at h
    cases xs with
    | nil => simpa using h.1
    | cons y ys =>
      have hrest := ih h.2
      simp only [List.map_cons, String.intercalate_cons_cons] at hrest ⊢
      exact (h.1.append (fades_self hseparator)).append hrest

/-! ### One companion -/

theorem Piece.fades {piece : Piece} (h : HasNoEscape piece.text) :
    Fades (piece.painted .colored) (piece.painted .plain) := by
  rw [painted, painted]
  split
  · exact fades_self h
  · exact fades_paint _ h

theorem Line.fades {header : Bool} {indent : String} {line : Line} (hindent : HasNoEscape indent)
    (h : ∀ piece ∈ line.pieces, HasNoEscape piece.text) :
    Fades (line.render ⟨header, indent, .colored⟩) (line.render ⟨header, indent, .plain⟩) := by
  have hpieces : Fades (Piece.allPainted .colored line.pieces)
      (Piece.allPainted .plain line.pieces) :=
    fades_join fun piece hpiece => Piece.fades (h piece hpiece)
  have hdepth : Fades (String.join (List.replicate line.depth indent))
      (String.join (List.replicate line.depth indent)) := by
    rw [← List.map_id (List.replicate line.depth indent)]
    refine fades_join fun x hx => ?_
    rw [List.eq_of_mem_replicate hx]
    exact fades_self hindent
  exact (hdepth.append hpieces).append (fades_self (by decide))

namespace Companion

variable {c : Companion} {header : Bool} {indent : String} {l : Layout}

/-- The texts that are written for a companion. -/
def texts (c : Companion) : List String :=
  [c.package, c.name, c.method.name, c.method.parameter.type, c.method.parameter.name] ++
    c.imports ++ c.method.statements.flatMap fun a => [a.target, a.field, a.type]

/-- Whatever is written is made of the texts. -/
theorem hasNoEscape_of_mem_lines (h : ∀ text ∈ c.texts, HasNoEscape text) :
    ∀ line ∈ c.lines l, ∀ piece ∈ line.pieces, HasNoEscape piece.text := by
  simp only [texts, List.forall_mem_append, List.forall_mem_cons, List.forall_mem_flatMap] at h
  obtain ⟨⟨⟨hpackage, hname, hmethod, htype, hparameter, -⟩, himports⟩, hstatements⟩ := h
  rw [lines]
  simp only [List.forall_mem_append]
  refine ⟨⟨⟨?_, ?_⟩, ?_⟩, ?_⟩
  · rw [headerLines]
    split <;> simp +decide
  · rw [packageLines]
    split <;> simp +decide [Piece.keyword, Piece.plain, Line.blank, hpackage]
  · rw [importLines]
    split
    · exact List.forall_mem_nil _
    · simp only [List.forall_mem_append, List.forall_mem_map]
      refine ⟨fun name hmem => ?_, by simp [Line.blank]⟩
      simp +decide [Piece.keyword, Piece.plain, himports name hmem]
  · rw [classLines]
    simp only [List.forall_mem_append, List.forall_mem_map]
    refine ⟨⟨?_, fun a ha => ?_⟩, ?_⟩
    · simp +decide [Piece.keyword, Piece.plain, Piece.type, hname, hmethod, htype, hparameter]
    · obtain ⟨htarget, hfield, hcast, -⟩ := hstatements a ha
      have hid : HasNoEscape (a.id.toInt.repr) := hasNoEscape_toString a.id.toInt
      simp +decide [Assignment.pieces, Piece.plain, Piece.type, htarget, hfield, hcast, hid]
    · simp +decide

theorem fades_render (hindent : HasNoEscape indent) (h : ∀ text ∈ c.texts, HasNoEscape text) :
    Fades (c.render ⟨header, indent, .colored⟩) (c.render ⟨header, indent, .plain⟩) :=
  fades_join fun line hline => Line.fades hindent (hasNoEscape_of_mem_lines h line hline)

/-! ### Several companions -/

theorem hasNoEscape_push {p : Path} {name : String} (hp : HasNoEscape p.text)
    (hname : HasNoEscape name) : HasNoEscape (p.push name).text := by
  rw [Path.push]
  split
  · exact hname
  · split <;> simp [hp, hname, show HasNoEscape "/" by decide]

theorem hasNoEscape_path (hpackage : HasNoEscape c.package) (hname : HasNoEscape c.name) :
    HasNoEscape c.path.text := by
  have hdirectories : ∀ name ∈ c.directories, HasNoEscape name := by
    intro name hmem hescape
    obtain ⟨piece, hpiece, rfl⟩ := List.mem_map.mp (mem_directories.mp hmem).1
    rw [String.toList_ofList] at hescape
    exact hpackage (exists_mem_pieces_iff.mp ⟨piece, hpiece, hescape⟩).1
  have hfolded : ∀ names : List String, (∀ name ∈ names, HasNoEscape name) →
      ∀ p : Path, HasNoEscape p.text → HasNoEscape (names.foldl Path.push p).text := by
    intro names
    induction names with
    | nil => exact fun _ _ hp => hp
    | cons name names ih =>
      intro hnames p hp
      rw [List.forall_mem_cons] at hnames
      exact ih hnames.2 _ (hasNoEscape_push hp hnames.1)
  rw [path_eq]
  refine hasNoEscape_push (hfolded _ hdirectories _ hasNoEscape_empty) ?_
  exact hasNoEscape_append.mpr ⟨hname, by decide⟩

theorem fades_listed (hindent : HasNoEscape indent) (h : ∀ text ∈ c.texts, HasNoEscape text) :
    Fades (c.listed ⟨header, indent, .colored⟩) (c.listed ⟨header, indent, .plain⟩) := by
  have hpath : HasNoEscape c.path.text :=
    hasNoEscape_path (h _ (by simp [texts])) (h _ (by simp [texts]))
  have hbanner : HasNoEscape ("// ==> " ++ c.path.text) :=
    hasNoEscape_append.mpr ⟨by decide, hpath⟩
  exact ((fades_paint .dim hbanner).append (fades_self (by decide))).append
    (fades_render hindent h)

/-- **A listing shows what an emission stores.** For companions without escape characters, a colored
text and a colored listing are the plain ones with the control sequences put in, if the indentation
has no escape character either. If companions with one path have one text, the plain listing
consists of the texts that an emission leaves at the paths, each under its path and with an empty
line between each two neighbours. -/
theorem listing_shows_emission (header : Bool) (indent : String) (companions : List Companion)
    (htexts : ∀ c ∈ companions, ∀ text ∈ c.texts, HasNoEscape text) :
    let plain : Layout := ⟨header, indent, .plain⟩
    let colored : Layout := ⟨header, indent, .colored⟩
    (HasNoEscape indent →
      (∀ c ∈ companions, Palette.uncolored (c.render colored) = c.render plain) ∧
        Palette.uncolored (listing colored companions) = listing plain companions) ∧
      ((∀ c ∈ companions, ∀ d ∈ companions, c.path.same d.path = true →
          c.render plain = d.render plain) →
        ∃ shelf stored, emit Shelf.store plain companions [] = (.ok (companions.map path), shelf) ∧
          companions.map (fun c => shelf.get? c.path) = stored.map some ∧
          listing plain companions = "\n".intercalate (List.zipWith
            (fun c text => "// ==> " ++ c.path.text ++ "\n" ++ text) companions stored)) := by
  intro plain colored
  refine ⟨fun hindent => ⟨fun c hc => (fades_render hindent (htexts c hc)).uncolored, ?_⟩,
    fun hsame => ?_⟩
  · refine Fades.uncolored (fades_intercalate (by decide) fun c hc => ?_)
    exact fades_listed hindent (htexts c hc)
  · refine ⟨_, companions.map (render plain), emit_shelf plain companions [], ?_, ?_⟩
    · rw [List.map_map]
      refine List.map_congr_left fun c hc => ?_
      refine Shelf.get?_putAll (fun d hd hpath => hsame d hd c hc hpath) (.inr ⟨c, hc, ?_⟩)
      rw [Path.same, beq_self_eq_true]
    · rw [List.zipWith_map_right, List.zipWith_self]
      rfl

/-- Two companions in different packages. -/
theorem listing_shows_emission_two :
    let c (package : String) : Companion := ⟨package, "Main", ⟨package, [], "Main"⟩, ["app.view"],
      ⟨"bind", ⟨"Main", "main"⟩, [⟨"main", "title", "TextView", 7⟩]⟩⟩
    let companions := [c "", c "app"]
    (∀ c ∈ companions, ∀ text ∈ c.texts, HasNoEscape text) ∧
      listing ⟨true, "\t", .colored⟩ companions ≠ listing ⟨true, "\t", .plain⟩ companions ∧
      Palette.uncolored (listing ⟨true, "\t", .colored⟩ companions) =
        listing ⟨true, "\t", .plain⟩ companions ∧
      ∃ shelf first second, emit Shelf.store ⟨true, "\t", .plain⟩ companions [] =
          (.ok [⟨"Main.java"⟩, ⟨"app/Main.java"⟩], shelf) ∧
        shelf.get? ⟨"Main.java"⟩ = some first ∧ shelf.get? ⟨"app/Main.java"⟩ = some second ∧
        listing ⟨true, "\t", .plain⟩ companions = "\n".intercalate
          ["// ==> Main.java\n" ++ first, "// ==> app/Main.java\n" ++ second] := by
  intro c companions
  have htexts : ∀ c ∈ companions, ∀ text ∈ c.texts, HasNoEscape text := by decide +kernel
  have hpaths : companions.map path = [⟨"Main.java"⟩, ⟨"app/Main.java"⟩] := by decide +kernel
  have hbanners : "// ==> " ++ (c "").path.text ++ "\n" = "// ==> Main.java\n" ∧
      "// ==> " ++ (c "app").path.text ++ "\n" = "// ==> app/Main.java\n" := by decide +kernel
  obtain ⟨hcolored, hlisting⟩ := listing_shows_emission true "\t" companions htexts
  obtain ⟨shelf, stored, hemit, hstored, hlisting⟩ := hlisting (by decide +kernel)
  have hlength : companions.length = stored.length := by
    simpa only [List.length_map] using congrArg List.length hstored
  obtain ⟨first, second, rfl⟩ := List.length_eq_two.mp hlength.symm
  have hget : (companions.map path).map shelf.get? = [first, second].map some := hstored
  rw [hpaths] at hemit hget
  obtain ⟨hfirst, hsecond⟩ : shelf.get? ⟨"Main.java"⟩ = some first ∧
      shelf.get? ⟨"app/Main.java"⟩ = some second := by simpa using hget
  refine ⟨htexts, by decide +kernel, (hcolored (by decide)).2, shelf, first, second, hemit, hfirst,
    hsecond, hlisting.trans ?_⟩
  rw [← hbanners.1, ← hbanners.2]
  rfl

/-- **Not everything that is shown is stored.** The control sequences are deleted from the
indentation as well, and of two companions with one path only the later one is left. -/
theorem exists_listing_unlike_emission :
    let c (field : String) : Companion := ⟨"", "A", ⟨"", [], "A"⟩, [],
      ⟨"bind", ⟨"A", "a"⟩, [⟨"a", field, "V", 1⟩]⟩⟩
    let companions := [c "x", c "y"]
    let shelf := (emit Shelf.store ⟨false, " ", .plain⟩ companions []).2
    (∀ c ∈ companions, ∀ text ∈ c.texts, HasNoEscape text) ∧
      Palette.uncolored ((c "x").render ⟨false, "\x1b[0m", .colored⟩) ≠
        (c "x").render ⟨false, "\x1b[0m", .plain⟩ ∧
      listing ⟨false, " ", .plain⟩ companions ≠ "\n".intercalate (companions.map fun c =>
        "// ==> " ++ c.path.text ++ "\n" ++ (shelf.get? c.path).getD "") := by
  decide +kernel

end Companion

end ViewBinding
