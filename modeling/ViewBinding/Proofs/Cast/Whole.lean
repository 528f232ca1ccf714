import ViewBinding.Proofs.Cast.Names
import ViewBinding.Proofs.Cast.Qualifiers

/-!
# Which names in a type are replaced as a whole

The type of a field is a row of tokens (`ViewBinding.Java.TypeText.IsTokens`): dotted names, and all
that is none, such as signs, numbers and the literals in the arguments of annotations. A cast ought
to keep every token, except that it may write an imported name, or a name relative to the package,
in place of the first identifier of a dotted name (`ViewBinding.Java.TypeScope.RewritesWhole`).

The cast goes by runs, which end at every letter that is not of ASCII and stand in literals as well
as in names. So it does what it ought to for a token exactly if no run of it, the first one aside,
is taken for a name, and the first one is either not taken for a name or gets in front what the
whole identifier may get (`ViewBinding.Java.TypeScope.SeesWhole`). The headline is
`ViewBinding.Java.Reading.cast_rewritesWhole_iff`.

Whatever replaces a name ends in that name, with a full stop in front of it. A rewritten text is
therefore the old one with texts put in between its pieces, and two such texts are the same only if
the same has been put in everywhere (`ViewBinding.Java.eq_of_flatMap_append_eq`).
-/

namespace ViewBinding.Java

open Text

/-! ### Texts put in between pieces -/

/-- If in one place more has been put in than in the other, the difference does not end like the
piece in front of it. -/
def Separates {ι : Type} (piece f g : ι → List Char) (a b : ι) : Prop :=
  ∀ more, more ≠ [] → (g b = more ++ f b ∨ f b = more ++ g b) →
    (piece a).getLast? ≠ more.getLast?

/-- What such a text ends in, its last piece ends in. -/
theorem getLast?_eq_of_flatMap_append {ι : Type} {piece front : ι → List Char} {pieces : List ι}
    {a : ι} (ha : a ∈ pieces.getLast?) (hne : piece a ≠ []) {cs more : List Char}
    (hmore : more ≠ []) (h : pieces.flatMap (fun a => front a ++ piece a) = cs ++ more) :
    (piece a).getLast? = more.getLast? := by
  obtain ⟨before, rfl⟩ := List.getLast?_eq_some_iff.mp ha
  rw [List.flatMap_append, List.flatMap_singleton, ← List.append_assoc] at h
  rw [← List.getLast?_append_of_ne_nil cs hmore, ← h, List.getLast?_append_of_ne_nil _ hne]

/-- **What is put in front of pieces can be told from the text**, as long as neither choice makes up
for what the other has put in further on. -/
theorem eq_of_flatMap_append_eq {ι : Type} {piece f g : ι → List Char} {pieces : List ι}
    (hne : ∀ a ∈ pieces, piece a ≠ []) (hchain : pieces.IsChain (Separates piece f g))
    (h : pieces.flatMap (fun a => f a ++ piece a) = pieces.flatMap fun a => g a ++ piece a) :
    ∀ a ∈ pieces, f a = g a := by
  -- from the end, for there the texts agree piece by piece
  induction pieces using List.reverseRecOn with
  | nil => exact nofun
  | append_singleton pieces b ih =>
    obtain ⟨hchain, -, hbetween⟩ := List.isChain_append.mp hchain
    obtain ⟨hne, hneb⟩ := List.forall_mem_append.mp hne
    have hnothing {more : List Char} (front : ι → List Char) {cs : List Char}
        (heq : pieces.flatMap (fun a => front a ++ piece a) = cs ++ more)
        (hdiffer : g b = more ++ f b ∨ f b = more ++ g b) : more = [] := by
      by_contra hmore
      cases hlast : pieces.getLast? with
      | none =>
        rw [List.getLast?_eq_none_iff.mp hlast] at heq
        exact hmore (List.append_eq_nil_iff.mp heq.symm).2
      | some a =>
        have hpiece := hne a (List.mem_of_mem_getLast? hlast)
        exact hbetween a hlast b rfl more hmore hdiffer
          (getLast?_eq_of_flatMap_append hlast hpiece hmore heq)
    rw [List.flatMap_append, List.flatMap_append, List.flatMap_singleton, List.flatMap_singleton,
      ← List.append_assoc, ← List.append_assoc, List.append_cancel_right_eq] at h
    have hboth : f b = g b ∧ pieces.flatMap (fun a => f a ++ piece a) =
        pieces.flatMap fun a => g a ++ piece a := by
      rcases List.append_eq_append_iff.mp h with ⟨more, hg, hf⟩ | ⟨more, hf, hg⟩
      · obtain rfl := hnothing g hg (.inr hf)
        exact ⟨hf, by simpa using hg.symm⟩
      · obtain rfl := hnothing f hf (.inl hg)
        exact ⟨hg.symm, by simpa using hf⟩
    refine List.forall_mem_append.mpr ⟨ih hne hchain hboth.2, fun a ha => ?_⟩
    obtain rfl := List.mem_singleton.mp ha
    exact hboth.1

/-! ### Tokens -/

namespace TypeText

/-- **The text is made of the tokens**, and none of them ends inside a dotted name. -/
structure IsTokens (tokens : List (List Char)) (cs : List Char) : Prop where
  flatten : tokens.flatten = cs
  ne_nil : [] ∉ tokens
  apart : tokens.IsChain (Apart isWordPart)

instance (tokens : List (List Char)) (cs : List Char) : Decidable (IsTokens tokens cs) :=
  decidable_of_iff (tokens.flatten = cs ∧ [] ∉ tokens ∧ tokens.IsChain (Apart isWordPart))
    ⟨fun ⟨flatten, ne_nil, apart⟩ => ⟨flatten, ne_nil, apart⟩,
      fun ⟨flatten, ne_nil, apart⟩ => ⟨flatten, ne_nil, apart⟩⟩

/-- The words of a text are tokens. -/
theorem isTokens_words (cs : List Char) : IsTokens (words cs) cs :=
  ⟨flatten_cutBy _ cs, nil_notMem_cutBy _ cs, isChain_apart_cutBy _ cs⟩

/-- The token is a dotted name and starts with an identifier. -/
def IsDottedName (token : List Char) : Prop :=
  token.all isWordPart ∧ token.head?.any Spelling.startsName ∧
    ¬isReserved (String.ofList (TypeScope.splitRun token).1)

instance (token : List Char) : Decidable (IsDottedName token) :=
  inferInstanceAs (Decidable (_ ∧ _ ∧ _))

end TypeText

/-! ### What a cast ought to write -/

namespace TypeScope

open TypeText

/-- **A token is rewritten as a whole**: it is kept, or it is a dotted name and its first identifier
is replaced by a name that is brought in for it. -/
inductive RewritesWhole (scope : TypeScope) (nesting : List String) (token : List Char) :
    (out : List Char) → Prop
  | kept : RewritesWhole scope nesting token token
  | replaced {name : String} (hdotted : IsDottedName token)
      (hname : scope.Offers nesting (String.ofList (splitRun token).1) name) :
      RewritesWhole scope nesting token (name.toList ++ (splitRun token).2)

/-- **The cast sees a token for what it is**: it takes no run of it for a name but the first one,
and if it does take that for a name, then the token is a dotted name, and its first identifier may
get in front what the run gets. -/
structure SeesWhole (scope : TypeScope) (nesting : List String) (token : List Char) : Prop where
  first : ∀ run ∈ (runs token).head?, scope.Keeps nesting run ∨ IsDottedName token ∧
    ∃ front, scope.replacement? nesting (String.ofList (splitRun run).1) =
        some (String.ofList (front ++ (splitRun run).1)) ∧
      scope.Offers nesting (String.ofList (splitRun token).1)
        (String.ofList (front ++ (splitRun token).1))
  rest : ∀ run ∈ (runs token).tail, scope.Keeps nesting run

variable {scope : TypeScope} {nesting : List String} {run token out : List Char}

/-! ### What may stand in front of a token -/

/-- The text may be written in front of the token. -/
def MayPrecede (scope : TypeScope) (nesting : List String) (token front : List Char) : Prop :=
  front = [] ∨ IsDottedName token ∧ scope.Offers nesting (String.ofList (splitRun token).1)
    (String.ofList (front ++ (splitRun token).1))

theorem rewritesWhole_iff (hends : scope.header.NamesEnd) :
    scope.RewritesWhole nesting token out ↔
      ∃ front, out = front ++ token ∧ scope.MayPrecede nesting token front := by
  constructor
  · rintro (_ | ⟨hdotted, hname⟩)
    · exact ⟨[], rfl, .inl rfl⟩
    · obtain ⟨front, hfront, -⟩ := hname.endsIn hends
      rw [String.toList_ofList] at hfront
      refine ⟨front, ?_, .inr ⟨hdotted, ?_⟩⟩
      · rw [hfront, List.append_assoc, splitRun_append]
      · rwa [← hfront, String.ofList_toList]
  · rintro ⟨front, rfl, rfl | ⟨hdotted, hoffers⟩⟩
    · exact .kept
    · have hreplaced := RewritesWhole.replaced hdotted hoffers
      rwa [String.toList_ofList, List.append_assoc, splitRun_append] at hreplaced

/-- The runs of the token, each with a text in front: the first with the one given, and the others
with none. -/
def placed (token front : List Char) : List (List Char × List Char) :=
  match runs token with
  | [] => []
  | run :: rest => (front, run) :: rest.map fun run => ([], run)

theorem map_snd_placed (token front : List Char) :
    (placed token front).map Prod.snd = runs token := by
  rw [placed]
  cases runs token with
  | nil => rfl
  | cons run rest => simp

theorem flatMap_placed {front : List Char} (hne : token ≠ []) :
    (placed token front).flatMap (fun p => p.1 ++ p.2) = front ++ token := by
  have hflatten := flatten_runs token
  rw [placed]
  cases hruns : runs token with
  | nil => exact absurd (by simpa [hruns] using hflatten.symm) hne
  | cons run rest =>
    rw [hruns, List.flatten_cons] at hflatten
    rw [List.flatMap_cons, List.flatMap_map, List.append_assoc]
    simp [hflatten]

/-- Seeing a token for what it is means to write in front of its first run what may stand in front
of the token, and nothing in front of the others. -/
theorem seesWhole_iff {front : List Char → List Char}
    (hfront : ∀ run, scope.Precedes nesting run (front run)) (hne : token ≠ []) :
    scope.SeesWhole nesting token ↔ ∃ own, scope.MayPrecede nesting token own ∧
      ∀ p ∈ placed token own, front p.2 = p.1 := by
  cases hruns : runs token with
  | nil => exact absurd (by simpa [hruns] using (flatten_runs token).symm) hne
  | cons run rest =>
    have hplaced (own : List Char) : (∀ p ∈ placed token own, front p.2 = p.1) ↔
        front run = own ∧ ∀ run ∈ rest, scope.Keeps nesting run := by
      simp [placed, hruns, (hfront _).eq_nil_iff]
    simp only [hplaced]
    constructor
    · -- the first run is kept, or it stands for the token and offers what goes in front
      intro h
      have hrest : ∀ run ∈ rest, scope.Keeps nesting run := by
        simpa [hruns] using h.rest
      have hkeeps (hrun : scope.Keeps nesting run) : ∃ own, scope.MayPrecede nesting token own ∧
          front run = own ∧ ∀ run ∈ rest, scope.Keeps nesting run :=
        ⟨[], .inl rfl, (hfront run).eq_nil_iff.mpr hrun, hrest⟩
      rcases h.first run (by simp [hruns]) with hrun | ⟨hdotted, own, hname, hoffers⟩
      · exact hkeeps hrun
      · by_cases hnil : front run = []
        · exact hkeeps ((hfront run).eq_nil_iff.mp hnil)
        · have hsame := hname.symm.trans ((hfront run).taken hnil).2
          have hown : front run = own := by simpa [String.ofList_inj] using hsame.symm
          exact ⟨own, .inr ⟨hdotted, hoffers⟩, hown, hrest⟩
    · rintro ⟨own, hown, rfl, hrest⟩
      refine ⟨fun run' hrun' => ?_, by simpa [hruns] using hrest⟩
      obtain rfl : run = run' := by simpa [hruns] using hrun'
      by_cases hnil : front run = []
      · exact .inl ((hfront run).eq_nil_iff.mp hnil)
      · obtain hnil' | ⟨hdotted, hoffers⟩ := hown
        · exact absurd hnil' hnil
        · exact .inr ⟨hdotted, _, ((hfront run).taken hnil).2, hoffers⟩

/-! ### One token -/

variable {front : List Char → List Char}

/-- No two ways to write something in front of the runs of a token come to the same. -/
theorem isChain_placed (hfront : ∀ run, scope.Precedes nesting run (front run))
    (token own : List Char) :
    (placed token own).IsChain (Separates Prod.snd (fun p => front p.2) Prod.fst) := by
  have hchain (run : List Char) (rest : List (List Char)) (own : List Char)
      (hmem : run :: rest ⊆ runs token) (hapart : (run :: rest).IsChain (Apart isRunPart)) :
      ((own, run) :: rest.map fun run => ([], run)).IsChain
        (Separates Prod.snd (fun p => front p.2) Prod.fst) := by
    induction rest generalizing run own with
    | nil => exact List.isChain_singleton _
    | cons next rest ih =>
      obtain ⟨-, hmem⟩ := List.cons_subset.mp hmem
      obtain ⟨hnext, hapart⟩ := List.isChain_cons_cons.mp hapart
      refine List.isChain_cons_cons.mpr ⟨fun more hmore hdiffer => ?_, ih next [] hmem hapart⟩
      rcases hdiffer with hnil | hfrontnext
      · exact absurd (List.append_eq_nil_iff.mp hnil.symm).1 hmore
      · obtain rfl : front next = more := by simpa using hfrontnext
        exact (hfront next).getLast?_ne hmore (hmem List.mem_cons_self) hnext
  have hapart := isChain_apart_cutBy isRunPart token
  rw [← runs_eq_cutBy] at hapart
  rw [placed]
  cases hruns : runs token with
  | nil => exact List.isChain_nil
  | cons run rest =>
    rw [hruns] at hapart
    exact hchain run rest own (hruns ▸ List.Subset.refl _) hapart

theorem ne_nil_of_mem_placed {own : List Char} {p : List Char × List Char}
    (hp : p ∈ placed token own) : p.2 ≠ [] := by
  have hrun : p.2 ∈ runs token := by
    rw [← map_snd_placed token own]
    exact List.mem_map_of_mem hp
  exact (of_mem_runs hrun).1

/-- What is written for a token, run by run. -/
theorem flatMap_rewriteRun (hfront : ∀ run, scope.Precedes nesting run (front run))
    (token own : List Char) :
    (runs token).flatMap (scope.rewriteRun nesting) =
      (placed token own).flatMap fun p => front p.2 ++ p.2 := by
  rw [← map_snd_placed token own, List.flatMap_map]
  exact List.flatMap_congr fun p _ => (hfront p.2).rewriteRun

/-- **A token is rewritten as a whole exactly if the cast sees it for what it is.** -/
theorem rewritesWhole_runs_iff (hends : scope.header.NamesEnd) (hne : token ≠ []) :
    scope.RewritesWhole nesting token ((runs token).flatMap (scope.rewriteRun nesting)) ↔
      scope.SeesWhole nesting token := by
  choose front hfront using scope.exists_precedes hends nesting
  rw [rewritesWhole_iff hends, seesWhole_iff hfront hne]
  refine exists_congr fun own => and_comm.trans (and_congr_right fun _ => ?_)
  rw [flatMap_rewriteRun hfront token own, ← flatMap_placed hne]
  refine ⟨fun heq => ?_, fun hsame => List.flatMap_congr fun p hp => by rw [hsame p hp]⟩
  exact eq_of_flatMap_append_eq (fun _ => ne_nil_of_mem_placed)
    (isChain_placed hfront token own) heq

/-! ### All tokens of a text -/

/-- Anything written in front of the text continues to the left a dotted name that the text starts
with. -/
def Continues (front cs : List Char) : Prop :=
  front ≠ [] → (∀ c ∈ front, isWordPart c) ∧ ∀ c ∈ cs.head?, isWordPart c

theorem MayPrecede.continues {own : List Char} (h : scope.MayPrecede nesting token own)
    (hscope : scope.IsDotted) : Continues own token := by
  intro hne
  obtain hnil | ⟨⟨hparts, -⟩, hoffers⟩ := h
  · exact absurd hnil hne
  · refine ⟨fun c hc => hoffers.isWordPart hscope ?_, fun c hc =>
      List.all_eq_true.mp hparts c (List.mem_of_mem_head? hc)⟩
    simp [hc]

theorem Precedes.continues {cs own : List Char} (h : scope.Precedes nesting run own)
    (hrun : run ∈ runs cs) (hscope : scope.IsDotted) : Continues own run := by
  intro hne
  obtain ⟨hany, hname⟩ := h.taken hne
  refine ⟨fun c hc => (offers_of_replacement? hname).isWordPart hscope (by simp [hc]),
    fun c hc => isWordPart_of_isRunPart ?_⟩
  exact (of_mem_runs hrun).2 hany c (List.mem_of_mem_head? hc)

theorem of_mem_head?_placed {own : List Char} {b : List Char × List Char}
    (hb : b ∈ (placed token own).head?) :
    b.2 ∈ runs token ∧ b.1 = own ∧ b.2.head? = token.head? := by
  have hflatten := flatten_runs token
  rw [placed] at hb
  cases hruns : runs token with
  | nil => simp [hruns] at hb
  | cons run rest =>
    rw [hruns] at hb hflatten
    obtain rfl : (own, run) = b := Option.some.inj hb
    have hrun : run ∈ runs token := hruns ▸ List.mem_cons_self
    refine ⟨List.mem_cons_self, rfl, ?_⟩
    rw [← hflatten, List.flatten_cons, List.head?_append_of_ne_nil _ (of_mem_runs hrun).1]

theorem getLast?_of_mem_placed {own : List Char} {a : List Char × List Char}
    (ha : a ∈ (placed token own).getLast?) : a.2.getLast? = token.getLast? := by
  obtain ⟨before, hbefore⟩ := List.getLast?_eq_some_iff.mp ha
  have hruns := congrArg (List.map Prod.snd) hbefore
  rw [map_snd_placed, List.map_append, List.map_singleton] at hruns
  have hne : a.2 ≠ [] := ne_nil_of_mem_placed (List.mem_of_mem_getLast? ha)
  rw [← flatten_runs token, hruns, List.flatten_append, List.flatten_singleton,
    List.getLast?_append_of_ne_nil _ hne]

/-- Between two tokens, too, no two ways to write something come to the same. -/
theorem separates_of_apart {before own : List Char}
    (hfront : ∀ run, scope.Precedes nesting run (front run)) (hscope : scope.IsDotted)
    (hown : scope.MayPrecede nesting token own) (hapart : Apart isWordPart before token)
    {a b : List Char × List Char} (ha : a.2.getLast? = before.getLast?)
    (hb : b ∈ (placed token own).head?) :
    Separates Prod.snd (fun p => front p.2) Prod.fst a b := by
  obtain ⟨hrun, hfst, hhead⟩ := of_mem_head?_placed hb
  intro more hmore hdiffer heq
  -- what is put in last is part of a dotted name, and so is what the token starts with
  obtain ⟨hparts, hstart⟩ :
      (∀ c ∈ more, isWordPart c) ∧ ∀ c ∈ token.head?, isWordPart c := by
    rcases hdiffer with h | h
    · rw [hfst] at h
      have hcontinues := hown.continues hscope (by simp [h, hmore])
      exact ⟨fun c hc => hcontinues.1 c (by simp [h, hc]), hcontinues.2⟩
    · have hcontinues := (hfront b.2).continues hrun hscope (by simp [h, hmore])
      exact ⟨fun c hc => hcontinues.1 c (by simp [h, hc]), hhead ▸ hcontinues.2⟩
  have hlast := List.getLast?_eq_some_getLast hmore
  have hfirst := hhead.symm.trans (List.head?_eq_some_head (of_mem_runs hrun).1)
  have hneighbours := hapart _ (ha ▸ heq.trans hlast) _ hfirst
  rw [hparts _ (List.getLast_mem hmore), hstart _ hfirst] at hneighbours
  cases hneighbours

variable {tokens : List (List Char)} {cs : List Char}

/-- The runs of a text are those of its tokens. -/
theorem runs_eq_flatMap_tokens (htokens : IsTokens tokens cs) : runs cs = tokens.flatMap runs := by
  obtain ⟨rfl, hne, hapart⟩ := htokens
  rw [funext runs_eq_cutBy]
  exact cutBy_flatten hne (hapart.imp fun _ _ h => h.imp fun _ => isWordPart_of_isRunPart)

/-- Tokens that are rewritten as a whole, each with what is put in front of it. -/
theorem exists_fronts (hends : scope.header.NamesEnd) {outs : List (List Char)}
    (h : List.Forall₂ (scope.RewritesWhole nesting) tokens outs) :
    ∃ fronts : List (List Char × List Char), fronts.map Prod.snd = tokens ∧
      (∀ m ∈ fronts, scope.MayPrecede nesting m.2 m.1) ∧
      outs.flatten = fronts.flatMap fun m => m.1 ++ m.2 := by
  induction h with
  | nil => exact ⟨[], rfl, nofun, rfl⟩
  | @cons token out tokens outs hfirst _ ih =>
    obtain ⟨own, rfl, hown⟩ := (rewritesWhole_iff hends).mp hfirst
    obtain ⟨fronts, rfl, hfronts, hflatten⟩ := ih
    refine ⟨(own, token) :: fronts, rfl, List.forall_mem_cons.mpr ⟨hown, hfronts⟩, ?_⟩
    rw [List.flatten_cons, List.flatMap_cons, hflatten]

/-- No two ways to write something in front of the runs of a text come to the same, as long as both
only write what may be written. -/
theorem isChain_flatMap_placed (hfront : ∀ run, scope.Precedes nesting run (front run))
    (hscope : scope.IsDotted) {fronts : List (List Char × List Char)}
    (hne : ∀ m ∈ fronts, m.2 ≠ []) (hfronts : ∀ m ∈ fronts, scope.MayPrecede nesting m.2 m.1)
    (hapart : (fronts.map Prod.snd).IsChain (Apart isWordPart)) :
    (fronts.flatMap fun m => placed m.2 m.1).IsChain
      (Separates Prod.snd (fun p => front p.2) Prod.fst) := by
  rw [List.flatMap_def]
  refine (List.isChain_flatten fun hnil => ?_).mpr ⟨fun l hl => ?_, (List.isChain_map _).mpr ?_⟩
  · obtain ⟨m, hm, hplaced⟩ := List.mem_map.mp hnil
    have hruns := (map_snd_placed m.2 m.1).symm.trans (congrArg _ hplaced)
    exact hne m hm (by simpa [flatten_runs] using congrArg List.flatten hruns)
  · obtain ⟨m, -, rfl⟩ := List.mem_map.mp hl
    exact isChain_placed hfront m.2 m.1
  · refine ((List.isChain_map _).mp hapart).imp_of_mem_imp fun m m' _ hm' happart a ha b hb => ?_
    exact separates_of_apart hfront hscope (hfronts m' hm') happart (getLast?_of_mem_placed ha) hb

/-- **A text is rewritten token by token exactly if the cast sees every token for what it is.** -/
theorem rewritesWhole_flatten_iff (hends : scope.header.NamesEnd) (hscope : scope.IsDotted)
    (htokens : IsTokens tokens cs) :
    (∃ outs, List.Forall₂ (scope.RewritesWhole nesting) tokens outs ∧
        (runs cs).flatMap (scope.rewriteRun nesting) = outs.flatten) ↔
      ∀ token ∈ tokens, scope.SeesWhole nesting token := by
  have hne (token : List Char) (htoken : token ∈ tokens) : token ≠ [] :=
    fun hnil => htokens.ne_nil (hnil ▸ htoken)
  rw [runs_eq_flatMap_tokens htokens, List.flatMap_assoc]
  constructor
  · rintro ⟨outs, houts, hwritten⟩
    choose front hfront using scope.exists_precedes hends nesting
    obtain ⟨fronts, rfl, hfronts, hflatten⟩ := exists_fronts hends houts
    have hne (m : List Char × List Char) (hm : m ∈ fronts) : m.2 ≠ [] :=
      hne m.2 (List.mem_map_of_mem hm)
    -- what has been written in front of each run is what may be written there
    have hsame : ∀ p ∈ fronts.flatMap (fun m => placed m.2 m.1), front p.2 = p.1 := by
      refine eq_of_flatMap_append_eq (fun p hp => ?_)
        (isChain_flatMap_placed hfront hscope hne hfronts htokens.apart) ?_
      · obtain ⟨m, -, hp⟩ := List.mem_flatMap.mp hp
        exact ne_nil_of_mem_placed hp
      · rw [List.flatMap_assoc, List.flatMap_assoc]
        calc fronts.flatMap (fun m => (placed m.2 m.1).flatMap fun p => front p.2 ++ p.2)
            = fronts.flatMap fun m => (runs m.2).flatMap (scope.rewriteRun nesting) :=
              List.flatMap_congr fun m _ => (flatMap_rewriteRun hfront m.2 m.1).symm
          _ = fronts.flatMap fun m => m.1 ++ m.2 := by
              rw [← hflatten, ← hwritten, List.flatMap_map]
          _ = fronts.flatMap fun m => (placed m.2 m.1).flatMap fun p => p.1 ++ p.2 :=
              List.flatMap_congr fun m hm => (flatMap_placed (hne m hm)).symm
    intro token htoken
    obtain ⟨m, hm, rfl⟩ := List.mem_map.mp htoken
    refine (seesWhole_iff hfront (hne m hm)).mpr ⟨m.1, hfronts m hm, fun p hp => hsame p ?_⟩
    exact List.mem_flatMap.mpr ⟨m, hm, hp⟩
  · intro h
    refine ⟨tokens.map fun token => (runs token).flatMap (scope.rewriteRun nesting), ?_, ?_⟩
    · refine List.forall₂_map_right_iff.mpr (List.forall₂_same.mpr fun token htoken => ?_)
      exact (rewritesWhole_runs_iff hends (hne token htoken)).mpr (h token htoken)
    · exact List.flatMap_def

/-- A token in which nothing is taken for a name is seen for what it is. -/
theorem seesWhole_of_keeps (h : ∀ run ∈ runs token, scope.Keeps nesting run) :
    scope.SeesWhole nesting token :=
  ⟨fun run hrun => .inl (h run (List.mem_of_mem_head? hrun)),
    fun run hrun => h run (List.mem_of_mem_tail hrun)⟩

/-- A dotted name is seen for what it is if it has no letters but those of ASCII. -/
theorem seesWhole_of_isAscii (hends : scope.header.NamesEnd) (hword : token ∈ words cs)
    (hascii : isAscii token) (hdotted : IsDottedName token) : scope.SeesWhole nesting token := by
  have hruns := runs_of_mem_words hword hascii
  refine ⟨fun run hrun => ?_, by simp [hruns]⟩
  obtain rfl : token = run := by simpa [hruns] using hrun
  obtain ⟨front, hfront⟩ := scope.exists_precedes hends nesting token
  by_cases hnil : front = []
  · exact .inl (hfront.eq_nil_iff.mp hnil)
  · have hname := (hfront.taken hnil).2
    exact .inr ⟨hdotted, front, hname, offers_of_replacement? hname⟩

end TypeScope

/-! ### The type of a field -/

namespace Reading

open TypeText TypeScope

/-- **Names in the type of a field are replaced as a whole** as far as the cast sees the tokens of
the type for what they are, whatever the text and the types around the field are. -/
theorem cast_rewritesWhole_iff (number : Nat) (source : String) (root : Node)
    (nesting : List String) (raw : String) {tokens : List (List Char)}
    (htokens : IsTokens tokens (tidy raw).toList) :
    let scope := (ofTree number source root).scope
    let written := (ofTree number source root).written nesting
    (scope.cast nesting raw).text = String.ofList (tokens.flatMap written) ∧
      (∀ token ∈ tokens,
        scope.RewritesWhole nesting token (written token) ↔ scope.SeesWhole nesting token) ∧
      (scope.IsDotted →
        ((∃ outs, List.Forall₂ (scope.RewritesWhole nesting) tokens outs ∧
            (scope.cast nesting raw).text = String.ofList outs.flatten) ↔
          ∀ token ∈ tokens, scope.SeesWhole nesting token)) := by
  intro scope written
  have hends : scope.header.NamesEnd := Header.namesEnd_ofTree source root
  have htext : (scope.cast nesting raw).text = String.ofList (tokens.flatMap written) := by
    rw [TypeScope.cast, runs_eq_flatMap_tokens htokens, List.flatMap_assoc]
    rfl
  refine ⟨htext, fun token htoken => ?_, fun hscope => ?_⟩
  · exact rewritesWhole_runs_iff hends fun hnil => htokens.ne_nil (hnil ▸ htoken)
  · rw [← rewritesWhole_flatten_iff hends hscope htokens, TypeScope.cast]
    simp only [String.ofList_inj]

/-- A name that begins with a letter not of ASCII and is kept, and an imported one. -/
theorem cast_rewritesWhole_iff_generic :
    let source := "import x.B;\nclass A \x7b @BindView(1) Map< é.B ,B> v; \x7d\n"
    let scope := (ofTree 0 source (Node.ofText source)).scope
    let tokens := ["Map".toList, ['<'], "é.B".toList, [','], [' '], ['B'], ['>']]
    (bindings 0 source).fields.map (fun f => (f.owner.nesting, f.type.text)) =
        [(["A"], "Map<é.B, x.B>")] ∧
      IsTokens tokens (tidy "Map< é.B ,B>").toList ∧
      ∃ outs, List.Forall₂ (scope.RewritesWhole ["A"]) tokens outs ∧
        (scope.cast ["A"] "Map< é.B ,B>").text = String.ofList outs.flatten := by
  intro source scope tokens
  obtain ⟨hfields, hwords, hscope, htokens⟩ :
      (bindings 0 source).fields.map (fun f => (f.owner.nesting, f.type.text)) =
          [(["A"], "Map<é.B, x.B>")] ∧
        words (tidy "Map< é.B ,B>").toList = tokens ∧ scope.IsDotted ∧
        ∀ token ∈ tokens, (∀ run ∈ runs token, scope.rewriteRun ["A"] run = run) ∨
          isAscii token ∧ IsDottedName token := by decide +kernel
  have hcut : IsTokens tokens (tidy "Map< é.B ,B>").toList := hwords ▸ isTokens_words _
  obtain ⟨-, -, hiff⟩ := cast_rewritesWhole_iff 0 source (Node.ofText source) ["A"] _ hcut
  refine ⟨hfields, hcut, (hiff hscope).mpr fun token htoken => ?_⟩
  rcases htokens token htoken with hkeeps | ⟨hascii, hdotted⟩
  · exact seesWhole_of_keeps fun run hrun => keeps_iff.mpr (hkeeps run hrun)
  · exact seesWhole_of_isAscii (Header.namesEnd_ofTree source _) (hwords ▸ htoken) hascii hdotted

/-- **Part of a name is replaced**: the type is one name, nothing is brought in for it, and yet it
is not kept, for its last letter is the name of an imported type. -/
theorem exists_part_replaced :
    let source := "import x.B;\nclass A \x7b @BindView(1) éB v; \x7d\n"
    let root := Node.ofText source
    let scope := (ofTree 0 source root).scope
    faultsOf root = [] ∧ (bindings 0 source).report = [] ∧
      (bindings 0 source).fields.map (fun f => (f.owner.nesting, f.type.text)) =
        [(["A"], "éx.B")] ∧
      IsTokens ["éB".toList] (tidy "éB").toList ∧ IsDottedName "éB".toList ∧
      (∀ name, ¬scope.Offers ["A"] "éB" name) ∧
      ¬∃ outs, List.Forall₂ (scope.RewritesWhole ["A"]) ["éB".toList] outs ∧
        "éx.B" = String.ofList outs.flatten := by
  intro source root scope
  obtain ⟨hclean, hreport, hfields, htokens, hdotted, himported, hdeclared⟩ :
      faultsOf root = [] ∧ (bindings 0 source).report = [] ∧
        (bindings 0 source).fields.map (fun f => (f.owner.nesting, f.type.text)) =
          [(["A"], "éx.B")] ∧
        IsTokens ["éB".toList] (tidy "éB").toList ∧ IsDottedName "éB".toList ∧
        scope.header.imported? "éB" = none ∧ scope.declared? ["A"] "éB" = none := by
    decide +kernel
  have hnone (name : String) : ¬scope.Offers ["A"] "éB" name := by
    rintro (h | h)
    · rw [himported] at h
      cases h
    · rw [hdeclared] at h
      cases h
  refine ⟨hclean, hreport, hfields, htokens, hdotted, hnone, ?_⟩
  rintro ⟨outs, houts, htext⟩
  obtain ⟨out, outs, hout, hrest, rfl⟩ := List.forall₂_cons_left_iff.mp houts
  obtain rfl := List.forall₂_nil_left_iff.mp hrest
  cases hout with
  | kept => exact absurd htext (by decide)
  | replaced _ hname => exact hnone _ hname

end Reading

end ViewBinding.Java
