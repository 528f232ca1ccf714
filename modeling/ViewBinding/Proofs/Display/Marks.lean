import ViewBinding.Display.Panel
import ViewBinding.Proofs.Round.Places

/-!
# What is marked when a finding is shown

A finding has places: its own, if it has one, and those that are related to it. Each is to be marked
in an excerpt of its source, its own one as the primary mark and each related one with the label of
its own (`ViewBinding.Finding.annotations`). The panels of a finding do so if it has a place of its
own or no related ones (`ViewBinding.Finding.showsPlaces_iff`); a related place alone is not shown.
In a round the findings of two kinds can have one: those on a field that takes the place of another,
and those on a companion whose name is in use.

What is marked for a place is `ViewBinding.Place.markedExtent`, which is never out of the source and
never empty, its end aside (`ViewBinding.Place.markedExtent_isPartOf_iff`). It starts at a
character if the place does, but where it covers nothing it is widened by one byte, which may end
within a character.
-/

namespace ViewBinding

open Text Display

/-! ### Places and panels -/

/-- A mark with what is said of the source in which it is drawn. -/
structure Annotation where
  /-- How the source is called. -/
  name : String
  content : String
  mark : Mark
deriving DecidableEq

/-- The marks of a panel. -/
def Panel.annotations (p : Panel) : List Annotation :=
  p.marks.map fun mark => ⟨p.name, p.content, mark⟩

/-- The mark of a place in its source. -/
def Place.annotation (sources : Sources) (label : String) (isPrimary : Bool) (p : Place) :
    Annotation :=
  ⟨sources.display p.source, sources.content p.source,
    ⟨p.markedExtent sources, label, isPrimary⟩⟩

/-- The mark of a related place in its source. -/
def Related.annotation (sources : Sources) (r : Related) : Annotation :=
  r.place.annotation sources r.message false

namespace Finding

/-- What there is to be marked: the place of the finding, and each of the related places. -/
def annotations (sources : Sources) (f : Finding) : List Annotation :=
  (f.place.map (Place.annotation sources f.message true)).toList ++
    f.related.map (Related.annotation sources)

/-- **The panels of the finding mark all of its places**, each once, and nothing else. -/
def ShowsPlaces (sources : Sources) (f : Finding) : Prop :=
  ((f.panels sources).flatMap Panel.annotations).Perm (f.annotations sources)

instance (sources : Sources) (f : Finding) : Decidable (f.ShowsPlaces sources) :=
  inferInstanceAs (Decidable (List.Perm _ _))

variable {sources : Sources} {f : Finding} {p : Place}

/-- The related places of the source of a panel are marked in it. -/
theorem annotations_panelOf_here (label : String) (isPrimary : Bool) {related : List Related}
    (h : ∀ r ∈ related, r.place.source = p.source) :
    (panelOf sources p.source
        (⟨p.markedExtent sources, label, isPrimary⟩ ::
          related.map (Related.mark sources))).annotations =
      p.annotation sources label isPrimary :: related.map (Related.annotation sources) := by
  rw [Panel.annotations, panelOf, List.map_cons, List.map_map]
  refine congrArg _ (List.map_congr_left fun r hr => ?_)
  rw [Function.comp_apply, ← h r hr]
  rfl

/-- A panel for each related place marks these places. -/
theorem flatMap_annotations_panelOf (related : List Related) :
    (related.map fun r => panelOf sources r.place.source [r.mark sources]).flatMap
      Panel.annotations = related.map (Related.annotation sources) := by
  induction related with
  | nil => rfl
  | cons r related ih =>
    rw [List.map_cons, List.flatMap_cons, ih]
    rfl

/-- A finding with a place shows all of its places: the related ones of its own source first. -/
theorem showsPlaces_of_place (hplace : f.place = some p) : f.ShowsPlaces sources := by
  let isHere (r : Related) : Bool := r.place.source == p.source
  let here := f.related.filter isHere
  let elsewhere := f.related.filter fun r => !isHere r
  have hhere : ∀ r ∈ here, r.place.source = p.source := fun r hr => by
    simpa [isHere] using (List.mem_filter.mp hr).2
  have hpanels : (f.panels sources).flatMap Panel.annotations =
      p.annotation sources f.message true ::
        (here ++ elsewhere).map (Related.annotation sources) := by
    rw [panels, hplace]
    dsimp only
    rw [List.flatMap_cons, annotations_panelOf_here f.message true hhere, List.map_append,
      List.cons_append]
    exact congrArg _ (congrArg _ (flatMap_annotations_panelOf elsewhere))
  have hplaces : f.annotations sources =
      p.annotation sources f.message true :: f.related.map (Related.annotation sources) := by
    rw [annotations, hplace]
    rfl
  rw [ShowsPlaces, hpanels, hplaces]
  exact ((List.filter_append_perm isHere f.related).map _).cons _

theorem showsPlaces_iff : f.ShowsPlaces sources ↔ (f.place = none → f.related = []) := by
  cases hplace : f.place with
  | some p => exact ⟨fun _ h => (nomatch h), fun _ => showsPlaces_of_place hplace⟩
  | none =>
    have hnone : (f.panels sources).flatMap Panel.annotations = [] := by
      rw [panels, hplace]
      rfl
    rw [ShowsPlaces, hnone, List.nil_perm, annotations, hplace]
    simp

end Finding

/-- A field that takes the place of another is shown with it unless only the other has a place. -/
theorem Group.showsPlaces_displacement_iff {sources : Sources} (g : Group)
    (f displaced : BoundField) :
    (g.displacement f displaced).ShowsPlaces sources ↔
      (f.place = none → displaced.place = none) := by
  rw [Finding.showsPlaces_iff]
  change (f.place = none → (displaced.place.map _).toList = []) ↔ _
  simp

/-- A companion whose name is in use is shown with the one that uses it unless only fields of the
other have a place. -/
theorem Companion.showsPlaces_clash_iff {sources : Sources} (c : Companion)
    (earlier later : Group) :
    (c.clash earlier later).ShowsPlaces sources ↔
      (later.place? = none → earlier.place? = none) := by
  rw [Finding.showsPlaces_iff]
  change (later.place? = none → (earlier.place?.map _).toList = []) ↔ _
  simp

/-- **The findings of a report show all of their places exactly if none of them has only related
ones.** -/
theorem Report.forall_showsPlaces_iff (sources : Sources) (r : Report) :
    (∀ f ∈ r, f.ShowsPlaces sources) ↔ ∀ f ∈ r, f.place = none → f.related = [] :=
  forall₂_congr fun _ _ => Finding.showsPlaces_iff

/-- **A place can be hidden**: a field of a manifest takes the place of one that stands in a source,
and the finding on it marks nothing. -/
theorem Scan.exists_hidden_place :
    let sources : Sources := [⟨.inline, "class A \x7b @BindView(1) View v; \x7d\n"⟩]
    let manifest := "[\x7b\"declaringType\":\"A\",\"package\":null,\"fieldName\":\"w\","
      ++ "\"fieldType\":\"View\",\"viewId\":1\x7d]"
    ∃ s, scan sources [⟨.inline, manifest⟩] false = .ok s ∧
      ∃ f ∈ s.synthesize.report, f.problem = .duplicateViewId ∧
        f.related.map Related.place = [⟨0, 28, 29⟩] ∧ f.panels sources = [] ∧
        ¬f.ShowsPlaces sources := by
  intro sources manifest
  let f : Finding :=
    { problem := .duplicateViewId
      place := none
      message := "view id 1 is bound to both `v` and `w` in `A`"
      related := [⟨"`v` replaced", ⟨0, 28, 29⟩⟩]
      hints := ["the later field wins; give each field its own id"] }
  have hreport : (scan sources [⟨.inline, manifest⟩] false).map (fun s => s.synthesize.report) =
      .ok [f] := by
    decide +kernel
  cases hscan : scan sources [⟨.inline, manifest⟩] false with
  | error message =>
    rw [hscan] at hreport
    cases hreport
  | ok s =>
    rw [hscan] at hreport
    have hfound : s.synthesize.report = [f] := Except.ok.inj hreport
    exact ⟨s, rfl, f, hfound ▸ List.mem_singleton_self f, rfl, rfl, rfl, by decide⟩

/-! ### The marked extent -/

namespace Text

/-- The bytes of a text at which a character starts, and its end. -/
def boundaries (text : String) : List Nat :=
  text.toList.inits.map byteLength

variable {text : String} {n : Nat}

theorem mem_boundaries_iff :
    n ∈ boundaries text ↔ ∃ front back, text.toList = front ++ back ∧ byteLength front = n := by
  rw [boundaries, List.mem_map]
  constructor
  · rintro ⟨front, hfront, rfl⟩
    obtain ⟨back, hback⟩ := (List.mem_inits _ _).mp hfront
    exact ⟨front, back, hback.symm, rfl⟩
  · rintro ⟨front, back, hback, rfl⟩
    exact ⟨front, (List.mem_inits _ _).mpr ⟨back, hback.symm⟩, rfl⟩

theorem utf8ByteSize_eq (text : String) : text.utf8ByteSize = byteLength text.toList := by
  rw [byteLength_eq_utf8Len, ← String.utf8ByteSize_ofList, String.ofList_toList]

theorem utf8ByteSize_mem_boundaries (text : String) : text.utf8ByteSize ∈ boundaries text :=
  mem_boundaries_iff.mpr ⟨text.toList, [], (List.append_nil _).symm, (utf8ByteSize_eq text).symm⟩

/-- The byte behind the first one of a character is a boundary exactly if there is no other. -/
theorem succ_mem_boundaries_iff {front back : List Char} {c : Char}
    (h : text.toList = front ++ c :: back) :
    byteLength front + 1 ∈ boundaries text ↔ c.utf8Size = 1 := by
  rw [mem_boundaries_iff]
  constructor
  · rintro ⟨longer, rest, hsplit, hlength⟩
    obtain ⟨more, rfl, hmore⟩ :=
      exists_eq_append_of_byteLength_le (h.symm.trans hsplit) (by omega)
    rw [byteLength_append] at hlength
    cases more with
    | nil =>
      rw [byteLength_nil] at hlength
      omega
    | cons d more =>
      obtain rfl : c = d := (List.cons.inj hmore).1
      have hpos := c.utf8Size_pos
      rw [byteLength_cons] at hlength
      omega
  · intro hone
    exact ⟨front ++ [c], back, by simp [h], by simp [hone]⟩

namespace Extent

variable {e : Extent} {limit : Nat}

theorem clamp_of_eq (h : min e.start limit = min e.stop limit) :
    e.clamp limit = ⟨min e.start limit, min (min e.start limit + 1) limit⟩ :=
  if_pos h

theorem clamp_of_ne (h : min e.start limit ≠ min e.stop limit) :
    e.clamp limit = ⟨min e.start limit, min e.stop limit⟩ :=
  if_neg h

theorem start_clamp (e : Extent) (limit : Nat) : (e.clamp limit).start = min e.start limit := by
  by_cases h : min e.start limit = min e.stop limit
  · rw [clamp_of_eq h]
  · rw [clamp_of_ne h]

theorem stop_clamp_le (e : Extent) (limit : Nat) : (e.clamp limit).stop ≤ limit := by
  by_cases h : min e.start limit = min e.stop limit
  · rw [clamp_of_eq h]
    exact Nat.min_le_right _ _
  · rw [clamp_of_ne h]
    exact Nat.min_le_right _ _

/-- An extent is not clamped to nothing where there is anything. -/
theorem start_lt_stop_clamp (h : e.start ≤ e.stop) (hlimit : e.start < limit) :
    (e.clamp limit).start < (e.clamp limit).stop := by
  by_cases heq : min e.start limit = min e.stop limit
  · rw [clamp_of_eq heq]
    dsimp only
    omega
  · rw [clamp_of_ne heq]
    dsimp only
    omega

theorem start_le_stop_clamp (h : e.start ≤ e.stop) (limit : Nat) :
    (e.clamp limit).start ≤ (e.clamp limit).stop := by
  rcases Nat.lt_or_ge e.start limit with hlimit | hlimit
  · exact Nat.le_of_lt (start_lt_stop_clamp h hlimit)
  · rw [start_clamp]
    by_cases heq : min e.start limit = min e.stop limit
    · rw [clamp_of_eq heq]
      dsimp only
      omega
    · omega

/-- **An extent between characters is clamped to one unless it is widened over the first byte of a
longer character.** -/
theorem stop_clamp_mem_boundaries_iff (h : e.start ≤ e.stop)
    (hstart : min e.start text.utf8ByteSize ∈ boundaries text)
    (hstop : min e.stop text.utf8ByteSize ∈ boundaries text) :
    (e.clamp text.utf8ByteSize).stop ∈ boundaries text ↔
      (e.start = e.stop → ∀ front c back, text.toList = front ++ c :: back →
        byteLength front = e.start → c.utf8Size = 1) := by
  by_cases hne : min e.start text.utf8ByteSize = min e.stop text.utf8ByteSize
  · rw [clamp_of_eq hne]
    rcases Nat.lt_or_ge e.start text.utf8ByteSize with hin | hout
    · -- the extent is empty, and its character is the one that it is widened over
      have hwidened : min (min e.start text.utf8ByteSize + 1) text.utf8ByteSize = e.start + 1 := by
        omega
      have hempty : e.start = e.stop := by omega
      rw [Nat.min_eq_left (Nat.le_of_lt hin)] at hstart
      dsimp only
      rw [hwidened]
      constructor
      · rintro hnext - front c back hsplit hfront
        rw [← hfront] at hnext
        exact (succ_mem_boundaries_iff hsplit).mp hnext
      · intro hone
        obtain ⟨front, back, hsplit, hfront⟩ := mem_boundaries_iff.mp hstart
        cases back with
        | nil =>
          rw [utf8ByteSize_eq, hsplit, List.append_nil] at hin
          omega
        | cons c back =>
          rw [← hfront]
          exact (succ_mem_boundaries_iff hsplit).mpr (hone hempty front c back hsplit hfront)
    · have hend : min (min e.start text.utf8ByteSize + 1) text.utf8ByteSize =
          text.utf8ByteSize := by omega
      dsimp only
      rw [hend]
      refine ⟨fun _ _ front c back hsplit hfront => ?_,
        fun _ => utf8ByteSize_mem_boundaries text⟩
      have hpos := c.utf8Size_pos
      rw [utf8ByteSize_eq, hsplit, byteLength_append, byteLength_cons] at hout
      omega
  · rw [clamp_of_ne hne]
    exact ⟨fun _ hempty => absurd (congrArg (min · text.utf8ByteSize) hempty) hne,
      fun _ => hstop⟩

end Extent

end Text

namespace Place

/-- **What is marked for a place is in its source, starts at a character, and is not empty unless
the place is at the end of the source or behind it. It stops at a character too exactly if it is
not widened over the first byte of a longer one.** -/
theorem markedExtent_isPartOf_iff {sources : Sources} {p : Place}
    (hle : p.extent.start ≤ p.extent.stop)
    (hbounds : ∀ byte ∈ [p.extent.start, p.extent.stop],
      byte ≤ (sources.content p.source).utf8ByteSize →
        byte ∈ boundaries (sources.content p.source)) :
    let content := sources.content p.source
    let e := p.markedExtent sources
    e.start ≤ e.stop ∧ e.stop ≤ content.utf8ByteSize ∧
      (p.extent.start < content.utf8ByteSize → e.start < e.stop) ∧ e.start ∈ boundaries content ∧
      (e.IsPartOf content ↔ (p.extent.start = p.extent.stop → ∀ front c back,
        content.toList = front ++ c :: back → byteLength front = p.extent.start →
          c.utf8Size = 1)) := by
  intro content e
  have hmin : ∀ byte ∈ [p.extent.start, p.extent.stop],
      min byte content.utf8ByteSize ∈ boundaries content := by
    intro byte hbyte
    rcases Nat.le_total byte content.utf8ByteSize with hin | hout
    · rw [Nat.min_eq_left hin]
      exact hbounds byte hbyte hin
    · rw [Nat.min_eq_right hout]
      exact utf8ByteSize_mem_boundaries content
  have hordered : e.start ≤ e.stop := Extent.start_le_stop_clamp hle _
  have hinside : e.stop ≤ content.utf8ByteSize := Extent.stop_clamp_le _ _
  have hstarts : e.start ∈ boundaries content :=
    (Extent.start_clamp p.extent content.utf8ByteSize).symm ▸ hmin p.extent.start (by simp)
  refine ⟨hordered, hinside, Extent.start_lt_stop_clamp hle, hstarts, ?_⟩
  rw [← Extent.stop_clamp_mem_boundaries_iff hle (hmin _ (by simp)) (hmin _ (by simp))]
  exact ⟨Extent.IsPartOf.stops, fun hstops => ⟨hordered, hinside, hstarts, hstops⟩⟩

/-- A place between two letters, and one behind the end of the source. -/
theorem markedExtent_isPartOf_letters :
    let sources : Sources := [⟨.inline, "éab"⟩]
    let between : Place := ⟨0, ⟨2, 2⟩⟩
    let behind : Place := ⟨0, ⟨3, 9⟩⟩
    between.extent.IsPartOf "éab" ∧
      between.markedExtent sources = ⟨2, 3⟩ ∧ behind.markedExtent sources = ⟨3, 4⟩ ∧
      (between.markedExtent sources).IsPartOf "éab" ∧
      (behind.markedExtent sources).IsPartOf "éab" := by
  intro sources between behind
  have hnext : 2 + 1 ∈ boundaries "éab" := by decide
  obtain ⟨-, -, -, -, hbetween⟩ :=
    @markedExtent_isPartOf_iff sources between (by decide) (by decide)
  obtain ⟨-, -, -, -, hbehind⟩ :=
    @markedExtent_isPartOf_iff sources behind (by decide) (by decide)
  refine ⟨by decide, rfl, rfl, hbetween.mpr fun _ front c back hsplit hfront => ?_,
    hbehind.mpr fun hempty => by cases hempty⟩
  rw [show (2 : Nat) = byteLength front from hfront.symm] at hnext
  exact (succ_mem_boundaries_iff hsplit).mp hnext

/-- **What is marked can stop within a character**: a token is lacking in front of one that has
three bytes. -/
theorem exists_cut_character :
    let sources : Sources := [⟨.inline, "class A \x7b @BindView(1日 v; \x7d\n"⟩]
    let lacking : Place := ⟨0, ⟨21, 21⟩⟩
    lacking.extent.IsPartOf (sources.content 0) ∧ lacking.markedExtent sources = ⟨21, 22⟩ ∧
      22 ∉ boundaries (sources.content 0) ∧
      ¬(lacking.markedExtent sources).IsPartOf (sources.content 0) := by
  decide +kernel

end Place

end ViewBinding
