import ViewBinding.Proofs.Companion.PerType
import ViewBinding.Proofs.Grouping.Collisions
import ViewBinding.Proofs.Scan.Origins
import ViewBinding.Proofs.Scan.Places

/-!
# The places of a round

The places in a round are numbers of sources and ranges of bytes, and nothing in them says to which
texts they belong: manifests are numbered from zero too. Yet all of them belong to the sources of
the round. They come from the trees of the sources, each with the number of its source, and what
manifests bring has none (`ViewBinding.Java.keepsTo_allBindings`,
`ViewBinding.Manifest.keepsTo_bindings`). The findings on groups and companions stand and refer
where fields do (`ViewBinding.Grouping.keepsTo_ofFields`,
`ViewBinding.Companion.keepsTo_ofGroups`).

So, as the nodes of a tree cover parts of its text, every place is a part of a source
(`ViewBinding.Scan.places_synthesize`).
-/

namespace ViewBinding

open Java Text

variable {P : Place → Prop} {text : Place → String} {sources manifests : Sources}
  {fields : List BoundField}

/-! ### Inputs -/

theorem Java.keepsTo_bindingsFrom {start : Nat}
    (hnodes : ∀ number source, sources[number]? = some source →
      ∀ n ∈ (Node.ofText source.content).nodes, P ⟨start + number, n.extent⟩)
    (htext : ∀ number source, sources[number]? = some source →
      ∀ e : Extent, text ⟨start + number, e⟩ = e.textIn source.content) :
    (bindingsFrom start sources).KeepsTo P text := by
  induction sources generalizing start with
  | nil => exact .none
  | cons source sources ih =>
    have hshift (number : Nat) : start + 1 + number = start + (number + 1) := by omega
    refine .append (keepsTo_bindings (hnodes 0 source rfl) (htext 0 source rfl)) (ih ?_ ?_)
    · intro number later hlater
      rw [hshift]
      exact hnodes (number + 1) later hlater
    · intro number later hlater
      rw [hshift]
      exact htext (number + 1) later hlater

/-- **What sources bring keeps to the places of their trees**, each in the source of its number. -/
theorem Java.keepsTo_allBindings
    (hnodes : ∀ number source, sources[number]? = some source →
      ∀ n ∈ (Node.ofText source.content).nodes, P ⟨number, n.extent⟩)
    (htext : ∀ number source, sources[number]? = some source →
      ∀ e : Extent, text ⟨number, e⟩ = e.textIn source.content) :
    (allBindings sources).KeepsTo P text :=
  keepsTo_bindingsFrom (by simpa using hnodes) (by simpa using htext)

namespace Manifest

theorem keepsTo_entryBindings (display : String) (number : Nat) (entries : List Entry) :
    ∀ x ∈ (entryBindings display number entries).2, x.KeepsTo P text := by
  induction entries generalizing number with
  | nil => exact fun _ h => (List.not_mem_nil h).elim
  | cons e entries ih =>
    unfold entryBindings
    dsimp only
    split
    · exact ih (number + 1)
    · exact List.forall_mem_cons.mpr ⟨Finding.keepsTo_of rfl (fun _ h => nomatch h) _
        fun _ h => (List.not_mem_nil h).elim, ih (number + 1)⟩

/-- **What manifests bring has no place.** -/
theorem keepsTo_bindings {out : List BoundField × Report} (h : bindings manifests = .ok out) :
    (∀ f ∈ out.1, f.place = none) ∧ ∀ x ∈ out.2, x.KeepsTo P text := by
  constructor
  · intro f hf
    obtain ⟨source, -, entries, -, e, -, hfield⟩ := exists_entry_of_mem_bindings h hf
    obtain ⟨owner, -, -, -, -, rfl⟩ := toField_eq_ok_iff.mp hfield
    rfl
  · induction manifests generalizing out with
    | nil =>
      cases h
      exact fun _ h => (List.not_mem_nil h).elim
    | cons source sources ih =>
      unfold bindings at h
      split at h
      · cases h
      · split at h
        · cases h
        · rename_i rest found hrest
          cases h
          intro x hx
          rcases List.mem_append.mp hx with hx | hx
          · exact keepsTo_entryBindings _ _ _ x hx
          · exact ih hrest x hx

end Manifest

/-! ### Groups and companions -/

/-- **A field that displaces another is reported where the two stand.** -/
theorem Grouping.keepsTo_ofFields (h : ∀ f ∈ fields, ∀ p ∈ f.place, P p) :
    ∀ x ∈ (ofFields fields).2, x.KeepsTo P text := by
  have hreport : (ofFields fields).2 = (collisions fields).map Collision.finding :=
    report_insertAll fun owner id => rfl
  intro x hx
  rw [hreport] at hx
  obtain ⟨c, hc, rfl⟩ := List.mem_map.mp hx
  obtain ⟨before, after, hall, -, first, rest, hbefore, -⟩ := mem_collisions_iff.mp hc
  have hfield : c.field ∈ fields := by simp [hall]
  have hdisplaced : c.displaced ∈ fields := by simp [hall, hbefore]
  refine Finding.keepsTo_of rfl (h _ hfield) _ fun r hr => ?_
  obtain ⟨p, hp, rfl⟩ := Option.map_eq_some_iff.mp (Option.mem_toList.mp hr)
  exact h _ hdisplaced p hp

namespace Companion

/-- A companion that is left out is reported along with two groups. -/
theorem exists_clash_of_mem {used : List (String × Group)} {groups : Grouping} {x : Finding}
    (h : x ∈ (ofGroupsAfter used groups).2) :
    ∃ c earlier later, x = clash c earlier later ∧ later ∈ groups ∧
      (earlier ∈ groups ∨ earlier ∈ used.map Prod.snd) := by
  induction groups generalizing used with
  | nil => cases h
  | cons g groups ih =>
    obtain ⟨-, heq⟩ | ⟨c, claim, -, hclaim, -, heq⟩ | ⟨c, -, -, heq⟩ :=
      ofGroupsAfter_cons used g groups
    · rw [heq] at h
      obtain ⟨c, earlier, later, hx, hlater, hearlier⟩ := ih h
      exact ⟨c, earlier, later, hx, .tail _ hlater, hearlier.imp_left (.tail _)⟩
    · rw [heq] at h
      rcases List.mem_cons.mp h with rfl | h
      · exact ⟨c, claim.2, g, rfl, .head _, .inr (List.mem_map_of_mem hclaim)⟩
      · obtain ⟨c, earlier, later, hx, hlater, hearlier⟩ := ih h
        exact ⟨c, earlier, later, hx, .tail _ hlater, hearlier.imp_left (.tail _)⟩
    · rw [heq] at h
      obtain ⟨c, earlier, later, hx, hlater, hearlier⟩ := ih h
      refine ⟨c, earlier, later, hx, .tail _ hlater, ?_⟩
      rcases hearlier with hearlier | hearlier
      · exact .inl (.tail _ hearlier)
      · -- the name that came into use is that of the first group
        rw [List.map_append, List.mem_append] at hearlier
        rcases hearlier with hearlier | hearlier
        · exact .inr hearlier
        · rw [List.mem_singleton.mp hearlier]
          exact .inl (.head _)

/-- **A clash is reported where fields of the two groups stand.** -/
theorem keepsTo_ofGroups (h : ∀ f ∈ fields, ∀ p ∈ f.place, P p) :
    ∀ x ∈ (ofGroups (Grouping.ofFields fields).1).2, x.KeepsTo P text := by
  have hgroup : ∀ g ∈ (Grouping.ofFields fields).1, ∀ p ∈ g.place?, P p := by
    intro g hg p hp
    obtain ⟨f, hf, hplace⟩ := List.exists_of_findSome?_eq_some hp
    obtain ⟨before, after, hall, -⟩ := (Grouping.mem_fields_ofFields_iff hg).mp hf
    exact h f (by simp [hall]) p hplace
  intro x hx
  obtain ⟨c, earlier, later, rfl, hlater, hearlier⟩ := exists_clash_of_mem hx
  have hearlier : earlier ∈ (Grouping.ofFields fields).1 := by simpa using hearlier
  refine Finding.keepsTo_of rfl (hgroup later hlater) _ fun r hr => ?_
  obtain ⟨p, hp, rfl⟩ := Option.map_eq_some_iff.mp (Option.mem_toList.mp hr)
  exact hgroup earlier hearlier p hp

end Companion

/-! ### Parts of sources -/

/-- **The extent is a part of the text**: it starts and stops where a character does or the text
ends, and does not stop before it starts. -/
structure Text.Extent.IsPartOf (e : Extent) (text : String) : Prop where
  ordered : e.start ≤ e.stop
  inside : e.stop ≤ text.utf8ByteSize
  starts : e.start ∈ text.toList.inits.map byteLength
  stops : e.stop ∈ text.toList.inits.map byteLength

instance (e : Extent) (text : String) : Decidable (e.IsPartOf text) :=
  decidable_of_iff (e.start ≤ e.stop ∧ e.stop ≤ text.utf8ByteSize ∧
      e.start ∈ text.toList.inits.map byteLength ∧ e.stop ∈ text.toList.inits.map byteLength)
    ⟨fun ⟨h, h', h'', h'''⟩ => ⟨h, h', h'', h'''⟩, fun h => ⟨h.1, h.2, h.3, h.4⟩⟩

namespace Place

/-- **The place is in one of the sources**: the source of its number is there, and the extent is a
part of it. -/
def IsIn (sources : Sources) (p : Place) : Prop :=
  ∃ source, sources[p.source]? = some source ∧ p.extent.IsPartOf source.content

/-- The text at a place. -/
def textIn (sources : Sources) (p : Place) : String :=
  p.extent.textIn (sources.content p.source)

end Place

/-! ### Rounds -/

namespace Scan

variable {strict : Bool} {s : Scan}

/-- **Every place in a round is in one of its sources.** This is so for the places of all fields and
for those where findings stand and to which they refer, whatever stage reports them. A field has a
place unless a manifest brings it, and its name stands there. A finding on a view id without a value
has a place and quotes the text there, wherever the constant is that it blames. -/
theorem places_synthesize (h : scan sources manifests strict = .ok s)
    (hnodes : ∀ source ∈ sources, ∀ n ∈ (Node.ofText source.content).nodes,
      n.extent.IsPartOf source.content) :
    s.synthesize.sources = sources ∧
    (∀ f ∈ s.fields,
      (∃ p, f.place = some p ∧ p.IsIn sources ∧ p.textIn sources = f.name) ∨
      f.place = none ∧ ∃ manifest ∈ manifests, ∃ entries,
        Manifest.parse manifest.content = .ok entries ∧ ∃ e ∈ entries, e.toField = .ok f) ∧
    (∀ x ∈ s.synthesize.report,
      (∀ p ∈ x.place, p.IsIn sources) ∧ (∀ r ∈ x.related, r.place.IsIn sources)) ∧
    (∀ x ∈ s.synthesize.report, x.problem = .nonConstantViewId →
      ∃ p, x.place = some p ∧
        x.message = "view id `" ++ p.textIn sources ++ "` is not an integer constant") ∧
    (∀ x ∈ s.synthesize.report, x.problem = .viewIdOutOfRange →
      ∃ p, x.place = some p ∧
        x.message = "view id `" ++ p.textIn sources ++ "` does not fit in an `int`") := by
  have hjava : (allBindings sources).KeepsTo (Place.IsIn sources) (Place.textIn sources) := by
    refine keepsTo_allBindings (fun number source hsource n hn => ?_)
      fun number source hsource e => ?_
    · exact ⟨source, hsource, hnodes source (List.mem_of_getElem? hsource) n hn⟩
    · rw [Place.textIn, Sources.content, hsource]
      rfl
  unfold scan at h
  split at h
  · cases h
  · rename_i fields report hbindings
    cases h
    obtain ⟨hnone, hreport⟩ := Manifest.keepsTo_bindings hbindings
    have hplaces : ∀ f ∈ (allBindings sources).fields ++ fields,
        ∀ p ∈ f.place, p.IsIn sources := by
      intro f hf p hp
      rcases List.mem_append.mp hf with hf | hf
      · obtain ⟨q, hq, hin, -⟩ := hjava.fields f hf
        rw [Option.mem_def, hq, Option.some_inj] at hp
        exact hp ▸ hin
      · rw [hnone f hf] at hp
        cases hp
    -- the report is that of the sources, of the manifests, of the grouping and of the companions
    have hall : ∀ x ∈ (Scan.mk sources ((allBindings sources).fields ++ fields)
        ((allBindings sources).report ++ report) strict).synthesize.report,
        x.KeepsTo (Place.IsIn sources) (Place.textIn sources) := by
      intro x hx
      rcases List.mem_append.mp hx with hx | hx
      · rcases List.mem_append.mp hx with hx | hx
        · rcases List.mem_append.mp hx with hx | hx
          · exact hjava.report x hx
          · exact hreport x hx
        · exact Grouping.keepsTo_ofFields hplaces x hx
      · exact Companion.keepsTo_ofGroups hplaces x hx
    refine ⟨rfl, fun f hf => ?_, fun x hx => ⟨(hall x hx).place, (hall x hx).related⟩,
      fun x hx hproblem => ?_, fun x hx hproblem => ?_⟩
    · rcases List.mem_append.mp hf with hf | hf
      · exact .inl (hjava.fields f hf)
      · exact .inr ⟨hnone f hf, Manifest.exists_entry_of_mem_bindings hbindings hf⟩
    · obtain ⟨p, hp, hmessage⟩ := (hall x hx).quoted (by rw [hproblem]; rfl)
      exact ⟨p, hp, by rw [hmessage, hproblem]; rfl⟩
    · obtain ⟨p, hp, hmessage⟩ := (hall x hx).quoted (by rw [hproblem]; rfl)
      exact ⟨p, hp, by rw [hmessage, hproblem]; rfl⟩

/-- Two fields whose view ids are blamed on one initializer, the second time from what has been
noted, and in another source two fields with one view id. -/
theorem places_synthesize_initializer :
    let sources : Sources := [⟨.inline, "class A \x7b @BindView(3) View é, t; \x7d"⟩, ⟨.inline,
      "class B \x7b static final int X = y; @BindView(X) View v; @BindView(X) View w; \x7d"⟩]
    ∃ s, scan sources [] false = .ok s ∧
      (s.synthesize.report.map fun x => x.place.map fun p => (p.source, p.textIn sources)) =
        [some (1, "y"), some (1, "y"), some (0, "t")] ∧
      (s.synthesize.report.flatMap fun x => x.related.map fun r => r.place.textIn sources) =
        ["é"] ∧
      ∀ x ∈ s.synthesize.report,
        (∀ p ∈ x.place, p.IsIn sources) ∧ (∀ r ∈ x.related, r.place.IsIn sources) := by
  intro sources
  let s : Scan := ⟨sources, (allBindings sources).fields ++ [],
    (allBindings sources).report ++ [], false⟩
  have hscan : scan sources [] false = .ok s := rfl
  obtain ⟨hnodes, hplaces, hrelated⟩ :
      (∀ source ∈ sources, ∀ n ∈ (Node.ofText source.content).nodes,
        n.extent.IsPartOf source.content) ∧
      (s.synthesize.report.map fun x => x.place.map fun p => (p.source, p.textIn sources)) =
        [some (1, "y"), some (1, "y"), some (0, "t")] ∧
      (s.synthesize.report.flatMap fun x => x.related.map fun r => r.place.textIn sources) =
        ["é"] := by
    decide +kernel
  exact ⟨s, hscan, hplaces, hrelated, (places_synthesize hscan hnodes).2.2.1⟩

end Scan

end ViewBinding
