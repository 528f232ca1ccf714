import ViewBinding.Proofs.Manifest.Format
import ViewBinding.Proofs.Manifest.Outcomes

/-!
# View ids out of range

An entry whose view id is no `int` is reported, and the others are handled as if it were not there.
This needs that the entry is read at all. The reader takes an integer of 64 bits with a sign for a
view id, and an integer that is larger makes the whole manifest unreadable, and with it the scan
(`ViewBinding.Manifest.bindings_omits`).

Of an integer that does not fit into 64 bits the value of the text only shows that there is a
number, so what is said of larger integers is said of all numbers that are kept without a value
(`ViewBinding.Manifest.Resembles`).
-/

namespace ViewBinding

/-! ### Integers of any size -/

namespace Json.Numeral

/-- The numeral is written with digits only. -/
def IsWhole (m : Numeral) : Prop :=
  m.fraction = [] ∧ m.exponent = none

/-- The integer that such a numeral is written for. -/
def number (m : Numeral) : Int :=
  if m.negative then -m.magnitude else m.magnitude

variable {m : Numeral} {n : Int}

/-- A numeral that is kept with a value has the value that it is written for. -/
theorem number_of_value (h : m.value = .int n) : m.number = n := by
  rw [value] at h
  split at h
  · exact Json.int.inj h
  · cases h

/-- An integer of 64 bits with a sign is kept, unless it is zero. -/
theorem value_of_isWhole (h : m.IsWhole) (hne : m.number ≠ 0)
    (hlow : Int64.minValue.toInt ≤ m.number) (hhigh : m.number ≤ Int64.maxValue.toInt) :
    m.value = .int m.number := by
  have hinteger : m.IsInteger := by
    refine ⟨h.1, h.2, ?_⟩
    have hmin : Int64.minValue.toInt = -9223372036854775808 := rfl
    have hmax : Int64.maxValue.toInt = 9223372036854775807 := rfl
    have hword : maxWord = 18446744073709551615 := rfl
    rw [number] at hne hlow hhigh
    split at hne <;> rename_i hnegative <;> simp only [hnegative] at hlow hhigh ⊢
    · simp only [if_true] at hlow ⊢
      omega
    · simp only [if_false, Bool.false_eq_true] at hhigh ⊢
      omega
  rw [value, if_pos hinteger, number]

end Json.Numeral

namespace Manifest

open Json (IsText Fits valuesOf Numeral)

/-- **The members are those of an entry with that view id**: each key is there once, with a value of
the right kind, where the view id may be an integer of any size. The package may be left out. -/
structure Resembles (members : List (String × Json)) (id : Int) : Prop where
  declaringType : ∃ s, valuesOf members "declaringType" = [.string s]
  package : valuesOf members "package" = [] ∨ valuesOf members "package" = [.null] ∨
    ∃ s, valuesOf members "package" = [.string s]
  fieldName : ∃ s, valuesOf members "fieldName" = [.string s]
  fieldType : ∃ s, valuesOf members "fieldType" = [.string s]
  viewId : ∃ m : Numeral, m.IsLegal ∧ m.IsWhole ∧ m.number = id ∧
    valuesOf members "viewId" = [m.value]

/-- **The report has a finding more**, on the entry of that number in a manifest shown as `display`.
Those on entries behind it in this manifest have moved on by one, and all others are the same. -/
def GainsFinding (display : String) (number : Nat) (report report' : Report) : Prop :=
  ∃ (earlier later : Report) (moved : List (Nat × Flaw)) (x : Finding),
    IsOnEntry x display number ∧ (∀ p ∈ moved, number ≤ p.1) ∧
    report = earlier ++ (moved.map fun p => finding display p.1 p.2) ++ later ∧
    report' = earlier ++ x :: (moved.map fun p => finding display (p.1 + 1) p.2) ++ later

variable {before after sources : Sources} {source rest : Source} {value other : Json}
  {elements front back : List Json} {members : List (String × Json)} {id : Int} {e : Entry}
  {entries es es' : List Entry} {lists : List (List Entry)} {text : String}

/-! ### Reading the entry -/

theorem fits_of_holds (h : Fits value) (hholds : Holds value elements) {v : Json}
    (hv : v ∈ elements) : Fits v := by
  have harray : Fits (.array elements) := by
    obtain rfl | ⟨members, rfl, hvalues⟩ := hholds
    · exact h
    · exact fits_of_mem_valuesOf h (hvalues.symm ▸ List.mem_singleton_self _)
  cases harray with
  | array h => exact h v hv

/-- An entry whose view id has 64 bits is read. -/
theorem exists_entryOf?_of_resembles (hfits : Fits (.object members)) (h : Resembles members id)
    (hlong : FitsLong id) (hrange : ¬FitsInt id) :
    ∃ e, entryOf? (.object members) = some e ∧ e.viewId = id := by
  obtain ⟨type, htype⟩ := h.declaringType
  obtain ⟨name, hname⟩ := h.fieldName
  obtain ⟨fieldType, hfieldType⟩ := h.fieldType
  obtain ⟨m, -, hwhole, rfl, hid⟩ := h.viewId
  have hne : m.number ≠ 0 := fun hzero => hrange (by rw [hzero]; decide)
  rw [Numeral.value_of_isWhole hwhole hne hlong.1 hlong.2] at hid
  rcases h.package with hpackage | hpackage | ⟨package, hpackage⟩
  · exact ⟨⟨type, none, name, fieldType, m.number⟩, (entryOf?_object_eq_some_iff hfits).mpr
      ⟨htype, .inl hpackage, hname, hfieldType, hid, hlong⟩, rfl⟩
  · exact ⟨⟨type, none, name, fieldType, m.number⟩, (entryOf?_object_eq_some_iff hfits).mpr
      ⟨htype, .inr hpackage, hname, hfieldType, hid, hlong⟩, rfl⟩
  · exact ⟨⟨type, some package, name, fieldType, m.number⟩, (entryOf?_object_eq_some_iff hfits).mpr
      ⟨htype, hpackage, hname, hfieldType, hid, hlong⟩, rfl⟩

/-- One whose view id has more is not. -/
theorem entryOf?_of_resembles (hfits : Fits (.object members)) (h : Resembles members id)
    (hlong : ¬FitsLong id) : entryOf? (.object members) = none := by
  refine Option.eq_none_iff_forall_ne_some.mpr fun e he => hlong ?_
  have hdescribe := (entryOf?_object_eq_some_iff hfits).mp he
  obtain ⟨m, -, -, rfl, hid⟩ := h.viewId
  have hvalue := hid.symm.trans hdescribe.viewId
  rw [Numeral.number_of_value (List.singleton_inj.mp hvalue)]
  exact hdescribe.range

/-! ### Reading the manifest -/

/-- A text with a value is read by the elements that the value holds. -/
theorem parse_of_holds (htext : IsText value text) (hholds : Holds value elements) :
    parse text = (elements.mapM entryOf?).elim (.error .shape) .ok := by
  have hentries : entriesOf? value = elements.mapM entryOf? := by
    obtain rfl | ⟨members, rfl, hvalues⟩ := hholds
    · rfl
    · rw [entriesOf?, only?_eq_some_iff.mpr hvalues]
  obtain ⟨c, hread, hend⟩ := Json.isText_iff.mp htext
  rw [parse, hread]
  dsimp only
  rw [hentries]
  cases elements.mapM entryOf? with
  | none => rfl
  | some entries =>
    dsimp only
    rw [hend]
    rfl

theorem mapM_insert (f : Json → Option Entry) (front back : List Json) (v : Json) :
    (front ++ v :: back).mapM f = (f v).bind fun e =>
      (front.mapM f).bind fun es => (back.mapM f).map fun es' => es ++ e :: es' := by
  rw [List.mapM_append, List.mapM_cons]
  cases f v <;> cases front.mapM f <;> cases back.mapM f <;> rfl

/-- Where both the entry and the others are read, they are read together. -/
theorem parse_insert (htext : IsText value source.content)
    (hholds : Holds value (front ++ .object members :: back)) (hrest : IsText other rest.content)
    (hothers : Holds other (front ++ back)) (hentry : entryOf? (.object members) = some e)
    (h : parse rest.content = .ok entries) :
    ∃ es es', entries = es ++ es' ∧ es.length = front.length ∧
      parse source.content = .ok (es ++ e :: es') := by
  rw [parse_of_holds hrest hothers, List.mapM_append] at h
  rw [parse_of_holds htext hholds, mapM_insert, hentry]
  cases hfront : front.mapM entryOf? with
  | none =>
    rw [hfront] at h
    cases h
  | some es =>
    cases hback : back.mapM entryOf? with
    | none =>
      rw [hfront, hback] at h
      cases h
    | some es' =>
      rw [hfront, hback] at h
      obtain rfl := Except.ok.inj h
      exact ⟨es, es', rfl, (Json.mapM_eq_some_iff.mp hfront).length_eq.symm, rfl⟩

/-- Where the others are not read, nothing is. -/
theorem mapM_insert_eq_none {f : Json → Option Entry} (h : (front ++ back).mapM f = none)
    (v : Json) : (front ++ v :: back).mapM f = none := by
  rw [mapM_insert]
  rw [List.mapM_append] at h
  cases hfront : front.mapM f with
  | none => cases f v <;> rfl
  | some es =>
    cases hback : back.mapM f with
    | none => cases f v <;> rfl
    | some es' =>
      rw [hfront, hback] at h
      cases h

theorem parse_insert_error {error : Error} (htext : IsText value source.content)
    (hholds : Holds value (front ++ .object members :: back)) (hrest : IsText other rest.content)
    (hothers : Holds other (front ++ back)) (h : parse rest.content = .error error) :
    error = .shape ∧ parse source.content = .error .shape := by
  rw [parse_of_holds hrest hothers] at h
  cases hread : (front ++ back).mapM entryOf? with
  | none =>
    rw [hread] at h
    cases h
    exact ⟨rfl, by rw [parse_of_holds htext hholds, mapM_insert_eq_none hread]; rfl⟩
  | some entries =>
    rw [hread] at h
    cases h

/-! ### The other entries -/

/-- The flaws of entries, each with the number of its entry, of which the first is `number`. -/
def flawsFrom (number : Nat) (entries : List Entry) : List (Nat × Flaw) :=
  (entries.zipIdx number).filterMap fun p =>
    match p.1.toField with
    | .ok _ => none
    | .error flaw => some (p.2, flaw)

theorem le_of_mem_flawsFrom {number : Nat} {p : Nat × Flaw} (h : p ∈ flawsFrom number entries) :
    number ≤ p.1 := by
  obtain ⟨q, hq, hflaw⟩ := List.mem_filterMap.mp h
  split at hflaw
  · cases hflaw
  · cases hflaw
    exact List.le_snd_of_mem_zipIdx hq

theorem flawsFrom_cons_of_ok (number : Nat) (entries : List Entry) {f : BoundField}
    (h : e.toField = .ok f) : flawsFrom number (e :: entries) = flawsFrom (number + 1) entries := by
  rw [flawsFrom, List.zipIdx_cons, List.filterMap_cons_none (by simp only [h])]
  rfl

theorem flawsFrom_cons_of_error (number : Nat) (entries : List Entry) {flaw : Flaw}
    (h : e.toField = .error flaw) :
    flawsFrom number (e :: entries) = (number, flaw) :: flawsFrom (number + 1) entries := by
  rw [flawsFrom, List.zipIdx_cons, List.filterMap_cons, h]
  rfl

/-- When entries move on, so do the findings on them, and their fields are the same. -/
theorem collect_listedFrom (display : String) (number shift : Nat) (entries : List Entry) :
    collect ((listedFrom display (number + shift) entries).map Listed.outcome) =
      (entries.filterMap fun e => e.toField.toOption,
        (flawsFrom number entries).map fun p => finding display (p.1 + shift) p.2) := by
  induction entries generalizing number with
  | nil => rfl
  | cons e entries ih =>
    have hrest := ih (number + 1)
    rw [Nat.add_right_comm] at hrest
    rw [listedFrom_cons, List.map_cons]
    cases hfield : e.toField with
    | ok f =>
      have houtcome : Listed.outcome ⟨display, number + shift, e⟩ = .inl f := by
        rw [Listed.outcome, hfield]
      rw [houtcome, collect_inl, hrest, flawsFrom_cons_of_ok number entries hfield,
        List.filterMap_cons, hfield]
      rfl
    | error flaw =>
      have houtcome : Listed.outcome ⟨display, number + shift, e⟩ =
          .inr (finding display (number + shift) flaw) := by
        rw [Listed.outcome, hfield]
      rw [houtcome, collect_inr, hrest, flawsFrom_cons_of_error number entries hfield,
        List.filterMap_cons, hfield]
      rfl

/-- An entry whose view id is out of range becomes a finding. -/
theorem exists_outcome_of_not_fitsInt (display : String) (number : Nat)
    (h : ¬FitsInt e.viewId) : ∃ x, IsOnEntry x display number ∧
      Listed.outcome ⟨display, number, e⟩ = .inr x := by
  have hbecomes := Listed.becomes_outcome ⟨display, number, e⟩
  generalize Listed.outcome ⟨display, number, e⟩ = outcome at hbecomes ⊢
  cases hbecomes with
  | field husable _ => exact absurd husable.id h
  | finding _ hx => exact ⟨_, hx, rfl⟩

theorem GainsFinding.append {display : String} {number : Nat} {report report' : Report}
    (h : GainsFinding display number report report') (before after : Report) :
    GainsFinding display number (before ++ report ++ after) (before ++ report' ++ after) := by
  obtain ⟨earlier, later, moved, x, hx, hmoved, rfl, rfl⟩ := h
  refine ⟨before ++ earlier, later ++ after, moved, x, hx, hmoved, ?_, ?_⟩
  · simp only [List.append_assoc]
  · simp only [List.append_assoc, List.cons_append]

/-- **A manifest with such an entry has the same fields and one finding more.** -/
theorem collect_listedFrom_insert (display : String) (es es' : List Entry)
    (h : ¬FitsInt e.viewId) :
    let absent := collect ((listedFrom display 0 (es ++ es')).map Listed.outcome)
    let present := collect ((listedFrom display 0 (es ++ e :: es')).map Listed.outcome)
    present.1 = absent.1 ∧ GainsFinding display es.length absent.2 present.2 := by
  intro absent present
  obtain ⟨x, hx, houtcome⟩ := exists_outcome_of_not_fitsInt display es.length h
  let front := collect ((listedFrom display 0 es).map Listed.outcome)
  let fields := es'.filterMap fun e => e.toField.toOption
  let flaws := flawsFrom es.length es'
  have habsent : absent =
      (front.1 ++ fields, front.2 ++ flaws.map fun p => finding display p.1 p.2) := by
    have hback := collect_listedFrom display es.length 0 es'
    simp only [Nat.add_zero] at hback
    simp only [absent, front, collect_append, listedFrom_append, List.map_append, Nat.zero_add,
      hback, fields, flaws]
  have hpresent : present =
      (front.1 ++ fields, front.2 ++ x :: flaws.map fun p => finding display (p.1 + 1) p.2) := by
    have hmoved := collect_listedFrom display es.length 1 es'
    simp only [present, front, collect_append, listedFrom_append, listedFrom_cons, List.map_append,
      List.map_cons, Nat.zero_add, houtcome, collect_inr, hmoved, fields, flaws]
  rw [habsent, hpresent]
  refine ⟨rfl, front.2, [], flaws, x, hx, fun p => le_of_mem_flawsFrom, ?_, ?_⟩
  · exact (List.append_nil _).symm
  · exact (List.append_nil _).symm

/-- The same holds of all outcomes around it. -/
theorem collect_insert (display : String) (es es' : List Entry) (h : ¬FitsInt e.viewId)
    (before after : List (BoundField ⊕ Finding)) :
    let absent := collect (before ++ (listedFrom display 0 (es ++ es')).map Listed.outcome ++ after)
    let present :=
      collect (before ++ (listedFrom display 0 (es ++ e :: es')).map Listed.outcome ++ after)
    present.1 = absent.1 ∧ GainsFinding display es.length absent.2 present.2 := by
  obtain ⟨hfields, hgains⟩ := collect_listedFrom_insert display es es' h
  simp only [collect_append]
  exact ⟨by rw [hfields], hgains.append _ _⟩

/-! ### All manifests -/

theorem bindings_cons_eq_error_iff {message : String} :
    bindings (source :: sources) = .error message ↔
      (∃ error, parse source.content = .error error ∧ error.message source.content = message) ∨
        (∃ entries, parse source.content = .ok entries) ∧ bindings sources = .error message := by
  rw [bindings]
  cases parse source.content with
  | error error => simp
  | ok entries => cases bindings sources <;> simp

/-- If the manifests cannot be read without the entry, they cannot be read with it either, and for
the same reason. -/
theorem bindings_insert_error (htext : IsText value source.content)
    (hholds : Holds value (front ++ .object members :: back)) (hrest : IsText other rest.content)
    (hothers : Holds other (front ++ back)) (hentry : entryOf? (.object members) = some e)
    {message : String} (h : bindings (before ++ rest :: after) = .error message) :
    bindings (before ++ source :: after) = .error message := by
  induction before with
  | nil =>
    rw [List.nil_append, bindings_cons_eq_error_iff] at h ⊢
    rcases h with ⟨error, herror, rfl⟩ | ⟨⟨entries, hentries⟩, hafter⟩
    · obtain ⟨rfl, hshape⟩ := parse_insert_error htext hholds hrest hothers herror
      exact .inl ⟨.shape, hshape, rfl⟩
    · obtain ⟨es, es', -, -, hread⟩ := parse_insert htext hholds hrest hothers hentry hentries
      exact .inr ⟨⟨_, hread⟩, hafter⟩
  | cons first before ih =>
    rw [List.cons_append, bindings_cons_eq_error_iff] at h ⊢
    exact h.imp id fun ⟨hfirst, hbefore⟩ => ⟨hfirst, ih hbefore⟩

/-- If they can be read without the entry, they have the same fields with it and one finding
more. -/
theorem bindings_insert_ok (htext : IsText value source.content)
    (hholds : Holds value (front ++ .object members :: back)) (hrest : IsText other rest.content)
    (hothers : Holds other (front ++ back)) (horigin : rest.origin = source.origin)
    (hentry : entryOf? (.object members) = some e) (hrange : ¬FitsInt e.viewId)
    {fields : List BoundField} {report : Report}
    (h : bindings (before ++ rest :: after) = .ok (fields, report)) :
    ∃ report', bindings (before ++ source :: after) = .ok (fields, report') ∧
      GainsFinding source.origin.display front.length report report' := by
  have hparse := (of_bindings h).1
  obtain ⟨lists, hlists⟩ := exists_lists fun s hs => hparse s (List.mem_append_left _ hs)
  obtain ⟨lists', hlists'⟩ := exists_lists fun s hs =>
    hparse s (List.mem_append_right _ (List.mem_cons_of_mem _ hs))
  obtain ⟨entries, hentries⟩ := hparse rest (by simp)
  obtain ⟨es, es', rfl, hlength, hread⟩ :=
    parse_insert htext hholds hrest hothers hentry hentries
  have habsent := bindings_eq_ok (List.rel_append hlists (.cons hentries hlists'))
  have hpresent := bindings_eq_ok (List.rel_append hlists (.cons hread hlists'))
  rw [listed_append hlists.length_eq, listed_cons, ← List.append_assoc, List.map_append,
    List.map_append] at habsent hpresent
  rw [h, horigin] at habsent
  have hinsert := collect_insert source.origin.display es es' hrange
    ((listed before lists).map Listed.outcome) ((listed after lists').map Listed.outcome)
  dsimp only at hinsert
  rw [← Except.ok.inj habsent] at hinsert
  obtain ⟨hfields, hgains⟩ := hinsert
  dsimp only at hfields
  exact ⟨_, hpresent.trans (congrArg Except.ok (Prod.ext hfields rfl)), hlength ▸ hgains⟩

/-- **An entry whose view id is out of range is left out and reported**, if the id has at most 64
bits: the fields are those without the entry, there is one finding more, and if the scan is an error
it is one without the entry too. A larger view id makes the whole scan an error. -/
theorem bindings_omits (htext : IsText value source.content)
    (hholds : Holds value (front ++ .object members :: back)) (hrest : IsText other rest.content)
    (hothers : Holds other (front ++ back)) (horigin : rest.origin = source.origin)
    (hentry : Resembles members id) (hrange : ¬FitsInt id) :
    (FitsLong id →
      (∀ message, bindings (before ++ rest :: after) = .error message →
        bindings (before ++ source :: after) = .error message) ∧
      ∀ fields report, bindings (before ++ rest :: after) = .ok (fields, report) →
        ∃ report', bindings (before ++ source :: after) = .ok (fields, report') ∧
          GainsFinding source.origin.display front.length report report') ∧
    (¬FitsLong id → ∃ message, bindings (before ++ source :: after) = .error message) := by
  have hfits : Fits (.object members) := fits_of_holds htext.fits hholds (by simp)
  constructor
  · intro hlong
    obtain ⟨e, he, rfl⟩ := exists_entryOf?_of_resembles hfits hentry hlong hrange
    exact ⟨fun message => bindings_insert_error htext hholds hrest hothers he,
      fun fields report => bindings_insert_ok htext hholds hrest hothers horigin he hrange⟩
  · intro hlong
    have hshape : parse source.content = .error .shape := by
      rw [parse_of_holds htext hholds, mapM_insert, entryOf?_of_resembles hfits hentry hlong]
      rfl
    exact exists_bindings_error_iff.mpr ⟨source, by simp, _, hshape⟩

set_option maxRecDepth 2000 in
/-- The first view id that is too large, on an entry in front of a good one. -/
theorem bindings_omits_above :
    let bad : List (String × Json) := [("declaringType", .string "A"), ("package", .null),
      ("fieldName", .string "y"), ("fieldType", .string "V"), ("viewId", .int 2147483648)]
    let good : Json := .object [("declaringType", .string "A"), ("package", .null),
      ("fieldName", .string "z"), ("fieldType", .string "V"), ("viewId", .int 3)]
    let source : Source := ⟨.file "m.json", "[\x7b\"declaringType\":\"A\",\"package\":null," ++
      "\"fieldName\":\"y\",\"fieldType\":\"V\",\"viewId\":2147483648\x7d," ++
      "\x7b\"declaringType\":\"A\",\"package\":null," ++
      "\"fieldName\":\"z\",\"fieldType\":\"V\",\"viewId\":3\x7d]"⟩
    let rest : Source := ⟨.file "m.json", "[\x7b\"declaringType\":\"A\",\"package\":null," ++
      "\"fieldName\":\"z\",\"fieldType\":\"V\",\"viewId\":3\x7d]"⟩
    IsText (.array [.object bad, good]) source.content ∧ Resembles bad 2147483648 ∧
      IsText (.array [good]) rest.content ∧
      ∃ fields report report', bindings [rest] = .ok (fields, report) ∧
        fields.map BoundField.name = ["z"] ∧ bindings [source] = .ok (fields, report') ∧
        GainsFinding "m.json" 0 report report' := by
  intro bad good source rest
  have hread : Json.readPrefix source.content = .ok (.array [.object bad, good], ⟨[], 170⟩) := by
    dsimp only [source, bad, good]
    rfl
  have hread' : Json.readPrefix rest.content = .ok (.array [good], ⟨[], 81⟩) := by
    dsimp only [rest, good]
    rfl
  have htext : IsText (.array [.object bad, good]) source.content :=
    Json.isText_iff.mpr ⟨_, hread, rfl⟩
  have hrest : IsText (.array [good]) rest.content := Json.isText_iff.mpr ⟨_, hread', rfl⟩
  have hid : Numeral.IsLegal
      ⟨false, ['2', '1', '4', '7', '4', '8', '3', '6', '4', '8'], [], none⟩ :=
    ⟨⟨by decide, List.all_eq_true.mp rfl⟩, by decide, nofun, nofun⟩
  have hresembles : Resembles bad 2147483648 :=
    ⟨⟨"A", rfl⟩, .inr (.inl rfl), ⟨"y", rfl⟩, ⟨"V", rfl⟩, ⟨_, hid, ⟨rfl, rfl⟩, rfl, rfl⟩⟩
  have hbindings : (bindings [rest]).map (fun out => out.1.map BoundField.name) = .ok ["z"] := by
    decide +kernel
  cases hout : bindings [rest] with
  | error message =>
    rw [hout] at hbindings
    cases hbindings
  | ok out =>
    rw [hout] at hbindings
    obtain ⟨report', hpresent, hgains⟩ :=
      ((@bindings_omits [] [] source rest _ _ [] [good] bad _ htext (.inl rfl) hrest (.inl rfl) rfl
        hresembles (by decide)).1 ⟨by decide, by decide⟩).2 _ _ hout
    exact ⟨htext, hresembles, hrest, _, _, _, rfl, Except.ok.inj hbindings, hpresent, hgains⟩

set_option maxRecDepth 2000 in
/-- The first view id that has more than 64 bits makes the scan an error, which it is not without
the entry. -/
theorem exists_bindings_error_of_id : ∃ (source rest : Source) (members : List (String × Json))
    (good : Json), IsText (.array [.object members, good]) source.content ∧
      Resembles members 9223372036854775808 ∧ IsText (.array [good]) rest.content ∧
      (∃ out, bindings [rest] = .ok out) ∧ ∃ message, bindings [source] = .error message := by
  have hread : Json.readPrefix ("[\x7b\"declaringType\":\"A\",\"package\":null," ++
      "\"fieldName\":\"x\",\"fieldType\":\"V\",\"viewId\":9223372036854775808\x7d," ++
      "\x7b\"declaringType\":\"A\",\"package\":null," ++
      "\"fieldName\":\"z\",\"fieldType\":\"V\",\"viewId\":7\x7d]") =
      .ok (.array [.object [("declaringType", .string "A"), ("package", .null),
          ("fieldName", .string "x"), ("fieldType", .string "V"),
          ("viewId", .int 9223372036854775808)],
        .object [("declaringType", .string "A"), ("package", .null),
          ("fieldName", .string "z"), ("fieldType", .string "V"), ("viewId", .int 7)]],
        ⟨[], 179⟩) := by
    rfl
  have hread' : Json.readPrefix ("[\x7b\"declaringType\":\"A\",\"package\":null," ++
      "\"fieldName\":\"z\",\"fieldType\":\"V\",\"viewId\":7\x7d]") =
      .ok (.array [.object [("declaringType", .string "A"), ("package", .null),
          ("fieldName", .string "z"), ("fieldType", .string "V"), ("viewId", .int 7)]],
        ⟨[], 81⟩) := by
    rfl
  have hid : Numeral.IsLegal ⟨false, ['9', '2', '2', '3', '3', '7', '2', '0', '3', '6', '8', '5',
      '4', '7', '7', '5', '8', '0', '8'], [], none⟩ :=
    ⟨⟨by decide, List.all_eq_true.mp rfl⟩, by decide, nofun, nofun⟩
  have htext := Json.isText_iff.mpr ⟨_, hread, rfl⟩
  have hrest := Json.isText_iff.mpr ⟨_, hread', rfl⟩
  refine ⟨⟨.inline, _⟩, ⟨.inline, _⟩, _, _, htext,
    ⟨⟨"A", rfl⟩, .inr (.inl rfl), ⟨"x", rfl⟩, ⟨"V", rfl⟩, ⟨_, hid, ⟨rfl, rfl⟩, rfl, rfl⟩⟩,
    hrest, ?_, ?_⟩
  · exact exists_bindings (List.forall_mem_singleton.mpr ⟨_, parse_of_holds hrest (.inl rfl)⟩)
  · exact exists_bindings_error_iff.mpr
      ⟨_, List.mem_singleton_self _, .shape, parse_of_holds htext (.inl rfl)⟩

end Manifest

end ViewBinding
