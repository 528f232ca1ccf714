import ViewBinding.Proofs.Manifest.Checks
import ViewBinding.Proofs.Outline.Members
import ViewBinding.Round

/-!
# Where fields come from

A field of a scan comes from a source or from an entry of a manifest
(`ViewBinding.Scan.exists_origin`). In a source it has been declared by a member that carries the
annotation, and this member and one of its declarators say all there is to say of its name and its
type (`ViewBinding.Java.Reading.Brings`, `ViewBinding.Java.exists_site_of_mem_bindingsOfTree`), and
of the imports that go along with the type (`ViewBinding.Java.Reading.DeclaresCast`).

So what holds of all fields of a scan has to be shown for one member and for one entry only.
-/

namespace ViewBinding

variable {f : BoundField}

/-! ### Sources -/

namespace Java

/-- The brackets behind a declared name. -/
def Node.brackets (source : String) (declarator : Node) : String :=
  ((declarator.child? .dimensions).map fun dimensions => dimensions.textIn source).getD ""

/-- The declarator of a member of that type brings the field: it has the name of the field at its
place, and the type to cast to is the one of the member, with the brackets behind the name. -/
structure Reading.Declares (r : Reading) (type declarator : Node) (f : BoundField) : Prop where
  name : ∃ name ∈ declarator.child? .name,
    f.name = name.textIn r.source ∧ f.place = some (r.placeOf name)
  text : f.type.text = (r.scope.cast f.owner.nesting (type.textIn r.source)).text ++
    TypeText.tidy (declarator.brackets r.source)

/-- It brings the imports too that go along with the type. -/
structure Reading.DeclaresCast (r : Reading) (type declarator : Node) (f : BoundField) : Prop
    extends r.Declares type declarator f where
  imports : f.type.imports = (r.scope.cast f.owner.nesting (type.textIn r.source)).imports

/-- **The member of the type of that nesting brings the field**: it declares fields and carries the
annotation, and one of its declarators is the one of the field. -/
structure Reading.Brings (r : Reading) (nesting : List String) (member : Node) (f : BoundField) :
    Prop where
  kind : member.kind = .fieldDeclaration
  annotated : (r.binding? member).isSome
  owner : TypeName.ofNesting? r.scope.header.package nesting = some f.owner
  declared : ∃ type ∈ member.child? .type, ∃ declarator ∈ member.childrenIn .declarator,
    r.Declares type declarator f

namespace Reading

variable {r : Reading} {nesting : List String} {holder : Kind} {owner : TypeName}
  {member mark : Node} {notes : Constants.Notes}

theorem of_mem_declaredFields {type : Node} {id : Int32}
    (h : f ∈ r.declaredFields owner member
      (r.scope.cast owner.nesting (type.textIn r.source)) id) :
    f.owner = owner ∧ ∃ declarator ∈ member.childrenIn .declarator,
      r.DeclaresCast type declarator f := by
  obtain ⟨declarator, hdeclarator, hf⟩ := List.mem_filterMap.mp h
  obtain ⟨name, hname, rfl⟩ := Option.map_eq_some_iff.mp hf
  refine ⟨rfl, declarator, hdeclarator, ⟨⟨name, hname, rfl, rfl⟩, ?_⟩, ?_⟩
  · unfold Node.brackets
    cases declarator.child? .dimensions <;> rfl
  · dsimp only

theorem of_mem_fieldBindings (h : f ∈ (r.fieldBindings owner member mark notes).1.fields) :
    f.owner = owner ∧ ∃ type ∈ member.child? .type,
      ∃ declarator ∈ member.childrenIn .declarator, r.DeclaresCast type declarator f := by
  unfold fieldBindings at h
  split at h
  · cases h
  · dsimp only at h
    split at h
    · rename_i id type htype _ _
      obtain ⟨howner, hdeclared⟩ := of_mem_declaredFields h
      exact ⟨howner, type, htype, hdeclared⟩
    · cases h

theorem of_mem_memberBindings
    (h : f ∈ (r.memberBindings nesting holder member notes).1.fields) :
    r.Brings nesting member f ∧ ∃ type ∈ member.child? .type,
      ∃ declarator ∈ member.childrenIn .declarator, r.DeclaresCast type declarator f := by
  unfold memberBindings at h
  split at h
  · rename_i owner mark howner hmark
    split at h
    · rename_i hkind
      obtain ⟨rfl, type, htype, declarator, hdeclarator, hcast⟩ := of_mem_fieldBindings h
      exact ⟨⟨by simpa using hkind, by rw [hmark]; rfl, howner,
        type, htype, declarator, hdeclarator, hcast.toDeclares⟩,
        type, htype, declarator, hdeclarator, hcast⟩
    · split at h <;> cases h
  · cases h

theorem exists_member_of_mem_entryBindings {entries : List Entry}
    (h : f ∈ (r.entryBindings entries notes).fields) :
    ∃ nesting holder member notes', .member nesting holder member ∈ entries ∧
      f ∈ (r.memberBindings nesting holder member notes').1.fields := by
  induction entries generalizing notes with
  | nil => cases h
  | cons entry entries ih =>
    cases entry with
    | type nesting =>
      obtain ⟨nesting', holder, member, notes', hmem, hf⟩ := ih h
      exact ⟨nesting', holder, member, notes', List.mem_cons_of_mem _ hmem, hf⟩
    | member nesting holder member =>
      rcases List.mem_append.mp h with h | h
      · exact ⟨nesting, holder, member, notes, List.mem_cons_self, h⟩
      · obtain ⟨nesting', holder', member', notes', hmem, hf⟩ := ih h
        exact ⟨nesting', holder', member', notes', List.mem_cons_of_mem _ hmem, hf⟩

end Reading

/-- A field of a tree is among those of a member of a type in it. -/
theorem exists_memberBindings_of_mem_bindingsOfTree {number : Nat} {source : String} {root : Node}
    (h : f ∈ (bindingsOfTree number source root).fields) :
    ∃ s ∈ sites source root, ∃ notes, f ∈ ((Reading.ofTree number source root).memberBindings
      s.nesting s.holder s.member notes).1.fields := by
  rcases List.mem_append.mp h with h | h
  · cases h
  · obtain ⟨nesting, holder, member, notes, hmem, hf⟩ :=
      Reading.exists_member_of_mem_entryBindings h
    obtain ⟨path, hsite⟩ := exists_site_of_mem_outline hmem
    exact ⟨_, hsite, notes, hf⟩

/-- **A field of a tree is brought by a member of a type in it.** -/
theorem exists_site_of_mem_bindingsOfTree {number : Nat} {source : String} {root : Node}
    (h : f ∈ (bindingsOfTree number source root).fields) :
    ∃ s ∈ sites source root, (Reading.ofTree number source root).Brings s.nesting s.member f := by
  obtain ⟨s, hs, notes, hf⟩ := exists_memberBindings_of_mem_bindingsOfTree h
  exact ⟨s, hs, (Reading.of_mem_memberBindings hf).1⟩

theorem exists_source_of_mem_bindingsFrom {start : Nat} {sources : Sources}
    (h : f ∈ (bindingsFrom start sources).fields) :
    ∃ number source, sources[number]? = some source ∧
      f ∈ (bindings (start + number) source.content).fields := by
  induction sources generalizing start with
  | nil => cases h
  | cons source sources ih =>
    rcases List.mem_append.mp h with h | h
    · exact ⟨0, source, rfl, h⟩
    · obtain ⟨number, later, hlater, hf⟩ := ih h
      exact ⟨number + 1, later, hlater, by rwa [Nat.add_right_comm, Nat.add_assoc] at hf⟩

/-- **A field of several sources is brought by the one that its number shows.** -/
theorem exists_source_of_mem_allBindings {sources : Sources}
    (h : f ∈ (allBindings sources).fields) :
    ∃ number source, sources[number]? = some source ∧
      f ∈ (bindings number source.content).fields := by
  obtain ⟨number, source, hsource, hf⟩ := exists_source_of_mem_bindingsFrom h
  exact ⟨number, source, hsource, by rwa [Nat.zero_add] at hf⟩

end Java

/-! ### Scans -/

/-- **A field of a scan comes from a source or from an entry of a manifest.** -/
theorem Scan.exists_origin {sources manifests : Sources} {strict : Bool} {s : Scan}
    (h : scan sources manifests strict = .ok s) (hf : f ∈ s.fields) :
    (∃ number source, sources[number]? = some source ∧
      f ∈ (Java.bindings number source.content).fields) ∨
      ∃ manifest ∈ manifests, ∃ entries, Manifest.parse manifest.content = .ok entries ∧
        ∃ e ∈ entries, e.toField = .ok f := by
  unfold scan at h
  split at h
  · cases h
  · rename_i fields report hbindings
    cases h
    rcases List.mem_append.mp hf with hf | hf
    · exact .inl (Java.exists_source_of_mem_allBindings hf)
    · exact .inr (Manifest.exists_entry_of_mem_bindings hbindings hf)

end ViewBinding
