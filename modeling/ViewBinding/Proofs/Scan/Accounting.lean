import Mathlib.Data.List.Forall2
import ViewBinding.Proofs.Outline.Members
import ViewBinding.Proofs.Scan.Annotations

/-!
# Every annotated declaration is accounted for

A declaration of fields that carries the annotation `@BindView` is not passed over: it brings a
field for every declarator and no finding, or no field and an error
(`ViewBinding.Java.Site.Accounts`). What a text brings is what its members bring, one after the
other, and the members are the sites of its tree
(`ViewBinding.Java.bindingsOfTree_accounts`).

This needs that the scan sees every annotation: a comment after the last full stop of its name hides
it, and the declaration is lost (`ViewBinding.Java.exists_lost_declaration`).
-/

namespace ViewBinding.Java

open Text

/-! ### Whole nodes -/

namespace Node

/-- The node has the parts that it has wherever a text is Java: a declaration of fields has a type
and its declarators have names, and what follows the sign in `name = value` is there. -/
structure IsComplete (n : Node) : Prop where
  type : n.kind = .fieldDeclaration → (n.child? .type).isSome
  declarators : n.kind = .fieldDeclaration →
    ∀ declarator ∈ n.childrenIn .declarator, (declarator.child? .name).isSome
  pair : n.kind = .elementPair → (n.child? .value).isSome
  assignment : n.kind = .assignment → (n.child? .right).isSome

instance (n : Node) : Decidable n.IsComplete :=
  decidable_of_iff ((n.kind = .fieldDeclaration → (n.child? .type).isSome) ∧
      (n.kind = .fieldDeclaration →
        ∀ declarator ∈ n.childrenIn .declarator, (declarator.child? .name).isSome) ∧
      (n.kind = .elementPair → (n.child? .value).isSome) ∧
      (n.kind = .assignment → (n.child? .right).isSome))
    ⟨fun ⟨type, declarators, pair, assignment⟩ => ⟨type, declarators, pair, assignment⟩,
      fun ⟨type, declarators, pair, assignment⟩ => ⟨type, declarators, pair, assignment⟩⟩

end Node

/-! ### What a member brings -/

/-- **What a member brings accounts for it.** -/
inductive Site.Accounts (source package : String) (s : Site) : Bindings → Prop
  /-- Every declarator has brought a field, in order, all with one view id. -/
  | bound {fields : List BoundField} (id : Int32) (hkind : s.member.kind = .fieldDeclaration)
      (hcarries : s.member.Carries source)
      (hfields : List.Forall₂ (fun declarator f =>
        (∃ name, declarator.child? .name = some name ∧ f.name = name.textIn source) ∧
          f.owner.package = package ∧ f.owner.nesting = s.nesting ∧ f.id = id)
        (s.member.childrenIn .declarator) fields) : Accounts source package s ⟨fields, []⟩
  /-- The declaration cannot be bound, and errors say why. -/
  | refused {report : Report} (hkind : s.member.kind = .fieldDeclaration)
      (hcarries : s.member.Carries source) (hreport : report ≠ [])
      (herrors : ∀ x ∈ report, x.isError) : Accounts source package s ⟨[], report⟩
  /-- Fields of interfaces and annotation types are refused. -/
  | unsupported {x : Finding} (hkind : s.member.kind = .constantDeclaration)
      (hcarries : s.member.Carries source) (hx : x.problem = .unsupportedEnclosingType) :
      Accounts source package s ⟨[], [x]⟩
  /-- All other members bring nothing. -/
  | silent (h : s.member.Carries source →
      s.member.kind ≠ .fieldDeclaration ∧ s.member.kind ≠ .constantDeclaration) :
      Accounts source package s .none

namespace Reading

variable {r : Reading} {owner : TypeName} {member mark : Node} {notes : Constants.Notes}
  {s : Site}

theorem isError_of_mem_modifierReport {x : Finding} (h : x ∈ r.modifierReport member) :
    x.isError := by
  obtain ⟨⟨keyword, problem⟩, hmem, hx⟩ := List.mem_filterMap.mp h
  obtain ⟨n, -, rfl⟩ := Option.map_eq_some_iff.mp hx
  simp only [hindrances, List.mem_cons, List.not_mem_nil, or_false, Prod.mk.injEq] at hmem
  rcases hmem with ⟨-, rfl⟩ | ⟨-, rfl⟩ | ⟨-, rfl⟩ <;> rfl

theorem isError_idFinding (e : FoldError) : (r.idFinding e).isError := by
  cases e <;> rfl

/-- The view id is looked for in an argument, or its absence is reported. -/
theorem idNode_ne_ok_none (h : ∀ n ∈ mark.nodes, n.IsComplete) : r.idNode mark ≠ .ok none := by
  intro hnone
  rcases r.idNode_cases mark with ⟨found, hfound, -⟩ | ⟨first, hmem, hok⟩
  · rw [hfound] at hnone
    cases hnone
  · have hcomplete := h first hmem
    rcases hok with hok | ⟨hkind, hok⟩ | ⟨hkind, hok⟩ <;> rw [hok] at hnone
    · cases hnone
    · have hvalue := hcomplete.pair hkind
      rw [Except.ok.inj hnone] at hvalue
      cases hvalue
    · have hvalue := hcomplete.assignment hkind
      rw [Except.ok.inj hnone] at hvalue
      cases hvalue

theorem isError_of_viewId_error {nesting : List String} {finding : Finding}
    {notes' : Constants.Notes} (h : r.viewId nesting mark notes = (.error finding, notes')) :
    finding.isError := by
  unfold viewId at h
  split at h
  · rename_i found hnode
    cases h
    exact isError_of_idNode_error hnode
  · cases h
  · split at h
    · cases h
    · cases h
      exact isError_idFinding _

theorem viewId_ne_ok_none {nesting : List String} {notes' : Constants.Notes}
    (h : ∀ n ∈ mark.nodes, n.IsComplete) : r.viewId nesting mark notes ≠ (.ok none, notes') := by
  unfold viewId
  split
  · exact nofun
  · rename_i hnode
    exact absurd hnode (idNode_ne_ok_none h)
  · split <;> exact nofun

theorem forall₂_declaredFields {type : CastType} {id : Int32}
    (h : ∀ declarator ∈ member.childrenIn .declarator, (declarator.child? .name).isSome) :
    List.Forall₂ (fun declarator (f : BoundField) =>
      (∃ name, declarator.child? .name = some name ∧ f.name = name.textIn r.source) ∧
        f.owner.package = owner.package ∧ f.owner.nesting = owner.nesting ∧ f.id = id)
      (member.childrenIn .declarator) (r.declaredFields owner member type id) := by
  unfold declaredFields
  generalize member.childrenIn .declarator = declarators at h ⊢
  induction declarators with
  | nil => exact .nil
  | cons declarator declarators ih =>
    obtain ⟨name, hname⟩ := Option.isSome_iff_exists.mp (h declarator List.mem_cons_self)
    rw [List.filterMap_cons, hname]
    exact .cons ⟨⟨name, hname, rfl⟩, rfl, rfl, rfl⟩
      (ih fun d hd => h d (List.mem_cons_of_mem declarator hd))

/-- **A declaration of fields that carries the annotation is bound or refused.** -/
theorem fieldBindings_accounts (hkind : s.member.kind = .fieldDeclaration)
    (hcarries : s.member.Carries r.source) (hcomplete : ∀ n ∈ s.member.nodes, n.IsComplete)
    (hmark : mark ∈ s.member.nodes) (howner : owner.nesting = s.nesting) :
    s.Accounts r.source owner.package (r.fieldBindings owner s.member mark notes).1 := by
  have hwhole := hcomplete s.member s.member.mem_nodes_self
  have hbelow : ∀ n ∈ mark.nodes, n.IsComplete :=
    fun n hn => hcomplete n (Node.mem_nodes_trans hn hmark)
  unfold fieldBindings
  dsimp only
  split
  · rename_i finding notes' hview
    refine .refused hkind hcarries (by simp) fun x hx => ?_
    rcases List.mem_append.mp hx with hx | hx
    · exact isError_of_mem_modifierReport hx
    · obtain rfl := List.mem_singleton.mp hx
      exact isError_of_viewId_error hview
  · rename_i id? notes' hview
    -- in a whole declaration the id and the type are there, so only its modifiers can be wrong
    obtain ⟨id, rfl⟩ : ∃ id, id? = some id := by
      cases id? with
      | none => exact absurd hview (viewId_ne_ok_none hbelow)
      | some id => exact ⟨id, rfl⟩
    obtain ⟨type, htype⟩ := Option.isSome_iff_exists.mp (hwhole.type hkind)
    rw [htype]
    split
    · refine .bound id hkind hcarries ?_
      rw [← howner]
      rename_i hid _ _
      obtain rfl := Option.some.inj hid
      exact forall₂_declaredFields (hwhole.declarators hkind)
    · rename_i hnot
      refine .refused hkind hcarries (fun hnil => hnot id type rfl rfl hnil) fun x hx => ?_
      exact isError_of_mem_modifierReport hx

/-- **Every member is accounted for**, whatever is known of the constants when it is met. -/
theorem memberBindings_accounts (hnesting : s.nesting ≠ [])
    (hcomplete : ∀ n ∈ s.member.nodes, n.IsComplete)
    (hnames : ∀ name ∈ s.member.markNames, name.EndsInLastName r.source)
    (notes : Constants.Notes) :
    s.Accounts r.source r.scope.header.package
      (r.memberBindings s.nesting s.holder s.member notes).1 := by
  have hsees := isSome_binding?_iff hnames
  unfold memberBindings
  split
  · rename_i owner mark howner hmark
    obtain ⟨hpackage, hnesting⟩ := TypeName.nesting_of_ofNesting? howner
    have hcarries : s.member.Carries r.source := hsees.mp (by rw [hmark]; rfl)
    rw [← hpackage]
    split
    · rename_i hkind
      exact fieldBindings_accounts (by simpa using hkind) hcarries hcomplete
        (mem_nodes_of_binding? hmark) hnesting
    · rename_i hfield
      split
      · rename_i hkind
        exact .unsupported (by simpa using hkind) hcarries rfl
      · rename_i hconstant
        exact .silent fun _ => ⟨by simpa using hfield, by simpa using hconstant⟩
  · rename_i hnot
    refine .silent fun hcarries => ?_
    -- the annotation is seen, and the type of a site has a name
    obtain ⟨mark, hmark⟩ := Option.isSome_iff_exists.mp (hsees.mpr hcarries)
    obtain ⟨owner, howner⟩ :
        ∃ owner, TypeName.ofNesting? r.scope.header.package s.nesting = some owner := by
      unfold TypeName.ofNesting?
      cases hlast : s.nesting.getLast? with
      | none => exact absurd (List.getLast?_eq_none_iff.mp hlast) hnesting
      | some simple => exact ⟨_, rfl⟩
    exact absurd hmark (hnot owner mark howner)

/-! ### What a text brings -/

/-- Types among the entries bring nothing. -/
theorem entryBindings_filter (entries : List Entry) (notes : Constants.Notes) :
    r.entryBindings entries notes = r.entryBindings (entries.filter Entry.isMember) notes := by
  induction entries generalizing notes with
  | nil => rfl
  | cons entry entries ih =>
    cases entry with
    | type nesting => exact ih notes
    | member nesting holder member =>
      rw [List.filter_cons_of_pos rfl, entryBindings, entryBindings]
      dsimp only
      rw [ih]

/-- What sites bring is made of what each of them brings. -/
theorem entryBindings_forall₂ {P : Site → Bindings → Prop} {ss : List Site}
    (h : ∀ s ∈ ss, ∀ notes, P s (r.memberBindings s.nesting s.holder s.member notes).1)
    (notes : Constants.Notes) :
    ∃ shares, List.Forall₂ P ss shares ∧
      (r.entryBindings (ss.map Site.entry) notes).fields = shares.flatMap Bindings.fields ∧
      (r.entryBindings (ss.map Site.entry) notes).report = shares.flatMap Bindings.report := by
  induction ss generalizing notes with
  | nil => exact ⟨[], .nil, rfl, rfl⟩
  | cons s ss ih =>
    obtain ⟨shares, hshares, hfields, hreport⟩ :=
      ih (fun t ht => h t (List.mem_cons_of_mem s ht))
        (r.memberBindings s.nesting s.holder s.member notes).2
    refine ⟨(r.memberBindings s.nesting s.holder s.member notes).1 :: shares,
      .cons (h s List.mem_cons_self notes) hshares, ?_, ?_⟩
    · rw [List.flatMap_cons, ← hfields]
      rfl
    · rw [List.flatMap_cons, ← hreport]
      rfl

end Reading

/-- **Nothing is lost and nothing is counted twice.** In a text that is Java everywhere, every
member of a declared type is met exactly once, in the order of the text, what it brings accounts
for it, and the text brings nothing else. -/
theorem bindingsOfTree_accounts (number : Nat) {source : String} {root : Node}
    (hclean : faultsOf root = [])
    (hcomplete : ∀ n ∈ root.nodes, faultsOf n = [] → n.IsComplete)
    (hnames : ∀ s : Site, s.IsMember source root →
      ∀ name ∈ s.member.markNames, name.EndsInLastName source) :
    (∀ s, s ∈ sites source root ↔ s.IsMember source root) ∧
      (sites source root).Pairwise (fun s t => s.path < t.path) ∧
      ∃ shares,
        List.Forall₂ (Site.Accounts source (Header.ofTree source root).package)
          (sites source root) shares ∧
        (bindingsOfTree number source root).fields = shares.flatMap Bindings.fields ∧
        (bindingsOfTree number source root).report = shares.flatMap Bindings.report := by
  let r := Reading.ofTree number source root
  have haccounts : ∀ s ∈ sites source root, ∀ notes,
      s.Accounts source r.scope.header.package
        (r.memberBindings s.nesting s.holder s.member notes).1 := by
    intro s hs notes
    have hmember := mem_sites_iff.mp hs
    refine Reading.memberBindings_accounts (r := r) hmember.nesting_ne_nil (fun n hn => ?_)
      (hnames s hmember) notes
    have hmem := Node.mem_nodes_trans hn hmember.mem_nodes
    exact hcomplete n hmem (Node.faultsOf_eq_nil_of_mem_nodes hclean hmem)
  obtain ⟨shares, hshares, hfields, hreport⟩ := Reading.entryBindings_forall₂ haccounts []
  refine ⟨fun s => mem_sites_iff, sites_pairwise source root, shares, hshares, ?_, ?_⟩
  · rw [← hfields, ← members_outline, ← Reading.entryBindings_filter]
    rfl
  · rw [← hreport, ← members_outline, ← Reading.entryBindings_filter, bindingsOfTree,
      Bindings.report_append, faultReport_eq, hclean]
    rfl

/-- A constant and two fields of an enum in a class, a private field, and one of an interface. -/
theorem bindingsOfTree_accounts_nested :
    let source := "package p;\nclass A \x7b enum E \x7b X; @ui.BindView(1) View v, w; \x7d\n"
      ++ "@BindView(2) private View u; \x7d\ninterface I \x7b @BindView(3) View t = null; \x7d\n"
    let root := Node.ofText source
    (sites source root).map (fun s => (s.path, s.nesting)) =
        [([1, 2, 1, 2, 1], ["A", "E"]), ([1, 2, 1, 2, 2, 1], ["A", "E"]), ([1, 2, 2], ["A"]),
          ([2, 2, 1], ["I"])] ∧
      (bindings 0 source).fields.map BoundField.name = ["v", "w"] ∧
      (∀ s, s ∈ sites source root ↔ s.IsMember source root) ∧
      ∃ shares,
        List.Forall₂ (Site.Accounts source (Header.ofTree source root).package)
          (sites source root) shares ∧
        (bindings 0 source).fields = shares.flatMap Bindings.fields ∧
        (bindings 0 source).report = shares.flatMap Bindings.report := by
  intro source root
  obtain ⟨hsites, hfields, hclean, hcomplete, hnames⟩ :
      (sites source root).map (fun s => (s.path, s.nesting)) =
        [([1, 2, 1, 2, 1], ["A", "E"]), ([1, 2, 1, 2, 2, 1], ["A", "E"]), ([1, 2, 2], ["A"]),
          ([2, 2, 1], ["I"])] ∧
        (bindings 0 source).fields.map BoundField.name = ["v", "w"] ∧
        faultsOf root = [] ∧ (∀ n ∈ root.nodes, n.IsComplete) ∧
        ∀ s ∈ sites source root, ∀ name ∈ s.member.markNames, name.EndsInLastName source := by
    decide +kernel
  obtain ⟨hmembers, -, hshares⟩ := bindingsOfTree_accounts 0 hclean (fun n hn _ => hcomplete n hn)
    fun s hs => hnames s (mem_sites_iff.mpr hs)
  exact ⟨hsites, hfields, hmembers, hshares⟩

/-- **A declaration can be lost**: with a comment after the last full stop of the name of its
annotation, it brings neither a field nor a finding. -/
theorem exists_lost_declaration :
    let source := "class A \x7b @view./**/BindView(1) View v; \x7d\n"
    let root := Node.ofText source
    faultsOf root = [] ∧
      (∃ s : Site, s.IsMember source root ∧ s.member.kind = .fieldDeclaration ∧
        s.member.Carries source) ∧
      (bindings 0 source).fields = [] ∧ (bindings 0 source).report = [] := by
  intro source root
  obtain ⟨hclean, ⟨s, hs, hfield⟩, hnone⟩ : faultsOf root = [] ∧
      (∃ s ∈ sites source root, s.member.kind = .fieldDeclaration ∧ s.member.Carries source) ∧
      (bindings 0 source).fields = [] ∧ (bindings 0 source).report = [] := by decide +kernel
  exact ⟨hclean, ⟨s, mem_sites_iff.mp hs, hfield⟩, hnone⟩

end ViewBinding.Java
