import ViewBinding.Proofs.Constants.Blame
import ViewBinding.Proofs.Manifest.Checks
import ViewBinding.Proofs.Outline.Moved
import ViewBinding.Proofs.Scan.Annotations

/-!
# Where fields and findings stand

Whatever a source brings stands where a node of its tree does, in the source of its own number. A
field stands where its name does, and a finding that quotes a view id quotes the text at its place:
also if it blames a part of the initializer of a constant, or what has been noted of it before
(`ViewBinding.Java.Reading.keepsTo_entryBindings`). Manifests bring no places at all.

`P` is a set of places that holds those of all nodes, and `text` gives the texts at places.
-/

namespace ViewBinding

open Java Text

variable {P : Place → Prop} {text : Place → String}

/-! ### Fields and findings that keep to places -/

/-- **The field stands at a place in `P`, and its name there.** -/
def BoundField.KeepsTo (P : Place → Prop) (text : Place → String) (f : BoundField) : Prop :=
  ∃ p, f.place = some p ∧ P p ∧ text p = f.name

/-- Whether the problem is about the value of a view id. -/
def Problem.quotesViewId : Problem → Bool
  | .nonConstantViewId | .viewIdOutOfRange => true
  | _ => false

/-- **The finding stands and refers to places in `P`.** If it is about the value of a view id, it
has a place and quotes the text there. -/
structure Finding.KeepsTo (P : Place → Prop) (text : Place → String) (x : Finding) : Prop where
  place : ∀ p ∈ x.place, P p
  related : ∀ r ∈ x.related, P r.place
  quoted : x.problem.quotesViewId →
    ∃ p, x.place = some p ∧ x.message = x.problem.message (some (text p))

theorem Finding.keepsTo_of {problem : Problem} (hproblem : problem.quotesViewId = false)
    {place : Option Place} (hplace : ∀ p ∈ place, P p) (detail : Option String)
    {related : List Related} (hrelated : ∀ r ∈ related, P r.place) :
    (Finding.of problem place detail related).KeepsTo P text where
  place := hplace
  related := hrelated
  quoted h := by
    change problem.quotesViewId = true at h
    rw [hproblem] at h
    cases h

/-- A finding without related places that is not about the value of a view id. -/
theorem Finding.keepsTo_of_place {problem : Problem} (hproblem : problem.quotesViewId = false)
    {p : Place} (hp : P p) (detail : Option String) :
    (Finding.of problem (some p) detail []).KeepsTo P text := by
  refine keepsTo_of hproblem (fun q hq => ?_) detail fun r hr => (List.not_mem_nil hr).elim
  rw [← Option.some.inj hq]
  exact hp

namespace Java

/-- All fields and findings keep to places in `P`. -/
structure Bindings.KeepsTo (P : Place → Prop) (text : Place → String) (b : Bindings) : Prop where
  fields : ∀ f ∈ b.fields, f.KeepsTo P text
  report : ∀ x ∈ b.report, x.KeepsTo P text

theorem Bindings.KeepsTo.none : Bindings.none.KeepsTo P text :=
  ⟨fun _ h => (List.not_mem_nil h).elim, fun _ h => (List.not_mem_nil h).elim⟩

theorem Bindings.KeepsTo.append {a b : Bindings} (ha : a.KeepsTo P text)
    (hb : b.KeepsTo P text) : (a ++ b).KeepsTo P text := by
  constructor
  · intro f hf
    rcases List.mem_append.mp hf with hf | hf
    · exact ha.fields f hf
    · exact hb.fields f hf
  · intro x hx
    rcases List.mem_append.mp hx with hx | hx
    · exact ha.report x hx
    · exact hb.report x hx

theorem Bindings.KeepsTo.of_report {report : Report} (h : ∀ x ∈ report, x.KeepsTo P text) :
    (Bindings.mk [] report).KeepsTo P text :=
  ⟨fun _ h => (List.not_mem_nil h).elim, h⟩

theorem Node.mem_nodes_of_modifier? {member n : Node} {keyword : String}
    (h : member.modifier? keyword = some n) : n ∈ member.nodes := by
  obtain ⟨modifiers, hmodifiers, hn⟩ := Option.bind_eq_some_iff.mp h
  exact mem_nodes_trans (mem_nodes_of_mem_children (mem_children_of_childOf? hn))
    (mem_nodes_of_mem_children (mem_children_of_childOf? hmodifiers))

theorem mem_nodes_of_mem_faultsOf {root n : Node} (h : n ∈ faultsOf root) : n ∈ root.nodes := by
  induction root using Node.induction with
  | mk kind role extent isAbsent children ih =>
    rw [faultsOf] at h
    split at h
    · rw [List.mem_singleton.mp h]
      exact Node.mem_nodes_self _
    · rw [Node.faultsAmong_eq_flatMap] at h
      obtain ⟨c, hc, hn⟩ := List.mem_flatMap.mp h
      exact Node.mem_nodes_iff.mpr (.inr ⟨c, hc, ih c hc hn⟩)

/-! ### One source -/

namespace Reading

variable {r : Reading} {root member mark : Node} {owner : TypeName} {notes : Constants.Notes}

/-- The places of the tree are in `P`, those of the initializers among them, and `text` gives the
texts of the source. -/
structure Stands (r : Reading) (root : Node) (P : Place → Prop) (text : Place → String) :
    Prop where
  nodes : ∀ n ∈ root.nodes, P (r.placeOf n)
  constants : r.constants.InitializedAt fun e => P ⟨r.number, e⟩
  text : ∀ e, text ⟨r.number, e⟩ = e.textIn r.source

section Members

variable (h : r.Stands root P text)

include h

theorem Stands.standsAt_ofNode {n : Node} (hn : n ∈ root.nodes) :
    (IdExpr.ofNode r.source n).StandsAt fun e => P ⟨r.number, e⟩ :=
  IdExpr.standsAt_ofNode fun m hm => h.nodes m (Node.mem_nodes_trans hm hn)

theorem keepsTo_idNode (hmark : mark ∈ root.nodes) {x : Finding}
    (hx : r.idNode mark = .error x) : x.KeepsTo P text := by
  unfold idNode at hx
  split at hx
  · cases hx
    exact Finding.keepsTo_of_place rfl (h.nodes mark hmark) _
  · rename_i first hfirst
    obtain ⟨arguments, harguments, hhead⟩ := Option.bind_eq_some_iff.mp hfirst
    have hmem : first ∈ root.nodes :=
      Node.mem_nodes_trans (Node.mem_nodes_of_mem_children
        (Node.mem_children_of_namedChildren (List.mem_of_head? hhead)))
        (Node.mem_nodes_trans
          (Node.mem_nodes_of_mem_children (Node.mem_children_of_child? harguments)) hmark)
    dsimp only at hx
    split at hx
    · cases hx
    · split at hx
      · cases hx
      · cases hx
        exact Finding.keepsTo_of_place rfl (h.nodes first hmem) _

/-- The finding on a view id without a value quotes what the error blames. -/
theorem keepsTo_idFinding {e : FoldError} (he : P ⟨r.number, e.place⟩) :
    (r.idFinding e).KeepsTo P text := by
  have hplace : (r.idFinding e).place = some ⟨r.number, e.place⟩ := by cases e <;> rfl
  have hrelated : (r.idFinding e).related = [] := by cases e <;> rfl
  have hmessage : (r.idFinding e).message =
      (r.idFinding e).problem.message (some (e.place.textIn r.source)) := by cases e <;> rfl
  refine ⟨fun p hp => ?_, fun x hx => ?_, fun _ => ⟨_, hplace, ?_⟩⟩
  · rw [hplace] at hp
    rw [← Option.some.inj hp]
    exact he
  · rw [hrelated] at hx
    cases hx
  · rw [h.text, hmessage]

theorem keepsTo_viewId (nesting : List String) (hmark : mark ∈ root.nodes)
    (hnotes : Constants.Notes.Blame (fun e => P ⟨r.number, e⟩) notes) :
    (∀ x, (r.viewId nesting mark notes).1 = .error x → x.KeepsTo P text) ∧
      Constants.Notes.Blame (fun e => P ⟨r.number, e⟩) (r.viewId nesting mark notes).2 := by
  unfold viewId
  split
  · rename_i found hfound
    refine ⟨fun x hx => ?_, hnotes⟩
    cases hx
    exact keepsTo_idNode h hmark hfound
  · exact ⟨fun x hx => (nomatch hx), hnotes⟩
  · rename_i n hn
    have hmem := Node.mem_nodes_trans (mem_nodes_of_idNode hn) hmark
    have hfold : Constants.Blames (fun e => P ⟨r.number, e⟩)
        (r.constants.fold nesting (IdExpr.ofNode r.source n) notes) :=
      Constants.fold_blames h.constants (h.standsAt_ofNode hmem) hnotes
    split
    · rename_i id notes' hout
      rw [hout] at hfold
      exact ⟨fun x hx => (nomatch hx), hfold.notes⟩
    · rename_i e notes' hout
      rw [hout] at hfold
      refine ⟨fun x hx => ?_, hfold.notes⟩
      cases hx
      exact keepsTo_idFinding h (hfold.result e rfl)

theorem keepsTo_modifierReport (hmember : member ∈ root.nodes) :
    ∀ x ∈ r.modifierReport member, x.KeepsTo P text := by
  intro x hx
  obtain ⟨⟨keyword, problem⟩, hmem, hx⟩ := List.mem_filterMap.mp hx
  obtain ⟨n, hn, rfl⟩ := Option.map_eq_some_iff.mp hx
  have hproblem : ∀ hindrance ∈ hindrances, hindrance.2.quotesViewId = false := by decide
  exact Finding.keepsTo_of_place (hproblem _ hmem)
    (h.nodes n (Node.mem_nodes_trans (Node.mem_nodes_of_modifier? hn) hmember)) _

/-- **A field stands where its name does.** -/
theorem keepsTo_declaredFields (hmember : member ∈ root.nodes) (type : CastType) (id : Int32) :
    ∀ f ∈ r.declaredFields owner member type id, f.KeepsTo P text := by
  intro f hf
  obtain ⟨declarator, hdeclarator, hf⟩ := List.mem_filterMap.mp hf
  obtain ⟨name, hname, rfl⟩ := Option.map_eq_some_iff.mp hf
  have hmem : name ∈ root.nodes :=
    Node.mem_nodes_trans (Node.mem_nodes_of_mem_children (Node.mem_children_of_child? hname))
      (Node.mem_nodes_trans
        (Node.mem_nodes_of_mem_children (Node.mem_children_of_childrenIn hdeclarator)) hmember)
  exact ⟨r.placeOf name, rfl, h.nodes name hmem, h.text name.extent⟩

theorem keepsTo_fieldBindings (hmember : member ∈ root.nodes) (hmark : mark ∈ root.nodes)
    (hnotes : Constants.Notes.Blame (fun e => P ⟨r.number, e⟩) notes) :
    (r.fieldBindings owner member mark notes).1.KeepsTo P text ∧
      Constants.Notes.Blame (fun e => P ⟨r.number, e⟩)
        (r.fieldBindings owner member mark notes).2 := by
  have hmodifiers := keepsTo_modifierReport h hmember
  obtain ⟨hfinding, hnotes'⟩ := keepsTo_viewId h owner.nesting hmark hnotes
  unfold fieldBindings
  dsimp only
  split
  · rename_i x notes' hout
    rw [hout] at hfinding hnotes'
    refine ⟨.of_report fun y hy => ?_, hnotes'⟩
    rcases List.mem_append.mp hy with hy | hy
    · exact hmodifiers y hy
    · rw [List.mem_singleton.mp hy]
      exact hfinding x rfl
  · rename_i id? notes' hout
    rw [hout] at hnotes'
    split
    · exact ⟨⟨keepsTo_declaredFields h hmember _ _, fun _ h => (List.not_mem_nil h).elim⟩,
        hnotes'⟩
    · exact ⟨.of_report hmodifiers, hnotes'⟩

theorem keepsTo_memberBindings (nesting : List String) (holder : Kind)
    (hmember : member ∈ root.nodes)
    (hnotes : Constants.Notes.Blame (fun e => P ⟨r.number, e⟩) notes) :
    (r.memberBindings nesting holder member notes).1.KeepsTo P text ∧
      Constants.Notes.Blame (fun e => P ⟨r.number, e⟩)
        (r.memberBindings nesting holder member notes).2 := by
  unfold memberBindings
  split
  · rename_i owner mark howner hmark
    have hmem := Node.mem_nodes_trans (mem_nodes_of_binding? hmark) hmember
    split
    · exact keepsTo_fieldBindings h hmember hmem hnotes
    · split
      · refine ⟨.of_report fun x hx => ?_, hnotes⟩
        rw [List.mem_singleton.mp hx]
        exact Finding.keepsTo_of_place rfl (h.nodes mark hmem) _
      · exact ⟨.none, hnotes⟩
  · exact ⟨.none, hnotes⟩

/-- **What the members of a text bring keeps to the places of its tree.** The notes are handed on
from member to member, and the errors in them keep to these places too. -/
theorem keepsTo_entryBindings {entries : List Entry}
    (hentries : ∀ nesting holder member, .member nesting holder member ∈ entries →
      member ∈ root.nodes)
    (hnotes : Constants.Notes.Blame (fun e => P ⟨r.number, e⟩) notes) :
    (r.entryBindings entries notes).KeepsTo P text := by
  induction entries generalizing notes with
  | nil => exact .none
  | cons entry entries ih =>
    have hlater : ∀ nesting holder member, .member nesting holder member ∈ entries →
        member ∈ root.nodes :=
      fun nesting holder member hmem => hentries nesting holder member (.tail _ hmem)
    cases entry with
    | type nesting => exact ih hlater hnotes
    | member nesting holder member =>
      obtain ⟨hfirst, hnotes'⟩ := keepsTo_memberBindings h nesting holder
        (hentries nesting holder member (.head _)) hnotes
      exact hfirst.append (ih hlater hnotes')

end Members

end Reading

theorem Constants.initializedAt_ofMember {source : String} {nesting : List String}
    {holder : Kind} {member : Node} {Q : Extent → Prop} (h : ∀ n ∈ member.nodes, Q n.extent) :
    ∀ entry ∈ ofMember source nesting holder member, entry.2.StandsAt Q := by
  intro entry hentry
  unfold ofMember at hentry
  dsimp only at hentry
  split at hentry
  · obtain ⟨declarator, hdeclarator, hentry⟩ := List.mem_filterMap.mp hentry
    split at hentry
    · cases hentry
    · split at hentry
      · rename_i name value hname hvalue
        cases hentry
        refine IdExpr.standsAt_ofNode fun m hm => h m (Node.mem_nodes_trans hm ?_)
        exact Node.mem_nodes_trans
          (Node.mem_nodes_of_mem_children (Node.mem_children_of_child? hvalue))
          (Node.mem_nodes_of_mem_children (Node.mem_children_of_childrenIn hdeclarator))
      · cases hentry
  · cases hentry

/-- **What a source brings keeps to the places of its tree.** -/
theorem keepsTo_bindings {number : Nat} {source : String}
    (hnodes : ∀ n ∈ (Node.ofText source).nodes, P ⟨number, n.extent⟩)
    (htext : ∀ e : Extent, text ⟨number, e⟩ = e.textIn source) :
    (bindings number source).KeepsTo P text := by
  let r := Reading.ofTree number source (.ofText source)
  have hconstants : r.constants.InitializedAt fun e => P ⟨number, e⟩ := by
    intro entry hentry
    obtain ⟨site, hsite, hentry⟩ := List.mem_flatMap.mp (List.mem_reverse.mp hentry)
    cases site with
    | type => cases hentry
    | member nesting holder member =>
      have hmember := mem_nodes_of_mem_outline hsite
      exact Constants.initializedAt_ofMember
        (fun n hn => hnodes n (Node.mem_nodes_trans hn hmember)) entry hentry
  have hstands : r.Stands (.ofText source) P text := ⟨hnodes, hconstants, htext⟩
  refine .append (.of_report fun x hx => ?_) (Reading.keepsTo_entryBindings hstands
    (fun nesting holder member hmem => mem_nodes_of_mem_outline hmem) Constants.Notes.blame_nil)
  rw [faultReport_eq] at hx
  obtain ⟨n, hn, rfl⟩ := List.mem_map.mp hx
  exact Finding.keepsTo_of_place rfl (hnodes n (mem_nodes_of_mem_faultsOf hn)) _

end Java

end ViewBinding
