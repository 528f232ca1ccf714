import Mathlib.Data.List.Forall2
import ViewBinding.Proofs.Outline.Moved
import ViewBinding.Proofs.Scan.Annotations

/-!
# Text between tokens

What a tree says of its text – the fields to bind and the findings – is the same wherever its nodes
stand, as long as what is looked at is spelled alike; only the places move along
(`ViewBinding.Java.bindingsOfTree_moved`). So comments and white space between two tokens change
nothing if the tree stays as it is and no name, type, bracket or qualifier that is read as a text
stands around them (`ViewBinding.Java.bindings_insert`).

Inside such a text white space is taken out or tidied up, but a comment is kept
(`ViewBinding.Java.exists_comment_in_import`).
-/

namespace ViewBinding

open Text

variable {move : Extent → Extent}

/-! ### What moves -/

/-- The place in the moved text. -/
def Place.moved (move : Extent → Extent) (place : Place) : Place :=
  { place with extent := move place.extent }

/-- The field at its place in the moved text. -/
def BoundField.moved (move : Extent → Extent) (f : BoundField) : BoundField :=
  { f with place := f.place.map (Place.moved move) }

namespace Finding

/-- The finding at its place in the moved text. -/
def moved (move : Extent → Extent) (x : Finding) : Finding :=
  { x with place := x.place.map (Place.moved move) }

/-- The second finding is about the same problem, at the place in the moved text. What the two quote
from their texts may differ. -/
def MovesTo (move : Extent → Extent) (x y : Finding) : Prop :=
  y.problem = x.problem ∧ y.place = x.place.map (Place.moved move)

theorem movesTo_moved (x : Finding) : x.MovesTo move (x.moved move) :=
  ⟨rfl, rfl⟩

theorem forall₂_movesTo_moved (report : Report) :
    List.Forall₂ (MovesTo move) report (report.map (moved move)) :=
  List.forall₂_map_right_iff.mpr (List.forall₂_same.mpr fun x _ => x.movesTo_moved)

end Finding

namespace Java

/-- The second bindings are the first ones at their places in the moved text. -/
structure Bindings.MovesTo (move : Extent → Extent) (b b' : Bindings) : Prop where
  fields : b'.fields = b.fields.map (BoundField.moved move)
  report : List.Forall₂ (Finding.MovesTo move) b.report b'.report

theorem Bindings.MovesTo.none : Bindings.none.MovesTo move .none :=
  ⟨rfl, .nil⟩

theorem Bindings.MovesTo.append {a a' b b' : Bindings} (ha : a.MovesTo move a')
    (hb : b.MovesTo move b') : (a ++ b).MovesTo move (a' ++ b') :=
  ⟨by simp [ha.fields, hb.fields], List.rel_append ha.report hb.report⟩

variable {source source' : String}

/-! ### Members -/

namespace Reading

/-- What is known of the moved text. -/
def moved (move : Extent → Extent) (source' : String) (r : Reading) : Reading :=
  { r with source := source', constants := r.constants.moved move }

variable {r : Reading} {owner : TypeName} {member mark : Node} {notes : Constants.Notes}

theorem ofTree_moved (number : Nat) {root : Node} (h : root.SpelledAlike move source source') :
    ofTree number source' (root.moved move) = (ofTree number source root).moved move source' := by
  have hconstants : Constants.ofEntries source' (Header.ofTree source root).package
      ((outline source root).map (Entry.moved move)) =
        (Constants.ofEntries source (Header.ofTree source root).package
          (outline source root)).moved move :=
    Constants.ofEntries_moved _ fun nesting holder member hmem =>
      h.of_mem_nodes (mem_nodes_of_mem_outline hmem)
  rw [ofTree, ofTree, Header.ofTree_moved h, outline_moved h, hconstants, declaredTypes_moved]
  rfl

theorem placeOf_moved (n : Node) :
    (r.moved move source').placeOf (n.moved move) = (r.placeOf n).moved move := by
  rw [placeOf, Node.extent_moved]
  rfl

theorem binds_moved {name : Node} (h : (name.moved move).textIn source' = name.textIn r.source) :
    (r.moved move source').binds (name.moved move) = r.binds name := by
  rw [binds, binds, ← h]
  rfl

theorem binding?_moved (h : member.SpelledAlike move r.source source') :
    (r.moved move source').binding? (member.moved move) =
      (r.binding? member).map (Node.moved move) := by
  unfold binding?
  rw [Node.modifiers?_moved]
  cases hmodifiers : member.modifiers? with
  | none => rfl
  | some modifiers =>
    have hinside := h.of_mem_children (Node.mem_children_of_childOf? hmodifiers)
    rw [Option.map_some, Option.bind_some, Option.bind_some, Node.namedChildren_moved,
      List.find?_map]
    refine congrArg (Option.map _) (List.find?_congr fun n hn => ?_)
    have hmark := hinside.of_mem_children (Node.mem_children_of_namedChildren hn)
    rw [Function.comp_apply, Node.kind_moved]
    cases hkind : n.kind == .annotationUse || n.kind == .annotationMarker with
    | false => rw [Bool.false_and, Bool.false_and]
    | true =>
      have hreads (c : Node) (hrole : c.role = some .name) : n.reads c := by
        rcases (Bool.or_eq_true _ _).mp hkind with hkind | hkind <;>
          simp [Node.reads, Kind.reads, beq_iff_eq.mp hkind, hrole]
      rw [Bool.true_and, Bool.true_and, Node.child?_moved]
      cases hname : n.child? .name with
      | none => simp only [Option.map_none, Option.any_none]
      | some name =>
        have htext := hmark.textIn_child? hname hreads
        simp only [Option.map_some, Option.any_some, binds_moved htext]

theorem idNode_moved (h : mark.SpelledAlike move r.source source') :
    (r.moved move source').idNode (mark.moved move) =
      ((r.idNode mark).map (Option.map (Node.moved move))).mapError (Finding.moved move) := by
  have hfirst : (((mark.moved move).child? .arguments).bind fun arguments =>
      arguments.namedChildren.head?) =
        ((mark.child? .arguments).bind fun arguments => arguments.namedChildren.head?).map
          (Node.moved move) := by
    rw [Node.child?_moved]
    cases mark.child? .arguments <;> simp
  unfold idNode
  rw [hfirst]
  cases hfound : (mark.child? .arguments).bind fun arguments => arguments.namedChildren.head? with
  | none =>
    dsimp only [Option.map_none]
    rw [placeOf_moved]
    rfl
  | some first =>
    obtain ⟨arguments, harguments, hhead⟩ := Option.bind_eq_some_iff.mp hfound
    have hspelled : first.SpelledAlike move r.source source' :=
      (h.of_mem_children (Node.mem_children_of_child? harguments)).of_mem_children
        (Node.mem_children_of_namedChildren (List.mem_of_head? hhead))
    dsimp only [Option.map_some]
    rw [Node.kind_moved, placeOf_moved]
    split
    · rfl
    · rename_i keyRole valueRole hroles
      have hreads (c : Node) (hrole : c.role = some keyRole) : first.reads c := by
        split at hroles <;> cases hroles
        all_goals
          rename_i hkind
          simp [Node.reads, Kind.reads, hkind, hrole]
      have hkey : ((first.moved move).child? keyRole).map (fun n =>
          n.textIn (r.moved move source').source) =
            (first.child? keyRole).map fun n => n.textIn r.source :=
        textIn_child?_moved hspelled hreads
      rw [hkey, Node.child?_moved]
      split <;> rfl

/-- The view id of an annotation is the same, or the finding on it is about the same problem. -/
theorem viewId_moved (nesting : List String) (h : mark.SpelledAlike move r.source source')
    (notes : Constants.Notes) :
    (∃ id? notes', r.viewId nesting mark notes = (.ok id?, notes') ∧
      (r.moved move source').viewId nesting (mark.moved move) (notes.moved move) =
        (.ok id?, Constants.Notes.moved move notes')) ∨
    ∃ x y notes', r.viewId nesting mark notes = (.error x, notes') ∧
      (r.moved move source').viewId nesting (mark.moved move) (notes.moved move) =
        (.error y, Constants.Notes.moved move notes') ∧ x.MovesTo move y := by
  unfold viewId
  cases hnode : r.idNode mark with
  | error x =>
    have hnode' : (r.moved move source').idNode (mark.moved move) = .error (x.moved move) := by
      rw [idNode_moved h, hnode]
      rfl
    rw [hnode']
    exact .inr ⟨x, x.moved move, notes, rfl, rfl, x.movesTo_moved⟩
  | ok n? =>
    have hnode' : (r.moved move source').idNode (mark.moved move) =
        .ok (n?.map (Node.moved move)) := by
      rw [idNode_moved h, hnode]
      rfl
    rw [hnode']
    cases n? with
    | none => exact .inl ⟨none, notes, rfl, rfl⟩
    | some n =>
      -- folding does not look at places either, so it comes to the same with moved notes
      have hn : n.SpelledAlike move r.source source' := h.of_mem_nodes (mem_nodes_of_idNode hnode)
      have hfold : (r.moved move source').constants.fold nesting
          (IdExpr.ofNode (r.moved move source').source (n.moved move))
          (Constants.Notes.moved move notes) =
            Constants.movedOut move
              (r.constants.fold nesting (IdExpr.ofNode r.source n) notes) := by
        rw [← Constants.fold_moved, ← IdExpr.ofNode_moved hn]
        rfl
      dsimp only [Option.map_some]
      rw [hfold]
      obtain ⟨result, notes'⟩ := r.constants.fold nesting (IdExpr.ofNode r.source n) notes
      cases result with
      | ok id => exact .inl ⟨some id, notes', rfl, rfl⟩
      | error e => exact .inr ⟨_, _, notes', rfl, rfl, by cases e <;> exact ⟨rfl, rfl⟩⟩

theorem declaredNames_moved (h : member.SpelledAlike move source source') :
    (((member.moved move).childrenIn .declarator).filterMap fun declarator =>
      (declarator.child? .name).map fun name => name.textIn source') =
    (member.childrenIn .declarator).filterMap fun declarator =>
      (declarator.child? .name).map fun name => name.textIn source := by
  rw [Node.childrenIn_moved, List.filterMap_map]
  refine List.filterMap_congr fun declarator hmem => ?_
  exact textIn_child?_moved (h.of_mem_children (Node.mem_children_of_childrenIn hmem))
    fun c hrole => Node.reads_of_declarator hmem (.inl hrole)

theorem modifierReport_moved (h : member.SpelledAlike move r.source source') :
    (r.moved move source').modifierReport (member.moved move) =
      (r.modifierReport member).map (Finding.moved move) := by
  unfold modifierReport
  rw [show (r.moved move source').source = source' from rfl, declaredNames_moved h,
    List.map_filterMap]
  refine List.filterMap_congr fun ⟨keyword, problem⟩ _ => ?_
  dsimp only
  rw [Node.modifier?_moved]
  cases member.modifier? keyword with
  | none => rfl
  | some n =>
    dsimp only [Option.map_some]
    rw [placeOf_moved]
    rfl

theorem declaredFields_moved (type : CastType) (id : Int32)
    (h : member.SpelledAlike move r.source source') :
    (r.moved move source').declaredFields owner (member.moved move) type id =
      (r.declaredFields owner member type id).map (BoundField.moved move) := by
  unfold declaredFields
  rw [Node.childrenIn_moved, List.filterMap_map, List.map_filterMap]
  refine List.filterMap_congr fun declarator hmem => ?_
  have hspelled := h.of_mem_children (Node.mem_children_of_childrenIn hmem)
  simp only [Function.comp_apply, Node.child?_moved]
  cases hname : declarator.child? .name with
  | none => rfl
  | some name =>
    have htext : (name.moved move).textIn (r.moved move source').source = name.textIn r.source :=
      hspelled.textIn_child? hname fun c hrole => Node.reads_of_declarator hmem (.inl hrole)
    cases hdimensions : declarator.child? .dimensions with
    | none =>
      simp only [Option.map_some, Option.map_none, htext, placeOf_moved]
      rfl
    | some dimensions =>
      have htext' : (dimensions.moved move).textIn (r.moved move source').source =
          dimensions.textIn r.source :=
        hspelled.textIn_child? hdimensions fun c hrole =>
          Node.reads_of_declarator hmem (.inr hrole)
      simp only [Option.map_some, htext, htext', placeOf_moved]
      rfl

theorem fieldBindings_moved (hkind : member.kind = .fieldDeclaration)
    (h : member.SpelledAlike move r.source source')
    (hmark : mark.SpelledAlike move r.source source') (notes : Constants.Notes) :
    (r.fieldBindings owner member mark notes).1.MovesTo move
        ((r.moved move source').fieldBindings owner (member.moved move) (mark.moved move)
          (notes.moved move)).1 ∧
      ((r.moved move source').fieldBindings owner (member.moved move) (mark.moved move)
          (notes.moved move)).2 =
        (r.fieldBindings owner member mark notes).2.moved move := by
  unfold fieldBindings
  rw [modifierReport_moved h]
  have hreport : List.Forall₂ (Finding.MovesTo move) (r.modifierReport member)
      ((r.modifierReport member).map (Finding.moved move)) := Finding.forall₂_movesTo_moved _
  rcases viewId_moved owner.nesting hmark notes with ⟨id?, notes', hid, hid'⟩ |
    ⟨x, y, notes', hx, hy, hmoves⟩
  · rw [hid, hid', Node.child?_moved]
    cases id? with
    | none => exact ⟨⟨rfl, hreport⟩, rfl⟩
    | some id =>
      cases htype : member.child? .type with
      | none => exact ⟨⟨rfl, hreport⟩, rfl⟩
      | some type =>
        have htext : (type.moved move).textIn (r.moved move source').source =
            type.textIn r.source :=
          h.textIn_child? htype fun c => Node.reads_type (.inl hkind)
        -- fields are brought exactly if no modifier hinders, and the report is the same
        cases hhindering : r.modifierReport member with
        | nil =>
          refine ⟨⟨?_, .nil⟩, rfl⟩
          show (r.moved move source').declaredFields owner (member.moved move)
            (r.scope.cast owner.nesting
              ((type.moved move).textIn (r.moved move source').source)) id = _
          rw [htext]
          exact declaredFields_moved _ id h
        | cons x report =>
          rw [hhindering] at hreport
          exact ⟨⟨rfl, hreport⟩, rfl⟩
  · rw [hx, hy]
    exact ⟨⟨rfl, List.rel_append hreport (.cons hmoves .nil)⟩, rfl⟩

/-- **A member brings the same at another place.** -/
theorem memberBindings_moved (nesting : List String) (holder : Kind)
    (h : member.SpelledAlike move r.source source') (notes : Constants.Notes) :
    (r.memberBindings nesting holder member notes).1.MovesTo move
        ((r.moved move source').memberBindings nesting holder (member.moved move)
          (notes.moved move)).1 ∧
      ((r.moved move source').memberBindings nesting holder (member.moved move)
          (notes.moved move)).2 =
        (r.memberBindings nesting holder member notes).2.moved move := by
  unfold memberBindings
  rw [binding?_moved h, show (r.moved move source').scope = r.scope from rfl]
  cases TypeName.ofNesting? r.scope.header.package nesting with
  | none => exact ⟨.none, rfl⟩
  | some owner =>
    cases hmark : r.binding? member with
    | none => exact ⟨.none, rfl⟩
    | some mark =>
      dsimp only [Option.map_some]
      rw [Node.kind_moved]
      split
      · rename_i hkind
        exact fieldBindings_moved (by simpa using hkind) h
          (h.of_mem_nodes (mem_nodes_of_binding? hmark)) notes
      · split
        · refine ⟨⟨rfl, .cons ⟨rfl, ?_⟩ .nil⟩, rfl⟩
          dsimp only [unsupported, Finding.of]
          rw [placeOf_moved]
          rfl
        · exact ⟨.none, rfl⟩

/-- **The members of a text bring the same at other places.** -/
theorem entryBindings_moved {entries : List Entry}
    (h : ∀ nesting holder member, .member nesting holder member ∈ entries →
      member.SpelledAlike move r.source source') (notes : Constants.Notes) :
    (r.entryBindings entries notes).MovesTo move
      ((r.moved move source').entryBindings (entries.map (Entry.moved move))
        (notes.moved move)) := by
  induction entries generalizing notes with
  | nil => exact .none
  | cons entry entries ih =>
    have hlater := ih fun nesting holder member hmem =>
      h nesting holder member (List.mem_cons_of_mem entry hmem)
    cases entry with
    | type nesting => exact hlater notes
    | member nesting holder member =>
      obtain ⟨hmoves, hnotes⟩ := memberBindings_moved nesting holder
        (h nesting holder member List.mem_cons_self) notes
      have hrest := hlater (r.memberBindings nesting holder member notes).2
      rw [← hnotes] at hrest
      exact hmoves.append hrest

end Reading

/-! ### Whole texts -/

theorem faultReport_moved (number : Nat) (root : Node) :
    List.Forall₂ (Finding.MovesTo move) (faultReport number source root)
      (faultReport number source' (root.moved move)) := by
  rw [faultReport_eq, faultReport_eq, Node.faultsOf_moved, List.map_map, List.forall₂_map_left_iff,
    List.forall₂_map_right_iff, List.forall₂_same]
  refine fun n _ => ⟨rfl, ?_⟩
  rw [Function.comp_apply, faultFinding, faultFinding, Node.extent_moved]
  rfl

/-- **What a tree says does not depend on where its nodes stand.** If what is looked at is spelled
in the second text as in the first one, then the moved tree gives the same fields and the same
findings, at the moved places. -/
theorem bindingsOfTree_moved (number : Nat) {root : Node}
    (h : root.SpelledAlike move source source') :
    (bindingsOfTree number source root).MovesTo move
      (bindingsOfTree number source' (root.moved move)) := by
  rw [bindingsOfTree, bindingsOfTree, Reading.ofTree_moved number h, outline_moved h]
  refine Bindings.MovesTo.append ⟨rfl, faultReport_moved number root⟩ ?_
  exact Reading.entryBindings_moved (r := Reading.ofTree number source root)
    (fun nesting holder member hmem => h.of_mem_nodes (mem_nodes_of_mem_outline hmem)) []

end Java

end ViewBinding
