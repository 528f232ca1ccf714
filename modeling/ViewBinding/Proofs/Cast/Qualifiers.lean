import ViewBinding.Proofs.Cast.TypeText
import ViewBinding.Proofs.Cast.Words
import ViewBinding.Proofs.Constants.Selection

/-!
# What is written in front of a name

Whatever replaces a simple name ends in that name, with a full stop in front of it: the qualified
name of an imported type by the way imports are read (`ViewBinding.Java.Header.namesEnd_ofTree`),
and the name of a declared type by the way it is put together
(`ViewBinding.Java.endsIn_dotted`). So what a cast writes for a run is the run with a text in front
of it, which is empty or ends in a full stop (`ViewBinding.Java.TypeScope.exists_precedes`).
-/

namespace ViewBinding.Java

open Text

/-! ### Names that end in simple names -/

/-- What may stand in front of a simple name: nothing, or a text that ends in a full stop. -/
def IsQualifier (front : List Char) : Prop :=
  ∀ c ∈ front.getLast?, c = '.'

/-- The name is the simple name with a qualifier in front. -/
def EndsIn (name simple : String) : Prop :=
  ∃ front, name.toList = front ++ simple.toList ∧ IsQualifier front

theorem endsIn_dotted (around : List String) (simple : String) :
    EndsIn (dotted (around ++ [simple])) simple := by
  rw [EndsIn, dotted, String.toList_ofList, List.map_append, List.map_singleton]
  by_cases hnil : around = []
  · subst hnil
    refine ⟨[], rfl, fun c hc => ?_⟩
    cases hc
  · rw [joinPieces_append (by simpa using hnil) (List.cons_ne_nil _ _)]
    refine ⟨joinPieces '.' (around.map String.toList) ++ ['.'], by simp [joinPieces], ?_⟩
    intro c hc
    rw [List.getLast?_concat] at hc
    exact (Option.some.inj hc).symm

namespace Header

/-- The imported types have names that end in the simple names they are found by. -/
def NamesEnd (header : Header) : Prop :=
  ∀ entry ∈ header.imports, EndsIn entry.2 entry.1

variable {source : String} {header : Header} {statement : Node}

/-- No statement breaks it. -/
theorem NamesEnd.add (h : header.NamesEnd) : (add source header statement).NamesEnd := by
  unfold Header.add
  split
  · exact h
  · rename_i name hkind hname
    split
    · exact h
    · split
      · exact h
      · split
        · rename_i simple inner rest hreverse
          have hname : name = dotted ((inner :: rest).reverse ++ [simple]) := by
            rw [← dotted_segments name, ← List.reverse_reverse (segments name), hreverse,
              List.reverse_cons]
          exact List.forall_mem_cons.mpr ⟨hname ▸ endsIn_dotted _ simple, h⟩
        · exact h
  · exact h

theorem namesEnd_ofTree (source : String) (root : Node) : (ofTree source root).NamesEnd := by
  have hrun (statements : List Node) {header : Header} (h : header.NamesEnd) :
      (statements.foldl (Header.add source) header).NamesEnd := by
    induction statements generalizing header with
    | nil => exact h
    | cons statement statements ih => exact ih h.add
  exact hrun root.children nofun

end Header

/-! ### Names that are brought in -/

namespace TypeScope

open TypeText

/-- The name is brought in for the simple name: it is that of an imported type, or that of a
declared type relative to the package. -/
def Offers (scope : TypeScope) (nesting : List String) (simple name : String) : Prop :=
  scope.header.imported? simple = some name ∨ scope.declared? nesting simple = some name

/-- The names of imported types and of declared ones are made of identifiers and full stops. -/
structure IsDotted (scope : TypeScope) : Prop where
  imports : ∀ entry ∈ scope.header.imports, entry.2.toList.all isWordPart
  types : ∀ type ∈ scope.types, (dotted type).toList.all isWordPart

instance (scope : TypeScope) : Decidable scope.IsDotted :=
  decidable_of_iff ((∀ entry ∈ scope.header.imports, entry.2.toList.all isWordPart) ∧
      ∀ type ∈ scope.types, (dotted type).toList.all isWordPart)
    ⟨fun ⟨imports, types⟩ => ⟨imports, types⟩, fun ⟨imports, types⟩ => ⟨imports, types⟩⟩

variable {scope : TypeScope} {nesting : List String} {run : List Char} {simple name : String}

theorem offers_of_replacement? (h : scope.replacement? nesting simple = some name) :
    scope.Offers nesting simple name := by
  rcases Option.or_eq_some_iff.mp h with himported | ⟨-, hdeclared⟩
  · exact .inl himported
  · exact .inr hdeclared

/-- Every name that is brought in ends in the simple name. -/
theorem Offers.endsIn (h : scope.Offers nesting simple name) (hends : scope.header.NamesEnd) :
    EndsIn name simple := by
  rcases h with himported | hdeclared
  · obtain ⟨entry, hentry, rfl⟩ := Option.map_eq_some_iff.mp himported
    have hsimple : entry.1 = simple := by simpa using List.find?_some hentry
    exact hsimple ▸ hends entry (List.mem_of_find?_eq_some hentry)
  · obtain ⟨type, htype, rfl⟩ := Option.map_eq_some_iff.mp hdeclared
    obtain ⟨around, -, rfl, -⟩ := (scope.declaredType?_eq_some_iff _ _ _).mp htype
    exact endsIn_dotted around simple

theorem Offers.isWordPart (h : scope.Offers nesting simple name) (hscope : scope.IsDotted)
    {c : Char} (hc : c ∈ name.toList) : isWordPart c := by
  rcases h with himported | hdeclared
  · obtain ⟨entry, hentry, rfl⟩ := Option.map_eq_some_iff.mp himported
    have hname := hscope.imports entry (List.mem_of_find?_eq_some hentry)
    exact List.all_eq_true.mp hname c hc
  · obtain ⟨type, htype, rfl⟩ := Option.map_eq_some_iff.mp hdeclared
    have hname := hscope.types type (by simpa using List.find?_some htype)
    exact List.all_eq_true.mp hname c hc

/-! ### Runs -/

theorem splitRun_append (run : List Char) : (splitRun run).1 ++ (splitRun run).2 = run :=
  List.takeWhile_append_dropWhile

/-- The run is not taken for a name that is replaced by another one. -/
def Keeps (scope : TypeScope) (nesting : List String) (run : List Char) : Prop :=
  run.any isRunPart → ∀ name,
    scope.replacement? nesting (String.ofList (splitRun run).1) = some name →
      name.toList = (splitRun run).1

theorem keeps_iff : scope.Keeps nesting run ↔ scope.rewriteRun nesting run = run := by
  rw [Keeps, rewriteRun]
  split
  · rename_i hany
    split
    · rename_i name hname
      rw [hname]
      nth_rewrite 4 [← splitRun_append run]
      rw [List.append_cancel_right_eq]
      exact ⟨fun h => h hany name rfl, fun h _ other hother => Option.some.inj hother ▸ h⟩
    · rename_i hnone
      refine iff_of_true (fun _ name hname => ?_) rfl
      cases hnone.symm.trans hname
  · rename_i hany
    exact iff_of_true (fun h => absurd h hany) rfl

/-- The text is written in front of the run. -/
structure Precedes (scope : TypeScope) (nesting : List String) (run front : List Char) : Prop where
  rewriteRun : scope.rewriteRun nesting run = front ++ run
  isQualifier : IsQualifier front
  taken : front ≠ [] → run.any isRunPart ∧
    scope.replacement? nesting (String.ofList (splitRun run).1) =
      some (String.ofList (front ++ (splitRun run).1))

theorem Precedes.eq_nil_iff {front : List Char} (h : scope.Precedes nesting run front) :
    front = [] ↔ scope.Keeps nesting run := by
  rw [keeps_iff, h.rewriteRun, List.append_left_eq_self]

theorem exists_precedes (hends : scope.header.NamesEnd) (nesting : List String)
    (run : List Char) : ∃ front, scope.Precedes nesting run front := by
  by_cases hkeeps : scope.Keeps nesting run
  · exact ⟨[], keeps_iff.mp hkeeps, nofun, fun h => absurd rfl h⟩
  · simp only [Keeps, not_forall] at hkeeps
    obtain ⟨hany, name, hname, -⟩ := hkeeps
    obtain ⟨front, hfront, hqualifier⟩ := (offers_of_replacement? hname).endsIn hends
    rw [String.toList_ofList] at hfront
    refine ⟨front, ?_, hqualifier, fun _ => ⟨hany, ?_⟩⟩
    · rw [rewriteRun, if_pos hany, hname]
      dsimp only
      rw [hfront, List.append_assoc, splitRun_append]
    · rw [hname, ← hfront, String.ofList_toList]

/-- What is written in front of a run ends in a full stop, and the text in front of the run does
not. -/
theorem Precedes.getLast?_ne {cs before front : List Char} (h : scope.Precedes nesting run front)
    (hne : front ≠ []) (hrun : run ∈ runs cs) (hapart : Apart isRunPart before run) :
    before.getLast? ≠ front.getLast? := by
  intro heq
  obtain ⟨hrunne, hparts⟩ := of_mem_runs hrun
  have hc := List.getLast?_eq_some_getLast hne
  have hd := List.head?_eq_some_head hrunne
  have hneighbours := hapart _ (heq.trans hc) _ hd
  rw [h.isQualifier _ hc, hparts (h.taken hne).1 _ (List.head_mem hrunne)] at hneighbours
  exact absurd hneighbours (by decide)

end TypeScope

end ViewBinding.Java
