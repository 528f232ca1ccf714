import Mathlib.Data.List.Chain
import ViewBinding.Proofs.Constants.Waiting

/-!
# Constants that lead into cycles

The notes that are handed on from one view id to the next hold errors as well as values. A constant
that fails comes to the same error each time. A constant that leads into a cycle comes to the error
that one of the references of the cycle is not constant
(`ViewBinding.Java.Constants.foldConstant_comesTo`), and which one depends on where the cycle was
entered first: folding goes around and blames the reference that leads back there. The error
spreads to all the constants that were gone through, and is found again from there
(`ViewBinding.Java.Constants.foldConstant_spreads`).
-/

namespace ViewBinding.Java

open Relation Text

namespace Constants

variable {table : Constants} {notes notes' : Notes} {a b c d : ConstantName}
  {place place' : Extent} {err : FoldError} {budget : Nat}

/-! ### The errors that there can be -/

/-- **An error that folding the constant can come to**: the one with which it fails, or that a
reference of the cycle into which it leads is not constant. -/
inductive MayFailWith (table : Constants) (c : ConstantName) : FoldError → Prop
  | error {err : FoldError} (h : table.FailsWith c err) : MayFailWith table c err
  | cycle {a b : ConstantName} {place : Extent} (hc : ReflTransGen table.Waits c a)
    (h : table.InCycle a b place) : MayFailWith table c (.notConstant place)

theorem MayFailWith.head (hc : table.Waits c d) (h : table.MayFailWith d err) :
    table.MayFailWith c err := by
  cases h with
  | error h => exact .error (.next hc h)
  | cycle hd h => exact .cycle (.head hc hd) h

/-- The errors that are noted are such errors. -/
def RightErrors (table : Constants) (notes : Notes) : Prop :=
  ∀ c err, noteOn? notes c = some (.settled (.error err)) → table.MayFailWith c err

theorem RightErrors.begin (h : table.RightErrors notes) (c : ConstantName) :
    table.RightErrors (noted notes c .begun) := by
  intro d err hd
  rw [noteOn?_noted] at hd
  split at hd
  · cases hd
  · exact h d err hd

theorem RightErrors.settle (h : table.RightErrors notes) (hc : table.MayFailWith c err) :
    table.RightErrors (noted notes c (.settled (.error err))) := by
  intro d err' hd
  rw [noteOn?_noted] at hd
  split at hd
  · rename_i hcd
    cases hd
    exact hcd ▸ hc
  · exact h d err' hd

theorem RightErrors.passes (h : table.RightErrors notes) (hpasses : table.Passes notes notes') :
    table.RightErrors notes' :=
  fun c err hc => h c err (hpasses.noNewError hc)

/-- **What is begun waits for the constant** that is folded right now. -/
def Awaited (table : Constants) (notes : Notes) (c : ConstantName) : Prop :=
  ∀ b, noteOn? notes b = some .begun → TransGen table.Waits b c

theorem Awaited.underlies (h : table.Awaited notes c) : table.Underlies notes c :=
  fun b hb => TransGen.mono (fun _ _ => Waits.dependsOn) b c (h b hb)

/-- The constant that a begun constant waits for is awaited. -/
theorem Awaited.enter (h : table.Awaited notes c) (hd : table.Waits c d) :
    table.Awaited (noted notes c .begun) d := by
  intro b hb
  rw [noteOn?_noted] at hb
  split at hb
  · rename_i hcb
    exact hcb ▸ .single hd
  · exact (h b hb).tail hd

theorem Awaited.extends (h : table.Awaited notes c) (hext : Extends notes notes') :
    table.Awaited notes' c :=
  fun b hb => h b (hext.begun_iff.mp hb)

/-- **One step**: a constant that has not been met before is begun, and settled with what folding
comes to where its initializer stops. -/
theorem foldConstant_of_stopsAt {o : Obstacle} (hnote : noteOn? notes c = none)
    (he : table.initializer? c = some e) (ho : table.StopsAt c.owner e o)
    (hs : table.Sound notes) (hb : table.unnoted notes < budget + 1)
    (hw : table.Awaited notes c) (place : Extent) :
    ∃ notes', table.Passes (noted notes c .begun) notes' ∧ table.unnoted notes' < budget ∧
      foldConstant table (budget + 1) c place notes =
        ((o.fold table budget notes').1,
          noted (o.fold table budget notes').2 c (.settled (o.fold table budget notes').1)) := by
  have hlt := table.unnoted_noted_lt hnote he .begun
  obtain ⟨notes', hpasses, heq⟩ := foldWith_of_stopsAt ho (hs.begin c)
    (lt_of_lt_of_le hlt (Nat.le_of_lt_succ hb)) fun d hd => hw.underlies.enter ⟨e, he, hd⟩
  refine ⟨notes', hpasses, hpasses.unnoted_lt (by omega), ?_⟩
  rw [foldConstant, hnote]
  simp only [he, heq]

/-- **What folding a constant without a value comes to**: an error that it can come to, or, if the
constant is begun, that the place where it is named is not constant. -/
structure ComesTo (table : Constants) (notes : Notes) (c : ConstantName) (place : Extent)
    (err : FoldError) (out : Folded × Notes) : Prop where
  result : out.1 = .error err
  mayFail : table.MayFailWith c err ∨ noteOn? notes c = some .begun ∧ err = .notConstant place
  notes : table.RightErrors out.2

theorem foldConstant_comesTo (budget : Nat) (c : ConstantName) (place : Extent)
    (hc : ∃ e, table.initializer? c = some e) (hno : ∀ v, ¬table.Defines c v)
    (hs : table.Sound notes) (hall : table.RightErrors notes) (hb : table.unnoted notes < budget)
    (hw : table.Awaited notes c) :
    ∃ err, table.ComesTo notes c place err (foldConstant table budget c place notes) := by
  induction budget generalizing c place notes with
  | zero => omega
  | succ budget ih =>
    obtain ⟨e, he⟩ := hc
    cases hnote : noteOn? notes c with
    | some note =>
      cases note with
      | begun =>
        rw [foldConstant, hnote]
        exact ⟨_, rfl, .inr ⟨hnote, rfl⟩, hall⟩
      | settled r =>
        rw [foldConstant, hnote]
        cases r with
        | ok v => exact absurd ((hs c _ hnote v).mp rfl) (hno v)
        | error err => exact ⟨err, rfl, .inl (hall c err hnote), hall⟩
    | none =>
      -- the initializer stops, at an error of its own or at a constant without a value
      obtain ⟨o, ho⟩ : ∃ o, table.StopsAt c.owner e o :=
        (denotes_or_stopsAt table c.owner e).resolve_left fun ⟨v, hv⟩ => hno v ⟨e, he, hv⟩
      obtain ⟨notes', hpasses, hb', heq⟩ := foldConstant_of_stopsAt hnote he ho hs hb hw place
      have hall' := (hall.begin c).passes hpasses
      rw [heq]
      cases o with
      | error err =>
        have hmay : table.MayFailWith c err := .error (.here he ho)
        exact ⟨err, rfl, .inl hmay, hall'.settle hmay⟩
      | constant d inner =>
        have hd : table.WaitsFor c d inner := ⟨e, he, ho⟩
        obtain ⟨err, hresult, hmay, hall''⟩ := ih d inner ho.exists_initializer ho.not_defines
          hpasses.sound hall' hb' ((hw.enter hd.waits).extends hpasses.toExtends)
        have hmay : table.MayFailWith c err := by
          rcases hmay with hmay | ⟨hbegun, rfl⟩
          · exact hmay.head hd.waits
          · -- the constant that is waited for has been begun, so that the two are on a cycle
            refine .cycle .refl ⟨hd, ?_⟩
            rw [hpasses.begun_iff, noteOn?_noted] at hbegun
            split at hbegun
            · rename_i hcd
              rw [hcd]
            · exact (hw d hbegun).to_reflTransGen
        refine ⟨err, hresult, .inl hmay, ?_⟩
        dsimp only [Obstacle.fold]
        rw [hresult]
        exact hall''.settle hmay

/-! ### What a cycle is blamed on -/

/-- A way along a relation need not come by the same place twice. -/
theorem exists_nodup_isChain {α : Type} {r : α → α → Prop} {x y : α} (h : ReflTransGen r x y) :
    ∃ path, (x :: path).IsChain r ∧ (x :: path).Nodup ∧
      (x :: path).getLast (List.cons_ne_nil x path) = y := by
  induction h using ReflTransGen.head_induction_on with
  | refl => exact ⟨[], .singleton y, List.nodup_singleton y, rfl⟩
  | @head x z hxz _ ih =>
    obtain ⟨path, hchain, hnodup, hlast⟩ := ih
    by_cases hx : x ∈ z :: path
    · -- the way comes back to where it started, and the round is left out
      obtain ⟨before, after, heq⟩ := List.append_of_mem hx
      rw [heq] at hchain hnodup
      refine ⟨after, (List.isChain_append.mp hchain).2.1, (List.nodup_append.mp hnodup).2.1, ?_⟩
      rw [← hlast]
      simp only [heq, List.getLast_append_of_ne_nil _ (List.cons_ne_nil x after)]
    · exact ⟨z :: path, hchain.cons_cons hxz, List.nodup_cons.mpr ⟨hx, hnodup⟩, hlast⟩

/-- **The error spreads**: folding comes to it, and nothing else is noted of the constants without a
value. -/
structure Spreads (table : Constants) (notes : Notes) (err : FoldError) (out : Folded × Notes) :
    Prop where
  result : out.1 = .error err
  others : ∀ d, (∀ v, ¬table.Defines d v) → noteOn? out.2 d = noteOn? notes d ∨
    noteOn? out.2 d = some (.settled (.error err))

/-- The error that naming a constant at that place comes to, as far as it is known. -/
def Known (notes : Notes) (c : ConstantName) (place : Extent) (err : FoldError) : Prop :=
  noteOn? notes c = some (.settled (.error err)) ∨
    noteOn? notes c = some .begun ∧ err = .notConstant place

theorem Known.spreads (h : Known notes c place err) (hb : 0 < budget) :
    table.Spreads notes err (foldConstant table budget c place notes) := by
  obtain ⟨budget, rfl⟩ := Nat.exists_eq_succ_of_ne_zero (Nat.ne_of_gt hb)
  rw [foldConstant]
  rcases h with h | ⟨h, rfl⟩ <;> rw [h] <;> exact ⟨rfl, fun d _ => .inl rfl⟩

theorem Known.passes (h : Known notes c place err) (hpasses : table.Passes notes notes') :
    Known notes' c place err :=
  h.imp hpasses.kept fun h => ⟨hpasses.kept h.1, h.2⟩

/-- The error spreads to a constant from the one for which it waits. -/
theorem Spreads.of_waitsFor (hc : noteOn? notes c = none) (hd : table.WaitsFor c d place')
    (hs : table.Sound notes) (hb : table.unnoted notes < budget + 1) (hw : table.Awaited notes c)
    (h : ∀ notes', table.Passes (noted notes c .begun) notes' → table.unnoted notes' < budget →
      table.Spreads notes' err (foldConstant table budget d place' notes')) (place : Extent) :
    table.Spreads notes err (foldConstant table (budget + 1) c place notes) ∧
      noteOn? (foldConstant table (budget + 1) c place notes).2 c =
        some (.settled (.error err)) := by
  obtain ⟨e, he, ho⟩ := hd
  obtain ⟨notes', hpasses, hb', heq⟩ := foldConstant_of_stopsAt hc he ho hs hb hw place
  have hspreads := h notes' hpasses hb'
  rw [heq]
  dsimp only [Obstacle.fold]
  rw [hspreads.result]
  refine ⟨⟨rfl, fun d' hd' => ?_⟩, noteOn?_noted_self ..⟩
  by_cases hcd : c = d'
  · rw [← hcd]
    exact .inr (noteOn?_noted_self ..)
  · rw [noteOn?_noted_of_ne hcd, ← noteOn?_noted_of_ne hcd notes .begun,
      ← hpasses.noteOn?_eq hd']
    exact hspreads.others d' hd'

/-- A constant without a value of which nothing is noted, or just that error. -/
structure Clear (table : Constants) (notes : Notes) (err : FoldError) (c : ConstantName) :
    Prop where
  noValue : ∀ v, ¬table.Defines c v
  note : noteOn? notes c = none ∨ noteOn? notes c = some (.settled (.error err))

theorem Clear.passes (h : table.Clear notes err c) (hpasses : table.Passes notes notes') :
    table.Clear notes' err c :=
  ⟨h.noValue, by rw [hpasses.noteOn?_eq h.noValue]; exact h.note⟩

theorem Clear.begin (h : table.Clear notes err d) (hcd : c ≠ d) :
    table.Clear (noted notes c .begun) err d :=
  ⟨h.noValue, by rw [noteOn?_noted_of_ne hcd]; exact h.note⟩

theorem Known.begin (h : Known notes b place err) (hc : noteOn? notes c = none) :
    Known (noted notes c .begun) b place err := by
  have hcb : c ≠ b := by
    rintro rfl
    rcases h with h | ⟨h, -⟩ <;> cases hc.symm.trans h
  unfold Known
  rwa [noteOn?_noted_of_ne hcb]

/-- **The error at the end of a way spreads to its start**, if no other error has been noted on the
way. At the end stands a name whose error is known, or the name of a constant that is begun on the
way. -/
theorem foldConstant_spreads {path : List ConstantName} {inner : Extent}
    (hchain : (c :: path).IsChain table.Waits) (hnodup : (c :: path).Nodup)
    (hlast : (c :: path).getLast (List.cons_ne_nil c path) = a)
    (hab : table.WaitsFor a b inner)
    (hpath : ∀ d ∈ c :: path, table.Clear notes err d)
    (hend : Known notes b inner err ∨ b ∈ c :: path ∧ err = .notConstant inner)
    (hs : table.Sound notes) (hb : table.unnoted notes < budget) (hw : table.Awaited notes c)
    (place : Extent) :
    table.Spreads notes err (foldConstant table budget c place notes) ∧
      noteOn? (foldConstant table budget c place notes).2 c = some (.settled (.error err)) := by
  induction budget generalizing c path place notes with
  | zero => omega
  | succ budget ih =>
    rcases (hpath c List.mem_cons_self).note with hc | hc
    · have hend' : Known (noted notes c .begun) b inner err ∨
          b ∈ path ∧ err = .notConstant inner := by
        rcases hend with hknown | ⟨hb, rfl⟩
        · exact .inl (hknown.begin hc)
        · rcases List.mem_cons.mp hb with rfl | hb
          · exact .inl (.inr ⟨noteOn?_noted_self .., rfl⟩)
          · exact .inr ⟨hb, rfl⟩
      -- the way is entered one constant after the other, and the error is known at its end
      cases path with
      | nil =>
        obtain rfl : c = a := hlast
        refine Spreads.of_waitsFor hc hab hs hb hw (fun notes' hpasses hb' => ?_) place
        have hknown := hend'.resolve_right fun h => List.not_mem_nil h.1
        exact (hknown.passes hpasses).spreads (by omega)
      | cons d path =>
        obtain ⟨next, hd⟩ := hchain.rel
        have hcpath : c ∉ d :: path := (List.nodup_cons.mp hnodup).1
        refine Spreads.of_waitsFor hc hd hs hb hw (fun notes' hpasses hb' => ?_) place
        refine (ih hchain.tail hnodup.tail hlast (fun x hx => ?_)
          (hend'.imp_left (·.passes hpasses)) hpasses.sound hb'
          ((hw.enter hd.waits).extends hpasses.toExtends) next).1
        have hcx : c ≠ x := fun hcx => hcpath (hcx ▸ hx)
        exact ((hpath x (List.mem_cons_of_mem c hx)).begin hcx).passes hpasses
    · rw [foldConstant, hc]
      exact ⟨⟨rfl, fun d _ => .inl rfl⟩, hc⟩

end Constants

end ViewBinding.Java
