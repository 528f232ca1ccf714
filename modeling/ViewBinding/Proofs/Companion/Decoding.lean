import Mathlib.Data.List.Basic
import ViewBinding.Companion.Layout
import ViewBinding.Proofs.Scan.Owners
import ViewBinding.Proofs.Text.Decimal

/-!
# Texts of companions can be read back

A companion with legal names can be read back from its plain text
(`ViewBinding.Companion.eq_of_render_eq`). The text is taken apart from the left: what comes first
is cut off at a character that it cannot contain, such as the semicolon behind the name of a
package. A cast may contain anything but a line feed, parentheses and calls included, so a statement
is cut off where it ends, and then the call and the cast are told apart from the right.

This needs that the variable of a statement has no full stop. Otherwise there are two ways to read
an assignment whose cast looks like one (`ViewBinding.Companion.exists_render_eq`).
-/

namespace ViewBinding

open Java Text

/-! ### Cutting lists -/

section Cutting

variable {α β : Type} {x : α} {xs ys xs' ys' : List α}

/-- A list is cut at the first place of an element in one way only. -/
theorem cut_first (h : x ∉ xs) (h' : x ∉ xs') (heq : xs ++ x :: ys = xs' ++ x :: ys') :
    xs = xs' ∧ ys = ys' := by
  induction xs generalizing xs' with
  | nil =>
    cases xs' with
    | nil => exact ⟨rfl, List.tail_eq_of_cons_eq heq⟩
    | cons y xs' => exact absurd (List.head_eq_of_cons_eq heq) (List.ne_of_not_mem_cons h')
  | cons y xs ih =>
    cases xs' with
    | nil => exact absurd (List.head_eq_of_cons_eq heq).symm (List.ne_of_not_mem_cons h)
    | cons z xs' =>
      obtain ⟨rfl, htail⟩ := List.cons.inj heq
      obtain ⟨rfl, rfl⟩ := ih (List.not_mem_of_not_mem_cons h) (List.not_mem_of_not_mem_cons h')
        htail
      exact ⟨rfl, rfl⟩

/-- A list is cut at the last place of an element in one way only. -/
theorem cut_last (h : x ∉ ys) (h' : x ∉ ys') (heq : xs ++ x :: ys = xs' ++ x :: ys') :
    xs = xs' ∧ ys = ys' := by
  have hreverse : ys.reverse ++ x :: xs.reverse = ys'.reverse ++ x :: xs'.reverse := by
    simpa using congrArg List.reverse heq
  obtain ⟨hys, hxs⟩ := cut_first (by simpa using h) (by simpa using h') hreverse
  exact ⟨List.reverse_injective hxs, List.reverse_injective hys⟩

/-- Items that can be cut off one by one can be read back from what they are written as, up to a
rest that is no item. -/
theorem cut_items {P : β → Prop} {write : β → List α} {items items' : List β} {rest rest' : List α}
    (hitem : ∀ a b, P a → P b → ∀ more more', write a ++ more = write b ++ more' →
      a = b ∧ more = more')
    (hrest : ∀ a, P a → ∀ more, rest ≠ write a ++ more)
    (hrest' : ∀ a, P a → ∀ more, rest' ≠ write a ++ more)
    (h : ∀ a ∈ items, P a) (h' : ∀ a ∈ items', P a)
    (heq : items.flatMap write ++ rest = items'.flatMap write ++ rest') :
    items = items' ∧ rest = rest' := by
  induction items generalizing items' with
  | nil =>
    cases items' with
    | nil => exact ⟨rfl, heq⟩
    | cons b items' =>
      rw [List.flatMap_cons, List.append_assoc] at heq
      exact absurd heq (hrest b (h' b List.mem_cons_self) _)
  | cons a items ih =>
    rw [List.flatMap_cons, List.append_assoc] at heq
    cases items' with
    | nil => exact absurd heq.symm (hrest' a (h a List.mem_cons_self) _)
    | cons b items' =>
      rw [List.flatMap_cons, List.append_assoc] at heq
      obtain ⟨rfl, hmore⟩ := hitem a b (h a List.mem_cons_self) (h' b List.mem_cons_self) _ _ heq
      obtain ⟨rfl, rfl⟩ := ih (List.forall_mem_cons.mp h).2 (List.forall_mem_cons.mp h').2 hmore
      exact ⟨rfl, rfl⟩

end Cutting

/-! ### Statements -/

namespace Assignment

variable {a b : Assignment} {more more' : List Char}

/-- The characters of the id. -/
def numeral (a : Assignment) : List Char :=
  (toString a.id.toInt).toList

/-- What stands between the cast and the parenthesis in front of the id. -/
def middle (a : Assignment) : String :=
  ")(" ++ a.target ++ ".findViewById"

/-- The characters of a statement. -/
theorem toList_render (a : Assignment) :
    (a.render .plain).toList = a.target.toList ++ '.' :: (a.field.toList ++ ' ' :: ("= (".toList ++
      (a.type.toList ++ (a.middle.toList ++ '(' :: (a.numeral ++ "));".toList))))) := by
  simp [numeral, middle, render, pieces, Piece.allPainted, Piece.painted, Piece.plain, Piece.type,
    String.join]

/-- The texts of a statement are legal. A cast may be any text on one line. -/
structure IsReadable (a : Assignment) : Prop where
  target : '.' ∉ a.target.toList
  field : isIdentifier a.field
  cast : '\n' ∉ a.type.toList

instance (a : Assignment) : Decidable a.IsReadable :=
  decidable_of_iff ('.' ∉ a.target.toList ∧ isIdentifier a.field ∧ '\n' ∉ a.type.toList)
    ⟨fun ⟨target, field, cast⟩ => ⟨target, field, cast⟩,
      fun ⟨target, field, cast⟩ => ⟨target, field, cast⟩⟩

theorem not_mem_numeral (a : Assignment) {x : Char} (hdigit : x.isDigit = false)
    (hminus : x ≠ '-') : x ∉ a.numeral := by
  intro hmem
  rcases Decimal.isDigit_or_minus hmem with h | h
  · rw [hdigit] at h
    cases h
  · exact hminus h

theorem id_inj (h : a.numeral = b.numeral) : a.id = b.id :=
  Int32.toInt_inj.mp (Decimal.toString_inj h)

/-- The cast and the id can be read back from what follows the parenthesis in front of the cast, if
what stands between them is known. -/
theorem eq_of_cast_append {middle : List Char} (ha : '\n' ∉ a.type.toList)
    (hb : '\n' ∉ b.type.toList)
    (h : a.type.toList ++ (middle ++ '(' :: (a.numeral ++ ("));".toList ++ '\n' :: more))) =
      b.type.toList ++ (middle ++ '(' :: (b.numeral ++ ("));".toList ++ '\n' :: more')))) :
    a.type = b.type ∧ a.id = b.id ∧ more = more' := by
  by_cases hmiddle : '\n' ∈ middle
  · -- the line ends between them, so the cast is cut off first
    obtain ⟨front, back, rfl, hfront⟩ := List.eq_append_cons_of_mem hmiddle
    have hline : (a.type.toList ++ front) ++ '\n' :: (back ++
          '(' :: (a.numeral ++ ')' :: (");\n".toList ++ more))) =
        (b.type.toList ++ front) ++ '\n' :: (back ++
          '(' :: (b.numeral ++ ')' :: (");\n".toList ++ more'))) := by simpa using h
    obtain ⟨hcast, hcall⟩ := cut_first (by simp [ha, hfront]) (by simp [hb, hfront]) hline
    have hid := List.tail_eq_of_cons_eq (List.append_cancel_left hcall)
    obtain ⟨hid, hmore⟩ := cut_first (a.not_mem_numeral (by decide) (by decide))
      (b.not_mem_numeral (by decide) (by decide)) hid
    exact ⟨String.toList_inj.mp (List.append_cancel_right hcast), id_inj hid,
      List.append_cancel_left hmore⟩
  · -- the line ends behind the statement, and the id is behind the last opening parenthesis
    have hid (x : Assignment) : '\n' ∉ x.numeral := x.not_mem_numeral (by decide) (by decide)
    have hline : (a.type.toList ++ (middle ++ '(' :: (a.numeral ++ "));".toList))) ++ '\n' :: more =
        (b.type.toList ++ (middle ++ '(' :: (b.numeral ++ "));".toList))) ++ '\n' :: more' := by
      simpa using h
    obtain ⟨hline, hmore⟩ := cut_first (by simp [ha, hmiddle, hid]) (by simp [hb, hmiddle, hid])
      hline
    have hcall : ((a.type.toList ++ middle) ++ '(' :: a.numeral) ++ "));".toList =
        ((b.type.toList ++ middle) ++ '(' :: b.numeral) ++ "));".toList := by simpa using hline
    obtain ⟨hcast, hid⟩ := cut_last (a.not_mem_numeral (by decide) (by decide))
      (b.not_mem_numeral (by decide) (by decide)) (List.append_cancel_right hcall)
    exact ⟨String.toList_inj.mp (List.append_cancel_right hcast), id_inj hid, hmore⟩

/-- **A statement can be cut off where it ends**, and it can be read back. -/
theorem eq_of_render_append (ha : a.IsReadable) (hb : b.IsReadable)
    (h : (a.render .plain).toList ++ '\n' :: more = (b.render .plain).toList ++ '\n' :: more') :
    a = b ∧ more = more' := by
  simp only [toList_render, List.append_assoc, List.cons_append] at h
  obtain ⟨htarget, h⟩ := cut_first ha.target hb.target h
  obtain ⟨hfield, h⟩ := cut_first (not_mem_of_isIdentifier ha.field (by decide))
    (not_mem_of_isIdentifier hb.field (by decide)) h
  rw [show a.middle = b.middle by rw [middle, middle, String.toList_inj.mp htarget]] at h
  obtain ⟨htype, hid, hmore⟩ := eq_of_cast_append ha.cast hb.cast (List.append_cancel_left h)
  obtain ⟨target, field, type, id⟩ := a
  obtain ⟨target', field', type', id'⟩ := b
  obtain rfl := String.toList_inj.mp htarget
  obtain rfl := String.toList_inj.mp hfield
  obtain rfl := htype
  obtain rfl := hid
  exact ⟨rfl, hmore⟩

end Assignment

/-! ### Companions -/

namespace Companion

variable {c d : Companion} {header : Bool} {indent : String}

/-- The declaration of the package, if there is one. -/
def packageText (c : Companion) : String :=
  if c.package = "" then "" else "package " ++ c.package ++ ";\n\n"

/-- An import. -/
def importText (name : String) : String :=
  "import " ++ name ++ ".*;\n"

/-- All imports, with the line feed behind them. -/
def importsText (c : Companion) : String :=
  String.join (c.imports.map importText) ++ if c.imports = [] then "" else "\n"

/-- A statement with its indentation. -/
def statementText (indent : String) (a : Assignment) : String :=
  indent ++ indent ++ a.render .plain ++ "\n"

/-- The declaration of the class. -/
def classText (indent : String) (c : Companion) : String :=
  "public class " ++ c.name ++ " \x7b\n" ++
    (indent ++ "public static void " ++ c.method.name ++ "(" ++ c.method.parameter.type ++ " " ++
      c.method.parameter.name ++ ") \x7b\n") ++
    String.join (c.method.statements.map (statementText indent)) ++ (indent ++ "\x7d\n\x7d\n")

section Parts

variable (c : Companion) (header : Bool) (indent : String)

theorem allPainted_plain (pieces : List Piece) :
    Piece.allPainted .plain pieces = String.join (pieces.map Piece.text) := by
  have hpainted : Piece.painted .plain = Piece.text := by
    funext piece
    rw [Piece.painted]
    split <;> rfl
  rw [Piece.allPainted, hpainted]

theorem renderLine_plain (line : Line) :
    line.render ⟨header, indent, .plain⟩ = String.join (List.replicate line.depth indent) ++
      String.join (line.pieces.map Piece.text) ++ "\n" := by
  rw [Line.render, allPainted_plain]

/-- The text of lines. -/
def written (l : Layout) (lines : List Line) : String :=
  String.join (lines.map (Line.render l))

theorem written_append (l : Layout) (lines more : List Line) :
    written l (lines ++ more) = written l lines ++ written l more := by
  rw [written, List.map_append, String.join_append]
  rfl

theorem written_packageLines :
    written ⟨header, indent, .plain⟩ c.packageLines = c.packageText := by
  rw [packageLines, packageText]
  split
  · rfl
  · apply String.toList_inj.mp
    simp [written, renderLine_plain, Piece.plain, Piece.keyword, Line.blank]

theorem written_importLines :
    written ⟨header, indent, .plain⟩ c.importLines = c.importsText := by
  have himport (name : String) :
      Line.render ⟨header, indent, .plain⟩
        ⟨0, [.keyword "import", .plain (" " ++ name ++ ".*;")]⟩ = importText name := by
    apply String.toList_inj.mp
    simp [renderLine_plain, Piece.plain, Piece.keyword, importText]
  rw [importLines, importsText]
  split
  · rename_i hnil
    rw [hnil]
    rfl
  · rename_i hne
    rw [if_neg hne, written_append, written, List.map_map]
    simp only [Function.comp_def, himport]
    exact congrArg _ (by simp [written, renderLine_plain, Line.blank])

theorem written_classLines :
    written ⟨header, indent, .plain⟩ c.classLines = c.classText indent := by
  have hstatement (a : Assignment) : Line.render ⟨header, indent, .plain⟩ ⟨2, a.pieces⟩ =
      statementText indent a := by
    rw [renderLine_plain, statementText, Assignment.render, allPainted_plain]
    simp
  unfold classText
  rw [classLines, written_append, written_append]
  refine congr (congrArg _ (congr (congrArg _ ?_) ?_)) ?_
  · apply String.toList_inj.mp
    simp [written, renderLine_plain, Piece.plain, Piece.keyword, Piece.type]
  · simp only [written, List.map_map, Function.comp_def, hstatement]
  · apply String.toList_inj.mp
    simp [written, renderLine_plain, Piece.plain]

end Parts

/-- The parts of the text of a companion. -/
theorem render_plain (c : Companion) (header : Bool) (indent : String) :
    c.render ⟨header, indent, .plain⟩ =
      written ⟨header, indent, .plain⟩ (headerLines ⟨header, indent, .plain⟩) ++
        (c.packageText ++ (c.importsText ++ c.classText indent)) := by
  change written _ (c.lines _) = _
  rw [lines, written_append, written_append, written_append, written_packageLines,
    written_importLines, written_classLines, String.append_assoc, String.append_assoc]

/-- The texts of a companion are legal. -/
structure IsReadable (c : Companion) : Prop where
  package : isPackageName c.package
  imports : ∀ name ∈ c.imports, isPackageName name ∧ name ≠ ""
  name : isIdentifier c.name
  method : isIdentifier c.method.name
  parameter : isIdentifier c.method.parameter.name
  parameterType : ∀ name ∈ segments c.method.parameter.type, isIdentifier name
  statements : ∀ a ∈ c.method.statements, a.IsReadable

/-- Statements can be read back up to the end of the class. -/
theorem statements_eq {as bs : List Assignment} (has : ∀ a ∈ as, a.IsReadable)
    (hbs : ∀ b ∈ bs, b.IsReadable)
    (h : as.flatMap (fun a => (statementText indent a).toList) ++
        (indent.toList ++ "\x7d\n\x7d\n".toList) =
      bs.flatMap (fun a => (statementText indent a).toList) ++
        (indent.toList ++ "\x7d\n\x7d\n".toList)) : as = bs := by
  have hitem (a b : Assignment) (ha : a.IsReadable) (hb : b.IsReadable) (more more' : List Char)
      (h : (statementText indent a).toList ++ more = (statementText indent b).toList ++ more') :
      a = b ∧ more = more' := by
    have hrender : (a.render .plain).toList ++ '\n' :: more =
        (b.render .plain).toList ++ '\n' :: more' := by simpa [statementText] using h
    exact Assignment.eq_of_render_append ha hb hrender
  have hend (a : Assignment) (more : List Char) :
      indent.toList ++ "\x7d\n\x7d\n".toList ≠ (statementText indent a).toList ++ more := by
    -- a statement has a full stop, and the end of the class has none
    intro heq
    have hclose : "\x7d\n\x7d\n".toList = indent.toList ++ ((a.render .plain).toList ++
        '\n' :: more) := by simpa [statementText] using heq
    have hdot : '.' ∈ "\x7d\n\x7d\n".toList := by
      rw [hclose, Assignment.toList_render]
      simp
    revert hdot
    decide
  exact (cut_items hitem (fun a _ => hend a) (fun a _ => hend a) has hbs h).1

instance (c : Companion) : Decidable c.IsReadable :=
  decidable_of_iff (isPackageName c.package ∧ (∀ name ∈ c.imports, isPackageName name ∧ name ≠ "") ∧
      isIdentifier c.name ∧ isIdentifier c.method.name ∧ isIdentifier c.method.parameter.name ∧
      (∀ name ∈ segments c.method.parameter.type, isIdentifier name) ∧
      ∀ a ∈ c.method.statements, a.IsReadable)
    ⟨fun ⟨package, imports, name, method, parameter, parameterType, statements⟩ =>
        ⟨package, imports, name, method, parameter, parameterType, statements⟩,
      fun ⟨package, imports, name, method, parameter, parameterType, statements⟩ =>
        ⟨package, imports, name, method, parameter, parameterType, statements⟩⟩

section Decoding

variable (hc : c.IsReadable) (hd : d.IsReadable)

/-- What follows the declaration of the package is none itself. -/
theorem ne_package_append (c : Companion) (indent : String) (more : List Char) :
    (c.importsText ++ c.classText indent).toList ≠ "package ".toList ++ more := by
  intro h
  unfold classText at h
  rw [importsText] at h
  cases himports : c.imports with
  | nil => simp [himports] at h
  | cons name names => simp [himports, importText] at h

include hc hd

theorem package_eq (h : c.packageText ++ (c.importsText ++ c.classText indent) =
      d.packageText ++ (d.importsText ++ d.classText indent)) :
    c.package = d.package ∧
      c.importsText ++ c.classText indent = d.importsText ++ d.classText indent := by
  have hdeclared (e : Companion) (hne : e.package ≠ "") (rest : String) :
      (e.packageText ++ rest).toList =
        "package ".toList ++ (e.package.toList ++ ';' :: ("\n\n".toList ++ rest.toList)) := by
    rw [packageText, if_neg hne]
    simp
  have hempty (e : Companion) (he : e.package = "") (rest : String) :
      e.packageText ++ rest = rest := by
    rw [packageText, if_pos he, String.empty_append]
  have hlist := congrArg String.toList h
  by_cases hcp : c.package = "" <;> by_cases hdp : d.package = ""
  · rw [hempty c hcp, hempty d hdp] at h
    exact ⟨hcp.trans hdp.symm, h⟩
  · rw [hempty c hcp, hdeclared d hdp] at hlist
    exact absurd hlist (ne_package_append c indent _)
  · rw [hdeclared c hcp, hempty d hdp] at hlist
    exact absurd hlist.symm (ne_package_append d indent _)
  · rw [hdeclared c hcp, hdeclared d hdp] at hlist
    obtain ⟨hpackage, hrest⟩ := cut_first
      (not_mem_of_isPackageName hc.package (by decide) (by decide))
      (not_mem_of_isPackageName hd.package (by decide) (by decide))
      (List.append_cancel_left hlist)
    exact ⟨String.toList_inj.mp hpackage, String.toList_inj.mp (List.append_cancel_left hrest)⟩

theorem imports_eq (h : c.importsText ++ c.classText indent = d.importsText ++ d.classText indent) :
    c.imports = d.imports ∧ c.classText indent = d.classText indent := by
  have hlist := congrArg String.toList h
  have hitem (a b : String) (ha : isPackageName a) (hb : isPackageName b) (more more' : List Char)
      (h : (importText a).toList ++ more = (importText b).toList ++ more') :
      a = b ∧ more = more' := by
    have hname : (a.toList ++ ".*".toList) ++ ';' :: ('\n' :: more) =
        (b.toList ++ ".*".toList) ++ ';' :: ('\n' :: more') := by simpa [importText] using h
    have hnot {s : String} (hs : isPackageName s) : ';' ∉ s.toList :=
      not_mem_of_isPackageName hs (by decide) (by decide)
    obtain ⟨hname, hmore⟩ := cut_first (by simp [hnot ha]) (by simp [hnot hb]) hname
    exact ⟨String.toList_inj.mp (List.append_cancel_right hname), List.tail_eq_of_cons_eq hmore⟩
  have hrest (e : Companion) (a : String) (more : List Char) :
      ((if e.imports = [] then "" else "\n") ++ e.classText indent).toList ≠
        (importText a).toList ++ more := by
    unfold classText
    rw [importText]
    split <;> simp
  have hparts (e : Companion) : (e.importsText ++ e.classText indent).toList =
      e.imports.flatMap (fun name => (importText name).toList) ++
        ((if e.imports = [] then "" else "\n") ++ e.classText indent).toList := by
    rw [importsText, String.append_assoc, String.toList_append, String.toList_join,
      List.flatMap_map]
  rw [hparts, hparts] at hlist
  obtain ⟨himports, hclass⟩ := cut_items hitem (fun a _ => hrest c a) (fun a _ => hrest d a)
    (fun name hname => (hc.imports name hname).1) (fun name hname => (hd.imports name hname).1)
    hlist
  rw [himports] at hclass
  exact ⟨himports, (String.append_right_inj _).mp (String.toList_inj.mp hclass)⟩

theorem class_eq (h : c.classText indent = d.classText indent) :
    c.name = d.name ∧ c.method = d.method := by
  have hparts (e : Companion) : (e.classText indent).toList =
      "public class ".toList ++ (e.name.toList ++ ' ' :: ("\x7b\n".toList ++ (indent.toList ++
        ("public static void ".toList ++ (e.method.name.toList ++ '(' ::
          (e.method.parameter.type.toList ++ ' ' :: (e.method.parameter.name.toList ++ ')' ::
            (" \x7b\n".toList ++ (e.method.statements.flatMap (fun a =>
              (statementText indent a).toList) ++
                (indent.toList ++ "\x7d\n\x7d\n".toList)))))))))) := by
    unfold classText
    simp [String.toList_join, List.flatMap_map]
  have hlist := congrArg String.toList h
  rw [hparts, hparts] at hlist
  obtain ⟨hname, hlist⟩ := cut_first (not_mem_of_isIdentifier hc.name (by decide))
    (not_mem_of_isIdentifier hd.name (by decide)) (List.append_cancel_left hlist)
  have hlist := List.append_cancel_left (List.append_cancel_left (List.append_cancel_left hlist))
  obtain ⟨hmethod, hlist⟩ := cut_first (not_mem_of_isIdentifier hc.method (by decide))
    (not_mem_of_isIdentifier hd.method (by decide)) hlist
  obtain ⟨htype, hlist⟩ := cut_first
    (not_mem_of_segments hc.parameterType (by decide) (by decide))
    (not_mem_of_segments hd.parameterType (by decide) (by decide)) hlist
  obtain ⟨hparameter, hlist⟩ := cut_first (not_mem_of_isIdentifier hc.parameter (by decide))
    (not_mem_of_isIdentifier hd.parameter (by decide)) hlist
  have hstatements := statements_eq hc.statements hd.statements (List.append_cancel_left hlist)
  refine ⟨String.toList_inj.mp hname, ?_⟩
  change BindMethod.mk c.method.name ⟨c.method.parameter.type, c.method.parameter.name⟩ _ =
    BindMethod.mk d.method.name ⟨d.method.parameter.type, d.method.parameter.name⟩ _
  rw [String.toList_inj.mp hmethod, String.toList_inj.mp htype, String.toList_inj.mp hparameter,
    hstatements]

end Decoding

/-- **A companion can be read back from its plain text**: companions with one text have the same
package, imports, name and method. The indentation may be any text. -/
theorem eq_of_render_eq (hc : c.IsReadable) (hd : d.IsReadable)
    (h : c.render ⟨header, indent, .plain⟩ = d.render ⟨header, indent, .plain⟩) :
    c.package = d.package ∧ c.imports = d.imports ∧ c.name = d.name ∧ c.method = d.method := by
  rw [render_plain, render_plain] at h
  obtain ⟨hpackage, h⟩ := package_eq hc hd ((String.append_right_inj _).mp h)
  obtain ⟨himports, h⟩ := imports_eq hc hd h
  obtain ⟨hname, hmethod⟩ := class_eq hc hd h
  exact ⟨hpackage, himports, hname, hmethod⟩

/-- A cast that looks like a call is read back. The companions differ in what they are for, which is
not written. -/
theorem eq_of_render_eq_call :
    let c (owner : String) : Companion := ⟨"app", "AViewBinding", ⟨"app", [], owner⟩, ["app.view"],
      ⟨"bind", ⟨"A", "a"⟩, [⟨"a", "f", "X)(a.findViewById(1)); (Y", 2⟩]⟩⟩
    (c "A").IsReadable ∧ (c "B").IsReadable ∧
      (c "A").render ⟨true, "  ", .plain⟩ = (c "B").render ⟨true, "  ", .plain⟩ ∧
      (c "A").method = (c "B").method := by
  intro c
  have hfirst : (c "A").IsReadable := by decide +kernel
  have hsecond : (c "B").IsReadable := by decide +kernel
  have hrender : (c "A").render ⟨true, "  ", .plain⟩ = (c "B").render ⟨true, "  ", .plain⟩ := by
    decide +kernel
  exact ⟨hfirst, hsecond, hrender, (eq_of_render_eq hfirst hsecond hrender).2.2.2⟩

/-- **With a full stop in its variable a statement can be read in two ways.** All other texts are
legal, and the indentation is made of spaces. -/
theorem exists_render_eq :
    let c (target type : String) : Companion := ⟨"", "A", ⟨"", [], "A"⟩, [],
      ⟨"bind", ⟨"A", "a"⟩, [⟨target, "f", type, 1⟩]⟩⟩
    let first := c "a" "X)(a.f = (X)(a.f = (X"
    let second := c "a.f = (X)(a" "X"
    first.render ⟨true, "  ", .plain⟩ = second.render ⟨true, "  ", .plain⟩ ∧
      first.method.statements ≠ second.method.statements ∧
      (∀ e ∈ [first, second], isPackageName e.package ∧ e.imports = [] ∧ isIdentifier e.name ∧
        isIdentifier e.method.name ∧ isIdentifier e.method.parameter.name ∧
        (∀ name ∈ segments e.method.parameter.type, isIdentifier name) ∧
        ∀ a ∈ e.method.statements, isIdentifier a.field ∧ '\n' ∉ a.type.toList) := by
  decide +kernel

end Companion

end ViewBinding
