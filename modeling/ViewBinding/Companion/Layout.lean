import ViewBinding.Companion
import ViewBinding.Palette

/-!
# The text of a companion class

How a companion is written as Java. A `ViewBinding.Layout` says whether a comment comes first,
what one level of indentation is, and whether the text is colored. The text is made as lines of
`ViewBinding.Piece`s first, for a color surrounds a piece and changes nothing else.

`ViewBinding.Companion.listing` shows several companions one below the other, each under a comment
with its path.
-/

namespace ViewBinding

/-- A piece of generated text, in the color of an ink or as it is. -/
structure Piece where
  ink : Option Ink
  text : String
deriving DecidableEq, Repr

namespace Piece

/-- The piece in the colors of a palette. -/
def painted (p : Palette) (piece : Piece) : String :=
  match piece.ink with
  | none => piece.text
  | some ink => p.paint ink piece.text

/-- The pieces in the colors of a palette. -/
def allPainted (p : Palette) (pieces : List Piece) : String :=
  String.join (pieces.map (painted p))

/-- A piece that is never colored. -/
def plain (text : String) : Piece := ⟨none, text⟩

/-- A keyword. -/
def keyword (text : String) : Piece := ⟨some .keyword, text⟩

/-- The name of a type. -/
def type (text : String) : Piece := ⟨some .type, text⟩

/-- A comment. -/
def comment (text : String) : Piece := ⟨some .dim, text⟩

end Piece

/-- The ways of writing companions. -/
structure Layout where
  /-- Whether a comment says that the class is generated. -/
  header : Bool
  /-- One level of indentation. -/
  indent : String
  palette : Palette
deriving DecidableEq, Repr

/-- With the comment, two spaces and no colors. -/
def Layout.default : Layout :=
  ⟨true, "  ", .plain⟩

/-- A line of generated text. -/
structure Line where
  /-- The levels of indentation. -/
  depth : Nat
  pieces : List Piece
deriving DecidableEq, Repr

namespace Line

/-- A line without text. -/
def blank : Line := ⟨0, []⟩

/-- The line with its indentation and its line feed. -/
def render (l : Layout) (line : Line) : String :=
  String.join (List.replicate line.depth l.indent)
    ++ Piece.allPainted l.palette line.pieces ++ "\n"

end Line

/-! ### One companion -/

namespace Assignment

/-- The pieces of the statement. -/
def pieces (a : Assignment) : List Piece := [
  .plain (a.target ++ "." ++ a.field ++ " = ("), .type a.type,
  .plain (")(" ++ a.target ++ ".findViewById("), ⟨some .literal, toString a.id.toInt⟩,
  .plain "));"]

/-- The statement. -/
def render (p : Palette) (a : Assignment) : String :=
  Piece.allPainted p a.pieces

end Assignment

namespace Companion

/-- The comment that stands above every generated class. -/
def headerText : String := "// Generated by viewbind. Do not edit."

/-- The comment, if the layout wants it. -/
def headerLines (l : Layout) : List Line :=
  if l.header then [⟨0, [.comment headerText]⟩] else []

/-- The declaration of the package, unless it is the default package. -/
def packageLines (c : Companion) : List Line :=
  if c.package = "" then []
  else [⟨0, [.keyword "package", .plain (" " ++ c.package ++ ";")]⟩, .blank]

/-- The imports, if there are any. -/
def importLines (c : Companion) : List Line :=
  match c.imports with
  | [] => []
  | imports =>
    imports.map (fun name => ⟨0, [.keyword "import", .plain (" " ++ name ++ ".*;")]⟩)
      ++ [.blank]

/-- The class. -/
def classLines (c : Companion) : List Line :=
  [⟨0, [.keyword "public class", .plain " ", .type c.name, .plain " \x7b"]⟩,
    ⟨1, [.keyword "public static void", .plain (" " ++ c.method.name ++ "("),
      .type c.method.parameter.type, .plain (" " ++ c.method.parameter.name ++ ") \x7b")]⟩]
  ++ c.method.statements.map (fun a => ⟨2, a.pieces⟩)
  ++ [⟨1, [.plain "\x7d"]⟩, ⟨0, [.plain "\x7d"]⟩]

/-- All lines of a companion. -/
def lines (l : Layout) (c : Companion) : List Line :=
  headerLines l ++ c.packageLines ++ c.importLines ++ c.classLines

/-- The text of a companion. -/
def render (l : Layout) (c : Companion) : String :=
  String.join ((c.lines l).map (Line.render l))

/-! ### Several companions -/

/-- The comment with the path of a companion, and the companion below it. -/
def listed (l : Layout) (c : Companion) : String :=
  l.palette.paint .dim ("// ==> " ++ c.path.text) ++ "\n" ++ c.render l

/-- The companions, each under its path, with an empty line between each two neighbours. -/
def listing (l : Layout) (companions : List Companion) : String :=
  "\n".intercalate (companions.map (listed l))

end Companion

end ViewBinding
