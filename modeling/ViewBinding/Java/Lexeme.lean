import ViewBinding.Java.Spelling
import ViewBinding.Java.Tree
import ViewBinding.Text.Blank

/-!
# The tokens of plain texts

A Java text is a sequence of tokens with white space and comments between them.
`ViewBinding.Java.tokens?` gives the tokens of a text, if it has only names, keywords, numbers and
signs: literals of characters and texts are not read here.

The sign `>` is always a token of its own, so that the two that close `List<List<View>>` are two
tokens; who reads the tokens puts `>>` together where it is an operator.
-/

namespace ViewBinding.Java

open Text

/-- What a token is. -/
inductive Token.Kind
  | name
  | keyword
  /-- An operator or a separator. -/
  | sign
  | number (kind : Literal)
deriving DecidableEq, Repr, Inhabited

/-- A token with its text and its place. -/
structure Token where
  kind : Token.Kind
  text : String
  extent : Extent
deriving DecidableEq, Repr, Inhabited

namespace Token

/-- Whether `next` follows `t` with nothing between them. -/
def touches (t next : Token) : Bool :=
  t.extent.stop == next.extent.start

/-- Whether the token is the sign or the keyword of that spelling. -/
def spells (t : Token) (text : String) : Bool :=
  (t.kind == .sign || t.kind == .keyword) && t.text == text

end Token

namespace Lexeme

/-- The words that are no names, or not everywhere. -/
def keywords : List String := [
  "_", "abstract", "assert", "boolean", "break", "byte", "case", "catch", "char", "class",
  "continue", "default", "do", "double", "else", "enum", "exports", "extends", "false", "final",
  "finally", "float", "for", "if", "implements", "import", "instanceof", "int", "interface", "long",
  "module", "native", "new", "null", "open", "opens", "package", "permits", "private", "protected",
  "provides", "public", "record", "requires", "return", "sealed", "short", "static", "strictfp",
  "super", "switch", "synchronized", "this", "throw", "throws", "to", "transient", "transitive",
  "true", "try", "uses", "void", "volatile", "when", "while", "with", "yield"]

/-- The signs, a longer one before those that it starts with. -/
def signs : List String := [
  "@interface", "...", "<<=", "->", "::", "++", "--", "&&", "||", "==", "!=", "<=", "+=", "-=",
  "*=", "/=", "&=", "|=", "^=", "%=", "<<", "(", ")", "[", "]", "\x7b", "\x7d", ";", ",", ".",
  "@", "=", "<", ">", "!", "~", "?", ":", "+", "-", "*", "/", "&", "|", "^", "%"]

/-- The literals of numbers, in the order in which matches of one length are preferred. -/
def numbers : List (Literal × Pattern) := [
  (.decimal, Spelling.decimalInteger),
  (.hex, Spelling.hexInteger),
  (.octal, Spelling.octalInteger),
  (.binary, Spelling.binaryInteger),
  (.real, Spelling.decimalReal),
  (.real, Spelling.hexReal)]

/-- The longest number that the text starts with. -/
def number? (cs : List Char) : Option (Literal × Nat) :=
  numbers.foldl (fun best (kind, pattern) =>
    match pattern.longest? cs with
    | none => best
    | some length =>
      match best with
      | none => some (kind, length)
      | some (_, known) => if known < length then some (kind, length) else best) none

/-- The kind and the number of characters of the token that the text starts with. -/
def read? (cs : List Char) : Option (Token.Kind × Nat) :=
  match cs with
  | [] => none
  | c :: rest =>
    if Spelling.startsName c then
      let word := c :: rest.takeWhile Spelling.continuesName
      some (if keywords.contains (String.ofList word) then .keyword else .name, word.length)
    else
      match (if c.isDigit || c == '.' then number? cs else none) with
      | some (kind, length) => some (.number kind, length)
      | none =>
        (signs.find? fun sign => sign.toList.isPrefixOf cs).map fun sign => (.sign, sign.length)

/-- The number of characters of the comment that the text starts with. -/
def comment? (cs : List Char) : Option Nat :=
  if cs.head? = some '/' then
    (Spelling.lineComment.longest? cs).or (Spelling.blockComment.longest? cs)
  else none

/-- The tokens of a text that starts at the byte `start`. Every round reads at least one
character. -/
def readAll : Nat → Nat → List Char → Option (List Token)
  | _, _, [] => some []
  | 0, _, _ => none
  | fuel + 1, start, c :: rest =>
    if isSpace c then readAll fuel (start + c.utf8Size) rest
    else
      let cs := c :: rest
      let next (length : Nat) := start + byteLength (cs.take length)
      match comment? cs, read? cs with
      | some length, _ => readAll fuel (next length) (cs.drop length)
      | none, some (kind, length) =>
        (readAll fuel (next length) (cs.drop length)).map fun tokens =>
          ⟨kind, String.ofList (cs.take length), ⟨start, next length⟩⟩ :: tokens
      | none, none => none

end Lexeme

/-- The tokens of a text. A byte order mark at the start is passed over. -/
def tokens? (text : String) : Option (List Token) :=
  match text.toList with
  | '\uFEFF' :: cs => Lexeme.readAll cs.length 3 cs
  | cs => Lexeme.readAll cs.length 0 cs

end ViewBinding.Java
