import ViewBinding.Text.Dotted

/-!
# Names of Java

The names that the generated classes may use: identifiers made of ASCII letters, digits, `_` and
`$` that are not reserved words (`ViewBinding.Java.isIdentifier`), and package names, which are
either empty – the default package – or dotted identifiers
(`ViewBinding.Java.isPackageName`).
-/

namespace ViewBinding.Java

open Text

/-- The words that no name may use: the keywords, the lone underscore, and the literals. -/
def reservedWords : List String := [
  "abstract", "assert", "boolean", "break", "byte", "case", "catch", "char", "class", "const",
  "continue", "default", "do", "double", "else", "enum", "extends", "final", "finally", "float",
  "for", "goto", "if", "implements", "import", "instanceof", "int", "interface", "long", "native",
  "new", "package", "private", "protected", "public", "return", "short", "static", "strictfp",
  "super", "switch", "synchronized", "this", "throw", "throws", "transient", "try", "void",
  "volatile", "while", "_", "true", "false", "null"]

/-- Whether the text is a reserved word. -/
def isReserved (s : String) : Bool :=
  reservedWords.contains s

/-- Whether an identifier may start with `c`. -/
def isNameStart (c : Char) : Bool :=
  c.isAlpha || c == '_' || c == '$'

/-- Whether `c` may follow in an identifier. -/
def isNamePart (c : Char) : Bool :=
  c.isAlphanum || c == '_' || c == '$'

/-- Whether the characters spell an identifier, reserved or not. -/
def isSpelledName : List Char → Bool
  | [] => false
  | c :: cs => isNameStart c && cs.all isNamePart

/-- Whether the text is an identifier. -/
def isIdentifier (s : String) : Bool :=
  isSpelledName s.toList && !isReserved s

/-- Whether the text names a package; the empty text names the default package. -/
def isPackageName (s : String) : Bool :=
  s == "" || (segments s).all isIdentifier

theorem isNamePart_of_isNameStart {c : Char} (h : isNameStart c = true) :
    isNamePart c = true := by
  simp only [isNameStart, isNamePart, Char.isAlphanum, Bool.or_eq_true] at *
  rcases h with (h | h) | h <;> simp [h]

end ViewBinding.Java
