import ViewBinding.Java.Spelling
import ViewBinding.Parsing.Rule

/-!
# The kinds of tokens of Java

All kinds of tokens of a Java text, names first. Every keyword and every sign is a kind of its own.
A kind is called as messages call it, which for keywords and signs is how they are spelled.
-/

namespace ViewBinding.Java.Language

open Parsing Text

/-- A kind of tokens with one spelling. -/
def word (name text : String) : Terminal :=
  { name, pattern := .chain (text.toList.map .char), isSpelled := true }

/-- Keywords and signs, each a kind of its own that is called by its spelling. -/
def spelled (texts : List String) : List Terminal :=
  texts.map fun text => word text text

/-- The literals of numbers. -/
def numbers : List Terminal := [
  { name := "decimal_integer_literal", pattern := Spelling.decimalInteger },
  { name := "hex_integer_literal", pattern := Spelling.hexInteger },
  { name := "octal_integer_literal", pattern := Spelling.octalInteger },
  { name := "binary_integer_literal", pattern := Spelling.binaryInteger },
  { name := "decimal_floating_point_literal", pattern := Spelling.decimalReal },
  { name := "hex_floating_point_literal", pattern := Spelling.hexReal }]

/-- The parts of texts. Between the quotes all characters count, white space included. -/
def textParts : List Terminal :=
  spelled ["\"", "\"\"\""] ++ [
    { name := "string_fragment", pattern := Spelling.fragment, isImmediate := true, rank := 1 },
    { name := "block fragment", pattern := Spelling.fragment, isShown := false },
    { name := "block quote", pattern := Spelling.quoteFragment, isShown := false }]
    ++ spelled ["\\\x7b", "\x7d"] ++ [
    { name := "stray escape", pattern := Spelling.strayEscape, isShown := false,
      isImmediate := true },
    { name := "escape_sequence", pattern := Spelling.escape, isImmediate := true }]

/-- The operators and the words that stand in expressions. -/
def expressionSigns : List Terminal :=
  spelled ["(", ")", "&", "=", "+=", "-=", "*=", "/=", "&=", "|=", "^=", "%=", "<<=", ">>=",
    ">>>=", ">", "<", ">=", "<=", "==", "!=", "&&", "||", "+", "-", "*", "/", "|", "^", "%", "<<",
    ">>", ">>>", "instanceof", "final", "->", ",", "?", ":", "!", "~", "++", "--", "new", "[", "]",
    ".", "class", "::", "extends", "switch", "\x7b", "case", "default"]
    ++ [word "underscore_pattern" "_"] ++ spelled ["when"]

/-- The words and signs that stand in statements. -/
def statementSigns : List Terminal :=
  spelled [";", "assert", "do", "while", "break", "continue", "return", "yield", "synchronized",
    "throw", "try", "catch", "finally", "if", "else", "for"]

/-- The words and signs that stand in declarations. -/
def declarationSigns : List Terminal :=
  spelled ["@", "open", "module", "requires", "transitive", "static", "exports", "to", "opens",
    "uses", "provides", "with", "package", "import", "enum", "public", "protected", "private",
    "abstract", "strictfp", "native", "transient", "volatile", "sealed", "non-sealed",
    "implements", "permits", "record", "@interface", "interface", "byte", "short", "int", "long",
    "char", "float", "double"]
    ++ [word "boolean_type" "boolean", word "void_type" "void"]
    ++ spelled ["...", "throws", "this", "super"]

/-- Comments. -/
def comments : List Terminal := [
  { name := "line_comment", pattern := Spelling.lineComment },
  { name := "block_comment", pattern := Spelling.blockComment }]

/-- All kinds of tokens. -/
def terminals : List Terminal :=
  [{ name := "identifier", pattern := Spelling.name, isName := true }] ++ numbers
    ++ spelled ["true", "false"]
    ++ [{ name := "character_literal", pattern := Spelling.character }] ++ textParts
    ++ [word "null_literal" "null"] ++ expressionSigns ++ statementSigns ++ declarationSigns
    ++ comments

end ViewBinding.Java.Language
