import ViewBinding.Text.Letter
import ViewBinding.Text.Pattern

/-!
# How Java spells its tokens

The patterns of names, numbers, characters, parts of texts and comments. Underscores may stand
between the digits of a number, one at a time; in a decimal literal without a fraction there may
be several in a row, but only one after the first digit.
-/

namespace ViewBinding.Java.Spelling

open Text Pattern

/-! ### Names -/

/-- Whether a name may start with `c`. -/
def startsName (c : Char) : Bool :=
  isLetter c || c == '_' || c == '$'

/-- Whether `c` may follow in a name. -/
def continuesName (c : Char) : Bool :=
  isLetterExtend c || c == '$' || c == '¢'

/-- A name or a keyword. -/
def name : Pattern :=
  .seq (.one startsName) (.star (.one continuesName))

/-! ### Numbers -/

/-- Whether `c` is a hexadecimal digit. -/
def isHexDigit (c : Char) : Bool :=
  c.isDigit || ('a' ≤ c && c ≤ 'f') || ('A' ≤ c && c ≤ 'F')

/-- Whether `c` is an octal digit. -/
def isOctalDigit (c : Char) : Bool :=
  '0' ≤ c && c ≤ '7'

/-- Whether `c` is a binary digit. -/
def isBinaryDigit (c : Char) : Bool :=
  c == '0' || c == '1'

/-- Digits with single underscores between them. -/
def grouped (digit : Char → Bool) : Pattern :=
  .separated (.plus (.one digit)) (.char '_')

/-- A decimal number without a leading zero. -/
def wholeNumber : Pattern :=
  .alt (.char '0')
    (.seq (.one fun c => '1' ≤ c && c ≤ '9')
      (.optional (.seq (.optional (.char '_'))
        (.separated (.plus (.one Char.isDigit)) (.plus (.char '_'))))))

/-- The suffix of a long literal, or nothing. -/
def longSuffix : Pattern :=
  .optional (.oneOf ['l', 'L'])

/-- The suffix of a literal with a fraction. -/
def realSuffix : Pattern :=
  .oneOf ['f', 'F', 'd', 'D']

/-- An exponent that starts with one of the given letters. -/
def exponent (letters : List Char) (digits : Pattern) : Pattern :=
  .chain [.oneOf letters, .optional (.oneOf ['-', '+']), digits]

/-- Zero and one of two letters. -/
def zeroThen (lower upper : Char) : Pattern :=
  .seq (.char '0') (.oneOf [lower, upper])

/-- The decimal integers. -/
def decimalInteger : Pattern :=
  .seq wholeNumber longSuffix

/-- The hexadecimal integers. -/
def hexInteger : Pattern :=
  .chain [zeroThen 'x' 'X', grouped isHexDigit, longSuffix]

/-- The octal integers. -/
def octalInteger : Pattern :=
  .chain [.alt (zeroThen 'o' 'O') (.char '0'), grouped isOctalDigit, longSuffix]

/-- The binary integers. -/
def binaryInteger : Pattern :=
  .chain [zeroThen 'b' 'B', grouped isBinaryDigit, longSuffix]

/-- The decimal numbers with a fraction, an exponent or a suffix that says so. -/
def decimalReal : Pattern :=
  let digits := grouped Char.isDigit
  let power := exponent ['e', 'E'] digits
  .choice [
    .chain [digits, .char '.', .optional digits, .optional power, .optional realSuffix],
    .chain [.char '.', digits, .optional power, .optional realSuffix],
    .chain [wholeNumber, power, .optional realSuffix],
    .chain [wholeNumber, .optional power, realSuffix]]

/-- The hexadecimal numbers with a fraction or an exponent. -/
def hexReal : Pattern :=
  let digits := grouped isHexDigit
  .chain [zeroThen 'x' 'X',
    .alt (.seq digits (.optional (.char '.'))) (.chain [.optional digits, .char '.', digits]),
    .optional (.seq (exponent ['p', 'P'] wholeNumber) (.optional realSuffix))]

/-! ### Characters and texts -/

/-- A character that is none of those given. The null character never is one. -/
def noneOf (cs : List Char) : Pattern :=
  .one fun c => c ≠ '\x00' && !cs.contains c

/-- A character literal: any number of characters, but at least one. -/
def character : Pattern :=
  .chain [.char '\'',
    .plus (.alt (noneOf ['\\', '\'', '\n']) (.seq (.char '\\') (noneOf []))), .char '\'']

/-- Characters of a text that stand for themselves. -/
def fragment : Pattern :=
  .plus (noneOf ['"', '\\'])

/-- A quote in a text block, with the characters after it that stand for themselves. -/
def quoteFragment : Pattern :=
  .seq (.char '"') (.star (noneOf ['"', '\\']))

/-- A backslash with what it gives another meaning to. -/
def escape : Pattern :=
  let octal := Pattern.one isOctalDigit
  let hex := Pattern.one isHexDigit
  .seq (.char '\\') (.choice [
    noneOf ['x', 'u', '0', '1', '2', '3', '4', '5', '6', '7'],
    .seq octal (.optional (.seq octal (.optional octal))),
    .chain [.char 'x', hex, hex],
    .chain [.char 'u', hex, hex, hex, hex],
    .chain [.char 'u', .char '\x7b', .plus hex, .char '\x7d']])

/-- A backslash with a character to which it gives no other meaning. -/
def strayEscape : Pattern :=
  .seq (.char '\\') (noneOf ['b', 'f', 'n', 'r', 't', 's', '\'', '"', '\\'])

/-! ### Comments -/

/-- A comment up to the end of its line. -/
def lineComment : Pattern :=
  .chain [.char '/', .char '/', .star (noneOf ['\n'])]

/-- A comment between its two marks. -/
def blockComment : Pattern :=
  let stars := Pattern.plus (.char '*')
  let body := Pattern.star (noneOf ['*'])
  .chain [.char '/', .char '*', body, stars,
    .star (.chain [noneOf ['/', '*'], body, stars]), .char '/']

end ViewBinding.Java.Spelling
