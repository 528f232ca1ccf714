import ViewBinding.Json
import ViewBinding.Text.Extent

/-!
# Reading JSON

`ViewBinding.Json.readPrefix` reads one JSON value from the start of a text and
`ViewBinding.Json.readEnd` checks that nothing but white space follows. Each says where and why a
text cannot be read: a `ViewBinding.Json.Fault` has a cause and the number of bytes up to and with
the one at which reading stopped, which `ViewBinding.Json.position` turns into a line and a
column.

Values may be nested 127 deep. A number that is too large for a floating-point number of 64 bits
is a fault, although its value is not kept.
-/

namespace ViewBinding.Json

open Text

/-! ### Faults -/

/-- Why a text cannot be read. -/
inductive Cause
  | endInValue
  | endInArray
  | endInObject
  | endInString
  | noValue
  | noIdent
  | noColon
  | noArrayCommaOrEnd
  | noObjectCommaOrEnd
  | keyNotString
  | trailingComma
  | trailingCharacters
  | invalidNumber
  | numberTooLarge
  | invalidEscape
  | controlCharacter
  | loneSurrogate
  | unpairedSurrogate
  | tooDeep
deriving DecidableEq, Repr

/-- The wording of a cause. -/
def Cause.message : Cause → String
  | endInValue => "EOF while parsing a value"
  | endInArray => "EOF while parsing a list"
  | endInObject => "EOF while parsing an object"
  | endInString => "EOF while parsing a string"
  | noValue => "expected value"
  | noIdent => "expected ident"
  | noColon => "expected `:`"
  | noArrayCommaOrEnd => "expected `,` or `]`"
  | noObjectCommaOrEnd => "expected `,` or `\x7d`"
  | keyNotString => "key must be a string"
  | trailingComma => "trailing comma"
  | trailingCharacters => "trailing characters"
  | invalidNumber => "invalid number"
  | numberTooLarge => "number out of range"
  | invalidEscape => "invalid escape"
  | controlCharacter => "control character (\\u0000-\\u001F) found while parsing a string"
  | loneSurrogate => "lone leading surrogate in hex escape"
  | unpairedSurrogate => "unexpected end of hex escape"
  | tooDeep => "recursion limit exceeded"

/-- Why and where a text cannot be read. -/
structure Fault where
  cause : Cause
  /-- The bytes up to and with the last one looked at. -/
  index : Nat
deriving DecidableEq, Repr

/-- The line and the column, counted in bytes, that `index` bytes of a text lead to. -/
def position (index : Nat) (line column : Nat) : List Char → Nat × Nat
  | [] => (line, column)
  | c :: cs =>
    if index = 0 then (line, column)
    else if c = '\n' then position (index - 1) (line + 1) 0 cs
    else
      let size := min index c.utf8Size
      position (index - size) line (column + size) cs

/-- The wording of a fault in a text. -/
def Fault.message (text : String) (f : Fault) : String :=
  let (line, column) := position f.index 1 0 text.toList
  f.cause.message ++ " at line " ++ toString line ++ " column " ++ toString column

/-! ### Reading characters -/

/-- What is left of a text, and the number of bytes before it. -/
structure Cursor where
  rest : List Char
  index : Nat
deriving DecidableEq, Repr

namespace Cursor

/-- The fault at what has been read. -/
def fault {α : Type} (c : Cursor) (cause : Cause) : Except Fault α :=
  .error ⟨cause, c.index⟩

/-- The fault at the first byte of the next character. -/
def faultAhead {α : Type} (c : Cursor) (cause : Cause) : Except Fault α :=
  .error ⟨cause, if c.rest.isEmpty then c.index else c.index + 1⟩

/-- The cursor behind the next character. -/
def next (c : Cursor) : Cursor :=
  match c.rest with
  | [] => c
  | d :: rest => ⟨rest, c.index + d.utf8Size⟩

/-- The cursor behind white space. -/
def skipBlank (c : Cursor) : Cursor :=
  let blank := c.rest.takeWhile fun d => d == ' ' || d == '\n' || d == '\t' || d == '\r'
  ⟨c.rest.drop blank.length, c.index + blank.length⟩

/-- The digits ahead, and the cursor behind them. -/
def digits (c : Cursor) : List Char × Cursor :=
  let ds := c.rest.takeWhile Char.isDigit
  (ds, ⟨c.rest.drop ds.length, c.index + ds.length⟩)

end Cursor

/-- Reads the rest of a word, given what it has to be. -/
def readWord (value : Json) : List Char → Cursor → Except Fault (Json × Cursor)
  | [], c => .ok (value, c)
  | expected :: more, c =>
    match c.rest with
    | [] => c.fault .endInValue
    | d :: _ => if d = expected then readWord value more c.next else c.faultAhead .noIdent

/-! ### Numbers -/

/-- The largest unsigned number of 64 bits. -/
def maxWord : Nat := UInt64.size - 1

/-- The value of a digit. -/
def digitValue (c : Char) : Nat :=
  c.toNat - '0'.toNat

/-- The number rounded to 53 significant bits, a half to the even neighbour. -/
def round53 (n : Nat) : Nat :=
  let drop := Nat.log2 n - 52
  if n < Nat.pow 2 53 then n
  else
    let unit := Nat.pow 2 drop
    let low := n % unit
    let down := n / unit
    let up := if 2 * low > unit || (2 * low == unit && down % 2 == 1) then down + 1 else down
    up * unit

/-- Whether `significand` times a power of ten is too large for a floating-point number. -/
def overflows (significand : Nat) (exponent : Int) : Bool :=
  significand ≠ 0 && exponent ≥ 0
    && (exponent > 308
      || round53 significand * round53 (Nat.pow 10 exponent.toNat)
        ≥ Nat.pow 2 1024 - Nat.pow 2 970)

/-- The outcome of a number with a fraction or an exponent, read up to the cursor. -/
def finishReal (c : Cursor) (significand : Nat) (exponent : Int) :
    Except Fault (Json × Cursor) :=
  if overflows significand exponent then c.fault .numberTooLarge else .ok (.real, c)

/-- The exponent that digits add up to, or the number of digits read when it exceeds the largest
signed number of 32 bits. -/
def exponentOf (value read : Nat) : List Char → Except Nat Nat
  | [] => .ok value
  | d :: ds =>
    let value := value * 10 + digitValue d
    if value > 0x7FFFFFFF then .error (read + 1) else exponentOf value (read + 1) ds

/-- Reads an exponent, the cursor being at its letter. -/
def readExponent (significand : Nat) (exponent : Int) (c : Cursor) :
    Except Fault (Json × Cursor) :=
  let c := c.next
  let (negative, c) :=
    match c.rest with
    | '-' :: _ => (true, c.next)
    | '+' :: _ => (false, c.next)
    | _ => (false, c)
  match c.rest with
  | [] => c.fault .endInValue
  | d :: _ =>
    if !d.isDigit then c.faultAhead .invalidNumber
    else
      let (ds, behind) := c.digits
      match exponentOf 0 0 ds with
      | .ok value =>
        finishReal behind significand (if negative then exponent - value else exponent + value)
      | .error read =>
        if significand ≠ 0 && !negative then .error ⟨.numberTooLarge, c.index + read⟩
        else .ok (.real, behind)

/-- Reads an exponent if there is one. -/
def readRest (significand : Nat) (exponent : Int) (c : Cursor) : Except Fault (Json × Cursor) :=
  match c.rest with
  | 'e' :: _ | 'E' :: _ => readExponent significand exponent c
  | _ => finishReal c significand exponent

/-- The significand with the digits added as long as 64 bits suffice, and how many were. -/
def significandOf (significand count : Nat) : List Char → Nat × Nat
  | [] => (significand, count)
  | d :: ds =>
    let n := significand * 10 + digitValue d
    if n > maxWord then (significand, count) else significandOf n (count + 1) ds

/-- Reads a fraction, the cursor being at its point. -/
def readFraction (significand : Nat) (exponent : Int) (c : Cursor) :
    Except Fault (Json × Cursor) :=
  let c := c.next
  let (ds, behind) := c.digits
  match ds with
  | [] => c.faultAhead (if c.rest.isEmpty then .endInValue else .invalidNumber)
  | _ =>
    let (significand, count) := significandOf significand 0 ds
    readRest significand (exponent - count) behind

/-- Reads what follows the digits of a number whose significand is exact. -/
def readNumberEnd (negative : Bool) (significand : Nat) (c : Cursor) :
    Except Fault (Json × Cursor) :=
  match c.rest with
  | '.' :: _ => readFraction significand 0 c
  | 'e' :: _ | 'E' :: _ => readExponent significand 0 c
  | _ =>
    if !negative then .ok (.int significand, c)
    else if significand = 0 || significand > 0x8000000000000000 then .ok (.real, c)
    else .ok (.int (-significand), c)

/-- Reads a number after its sign. -/
def readNumber (negative : Bool) (c : Cursor) : Except Fault (Json × Cursor) :=
  match c.rest with
  | [] => c.fault .endInValue
  | '0' :: more =>
    match more with
    | d :: _ =>
      if d.isDigit then c.next.faultAhead .invalidNumber else readNumberEnd negative 0 c.next
    | [] => readNumberEnd negative 0 c.next
  | d :: _ =>
    if !d.isDigit then c.faultAhead .invalidNumber
    else
      let (ds, behind) := c.digits
      let (significand, count) := significandOf 0 0 ds
      if count = ds.length then readNumberEnd negative significand behind
      else
        let exponent : Int := ds.length - count
        match behind.rest with
        | '.' :: _ => readFraction significand exponent behind
        | _ => readRest significand exponent behind

/-! ### Strings -/

/-- The value of a hexadecimal digit. -/
def hexValue? (c : Char) : Option Nat :=
  if c.isDigit then some (digitValue c)
  else if 'a' ≤ c && c ≤ 'f' then some (c.toNat - 'a'.toNat + 10)
  else if 'A' ≤ c && c ≤ 'F' then some (c.toNat - 'A'.toNat + 10)
  else none

/-- Reads four hexadecimal digits. -/
def readHex (c : Cursor) : Except Fault (Nat × Cursor) :=
  if byteLength c.rest < 4 then .error ⟨.endInString, c.index + byteLength c.rest⟩
  else
    match (c.rest.take 4).mapM hexValue? with
    | some [a, b, d, e] =>
      .ok (((a * 16 + b) * 16 + d) * 16 + e, ⟨c.rest.drop 4, c.index + 4⟩)
    | _ => .error ⟨.invalidEscape, c.index + 4⟩

/-- Reads the second half of a pair of surrogates, given the first. -/
def readLowSurrogate (high : Nat) (c : Cursor) : Except Fault (Char × Cursor) :=
  match c.rest with
  | [] => c.fault .endInString
  | '\\' :: [] => c.next.fault .endInString
  | '\\' :: 'u' :: _ => do
    let (low, c) ← readHex c.next.next
    if low < 0xDC00 || low > 0xDFFF then c.fault .loneSurrogate
    else .ok (Char.ofNat ((high - 0xD800) * 0x400 + (low - 0xDC00) + 0x10000), c)
  | '\\' :: d :: _ => .error ⟨.unpairedSurrogate, c.index + 1 + min 1 d.utf8Size⟩
  | _ :: _ => .error ⟨.unpairedSurrogate, c.index + 1⟩

/-- Reads a character after a backslash. -/
def readEscape (c : Cursor) : Except Fault (Char × Cursor) :=
  match c.rest with
  | [] => c.fault .endInString
  | '"' :: _ => .ok ('"', c.next)
  | '\\' :: _ => .ok ('\\', c.next)
  | '/' :: _ => .ok ('/', c.next)
  | 'b' :: _ => .ok ('\x08', c.next)
  | 'f' :: _ => .ok ('\x0c', c.next)
  | 'n' :: _ => .ok ('\n', c.next)
  | 'r' :: _ => .ok ('\r', c.next)
  | 't' :: _ => .ok ('\t', c.next)
  | 'u' :: _ => do
    let (n, c) ← readHex c.next
    if 0xDC00 ≤ n && n ≤ 0xDFFF then c.fault .loneSurrogate
    else if 0xD800 ≤ n && n ≤ 0xDBFF then readLowSurrogate n c
    else .ok (Char.ofNat n, c)
  | _ => .error ⟨.invalidEscape, c.index + 1⟩

/-- Reads a string up to and with its closing quote; `known` is what was read of it, the last
character first. -/
def readString : Nat → List Char → Cursor → Except Fault (String × Cursor)
  | 0, _, c => c.fault .endInString
  | fuel + 1, known, c =>
    match c.rest with
    | [] => c.fault .endInString
    | '"' :: _ => .ok (String.ofList known.reverse, c.next)
    | '\\' :: _ => do
      let (d, c) ← readEscape c.next
      readString fuel (d :: known) c
    | d :: _ =>
      if d.toNat < 0x20 then c.next.fault .controlCharacter
      else readString fuel (d :: known) c.next

/-! ### Values -/

/-- What is still to be read of a value. -/
inductive Pending
  /-- A value. -/
  | value
  /-- The elements of an array from the next on, after at least one or none. -/
  | elements (first : Bool)
  /-- The members of an object from the next on, after at least one or none. -/
  | members (first : Bool)

/-- What comes of it: a value, elements or members. -/
inductive Found
  | value (v : Json)
  | elements (vs : List Json)
  | members (ms : List (String × Json))

/-- The value found. -/
def Found.toValue : Found → Json
  | value v => v
  | elements vs => .array vs
  | members ms => .object ms

/-- The elements found. -/
def Found.toElements : Found → List Json
  | elements vs => vs
  | _ => []

/-- The members found. -/
def Found.toMembers : Found → List (String × Json)
  | members ms => ms
  | _ => []

/-- Reads what is pending, with values nested at most `depth` deep. The fuel bounds the number of
steps, each of which reads a character or ends a list. -/
def read : Nat → Nat → Pending → Cursor → Except Fault (Found × Cursor)
  | 0, _, _, c => c.fault .tooDeep
  | fuel + 1, depth, .value, c =>
    let c := c.skipBlank
    match c.rest with
    | [] => c.faultAhead .endInValue
    | 'n' :: _ => do
      let (v, c) ← readWord .null ['u', 'l', 'l'] c.next
      .ok (.value v, c)
    | 't' :: _ => do
      let (v, c) ← readWord (.bool true) ['r', 'u', 'e'] c.next
      .ok (.value v, c)
    | 'f' :: _ => do
      let (v, c) ← readWord (.bool false) ['a', 'l', 's', 'e'] c.next
      .ok (.value v, c)
    | '-' :: _ => do
      let (v, c) ← readNumber true c.next
      .ok (.value v, c)
    | '"' :: _ => do
      let (s, c) ← readString (c.rest.length + 1) [] c.next
      .ok (.value (.string s), c)
    | '[' :: _ =>
      if depth ≤ 1 then c.faultAhead .tooDeep
      else do
        let (found, c) ← read fuel (depth - 1) (.elements true) c.next
        .ok (.value found.toValue, c)
    | '\x7b' :: _ =>
      if depth ≤ 1 then c.faultAhead .tooDeep
      else do
        let (found, c) ← read fuel (depth - 1) (.members true) c.next
        .ok (.value found.toValue, c)
    | d :: _ =>
      if d.isDigit then do
        let (v, c) ← readNumber false c
        .ok (.value v, c)
      else c.faultAhead .noValue
  | fuel + 1, depth, .elements first, c => do
    let c := c.skipBlank
    let element (c : Cursor) : Except Fault (Found × Cursor) := do
      let (v, c) ← read fuel depth .value c
      let (vs, c) ← read fuel depth (.elements false) c
      .ok (.elements (v.toValue :: vs.toElements), c)
    match c.rest with
    | [] => c.faultAhead .endInArray
    | ']' :: _ => .ok (.elements [], c.next)
    | ',' :: _ =>
      if first then element c
      else
        let c := c.next.skipBlank
        match c.rest with
        | [] => c.faultAhead .endInValue
        | ']' :: _ => c.faultAhead .trailingComma
        | _ => element c
    | _ => if first then element c else c.faultAhead .noArrayCommaOrEnd
  | fuel + 1, depth, .members first, c => do
    let c := c.skipBlank
    let member (c : Cursor) : Except Fault (Found × Cursor) := do
      let (key, c) ← readString (c.rest.length + 1) [] c.next
      let c := c.skipBlank
      match c.rest with
      | [] => c.faultAhead .endInObject
      | ':' :: _ =>
        let (v, c) ← read fuel depth .value c.next
        let (ms, c) ← read fuel depth (.members false) c
        .ok (.members ((key, v.toValue) :: ms.toMembers), c)
      | _ => c.faultAhead .noColon
    match c.rest with
    | [] => c.faultAhead .endInObject
    | '\x7d' :: _ => .ok (.members [], c.next)
    | '"' :: _ => if first then member c else c.faultAhead .noObjectCommaOrEnd
    | ',' :: _ =>
      if first then c.faultAhead .keyNotString
      else
        let c := c.next.skipBlank
        match c.rest with
        | [] => c.faultAhead .endInValue
        | '"' :: _ => member c
        | '\x7d' :: _ => c.faultAhead .trailingComma
        | _ => c.faultAhead .keyNotString
    | _ => c.faultAhead (if first then .keyNotString else .noObjectCommaOrEnd)

/-- How deep values may be nested, and one more. -/
def depthLimit : Nat := 128

/-- Reads a value from the start of a text. -/
def readPrefix (text : String) : Except Fault (Json × Cursor) := do
  let cs := text.toList
  let (found, c) ← read (2 * cs.length + 2) depthLimit .value ⟨cs, 0⟩
  .ok (found.toValue, c)

/-- Checks that only white space is left. -/
def readEnd (c : Cursor) : Except Fault Unit :=
  let c := c.skipBlank
  if c.rest.isEmpty then .ok () else c.faultAhead .trailingCharacters

end ViewBinding.Json
