import ViewBinding.Java.Tree

/-!
# Literals of integers

What a literal of an integer denotes. Underscores are passed over; a literal in base 2, 8 or 16 is
the pattern of 32 bits of an `int`, so that `0xFFFFFFFF` is -1, and one in base 10 is a magnitude,
of which 2147483648 is only reached with a sign in front. A literal with the suffix of a `long` is
no `int` at all.
-/

namespace ViewBinding.Java.IntLiteral

/-- What a literal can come to. -/
inductive Outcome
  /-- An `int`. -/
  | value (v : Int32)
  /-- A literal of a `long`. -/
  | long
  /-- A number that no `int` is. -/
  | tooLarge
deriving DecidableEq, Repr

/-- The value of a digit of any base up to 16. -/
def digit (c : Char) : Nat :=
  if c.isDigit then c.toNat - '0'.toNat
  else if 'a' ≤ c && c ≤ 'f' then c.toNat - 'a'.toNat + 10
  else c.toNat - 'A'.toNat + 10

/-- The number that digits of a base spell. -/
def number (base : Nat) (digits : List Char) : Nat :=
  digits.foldl (fun n c => n * base + digit c) 0

/-- The base of a kind of literals and the characters of a literal after the mark of the base. -/
def basis (kind : Literal) (cs : List Char) : Nat × List Char :=
  match kind, cs with
  | .hex, _ :: _ :: digits => (16, digits)
  | .binary, _ :: _ :: digits => (2, digits)
  | .octal, '0' :: 'o' :: digits => (8, digits)
  | .octal, '0' :: 'O' :: digits => (8, digits)
  | .octal, '0' :: digits => (8, digits)
  | _, _ => (10, cs)

/-- What a literal denotes, with the sign of subtraction in front or without it. -/
def read (kind : Literal) (text : String) (negated : Bool) : Outcome :=
  let cs := text.toList.filter (· ≠ '_')
  if cs.getLast? == some 'l' || cs.getLast? == some 'L' then .long
  else
    let (base, digits) := basis kind cs
    let n := number base digits
    if kind = .decimal then
      let v : Int := if negated then -n else n
      if -2147483648 ≤ v && v ≤ 2147483647 then .value (Int32.ofInt v) else .tooLarge
    else if n < UInt32.size then .value (Int32.ofNat n)
    else .tooLarge

end ViewBinding.Java.IntLiteral
